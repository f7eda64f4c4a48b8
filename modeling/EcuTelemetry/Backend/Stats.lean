/-
  EcuTelemetry.Backend.Stats

  `DeviceStats` of backend/app/ingest.py: the per-device link counters, the
  sequence-number bookkeeping of `note_seq` and the rolling loss percentage
  over the last `LOSS_WINDOW` telemetry frames.

  `note_seq` decides from one 32-bit wrapped difference whether a frame is a
  duplicate or late, follows a loss, or belongs to a restarted sequence.
-/

import EcuTelemetry.Lib.Deque
import EcuTelemetry.Lib.Rounding
import Mathlib.Algebra.BigOperators.Group.List.Basic
import Mathlib.Tactic.FieldSimp
import Mathlib.Tactic.Linarith
import Mathlib.Tactic.NormNum
import Mathlib.Tactic.Ring

namespace EcuTelemetry.Backend

/-- `LOSS_WINDOW`: telemetry frames considered for the rolling loss. -/
def lossWindow : Nat := 200

/-- A jump of more missing frames than this is taken for a device restart. -/
def maxGap : Nat := 10000

/-- `DeviceStats`, with clock readings in `T`. -/
structure DeviceStats (T : Type) where
  framesRx : Nat := 0
  badCrc : Nat := 0
  seqGaps : Nat := 0
  reconnects : Nat := 0
  lastSeen : Option T := none
  lastSeq : Option Nat := none
  tcpConnected : Bool := false
  online : Bool := false
  /-- `(received, expected)` for each frame of the window, oldest first. -/
  window : Deque (Nat × Nat) lossWindow := Deque.empty
  txSeq : Nat := 0
  transitMs : Option T := none

namespace DeviceStats

variable {T : Type}

/-- `(seq - self.last_seq) & 0xFFFFFFFF` on Python's unbounded integers. -/
def seqDelta (seq last : Nat) : Nat := (((seq : Int) - last) % 2 ^ 32).toNat

/-- `DeviceStats.note_seq`. -/
def noteSeq (s : DeviceStats T) (seq : Nat) : DeviceStats T :=
  match s.lastSeq with
  | some last =>
    let delta := seqDelta seq last
    if delta = 0 ∨ delta > 0x7FFFFFFF then s
    else
      -- a jump of more than `maxGap` is the device resetting its sequence, not loss
      let gap := if delta - 1 > maxGap then 0 else delta - 1
      { s with
        seqGaps := s.seqGaps + gap
        window := s.window.append (1, 1 + gap)
        lastSeq := some seq }
  | none => { s with window := s.window.append (1, 1), lastSeq := some seq }

/-- `sum(e for _, e in self.window)`. -/
def expected (s : DeviceStats T) : Nat := (s.window.toList.map Prod.snd).sum

/-- `sum(r for r, _ in self.window)`. -/
def received (s : DeviceStats T) : Nat := (s.window.toList.map Prod.fst).sum

/-- The argument of `round` in `loss_pct`: the loss over the window in percent,
    before rounding. -/
def lossRatio (s : DeviceStats T) : ℚ :=
  if s.expected = 0 then 0 else max 0 (100 * (1 - (s.received : ℚ) / s.expected))

/-- `DeviceStats.loss_pct`.  Python rounds the binary64 value of the ratio, this
    the ratio itself; the two can differ in the last of the two digits. -/
def lossPct (s : DeviceStats T) : ℚ :=
  if s.window.toList = [] then 0 else pyRound s.lossRatio 2

/-! ## Wrapped differences -/

theorem seqDelta_of_le {seq last : Nat} (h : last ≤ seq) (hs : seq - last < 2 ^ 32) :
    seqDelta seq last = seq - last := by
  unfold seqDelta
  omega

/-- A smaller number looks like one `2 ^ 32` further on. -/
theorem seqDelta_of_gt {seq last : Nat} (h : seq < last) (hl : last < 2 ^ 32) :
    seqDelta seq last = 2 ^ 32 - (last - seq) := by
  unfold seqDelta
  omega

/-! ## The three outcomes of `note_seq` -/

section Outcomes

variable {s : DeviceStats T} {last : Nat}

/-- Duplicates and late frames change nothing. -/
theorem noteSeq_ignored (seq : Nat) (hl : s.lastSeq = some last)
    (h : seqDelta seq last = 0 ∨ seqDelta seq last > 0x7FFFFFFF) : s.noteSeq seq = s := by
  unfold noteSeq
  simp only [hl, if_pos h]

/-- A newer frame extends the window by the frames it covers. -/
theorem noteSeq_newer (seq : Nat) (hl : s.lastSeq = some last) (h0 : seqDelta seq last ≠ 0)
    (h1 : seqDelta seq last ≤ 0x7FFFFFFF) (h2 : seqDelta seq last ≤ maxGap + 1) :
    s.noteSeq seq =
      { s with
        seqGaps := s.seqGaps + (seqDelta seq last - 1)
        window := s.window.append (1, seqDelta seq last)
        lastSeq := some seq } := by
  have hn : ¬ (seqDelta seq last = 0 ∨ seqDelta seq last > 0x7FFFFFFF) := by omega
  have hg : ¬ seqDelta seq last - 1 > maxGap := by omega
  have hd : 1 + (seqDelta seq last - 1) = seqDelta seq last := by omega
  unfold noteSeq
  simp only [hl, if_neg hn, if_neg hg, hd]

/-- A jump past `maxGap` restarts the count at the frame itself. -/
theorem noteSeq_restart (seq : Nat) (hl : s.lastSeq = some last)
    (h1 : seqDelta seq last ≤ 0x7FFFFFFF) (h2 : maxGap + 1 < seqDelta seq last) :
    s.noteSeq seq = { s with window := s.window.append (1, 1), lastSeq := some seq } := by
  have hn : ¬ (seqDelta seq last = 0 ∨ seqDelta seq last > 0x7FFFFFFF) := by omega
  have hg : seqDelta seq last - 1 > maxGap := by omega
  unfold noteSeq
  simp only [hl, if_neg hn, if_pos hg, Nat.add_zero]

theorem noteSeq_first (seq : Nat) (hl : s.lastSeq = none) :
    s.noteSeq seq = { s with window := s.window.append (1, 1), lastSeq := some seq } := by
  unfold noteSeq
  simp only [hl]

end Outcomes

/-- The statistics of a device after its frames `seqs`, in arrival order. -/
def noteSeqs (s : DeviceStats T) (seqs : List Nat) : DeviceStats T := seqs.foldl noteSeq s

@[simp] theorem noteSeqs_nil (s : DeviceStats T) : s.noteSeqs [] = s := rfl

@[simp] theorem noteSeqs_cons (s : DeviceStats T) (n : Nat) (ns : List Nat) :
    s.noteSeqs (n :: ns) = (s.noteSeq n).noteSeqs ns := rfl

/-- The sequence bookkeeping some arrival history of 32-bit sequence numbers
    leads to, with any values in the fields `note_seq` does not touch. -/
def Reachable (s : DeviceStats T) : Prop :=
  ∃ s₀ : DeviceStats T, ∃ seqs : List Nat,
    s₀.lastSeq = none ∧ s₀.window = Deque.empty ∧ (∀ n ∈ seqs, n < 2 ^ 32) ∧
    s = s₀.noteSeqs seqs

/-- `note_seq` takes the number or leaves the record alone. -/
theorem noteSeq_lastSeq (s : DeviceStats T) (n : Nat) :
    (s.noteSeq n).lastSeq = s.lastSeq ∨ (s.noteSeq n).lastSeq = some n := by
  unfold noteSeq
  split
  · dsimp only
    split
    · exact Or.inl rfl
    · exact Or.inr rfl
  · exact Or.inr rfl

/-- The record holds a number of 32 bits. -/
theorem noteSeqs_lastSeq_lt {s : DeviceStats T} {seqs : List Nat} {l : Nat}
    (h0 : ∀ l, s.lastSeq = some l → l < 2 ^ 32) (hs : ∀ n ∈ seqs, n < 2 ^ 32)
    (h : (s.noteSeqs seqs).lastSeq = some l) : l < 2 ^ 32 := by
  induction seqs generalizing s with
  | nil => exact h0 l h
  | cons n ns ih =>
    refine ih (s := s.noteSeq n) ?_ (fun m hm => hs m (List.mem_cons_of_mem _ hm)) h
    intro l' hl'
    rcases s.noteSeq_lastSeq n with hk | hk
    · exact h0 l' (hk ▸ hl')
    · have hn := hs n List.mem_cons_self
      have : l' = n := by rw [hk] at hl'; exact (Option.some.inj hl').symm
      omega

theorem Reachable.lastSeq_lt {s : DeviceStats T} {l : Nat} (h : s.Reachable)
    (hl : s.lastSeq = some l) : l < 2 ^ 32 := by
  obtain ⟨s₀, seqs, h0, -, hs, rfl⟩ := h
  exact noteSeqs_lastSeq_lt (by simp [h0]) hs hl

end DeviceStats

end EcuTelemetry.Backend
