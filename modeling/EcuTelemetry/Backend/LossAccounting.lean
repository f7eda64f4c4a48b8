/-
  EcuTelemetry.Backend.LossAccounting

  What `seq_gaps` and `loss_pct` say about a link that loses, repeats and
  reorders frames.  The frames are numbered without bound; on the wire a frame
  shows its number modulo `2 ^ 32`, and `note_seq` sees nothing else.

  As long as the link stays within what one wrapped difference can express
  (`Link`), the statistic follows the running maximum across every wrap: each
  frame either raises the maximum and books the numbers skipped, or changes
  nothing.  The skipped numbers telescope, so `seq_gaps` is the span covered
  less the frames that raised the maximum.
-/

import EcuTelemetry.Backend.Stats
import EcuTelemetry.Lib.RunningMax

namespace EcuTelemetry.Backend.DeviceStats

open RunningMax

variable {T : Type}

/-- The arrivals `ns` after a maximum of `m`: none exceeds the current maximum
    by more than `maxGap + 1`, none lies more than `2 ^ 31` below it. -/
def Link (m : ℕ) : List ℕ → Prop
  | [] => True
  | n :: ns => n ≤ m + (maxGap + 1) ∧ m ≤ n + 2 ^ 31 ∧ Link (max m n) ns

instance instDecidableLink (m : ℕ) (ns : List ℕ) : Decidable (Link m ns) :=
  match ns with
  | [] => isTrue trivial
  | n :: ns =>
    have := instDecidableLink (max m n) ns
    inferInstanceAs (Decidable (_ ∧ _ ∧ _))

/-- `seq` of the frame numbered `n`. -/
def wireSeq (n : ℕ) : ℕ := n % 2 ^ 32

/-- A fresh `DeviceStats` after the frames numbered `ns`, in arrival order. -/
def arrive (ns : List ℕ) : DeviceStats T := ({} : DeviceStats T).noteSeqs (ns.map wireSeq)

/-! ## One frame -/

/-- A window entry of a link without restarts: one frame received for at most
    `maxGap + 1` expected. -/
def Counts (e : ℕ × ℕ) : Prop := e.1 = 1 ∧ 1 ≤ e.2 ∧ e.2 ≤ maxGap + 1

/-- The state at a running maximum of `m`: `last_seq` shows it, and the window
    holds the newest frame at least. -/
structure Follows (s : DeviceStats T) (m : ℕ) : Prop where
  lastSeq : s.lastSeq = some (wireSeq m)
  nonempty : s.window.toList ≠ []
  counts : ∀ e ∈ s.window.toList, Counts e

theorem seqDelta_newer {n m : ℕ} (h : m ≤ n) (hn : n ≤ m + (maxGap + 1)) :
    seqDelta (wireSeq n) (wireSeq m) = n - m := by
  unfold seqDelta wireSeq
  unfold maxGap at hn
  omega

/-- Up to `2 ^ 31` behind, the wrapped difference is zero or has its top bit set. -/
theorem seqDelta_older {n m : ℕ} (h : n ≤ m) (hm : m ≤ n + 2 ^ 31) :
    seqDelta (wireSeq n) (wireSeq m) = 0 ∨ seqDelta (wireSeq n) (wireSeq m) > 0x7FFFFFFF := by
  unfold seqDelta wireSeq
  omega

/-- A duplicate or a late frame changes nothing. -/
theorem Follows.noteSeq_late {s : DeviceStats T} {m n : ℕ} (hs : Follows s m) (h : n ≤ m)
    (hm : m ≤ n + 2 ^ 31) : s.noteSeq (wireSeq n) = s :=
  noteSeq_ignored (wireSeq n) hs.lastSeq (seqDelta_older h hm)

/-- A frame above the maximum books the numbers it skips. -/
theorem Follows.noteSeq_above {s : DeviceStats T} {m n : ℕ} (hs : Follows s m) (h : m < n)
    (hn : n ≤ m + (maxGap + 1)) :
    s.noteSeq (wireSeq n) =
      { s with
        seqGaps := s.seqGaps + (n - m - 1)
        window := s.window.append (1, n - m)
        lastSeq := some (wireSeq n) } := by
  have hd := seqDelta_newer h.le hn
  have hgap : n - m ≤ maxGap + 1 := by omega
  have hmax : maxGap = 10000 := rfl
  rw [noteSeq_newer (wireSeq n) hs.lastSeq (by omega) (by omega) (by omega), hd]

theorem counts_append {w : Deque (ℕ × ℕ) lossWindow} {e : ℕ × ℕ}
    (hw : ∀ x ∈ w.toList, Counts x) (he : Counts e) : ∀ x ∈ (w.append e).toList, Counts x := by
  intro x hx
  have hx := List.mem_of_mem_drop (Deque.toList_append w e ▸ hx)
  rcases List.mem_append.mp hx with hx | hx
  · exact hw x hx
  · exact (List.mem_singleton.mp hx) ▸ he

/-- The element just appended is never the one discarded. -/
theorem append_ne_nil (w : Deque (ℕ × ℕ) lossWindow) (e : ℕ × ℕ) : (w.append e).toList ≠ [] := by
  have hpos : 0 < lossWindow := by decide
  rw [Deque.toList_append]
  refine List.ne_nil_of_length_pos ?_
  simp only [List.length_drop, List.length_append, List.length_singleton]
  omega

/-- One frame of the link: the state follows the maximum, and what was booked
    and what the maximum gained differ by one frame when the maximum rose. -/
theorem Follows.step {s : DeviceStats T} {m n : ℕ} (hs : Follows s m)
    (hn : n ≤ m + (maxGap + 1)) (hm : m ≤ n + 2 ^ 31) :
    Follows (s.noteSeq (wireSeq n)) (max m n) ∧
      (s.noteSeq (wireSeq n)).seqGaps + (if m < n then 1 else 0) + m = s.seqGaps + max m n := by
  rcases lt_or_ge m n with h | h
  · rw [hs.noteSeq_above h hn, max_eq_right h.le, if_pos h]
    have hc : Counts (1, n - m) := ⟨rfl, by dsimp only; omega, by dsimp only; omega⟩
    refine ⟨⟨rfl, append_ne_nil _ _, counts_append hs.counts hc⟩, ?_⟩
    dsimp only
    omega
  · rw [hs.noteSeq_late h hm, max_eq_left h, if_neg (not_lt.mpr h)]
    exact ⟨hs, rfl⟩

/-! ## A whole link -/

theorem length_newMaxima_cons (m n : ℕ) (ns : List ℕ) :
    (newMaxima m (n :: ns)).length =
      (if m < n then 1 else 0) + (newMaxima (max m n) ns).length := by
  rcases lt_or_ge m n with h | h
  · rw [newMaxima_cons_lt ns h, max_eq_right h.le, if_pos h, List.length_cons, Nat.add_comm]
  · rw [newMaxima_cons_le ns h, max_eq_left h, if_neg (not_lt.mpr h), Nat.zero_add]

/-- The telescoping sum over the link: gaps booked and new maxima make up what
    the maximum gained. -/
theorem Follows.run {s : DeviceStats T} {m : ℕ} {ns : List ℕ} (hs : Follows s m)
    (hl : Link m ns) :
    Follows (s.noteSeqs (ns.map wireSeq)) (top m ns) ∧
      (s.noteSeqs (ns.map wireSeq)).seqGaps + (newMaxima m ns).length + m =
        s.seqGaps + top m ns := by
  induction ns generalizing s m with
  | nil => exact ⟨hs, rfl⟩
  | cons n ns ih =>
    obtain ⟨hn, hm, hrest⟩ := hl
    obtain ⟨hstep, hsum⟩ := hs.step hn hm
    obtain ⟨hrun, hgaps⟩ := ih hstep hrest
    rw [List.map_cons, noteSeqs_cons, top_cons]
    refine ⟨hrun, ?_⟩
    have hlen := length_newMaxima_cons m n ns
    omega

/-- The first frame sets the maximum and books nothing. -/
theorem arrive_first (n : ℕ) :
    Follows (arrive (T := T) [n]) n ∧ (arrive (T := T) [n]).seqGaps = 0 := by
  have h : arrive (T := T) [n] = noteSeq {} (wireSeq n) := rfl
  rw [h, noteSeq_first (wireSeq n) rfl]
  refine ⟨⟨rfl, append_ne_nil _ _, counts_append ?_ ⟨rfl, le_rfl, by decide⟩⟩, rfl⟩
  intro e he
  cases he

/-- The record follows the numbers on the wire. -/
theorem arrive_follows {n₀ : ℕ} {ns : List ℕ} (hl : Link n₀ ns) :
    Follows (arrive (T := T) (n₀ :: ns)) (top n₀ ns) ∧
      (arrive (T := T) (n₀ :: ns)).seqGaps + (1 + (newMaxima n₀ ns).length) =
        top n₀ ns - n₀ + 1 := by
  obtain ⟨hfirst, hzero⟩ := arrive_first (T := T) n₀
  obtain ⟨hrun, hgaps⟩ := hfirst.run hl
  have hle := le_top n₀ ns
  have hcons : arrive (T := T) (n₀ :: ns) = (arrive [n₀]).noteSeqs (ns.map wireSeq) := rfl
  rw [hcons]
  refine ⟨hrun, ?_⟩
  omega

/-! ## The loss percentage -/

/-- Each entry of the window stands for one frame received. -/
theorem sum_fst_of_counts {w : List (ℕ × ℕ)} (h : ∀ e ∈ w, Counts e) :
    (w.map Prod.fst).sum = w.length := by
  induction w with
  | nil => rfl
  | cons e w ih =>
    obtain ⟨he, hw⟩ := List.forall_mem_cons.mp h
    have h1 := he.1
    rw [List.map_cons, List.sum_cons, ih hw, List.length_cons]
    omega

/-- And for one expected at least, up to the gap that is still counted. -/
theorem sum_snd_of_counts {w : List (ℕ × ℕ)} (h : ∀ e ∈ w, Counts e) :
    w.length ≤ (w.map Prod.snd).sum ∧ (w.map Prod.snd).sum ≤ (maxGap + 1) * w.length := by
  induction w with
  | nil => exact ⟨le_rfl, le_rfl⟩
  | cons e w ih =>
    obtain ⟨⟨-, hlo, hhi⟩, hw⟩ := List.forall_mem_cons.mp h
    obtain ⟨ihlo, ihhi⟩ := ih hw
    simp only [List.map_cons, List.sum_cons, List.length_cons, Nat.mul_succ]
    omega

/-- Every frame of the window was received, so some share of the expected ones
    was: the loss stays below one frame in `maxGap + 1`. -/
theorem lossRatio_bounds {s : DeviceStats T} (hne : s.window.toList ≠ [])
    (hc : ∀ e ∈ s.window.toList, Counts e) :
    0 ≤ s.lossRatio ∧ s.lossRatio ≤ 100 * (1 - 1 / (maxGap + 1)) := by
  have hlen : 0 < s.window.toList.length := List.length_pos_of_ne_nil hne
  have hr : s.received = s.window.toList.length := sum_fst_of_counts hc
  obtain ⟨hlo, hhi⟩ := sum_snd_of_counts hc
  have hlo : s.received ≤ s.expected := hr ▸ hlo
  have hhi : s.expected ≤ (maxGap + 1) * s.received := hr ▸ hhi
  have hpos : (0 : ℚ) < s.expected := by
    have : 0 < s.expected := by omega
    exact_mod_cast this
  -- every frame received stands for `maxGap + 1` expected at most
  have hshare : (1 : ℚ) / (maxGap + 1) ≤ (s.received : ℚ) / s.expected := by
    rw [div_le_div_iff₀ (by positivity) hpos]
    have : (s.expected : ℚ) ≤ (maxGap + 1) * s.received := by exact_mod_cast hhi
    linarith
  have hgap : (1 : ℚ) / (maxGap + 1) ≤ 1 := by
    rw [maxGap]
    norm_num
  unfold lossRatio
  rw [if_neg (by omega)]
  exact ⟨le_max_left _ _, max_le (by linarith) (by linarith)⟩

/-- The loss is a share of what was expected, and something was received. -/
theorem lossPct_bounds {s : DeviceStats T} (hne : s.window.toList ≠ [])
    (hc : ∀ e ∈ s.window.toList, Counts e) : 0 ≤ s.lossPct ∧ s.lossPct < 100 := by
  obtain ⟨h0, h1⟩ := lossRatio_bounds hne hc
  unfold lossPct
  rw [if_neg hne]
  refine ⟨pyRound_nonneg h0 2, ?_⟩
  -- in hundredths of a percent, the nearest integer is at most 9999
  have hr : roundHalfEven (s.lossRatio * 10 ^ 2) ≤ 9999 := by
    apply roundHalfEven_le
    rw [maxGap] at h1
    norm_num at h1 ⊢
    linarith
  have hc : (roundHalfEven (s.lossRatio * 10 ^ 2) : ℚ) ≤ 9999 := by exact_mod_cast hr
  unfold pyRound
  rw [div_lt_iff₀ (by positivity)]
  linarith

/-! ## The accounting -/

/-- Frames `n₀, ns` reach a fresh `DeviceStats` over a link: `last_seq` is the
    maximum, `seq_gaps` the span covered less the frames that raised it, hence
    at least the frames missing and exactly those when none came late; late
    frames and duplicates change nothing, and the loss is a percentage. -/
theorem loss_accounting (n₀ : ℕ) (ns : List ℕ) (hl : Link n₀ ns) :
    let s : DeviceStats T := arrive (n₀ :: ns)
    let m := top n₀ ns
    s.lastSeq = some (m % 2 ^ 32) ∧
      (s.seqGaps : ℤ) = ((m : ℤ) - n₀ + 1) - (1 + (newMaxima n₀ ns).length) ∧
      (missing n₀ ns).card ≤ s.seqGaps ∧
      ((n₀ :: ns).Pairwise (· ≤ ·) → s.seqGaps = (missing n₀ ns).card) ∧
      (∀ n, n ≤ m → m ≤ n + 2 ^ 31 → s.noteSeq (wireSeq n) = s) ∧
      0 ≤ s.lossPct ∧ s.lossPct < 100 := by
  intro s m
  obtain ⟨hf, hgaps⟩ := arrive_follows (T := T) hl
  have hle : n₀ ≤ m := le_top n₀ ns
  have hmissing := card_missing_add_le n₀ ns
  have hgaps : s.seqGaps + (1 + (newMaxima n₀ ns).length) = m - n₀ + 1 := hgaps
  refine ⟨hf.lastSeq, by omega, by omega, fun hs => ?_, fun n => hf.noteSeq_late, ?_⟩
  · have hsorted := card_missing_add_of_sorted hs
    omega
  · exact lossPct_bounds hf.nonempty hf.counts

/-- A link across the wrap: one number lost before it, one frame late after it,
    one repeated. -/
theorem loss_accounting_wrap :
    Link 4294967294 [4294967296, 4294967295, 4294967298, 4294967298] ∧
      let s : DeviceStats ℚ := arrive [4294967294, 4294967296, 4294967295, 4294967298, 4294967298]
      s.lastSeq = some 2 ∧ s.seqGaps = 2 := by
  have hl : Link 4294967294 [4294967296, 4294967295, 4294967298, 4294967298] := by decide
  obtain ⟨hlast, hgaps, -⟩ := loss_accounting (T := ℚ) _ _ hl
  have hgaps : ((arrive (T := ℚ) _).seqGaps : ℤ) = 2 := hgaps
  exact ⟨hl, hlast, by exact_mod_cast hgaps⟩

end EcuTelemetry.Backend.DeviceStats
