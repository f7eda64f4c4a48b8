/-
  EcuTelemetry.Backend.StatsRestart

  `DeviceStats` across a restart of the agent process.  The restarted agent
  counts its telemetry from 0 again (`udp_seq_` starts at 0); some frames are
  lost, the others arrive in order.

  Whether the statistic follows depends on where the previous run stopped.
  The wrapped difference from `last_seq` to the first new number must be
  larger than a loss can be and smaller than half the sequence space:

    * `last_seq` in the lower half: the new numbers look late and are dropped
      until the new run has counted past the old one;
    * `last_seq` just below `2 ^ 32`: the new run looks like a continuation
      and the wrap is booked as loss;
    * in between: `note_seq` sees the jump and starts over.
-/

import EcuTelemetry.Backend.Stats

namespace EcuTelemetry.Backend.DeviceStats

variable {T : Type}

/-- Consecutive arrivals of one run: in order, with at most `maxGap` frames
    missing in between. -/
def InOrder (x y : Nat) : Prop := x < y ∧ y - x ≤ maxGap + 1

instance : DecidableRel InOrder := fun _ _ => inferInstanceAs (Decidable (_ ∧ _))

/-- The first `LOSS_WINDOW` arrivals of a restarted agent. -/
structure NewRun (a : List Nat) : Prop where
  length_eq : a.length = lossWindow
  first_le : a.headD 0 ≤ maxGap
  inOrder : a.IsChain InOrder

/-- The loss among the frames from the first to the last of the arrivals `a`,
    in percent. -/
def coverLoss (a : List Nat) : ℚ :=
  100 * (1 - (a.length : ℚ) / ((a.getLastD 0 - a.headD 0 + 1 : Nat) : ℚ))

/-- After the arrivals `a`, `last_seq` is the newest of them and `loss_pct` is
    the rounded loss among the frames they cover. -/
def Recovers (s : DeviceStats T) (a : List Nat) : Prop :=
  (s.noteSeqs a).lastSeq = a.getLast? ∧ (s.noteSeqs a).lossRatio = coverLoss a ∧
    (s.noteSeqs a).lossPct = pyRound (coverLoss a) 2

/-- The window entries of in-order arrivals `a` after the frame `x`. -/
def coverage (x : Nat) : List Nat → List (Nat × Nat)
  | [] => []
  | y :: ys => (1, y - x) :: coverage y ys

@[simp] theorem coverage_length (x : Nat) (a : List Nat) : (coverage x a).length = a.length := by
  induction a generalizing x with
  | nil => rfl
  | cons y ys ih => simp [coverage, ih]

@[simp] theorem coverage_sum_fst (x : Nat) (a : List Nat) :
    ((coverage x a).map Prod.fst).sum = a.length := by
  induction a generalizing x with
  | nil => rfl
  | cons y ys ih => simp [coverage, ih]; omega

/-- Numbers in order grow by one at least. -/
theorem getLastD_ge {x : Nat} {a : List Nat} (h : (x :: a).IsChain InOrder) :
    x + a.length ≤ a.getLastD x := by
  induction a generalizing x with
  | nil => simp
  | cons y ys ih =>
    obtain ⟨hxy, hys⟩ := List.isChain_cons_cons.mp h
    have := ih hys
    have := hxy.1
    simp only [List.getLastD_cons, List.length_cons]
    omega

/-- The expected counts telescope. -/
theorem coverage_sum_snd {x : Nat} {a : List Nat} (h : (x :: a).IsChain InOrder) :
    ((coverage x a).map Prod.snd).sum = a.getLastD x - x := by
  induction a generalizing x with
  | nil => simp [coverage]
  | cons y ys ih =>
    obtain ⟨hxy, hys⟩ := List.isChain_cons_cons.mp h
    have hge := getLastD_ge hys
    have := hxy.1
    simp only [coverage, List.map_cons, List.sum_cons, ih hys, List.getLastD_cons]
    omega

/-- A run of in-order arrivals moves `last_seq` to the last and appends the
    frames each one covers. -/
theorem noteSeqs_inOrder {s : DeviceStats T} {x : Nat} {a : List Nat}
    (hl : s.lastSeq = some x) (h : (x :: a).IsChain InOrder) :
    (s.noteSeqs a).lastSeq = some (a.getLastD x) ∧
      (s.noteSeqs a).window = s.window.appendAll (coverage x a) := by
  induction a generalizing s x with
  | nil => exact ⟨hl, rfl⟩
  | cons y ys ih =>
    obtain ⟨⟨hlt, hgap⟩, hys⟩ := List.isChain_cons_cons.mp h
    have hmax : maxGap = 10000 := rfl
    have hd : seqDelta y x = y - x := seqDelta_of_le hlt.le (by omega)
    have hs : s.noteSeq y = _ := noteSeq_newer y hl (by omega) (by omega) (by omega)
    have := ih (s := s.noteSeq y) (by rw [hs]) hys
    simpa only [noteSeqs_cons, coverage, Deque.appendAll_cons, List.getLastD_cons, hs, hd]
      using this

/-! ## One restart, given how the first frame was booked -/

section FirstFrame

variable {s : DeviceStats T} {f e : Nat} {rest : List Nat}

/-- Once a full window of new frames is in, the window holds nothing else. -/
theorem window_of_first (hs : (s.noteSeq f).lastSeq = some f)
    (hw : (s.noteSeq f).window = s.window.append (1, e)) (ha : NewRun (f :: rest)) :
    (s.noteSeqs (f :: rest)).lastSeq = some (rest.getLastD f) ∧
      (s.noteSeqs (f :: rest)).received = lossWindow ∧
      (s.noteSeqs (f :: rest)).expected = e + (rest.getLastD f - f) := by
  obtain ⟨hlast, hwin⟩ := noteSeqs_inOrder hs ha.inOrder
  have hlen : ((1, e) :: coverage f rest).length = lossWindow := by
    simpa using ha.length_eq
  have hall : (s.noteSeqs (f :: rest)).window.toList = (1, e) :: coverage f rest := by
    rw [noteSeqs_cons, hwin, hw, ← Deque.appendAll_cons]
    exact Deque.toList_appendAll_full _ hlen
  refine ⟨hlast, ?_, ?_⟩
  · have := ha.length_eq
    simp only [received, hall, List.map_cons, List.sum_cons, coverage_sum_fst]
    simp only [List.length_cons] at this
    omega
  · simp only [expected, hall, List.map_cons, List.sum_cons, coverage_sum_snd ha.inOrder]

/-- The loss of a new run, by what its first frame has put into the window. -/
theorem lossRatio_of_first (hs : (s.noteSeq f).lastSeq = some f)
    (hw : (s.noteSeq f).window = s.window.append (1, e)) (he : 1 ≤ e) (ha : NewRun (f :: rest)) :
    (s.noteSeqs (f :: rest)).lossRatio =
      100 * (1 - (lossWindow : ℚ) / ((e + (rest.getLastD f - f) : Nat) : ℚ)) := by
  obtain ⟨-, hr, hx⟩ := window_of_first hs hw ha
  have hge := getLastD_ge ha.inOrder
  have hlen := ha.length_eq
  simp only [List.length_cons] at hlen
  have hpos : e + (rest.getLastD f - f) ≠ 0 := by omega
  have hle : (lossWindow : ℚ) ≤ ((e + (rest.getLastD f - f) : Nat) : ℚ) := by
    exact_mod_cast (by omega : lossWindow ≤ e + (rest.getLastD f - f))
  have h0 : (0 : ℚ) < ((e + (rest.getLastD f - f) : Nat) : ℚ) := by
    exact_mod_cast Nat.pos_of_ne_zero hpos
  have hdiv : (lossWindow : ℚ) / ((e + (rest.getLastD f - f) : Nat) : ℚ) ≤ 1 :=
    (div_le_one h0).mpr hle
  rw [lossRatio, hr, hx, if_neg hpos, max_eq_right]
  linarith

/-- The loss is exact precisely when the first frame was booked as covering
    itself alone. -/
theorem lossRatio_eq_coverLoss_iff (hs : (s.noteSeq f).lastSeq = some f)
    (hw : (s.noteSeq f).window = s.window.append (1, e)) (he : 1 ≤ e) (ha : NewRun (f :: rest)) :
    (s.noteSeqs (f :: rest)).lossRatio = coverLoss (f :: rest) ↔ e = 1 := by
  rw [lossRatio_of_first hs hw he ha, coverLoss, ha.length_eq]
  simp only [List.headD_cons, List.getLastD_cons]
  have hlw : (lossWindow : ℚ) ≠ 0 := by norm_num [lossWindow]
  have h1 : ((e + (rest.getLastD f - f) : Nat) : ℚ) ≠ 0 := by
    exact_mod_cast (by omega : e + (rest.getLastD f - f) ≠ 0)
  have h2 : ((rest.getLastD f - f + 1 : Nat) : ℚ) ≠ 0 := by
    exact_mod_cast Nat.succ_ne_zero (rest.getLastD f - f)
  constructor
  · intro h
    have hdiv : (lossWindow : ℚ) / ((e + (rest.getLastD f - f) : Nat) : ℚ) =
        (lossWindow : ℚ) / ((rest.getLastD f - f + 1 : Nat) : ℚ) := by linarith
    rw [div_eq_div_iff h1 h2] at hdiv
    have hcast := mul_left_cancel₀ hlw hdiv
    have : rest.getLastD f - f + 1 = e + (rest.getLastD f - f) := by exact_mod_cast hcast
    omega
  · rintro rfl
    rw [Nat.add_comm 1]

/-- A first frame that is counted as one recovers. -/
theorem recovers_of_first (hs : (s.noteSeq f).lastSeq = some f)
    (hw : (s.noteSeq f).window = s.window.append (1, 1)) (ha : NewRun (f :: rest)) :
    s.Recovers (f :: rest) := by
  obtain ⟨hlast, hr, -⟩ := window_of_first hs hw ha
  have hratio := (lossRatio_eq_coverLoss_iff hs hw le_rfl ha).mpr rfl
  refine ⟨by rw [hlast]; simp [List.getLast?_cons], hratio, ?_⟩
  have hne : (s.noteSeqs (f :: rest)).window.toList ≠ [] := by
    intro h
    rw [received, h] at hr
    exact absurd hr (by decide)
  rw [lossPct, if_neg hne, hratio]

end FirstFrame

/-! ## Which previous runs are recovered from -/

/-- The part of the sequence space from which every restart is recognised. -/
def RestartSeen (s : DeviceStats T) : Prop :=
  ∀ l, s.lastSeq = some l → 2 ^ 31 + maxGap < l ∧ l < 2 ^ 32 - (maxGap + 1)

/-- A restart that is seen recovers. -/
theorem recovers_of_restartSeen {s : DeviceStats T} (h : s.RestartSeen) {a : List Nat}
    (ha : NewRun a) : s.Recovers a := by
  cases a with
  | nil => exact absurd ha.length_eq (by decide)
  | cons f rest =>
    have hmax : maxGap = 10000 := rfl
    have hf : f ≤ maxGap := ha.first_le
    cases hl : s.lastSeq with
    | none =>
      have hn := noteSeq_first f hl
      exact recovers_of_first (by rw [hn]) (by rw [hn]) ha
    | some l =>
      obtain ⟨h1, h2⟩ := h l hl
      have hd : seqDelta f l = _ := seqDelta_of_gt (by omega) (by omega)
      have hn := noteSeq_restart f hl (by omega) (by omega)
      exact recovers_of_first (by rw [hn]) (by rw [hn]) ha

/-! ## Which are not -/

/-- A run without loss, counted from `f`. -/
def solid (f : Nat) : List Nat := List.range' f lossWindow

theorem solid_eq (f : Nat) : solid f = f :: List.range' (f + 1) (lossWindow - 1) := by
  rw [solid, show lossWindow = lossWindow - 1 + 1 from rfl, List.range'_succ]
  rfl

theorem newRun_solid {f : Nat} (h : f ≤ maxGap) : NewRun (solid f) where
  length_eq := by simp [solid]
  first_le := by rwa [solid_eq, List.headD_cons]
  inOrder := by
    refine (List.isChain_range' f lossWindow 1).imp ?_
    rintro a b rfl
    exact ⟨by omega, by omega⟩

/-- Numbers that look late, or like the last one again, leave the statistic as
    it was. -/
theorem noteSeqs_ignored {s : DeviceStats T} {l : Nat} (hl : s.lastSeq = some l) {a : List Nat}
    (h : ∀ n ∈ a, seqDelta n l = 0 ∨ seqDelta n l > 0x7FFFFFFF) : s.noteSeqs a = s := by
  induction a with
  | nil => rfl
  | cons n ns ih =>
    rw [noteSeqs_cons, noteSeq_ignored n hl (h n List.mem_cons_self)]
    exact ih fun m hm => h m (List.mem_cons_of_mem _ hm)

/-- The new run hides behind the old one. -/
theorem not_recovers_of_behind {s : DeviceStats T} {l f : Nat} (hl : s.lastSeq = some l)
    (hlt : l < 2 ^ 32) (h1 : f + lossWindow ≤ l) (h2 : l ≤ 2 ^ 31 + f) :
    ¬ s.Recovers (solid f) := by
  rintro ⟨hlast, -⟩
  have hlw : lossWindow = 200 := rfl
  rw [noteSeqs_ignored hl, hl] at hlast
  · simp only [solid, List.getLast?_range', hlw, if_neg (by omega : ¬ (200 = 0)),
      Option.some.injEq] at hlast
    omega
  · intro n hn
    obtain ⟨k, hk, rfl⟩ := List.mem_range'.mp hn
    have : seqDelta (f + 1 * k) l = _ := seqDelta_of_gt (by omega) hlt
    omega

/-- The first new frame is booked as covering more than itself. -/
theorem not_recovers_of_gap {s : DeviceStats T} {l f : Nat} (hl : s.lastSeq = some l)
    (hf : f ≤ maxGap) (h1 : 2 ≤ seqDelta f l) (h2 : seqDelta f l ≤ maxGap + 1) :
    ¬ s.Recovers (solid f) := by
  rintro ⟨-, hratio, -⟩
  have hmax : maxGap = 10000 := rfl
  have hn := noteSeq_newer f hl (by omega) (by omega) h2
  have hrun := newRun_solid hf
  rw [solid_eq] at hratio hrun
  have := (lossRatio_eq_coverLoss_iff (by rw [hn]) (by rw [hn]) (by omega) hrun).mp hratio
  omega

/-- And only such a restart does, for every new run. -/
theorem restartSeen_of_recovers {s : DeviceStats T} (hr : s.Reachable)
    (h : ∀ a, NewRun a → s.Recovers a) : s.RestartSeen := by
  intro l hl
  have hlt := hr.lastSeq_lt hl
  have hmax : maxGap = 10000 := rfl
  have hlw : lossWindow = 200 := rfl
  by_contra hout
  -- a lossless run that starts at `f` is enough to tell the four bad ranges apart
  have bad : ∀ f, f ≤ maxGap → ¬ s.Recovers (solid f) → False :=
    fun f hf hn => hn (h _ (newRun_solid hf))
  by_cases hsmall : l + 2 ≤ maxGap
  · have hd : seqDelta (l + 2) l = _ := seqDelta_of_le (by omega) (by omega)
    exact bad (l + 2) hsmall (not_recovers_of_gap hl hsmall (by omega) (by omega))
  by_cases hlow : l ≤ 2 ^ 31
  · exact bad 0 (by omega) (not_recovers_of_behind hl hlt (by omega) (by omega))
  by_cases hmid : l ≤ 2 ^ 31 + maxGap
  · exact bad maxGap le_rfl (not_recovers_of_behind hl hlt (by omega) (by omega))
  by_cases htop : l = 2 ^ 32 - 1
  · have hd : seqDelta 1 l = _ := seqDelta_of_gt (by omega) hlt
    exact bad 1 (by omega) (not_recovers_of_gap hl (by omega) (by omega) (by omega))
  · have hd : seqDelta 0 l = _ := seqDelta_of_gt (by omega) hlt
    exact bad 0 (by omega) (not_recovers_of_gap hl (by omega) (by omega) (by omega))

/-- A reachable statistic follows every restart of its device exactly when the
    previous run ended in the range where the jump back is recognised (or no
    frame has been counted since start-up). -/
theorem recovers_iff_restartSeen {s : DeviceStats T} (hr : s.Reachable) :
    (∀ a, NewRun a → s.Recovers a) ↔ s.RestartSeen :=
  ⟨restartSeen_of_recovers hr, fun h _ ha => recovers_of_restartSeen h ha⟩

/-- The statistic of a device whose only frame so far carried the number `n`. -/
def afterFrame (n : Nat) : DeviceStats Nat := ({} : DeviceStats Nat).noteSeqs [n]

theorem reachable_afterFrame {n : Nat} (h : n < 2 ^ 32) : (afterFrame n).Reachable :=
  ⟨{}, [n], rfl, rfl, by simpa using h, rfl⟩

/-- Half way up the sequence space plus a million, a restart is followed. -/
theorem recovers_high_count :
    (afterFrame (2 ^ 31 + 1000000)).Reachable ∧
      ∀ a, NewRun a → (afterFrame (2 ^ 31 + 1000000)).Recovers a := by
  have hr : (afterFrame (2 ^ 31 + 1000000)).Reachable := reachable_afterFrame (by decide)
  refine ⟨hr, (recovers_iff_restartSeen hr).mpr ?_⟩
  rintro l hl
  obtain rfl : 2 ^ 31 + 1000000 = l := Option.some.inj hl
  decide

/-- A device that had counted to a million and starts over without losing a
    frame is still at a million a full window later. -/
theorem not_recovers_low_count :
    (afterFrame 1000000).Reachable ∧ NewRun (solid 0) ∧
      ¬ (afterFrame 1000000).Recovers (solid 0) :=
  ⟨reachable_afterFrame (by decide), newRun_solid (Nat.zero_le _),
    not_recovers_of_behind (l := 1000000) rfl (by decide) (by decide) (by decide)⟩

end EcuTelemetry.Backend.DeviceStats
