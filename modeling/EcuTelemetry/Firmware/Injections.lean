/-
  EcuTelemetry.Firmware.Injections

  Injected faults follow the command history: at every tick a bit of the plant's
  mask is set iff some event has set it, nothing later has cleared it, and its
  time is not over.  The events are those of the received frames, the reboots and
  the schedule.  The schedule's times are finite, which `strtod` does not ask of
  the `--fault` option.
-/

import EcuTelemetry.Firmware.Causes
import EcuTelemetry.Lib.History

namespace EcuTelemetry.Firmware

open Proc

/-! ## Bits -/

def hasBit (flags : UInt32) (i : ℕ) : Bool := flags.toBitVec.getLsbD i

@[simp] theorem hasBit_zero (i : ℕ) : hasBit 0 i = false := BitVec.getLsbD_zero

@[simp] theorem hasBit_and (a b : UInt32) (i : ℕ) :
    hasBit (a &&& b) i = (hasBit a i && hasBit b i) :=
  BitVec.getLsbD_and

@[simp] theorem hasBit_or (a b : UInt32) (i : ℕ) :
    hasBit (a ||| b) i = (hasBit a i || hasBit b i) :=
  BitVec.getLsbD_or

@[simp] theorem hasBit_not (a : UInt32) (i : ℕ) :
    hasBit (~~~a) i = (decide (i < 32) && !hasBit a i) :=
  BitVec.getLsbD_not

theorem hasBit_lt {a : UInt32} {i : ℕ} (h : hasBit a i = true) : i < 32 := BitVec.lt_of_getLsbD h

@[simp] theorem hasBit_all (i : ℕ) : hasBit F_ALL i = decide (i < 8) := by
  have hall : F_ALL.toBitVec = BitVec.ofNat 32 (2 ^ 8 - 1) := rfl
  rw [hasBit, hall, BitVec.getLsbD_ofNat, Nat.testBit_two_pow_sub_one]
  by_cases hi : i < 8
  · simp [hi]
    omega
  · simp [hi]

theorem hasBit_ne_zero {a : UInt32} {i : ℕ} (h : hasBit a i = true) : a ≠ 0 := by
  rintro rfl
  rw [hasBit_zero] at h
  cases h

/-! ## The history of a trace -/

/-- What the injected faults depend on, and the ticks. -/
def Seen.isInjection : Seen → Bool
  | .inject _ _ => true
  | .cleared => true
  | .closed => true
  | .fired _ _ _ => true
  | .tick _ _ => true
  | _ => false

/-- The history of the injected faults, the latest first. -/
def Agent.commands (s : Agent) : List Seen := s.trace.filter Seen.isInjection

/-- The event sets bit `i` and its time is not over at `t`. -/
def Seen.Sets (i : ℕ) (t : ℚ) : Seen → Prop
  | .inject fi t₀ => hasBit (fi.setFlags &&& F_ALL) i = true ∧
      (fi.durationMs = 0 ∨ t < t₀ + fi.durationMs.toNat / 1000)
  | .fired _ f t₀ => hasBit f.flag i = true ∧ (f.durS ≤ 0 ∨ t < t₀ + f.durS)
  | _ => False

/-- The event clears bit `i`. -/
def Seen.Cancels (i : ℕ) : Seen → Prop
  | .inject fi _ => hasBit fi.clearFlags i = true
  | .cleared => True
  | .closed => True
  | _ => False

/-- Some event has set bit `i` for longer than `t`, and no later one has cleared
    it. -/
def Injected (i : ℕ) (t : ℚ) (es : List Seen) : Prop :=
  ∃ later e before, es = later ++ e :: before ∧ e.Sets i t ∧ ∀ e' ∈ later, ¬ e'.Cancels i

/-- The times of the `--fault` entries that have fired since the last tick. -/
def firedSince : List Seen → List ℚ
  | [] => []
  | .tick _ _ :: _ => []
  | .fired _ _ t :: es => t :: firedSince es
  | _ :: es => firedSince es

/-- What an entry says about the injected faults.  The mask of a tick is that of
    the history.  An entry of `--fault` fires once, at the first tick at or after
    its start: the entries due at a tick have fired, those that fire in a tick do
    so at its time, and no earlier tick was late enough. -/
def Follows (faults : List FaultSpec) (startAt : ℚ) (e : Seen) (es : List Seen) : Prop :=
  match e with
  | .tick t mask =>
      (∀ i, hasBit mask i = true ↔ i < 8 ∧ Injected i t es) ∧
      (∀ k f, faults[k]? = some f → f.startS ≤ t - startAt → ∃ t', .fired k f t' ∈ es) ∧
      ∀ t' ∈ firedSince es, t' = t
  | .fired k f t =>
      faults[k]? = some f ∧ f.startS ≤ t - startAt ∧ (∀ f' t', .fired k f' t' ∉ es) ∧
      ∀ t' mask, .tick t' mask ∈ es → t' - startAt < f.startS
  | _ => True

/-- The time of an entry. -/
def Seen.time : Seen → Option ℚ
  | .inject _ t => some t
  | .fired _ _ t => some t
  | .tick t _ => some t
  | _ => none

/-- Nothing before an entry is of a later time. -/
def InOrder (e : Seen) (es : List Seen) : Prop := ∀ t ∈ e.time, ∀ e' ∈ es, ∀ t' ∈ e'.time, t' ≤ t

/-- The newest event decides, unless it says nothing about the injection. -/
theorem injected_cons {i : ℕ} {t : ℚ} {e : Seen} {es : List Seen} :
    Injected i t (e :: es) ↔ e.Sets i t ∨ ¬ e.Cancels i ∧ Injected i t es := by
  constructor
  · rintro ⟨later, e', before, heq, hsets, hlater⟩
    cases later with
    | nil =>
      obtain ⟨rfl, -⟩ := List.cons.inj heq
      exact .inl hsets
    | cons e'' later =>
      obtain ⟨rfl, rfl⟩ := List.cons.inj heq
      obtain ⟨he, hlater⟩ := List.forall_mem_cons.mp hlater
      exact .inr ⟨he, later, e', before, rfl, hsets, hlater⟩
  · rintro (hsets | ⟨he, later, e', before, rfl, hsets, hlater⟩)
    · exact ⟨[], e, es, rfl, hsets, nofun⟩
    · exact ⟨e :: later, e', before, rfl, hsets, List.forall_mem_cons.mpr ⟨he, hlater⟩⟩

theorem not_injected_nil (i : ℕ) (t : ℚ) : ¬ Injected i t [] := by
  rintro ⟨later, e, before, heq, -⟩
  exact List.append_ne_nil_of_right_ne_nil later (List.cons_ne_nil e before) heq.symm

/-! ## The list of injections -/

/-- An injection holds bit `i` at `t`. -/
def Live (i : ℕ) (t : ℚ) (is : List Injection) : Prop :=
  ∃ inj ∈ is, hasBit inj.flags i = true ∧ inj.expired t = false

theorem live_nil (i : ℕ) (t : ℚ) : ¬ Live i t [] := by
  rintro ⟨inj, hinj, -⟩
  exact absurd hinj List.not_mem_nil

theorem live_append {i : ℕ} {t : ℚ} {is is' : List Injection} :
    Live i t (is ++ is') ↔ Live i t is ∨ Live i t is' := by
  simp only [Live, List.mem_append, or_and_right, exists_or]

theorem live_singleton {i : ℕ} {t : ℚ} {inj : Injection} :
    Live i t [inj] ↔ hasBit inj.flags i = true ∧ inj.expired t = false := by
  simp only [Live, List.mem_singleton, exists_eq_left]

/-- A new injection, which has a duration or none. -/
theorem live_new {i : ℕ} {t t₀ d : ℚ} {flags : UInt32} (ht₀ : 0 ≤ t₀) (c : Prop) [Decidable c]
    (hc : c → 0 < d) : Live i t [{ flags, expiresAt := if c then t₀ + d else 0 }] ↔
      hasBit flags i = true ∧ (¬ c ∨ t < t₀ + d) := by
  rw [live_singleton, Injection.expired, decide_eq_false_iff_not]
  refine and_congr_right fun _ => ?_
  dsimp only
  by_cases h : c
  · have hd := hc h
    rw [if_pos h, not_and, not_le]
    constructor
    · exact fun hlt => .inr (hlt (add_pos_of_nonneg_of_pos ht₀ hd))
    · rintro (hno | hlt) _
      · exact absurd h hno
      · exact hlt
  · rw [if_neg h]
    exact ⟨fun _ => .inl h, fun _ hpos => absurd hpos.1 (lt_irrefl 0)⟩

/-- Clearing takes its bits out of every injection. -/
theorem live_clear {i : ℕ} {t : ℚ} {clear : UInt32} {is : List Injection} :
    Live i t
        ((is.map fun inj => { inj with flags := inj.flags &&& ~~~clear }).filter (·.flags ≠ 0)) ↔
      hasBit clear i = false ∧ Live i t is := by
  constructor
  · rintro ⟨inj, hinj, hbit, hexp⟩
    obtain ⟨inj', hinj', rfl⟩ := List.mem_map.mp (List.mem_filter.mp hinj).1
    simp only [hasBit_and, hasBit_not, Bool.and_eq_true, Bool.not_eq_true'] at hbit
    exact ⟨hbit.2.2, inj', hinj', hbit.1, hexp⟩
  · rintro ⟨hclear, inj, hinj, hbit, hexp⟩
    have hkept : hasBit (inj.flags &&& ~~~clear) i = true := by
      simp only [hasBit_and, hasBit_not, Bool.and_eq_true, Bool.not_eq_true', decide_eq_true_eq]
      exact ⟨hbit, hasBit_lt hbit, hclear⟩
    refine ⟨{ inj with flags := inj.flags &&& ~~~clear }, List.mem_filter.mpr ⟨?_, ?_⟩, hkept, hexp⟩
    · exact List.mem_map.mpr ⟨inj, hinj, rfl⟩
    · exact decide_eq_true (hasBit_ne_zero hkept)

/-- The list after a FAULT_INJECT. -/
theorem live_inject {i : ℕ} {t t₀ : ℚ} (ht₀ : 0 ≤ t₀) (fi : FaultInject) (is : List Injection) :
    Live i t (inject fi t₀ is) ↔ (Seen.inject fi t₀).Sets i t ∨
      ¬ (Seen.inject fi t₀).Cancels i ∧ Live i t is := by
  -- first the bits to clear, if there are any
  have hcleared : Live i t (if fi.clearFlags ≠ 0 then
      (is.map fun inj => { inj with flags := inj.flags &&& ~~~fi.clearFlags }).filter (·.flags ≠ 0)
      else is) ↔ ¬ (Seen.inject fi t₀).Cancels i ∧ Live i t is := by
    rw [Seen.Cancels, Bool.not_eq_true]
    split
    · exact live_clear
    · next hzero =>
      rw [not_not.mp hzero, hasBit_zero]
      exact (and_iff_right rfl).symm
  rw [inject]
  dsimp only
  by_cases hset : fi.setFlags ≠ 0
  · rw [if_pos hset, live_append, hcleared, or_comm, Seen.Sets]
    refine or_congr_left ?_
    rw [live_new ht₀ (fi.durationMs ≠ 0), not_not]
    intro hdur
    -- a duration of zero is none, so a set one is positive
    have hpos : 0 < fi.durationMs.toNat := Nat.pos_of_ne_zero fun h0 =>
      hdur (UInt32.toNat_inj.mp h0)
    positivity
  · rw [if_neg hset, hcleared, Seen.Sets, not_not.mp hset]
    simp

/-- What has run out stays so. -/
theorem expired_mono {inj : Injection} {t t' : ℚ} (h : inj.expired t = true) (hle : t ≤ t') :
    inj.expired t' = true := by
  rw [Injection.expired, decide_eq_true_eq] at h ⊢
  exact ⟨h.1, h.2.trans hle⟩

/-- Removing what has expired removes nothing that is live, now or later. -/
theorem live_kept {i : ℕ} {t t' : ℚ} (hle : t ≤ t') (is : List Injection) :
    Live i t' (is.filter fun inj => !inj.expired t) ↔ Live i t' is := by
  constructor
  · rintro ⟨inj, hinj, hbit, hexp⟩
    exact ⟨inj, (List.mem_filter.mp hinj).1, hbit, hexp⟩
  · rintro ⟨inj, hinj, hbit, hexp⟩
    refine ⟨inj, List.mem_filter.mpr ⟨hinj, ?_⟩, hbit, hexp⟩
    rw [Bool.not_eq_true']
    by_contra h
    exact Bool.noConfusion (hexp.symm.trans (expired_mono (Bool.not_eq_false _ ▸ h) hle))

/-- The mask of the injections that have not run out. -/
theorem hasBit_mask (is : List Injection) (i : ℕ) :
    hasBit (injectedMask is) i = true ↔ ∃ inj ∈ is, hasBit inj.flags i = true := by
  have hfold : ∀ (is : List Injection) (m : UInt32),
      hasBit (is.foldl (fun mask inj => mask ||| inj.flags) m) i = true ↔
        hasBit m i = true ∨ ∃ inj ∈ is, hasBit inj.flags i = true := by
    intro is
    induction is with
    | nil => simp
    | cons inj is ih =>
      intro m
      rw [List.foldl_cons, ih, hasBit_or, Bool.or_eq_true, List.exists_mem_cons_iff, or_assoc]
  rw [injectedMask, hfold, hasBit_zero]
  simp

/-! ## What leaves the injections alone -/

/-- The members that the injected faults depend on. -/
def Agent.injView (s : Agent) :
    List FaultSpec × ℚ × List Injection × UInt32 × List Bool × List Seen :=
  (s.opts.faults, s.startAt, s.injections, s.physics.injected, s.cliFaultFired, s.commands)

/-- The injected faults are untouched, and the clock goes on. -/
structure SameInj (s s' : Agent) : Prop where
  view : s'.injView = s.injView
  clock : s.world.Leads s'.world

instance : IsPreorder Agent SameInj where
  refl _ := ⟨rfl, 0, rfl⟩
  trans s _ _ h h' := by
    obtain ⟨k, hk⟩ := h.clock
    obtain ⟨k', hk'⟩ := h'.clock
    refine ⟨h'.view.trans h.view, k' + k, ?_⟩
    rw [hk', hk]
    funext n
    exact congrArg s.world.clock (Nat.add_assoc n k' k)

theorem SameInj.of {s s' : Agent} (hview : s'.injView = s.injView) (hworld : s'.world = s.world) :
    SameInj s s' := ⟨hview, 0, congrArg World.clock hworld⟩

/-- A dropped channel leaves the injections. -/
theorem sameInj_drop (s : Agent) : SameInj s s.drop := by
  refine .of ?_ rfl
  have hcommands : s.drop.commands = s.commands := by
    show (if s.tcpState = .CONNECTED then .lost :: s.trace else s.trace).filter _ = _
    split
    · rfl
    · rfl
  rw [Agent.injView, hcommands]
  rfl

/-- And so does sending. -/
theorem sends_sameInj : Sends SameInj where
  aside _ _ ha := by cases ha <;> exact .of rfl rfl
  world _ _ hw := ⟨rfl, hw⟩
  logged _ _ _ _ := .of rfl rfl
  inLogSink _ _ := .of rfl rfl
  takeSent _ _ := .of rfl rfl
  retry _ _ := .of rfl rfl
  backOff _ := .of rfl rfl
  drop := sameInj_drop
  overflow w s hw _ := by
    have hseq : SameInj s (s.nextSeq.withWorld w) := ⟨rfl, hw⟩
    exact trans_of SameInj hseq (sameInj_drop _)
  push _ _ _ _ _ hw _ _ _ := ⟨rfl, hw⟩

theorem sameInj_handleConfigSet (f : Frame) : Keeps SameInj (handleConfigSet f) := by
  have hack : ∀ v status, Keeps SameInj (sendConfigAck v status) := fun v status s =>
    sends_sameInj.sendFrame_of_push fun ts w hw _ => ⟨rfl, hw⟩
  exact sends_sameInj.within.handleConfigSet
    (fun _ _ hr => by cases hr <;> exact .of rfl rfl) hack f

theorem sameInj_handleFwUpdate (f : Frame) : Keeps SameInj (handleFwUpdate f) :=
  sends_sameInj.within.handleFwUpdate fun _ _ _ _ _ _ =>
    sends_sameInj.within.acceptFwUpdate fun _ _ hw => ⟨rfl, hw⟩

theorem sameInj_completeBoot (t : ℚ) : Keeps SameInj (completeBoot t) := by
  refine sends_sameInj.within.completeBoot (fun _ _ => .of rfl rfl) (fun s => ?_) t
  rw [Agent.install]
  split
  · exact .of rfl rfl
  · exact .of rfl rfl

/-! ## The invariant -/

variable {faults : List FaultSpec} {startAt τ : ℚ} {s s' : Agent}

/-- From `τ` on, the injections are those of the history. -/
structure InjInv (faults : List FaultSpec) (startAt τ : ℚ) (s : Agent) : Prop where
  schedule : s.opts.faults = faults
  start : s.startAt = startAt
  clock : Monotone s.world.clock
  pos : 0 ≤ τ
  now : τ ≤ s.world.clock 0
  masked : ∀ i, hasBit s.physics.injected i = true → i < 8
  held : ∀ i t, τ ≤ t → (Live i t s.injections ↔ Injected i t s.commands)
  length : s.cliFaultFired.length = faults.length
  fired : ∀ k < faults.length,
    s.cliFaultFired.getD k false = true ↔ ∃ f t, .fired k f t ∈ s.commands
  recent : ∀ t ∈ firedSince s.commands, t = τ
  past : ∀ e ∈ s.commands, ∀ t ∈ e.time, t ≤ τ
  order : Throughout InOrder s.commands
  history : Throughout (Follows faults startAt) s.commands

/-- The invariant reads the injections and their history. -/
theorem InjInv.same (h : InjInv faults startAt τ s) (hs : SameInj s s') :
    InjInv faults startAt τ s' := by
  obtain ⟨hview, k, hk⟩ := hs
  simp only [Agent.injView, Prod.mk.injEq] at hview
  obtain ⟨hfaults, hstart, hinj, hmask, hfired, hcommands⟩ := hview
  constructor
  · rw [hfaults]; exact h.schedule
  · rw [hstart]; exact h.start
  · rw [hk]; exact fun m n hmn => h.clock (Nat.add_le_add_right hmn k)
  · exact h.pos
  · rw [hk]; exact h.now.trans (h.clock (Nat.zero_le _))
  · rw [hmask]; exact h.masked
  · rw [hinj, hcommands]; exact h.held
  · rw [hfired]; exact h.length
  · rw [hfired, hcommands]; exact h.fired
  · rw [hcommands]; exact h.recent
  · rw [hcommands]; exact h.past
  · rw [hcommands]; exact h.order
  · rw [hcommands]; exact h.history

/-- An entry of now is the latest one. -/
theorem InjInv.past_cons (h : InjInv faults startAt τ s) {e : Seen} (he : ∀ t ∈ e.time, t = τ) :
    ∀ e' ∈ e :: s.commands, ∀ t ∈ e'.time, t ≤ τ :=
  List.forall_mem_cons.mpr ⟨fun t ht => (he t ht).le, h.past⟩

theorem InjInv.order_cons (h : InjInv faults startAt τ s) {e : Seen} (he : ∀ t ∈ e.time, t = τ) :
    Throughout InOrder (e :: s.commands) :=
  h.order.cons fun t ht e' he' t' ht' => he t ht ▸ h.past e' he' t' ht'

/-- Between two ticks. -/
def InjIdle (faults : List FaultSpec) (startAt : ℚ) (s : Agent) : Prop :=
  (∃ τ, InjInv faults startAt τ s) ∧ firedSince s.commands = []

theorem InjIdle.same (h : InjIdle faults startAt s) (hs : SameInj s s') :
    InjIdle faults startAt s' := by
  obtain ⟨⟨τ, hinv⟩, hrecent⟩ := h
  have hcommands : s'.commands = s.commands := congrArg (fun v => v.2.2.2.2.2) hs.view
  exact ⟨⟨τ, hinv.same hs⟩, hcommands ▸ hrecent⟩

/-- The clock is looked at. -/
theorem now_clock (s : Agent) :
    now s = (.ok (s.world.clock 0), s.withWorld { s.world with clock := s.world.clock.tail }) := rfl

/-- From what the clock says now on. -/
theorem InjIdle.now (h : InjIdle faults startAt s) :
    InjInv faults startAt (s.world.clock 0) (now s).2 ∧ firedSince (now s).2.commands = [] := by
  obtain ⟨⟨τ, hinv⟩, hrecent⟩ := h
  have hsame : SameInj s (Firmware.now s).2 := sends_sameInj.within.now s
  have hnone : firedSince (Firmware.now s).2.commands = [] := hrecent
  refine ⟨{ hinv.same hsame with
    pos := hinv.pos.trans hinv.now
    now := hinv.clock (Nat.zero_le 1)
    held := fun i t ht => (hinv.same hsame).held i t (hinv.now.trans ht)
    recent := fun t ht => ?_
    past := fun e he t ht => ((hinv.same hsame).past e he t ht).trans hinv.now }, hnone⟩
  rw [hnone] at ht
  exact absurd ht List.not_mem_nil

/-! ## Handlers -/

/-- An event that replaces the injections and the mask. -/
theorem InjInv.event {e : Seen} (h : InjInv faults startAt τ s) (hnone : firedSince s.commands = [])
    (hfaults : s'.opts.faults = s.opts.faults) (hstart : s'.startAt = s.startAt)
    (hworld : s'.world = s.world) (hfired : s'.cliFaultFired = s.cliFaultFired)
    (hcommands : s'.commands = e :: s.commands)
    (hmask : ∀ i, hasBit s'.physics.injected i = true → i < 8)
    (he : Follows faults startAt e s.commands)
    (hsince : firedSince (e :: s.commands) = firedSince s.commands)
    (hno : ∀ k f t, e ≠ .fired k f t) (htime : ∀ t ∈ e.time, t = τ)
    (hheld : ∀ i t, τ ≤ t →
      (Live i t s'.injections ↔ e.Sets i t ∨ ¬ e.Cancels i ∧ Live i t s.injections)) :
    InjIdle faults startAt s' := by
  refine ⟨⟨τ, ?_⟩, by rw [hcommands, hsince, hnone]⟩
  constructor
  · rw [hfaults]; exact h.schedule
  · rw [hstart]; exact h.start
  · rw [hworld]; exact h.clock
  · exact h.pos
  · rw [hworld]; exact h.now
  · exact hmask
  -- the one place where the command counts: which bits it sets, which it cancels
  · intro i t ht
    rw [hcommands, injected_cons, hheld i t ht, h.held i t ht]
  · rw [hfired]; exact h.length
  · intro k hk
    rw [hfired, hcommands, h.fired k hk]
    refine exists_congr fun f => exists_congr fun t => ?_
    rw [List.mem_cons]
    exact (or_iff_right fun heq => hno k f t heq.symm).symm
  · rw [hcommands, hsince, hnone]
    exact fun t ht => absurd ht List.not_mem_nil
  · rw [hcommands]
    exact h.past_cons htime
  · rw [hcommands]
    exact h.order_cons htime
  · rw [hcommands]
    exact h.history.cons he

theorem masked_setInjectedFaults (p : Physics) (flags : UInt32) {i : ℕ}
    (h : hasBit (p.setInjectedFaults flags).injected i = true) : i < 8 := by
  have hinjected : (p.setInjectedFaults flags).injected = flags &&& F_ALL := rfl
  rw [hinjected, hasBit_and, hasBit_all, Bool.and_eq_true, decide_eq_true_eq] at h
  exact h.2

/-- A FAULT_INJECT sets its injection anew. -/
theorem injIdle_handleFaultInject (f : Frame) :
    Keeps (Holds (InjIdle faults startAt)) (handleFaultInject f) := by
  intro s h
  have hw := sends_sameInj.within
  rw [handleFaultInject]
  rcases FaultInject.decode f.payload with _ | fi
  · exact h.same ((hw.log _ _ rfl).bind (fun _ => hw.sendFaultAck) s)
  · dsimp only
    obtain ⟨hnow, hnone⟩ := h.now
    rw [bind_run_ok (now_clock s), modify_bind_run]
    have hinject : InjIdle faults startAt ((now s).2.inject fi (s.world.clock 0)) := by
      refine hnow.event (e := .inject fi (s.world.clock 0)) hnone rfl rfl rfl rfl rfl
        (fun i => masked_setInjectedFaults _ _) trivial rfl (fun _ _ _ => by simp)
        (fun t ht => (Option.mem_some.mp ht).symm) fun i t _ => ?_
      exact live_inject hnow.pos fi _
    exact hinject.same
      (Keeps.bind Keeps.get (fun _ => (hw.log _ _ rfl).bind fun _ => hw.sendFaultAck) _)

/-- What empties the list. -/
theorem live_empty {e : Seen} {i : ℕ} {t : ℚ} {is : List Injection} (hsets : ¬ e.Sets i t)
    (hcancels : e.Cancels i) : Live i t [] ↔ e.Sets i t ∨ ¬ e.Cancels i ∧ Live i t is :=
  iff_of_false (live_nil i t) fun h => h.elim hsets fun h => h.1 hcancels

/-- `clear_faults` cancels them all. -/
theorem injIdle_clearFaults : Keeps (Holds (InjIdle faults startAt)) clearFaults := by
  rintro s ⟨⟨τ, h⟩, hnone⟩
  have hw := sends_sameInj.within
  rw [clearFaults, modify_bind_run]
  have hclear : InjIdle faults startAt s.clearInjected :=
    h.event (e := .cleared) hnone rfl rfl rfl rfl rfl
      (fun i => masked_setInjectedFaults _ _) trivial
      rfl (fun _ _ _ => Seen.noConfusion) (fun t ht => absurd ht (Option.not_mem_none t))
      fun i t _ => live_empty id trivial
  exact hclear.same
    (Keeps.bind Keeps.get (fun _ => (hw.log _ _ rfl).bind fun _ => hw.sendFaultAck) _)

/-- A reboot clears the injected faults. -/
theorem injIdle_startReboot (reason : List Byte) (fw : Bool) :
    Keeps (Holds (InjIdle faults startAt)) (startReboot reason fw) := by
  intro s h
  have hw := sends_sameInj.within
  obtain ⟨s', t, w, hs, hleads, heq⟩ := hw.startReboot_run (fun _ _ => .of rfl rfl) reason fw s
  obtain ⟨⟨τ, h⟩, hnone⟩ := h.same hs
  have hquiet : InjIdle faults startAt s'.goQuiet :=
    h.event (e := .closed) hnone rfl rfl rfl rfl rfl
      (fun i => masked_setInjectedFaults s'.physics 0) trivial
      rfl (fun _ _ _ => Seen.noConfusion) (fun t ht => absurd ht (Option.not_mem_none t))
      fun i t _ => live_empty id trivial
  rw [heq]
  exact hquiet.same ⟨rfl, hleads⟩

/-- No other frame touches them. -/
theorem injIdle_handleFrame (f : Frame) :
    Keeps (Holds (InjIdle faults startAt)) (handleFrame f) := by
  have hw : Within (Holds (InjIdle faults startAt)) :=
    sends_sameInj.within.weaken fun _ _ hs h => h.same hs
  have hkeep : ∀ {α : Type} {m : AgentM α}, Keeps SameInj m →
      Keeps (Holds (InjIdle faults startAt)) m := fun hm => hm.weaken fun _ _ hs h => h.same hs
  refine hw.handleFrame (fun _ _ _ h => h.same (.of rfl rfl)) (fun _ h => h.same (.of rfl rfl))
    (fun _ _ _ h => h.same (.of rfl rfl)) ?_
  refine hw.dispatch (hkeep (sameInj_handleConfigSet f)) (hkeep (sameInj_handleFwUpdate f))
    (injIdle_handleFaultInject f) ?_
  rw [handleCmd]
  cases Cmd.decode f.payload with
  | none => exact hw.log _ _ rfl
  | some c =>
    exact Keeps.ite (fun _ => injIdle_startReboot _ _) fun _ =>
      Keeps.ite (fun _ => injIdle_clearFaults) fun _ =>
        Keeps.ite (fun _ => hw.requestHello) fun _ => hw.log _ _ rfl

theorem injIdle_finishOta (t : ℚ) : Keeps (Holds (InjIdle faults startAt)) (finishOta t) := by
  have hw : Within (Holds (InjIdle faults startAt)) :=
    sends_sameInj.within.weaken fun _ _ hs h => h.same hs
  exact hw.finishOta (fun _ _ _ h => h.same (.of rfl rfl)) (fun _ h => h.same (.of rfl rfl))
    injIdle_startReboot t

/-! ## The tick -/

/-- The entry `k` has fired if it is due at `t`. -/
def DueFired (faults : List FaultSpec) (startAt t : ℚ) (k : ℕ) (es : List Seen) : Prop :=
  ∀ f, faults[k]? = some f → f.startS ≤ t - startAt → ∃ t', .fired k f t' ∈ es

/-- An entry fires at the time of the tick. -/
theorem InjInv.fire (h : InjInv faults startAt τ s) {k : ℕ} {f : FaultSpec}
    (hf : faults[k]? = some f)
    (hnot : s.cliFaultFired.getD k false ≠ true) (hdue : f.startS ≤ τ - startAt) :
    InjInv faults startAt τ (s.fire f τ k) := by
  have hk : k < faults.length := (List.getElem?_eq_some_iff.mp hf).1
  have hcommands : (s.fire f τ k).commands = .fired k f τ :: s.commands := rfl
  have hnever : ∀ f' t', Seen.fired k f' t' ∉ s.commands := fun f' t' hmem =>
    hnot ((h.fired k hk).mpr ⟨f', t', hmem⟩)
  constructor
  · exact h.schedule
  · exact h.start
  · exact h.clock
  · exact h.pos
  · exact h.now
  · exact h.masked
  · intro i t ht
    have hnew : Live i t [{ flags := f.flag, expiresAt := if 0 < f.durS then τ + f.durS else 0 }] ↔
        (Seen.fired k f τ).Sets i t := by
      rw [live_new h.pos (0 < f.durS) id, not_lt]
      exact Iff.rfl
    show Live i t (s.injections ++ _) ↔ _
    rw [hcommands, injected_cons, live_append, hnew, h.held i t ht, or_comm]
    exact or_congr_right (and_iff_right id).symm
  · exact (List.length_set).trans h.length
  · intro k' hk'
    show (s.cliFaultFired.set k true).getD k' false = true ↔ _
    rw [hcommands]
    by_cases hkk : k = k'
    · subst hkk
      rw [List.getD_eq_getElem?_getD, List.getElem?_set_self (h.length ▸ hk)]
      exact ⟨fun _ => ⟨f, τ, List.mem_cons_self⟩, fun _ => rfl⟩
    · rw [List.getD_eq_getElem?_getD, List.getElem?_set_ne hkk, ← List.getD_eq_getElem?_getD,
        h.fired k' hk']
      refine exists_congr fun f' => exists_congr fun t' => ?_
      rw [List.mem_cons]
      refine (or_iff_right fun heq => hkk ?_).symm
      injection heq with heq
      exact heq.symm
  · rw [hcommands]
    exact List.forall_mem_cons.mpr ⟨rfl, h.recent⟩
  · exact h.past_cons fun t ht => (Option.mem_some.mp ht).symm
  · exact h.order_cons fun t ht => (Option.mem_some.mp ht).symm
  · rw [hcommands]
    refine h.history.cons ⟨hf, hdue, hnever, fun t' mask hmem => ?_⟩
    -- an earlier tick that was late enough would have fired the entry
    by_contra hlate
    obtain ⟨after, before, heq⟩ := List.append_of_mem hmem
    have htick : Follows faults startAt (.tick t' mask) before := h.history _ _ ⟨after, heq.symm⟩
    obtain ⟨t'', hfired⟩ := htick.2.1 k f hf (not_lt.mp hlate)
    refine hnever f t'' ?_
    rw [heq]
    exact List.mem_append_right _ (List.mem_cons_of_mem _ hfired)

/-- One entry: it fires if it is due and has not fired. -/
theorem injInv_fireFault (k : ℕ) (h : InjInv faults startAt τ s) :
    InjInv faults startAt τ (fireFault τ k s).2 ∧ s.commands <:+ (fireFault τ k s).2.commands ∧
      DueFired faults startAt τ k (fireFault τ k s).2.commands := by
  rw [fireFault, bind_run_ok (get_run s), h.schedule, h.start]
  -- `k` runs over the schedule, so there is a fault
  rcases hf : faults[k]? with _ | f
  · exact ⟨h, List.suffix_refl _, fun f' hf' => absurd (hf.symm.trans hf') (by simp)⟩
  · dsimp only
    have hk : k < faults.length := (List.getElem?_eq_some_iff.mp hf).1
    rw [when]
    split
    · next hfire =>
      -- not fired yet and due: it fires, and the log line changes nothing
      obtain ⟨hnot, hdue⟩ := not_or.mp hfire
      have hfired := h.fire hf hnot (not_lt.mp hdue)
      have hsame := sends_sameInj.within.log .WARN (Printf.str "fault injected (cli): " ++
        faultName f.flag ++ Printf.str " for " ++ Printf.double 1 f.durS ++ Printf.str "s") rfl
        (s.fire f τ k)
      have hcommands : (log .WARN (Printf.str "fault injected (cli): " ++ faultName f.flag ++
          Printf.str " for " ++ Printf.double 1 f.durS ++ Printf.str "s")
            (s.fire f τ k)).2.commands =
          .fired k f τ :: s.commands := congrArg (fun v => v.2.2.2.2.2) hsame.view
      rw [modify_bind_run]
      refine ⟨hfired.same hsame, ?_, fun f' hf' _ => ⟨τ, ?_⟩⟩
      · rw [hcommands]
        exact List.suffix_cons _ _
      · rw [hcommands, ← Option.some.inj (hf.symm.trans hf')]
        exact List.mem_cons_self
    · next hno =>
      refine ⟨h, List.suffix_refl _, fun f' hf' hdue => ?_⟩
      -- fired before, or not due
      rcases not_not.mp hno with hfired | hearly
      · obtain ⟨f'', t', hmem⟩ := (h.fired k hk).mp hfired
        obtain ⟨after, before, heq⟩ := List.append_of_mem hmem
        have hsame : Follows faults startAt (.fired k f'' t') before :=
          h.history _ _ ⟨after, heq.symm⟩
        rw [Option.some.inj (hf'.symm.trans hsame.1)]
        exact ⟨t', hmem⟩
      · rw [Option.some.inj (hf.symm.trans hf')] at hearly
        exact absurd hdue (not_le.mpr hearly)

theorem DueFired.mono {t : ℚ} {k : ℕ} {es es' : List Seen} (h : DueFired faults startAt t k es)
    (hsuf : es <:+ es') : DueFired faults startAt t k es' := fun f hf hdue => by
  obtain ⟨t', hmem⟩ := h f hf hdue
  exact ⟨t', hsuf.subset hmem⟩

/-- After the loop over the entries, those that are due have fired. -/
theorem injInv_fireFaults (ks : List ℕ) (h : InjInv faults startAt τ s) :
    InjInv faults startAt τ (forEach ks (fireFault τ) s).2 ∧
      s.commands <:+ (forEach ks (fireFault τ) s).2.commands ∧
      ∀ k ∈ ks, DueFired faults startAt τ k (forEach ks (fireFault τ) s).2.commands := by
  induction ks generalizing s with
  | nil => exact ⟨h, List.suffix_refl _, nofun⟩
  | cons k ks ih =>
    obtain ⟨hone, hsuf, hdue⟩ := injInv_fireFault k h
    obtain ⟨hrest, hsuf', hdues⟩ := ih hone
    rw [forEach, unit_bind_run]
    exact ⟨hrest, hsuf.trans hsuf', List.forall_mem_cons.mpr ⟨hdue.mono hsuf', hdues⟩⟩

/-- The second loop keeps what has not run out. -/
theorem expireInjections_run (t : ℚ) (is : List Injection) (s : Agent) :
    ∃ s', expireInjections t is s = (.ok (is.filter fun inj => !inj.expired t), s') ∧
      SameInj s s' := by
  induction is generalizing s with
  | nil => exact ⟨s, rfl, refl_of SameInj s⟩
  | cons inj is ih =>
    rw [expireInjections, collect]
    -- an injection that has expired is logged and left out
    by_cases hexp : inj.expired t = true
    · obtain ⟨s', hrun, hsame⟩ := ih (log .INFO
        (Printf.str "fault expired: " ++ faultFlagsToString inj.flags) s).2
      refine ⟨s', ?_, trans_of SameInj (sends_sameInj.within.log _ _ rfl s) hsame⟩
      rw [expireInjections] at hrun
      rw [List.filter_cons_of_neg (by rw [hexp]; exact Bool.false_ne_true), if_pos hexp]
      have hlog : (log .INFO (Printf.str "fault expired: " ++ faultFlagsToString inj.flags) >>=
          fun _ => pure [] : AgentM (List Injection)) s = (.ok [], (log .INFO (Printf.str
            "fault expired: " ++ faultFlagsToString inj.flags) s).2) := by
        rw [unit_bind_run]
        rfl
      rw [bind_run_ok hlog, bind_run_ok hrun]
      rfl
    · obtain ⟨s', hrun, hsame⟩ := ih s
      refine ⟨s', ?_, hsame⟩
      rw [expireInjections] at hrun
      rw [List.filter_cons_of_pos (by rw [Bool.not_eq_true'] ; exact Bool.not_eq_true _ ▸ hexp),
        if_neg hexp, bind_run_ok (pure_run [inj] s), bind_run_ok hrun]
      rfl

theorem InjInv.keep (h : InjInv faults startAt τ s) :
    InjInv faults startAt τ (s.setInjections (s.injections.filter fun inj => !inj.expired τ)) :=
  { h with held := fun i t ht => (live_kept ht s.injections).trans (h.held i t ht) }

theorem InjInv.setMask (h : InjInv faults startAt τ s) (mask : UInt32) :
    InjInv faults startAt τ (s.setMask mask) :=
  { h with masked := fun _ => masked_setInjectedFaults s.physics mask }

/-- The plant gets the mask of the list. -/
theorem injInv_pushMask (h : InjInv faults startAt τ s) (mask : UInt32) (c : Prop) [Decidable c] :
    ∃ s', (when (mask ≠ s.physics.injected) (do
        modify (Agent.setMask mask)
        when c sendFaultAck) s).2 = s' ∧ InjInv faults startAt τ s' ∧
      s'.commands = s.commands ∧ s'.injections = s.injections ∧
      ∀ i, hasBit s'.physics.injected i = true ↔ i < 8 ∧ hasBit mask i = true := by
  rw [when]
  split
  -- the acknowledgement touches no injection
  · have hack : SameInj (s.setMask mask) (when c sendFaultAck (s.setMask mask)).2 :=
      Keeps.when (fun _ => sends_sameInj.within.sendFaultAck) _
    have hview := hack.view
    simp only [Agent.injView, Prod.mk.injEq] at hview
    refine ⟨_, rfl, (h.setMask mask).same hack, hview.2.2.2.2.2, hview.2.2.1, fun i => ?_⟩
    have hinjected : (when c sendFaultAck (s.setMask mask)).2.physics.injected = mask &&& F_ALL :=
      hview.2.2.2.1
    rw [modify_bind_run, hinjected, hasBit_and, hasBit_all, Bool.and_eq_true, decide_eq_true_eq,
      and_comm]
  · next heq =>
    refine ⟨s, rfl, h, rfl, rfl, fun i => ?_⟩
    -- the mask is what it was, and it was masked
    rw [not_not.mp heq]
    exact ⟨fun hbit => ⟨h.masked i hbit, hbit⟩, And.right⟩

/-- The mask of a tick is that of the history. -/
theorem InjInv.tick (h : InjInv faults startAt τ s)
    (hmask : ∀ i, hasBit s.physics.injected i = true ↔
      i < 8 ∧ ∃ inj ∈ s.injections, hasBit inj.flags i = true)
    (hlive : ∀ inj ∈ s.injections, inj.expired τ = false)
    (hdue : ∀ k f, faults[k]? = some f → f.startS ≤ τ - startAt →
      ∃ t', .fired k f t' ∈ s.commands) :
    InjIdle faults startAt (s.noted (.tick τ s.physics.injected)) := by
  have hcommands : (s.noted (.tick τ s.physics.injected)).commands =
      .tick τ s.physics.injected :: s.commands := rfl
  refine ⟨⟨τ, ?_⟩, rfl⟩
  constructor
  · exact h.schedule
  · exact h.start
  · exact h.clock
  · exact h.pos
  · exact h.now
  · exact h.masked
  -- a tick sets no bit and cancels none
  · intro i t ht
    rw [hcommands, injected_cons]
    exact (h.held i t ht).trans
      ⟨fun hi => .inr ⟨nofun, hi⟩, fun hi => hi.elim False.elim And.right⟩
  · exact h.length
  · intro k hk
    rw [hcommands]
    refine (h.fired k hk).trans (exists_congr fun f => exists_congr fun t => ?_)
    rw [List.mem_cons]
    exact (or_iff_right nofun).symm
  · exact fun t ht => absurd ht List.not_mem_nil
  · exact h.past_cons fun t ht => (Option.mem_some.mp ht).symm
  · exact h.order_cons fun t ht => (Option.mem_some.mp ht).symm
  -- the new entry: the mask is that of the commands before it
  · rw [hcommands]
    refine h.history.cons ⟨fun i => ?_, hdue, h.recent⟩
    rw [hmask, ← h.held i τ (le_refl τ)]
    refine and_congr_right fun _ => exists_congr fun inj => and_congr_right fun hinj => ?_
    exact (and_iff_left (hlive inj hinj)).symm

/-- `updateInjections` fires the scheduled faults, then removes what has expired. -/
theorem injIdle_updateInjections :
    Keeps (Holds (InjIdle faults startAt)) (now >>= updateInjections) := by
  intro s h
  obtain ⟨hnow, -⟩ := h.now
  rw [bind_run_ok (now_clock s)]
  change InjInv faults startAt _ (s.withWorld _) at hnow
  generalize s.world.clock 0 = t, s.withWorld { s.world with clock := s.world.clock.tail } =
    s₁ at hnow ⊢
  -- the schedule
  obtain ⟨hfired, -, hdue⟩ := injInv_fireFaults (List.range s₁.opts.faults.length) hnow
  rw [updateInjections, bind_run_ok (get_run s₁), unit_bind_run]
  generalize (forEach (List.range s₁.opts.faults.length) (fireFault t) s₁).2 = s₂ at hfired hdue ⊢
  rw [bind_run_ok (get_run s₂)]
  -- what has run out
  obtain ⟨s₃, hrun, hsame⟩ := expireInjections_run t s₂.injections s₂
  have hview := hsame.view
  simp only [Agent.injView, Prod.mk.injEq] at hview
  rw [bind_run_ok hrun, modify_bind_run, bind_run_ok (get_run _), ← hview.2.2.1]
  have hkept := (hfired.same hsame).keep
  -- the mask
  obtain ⟨s₄, hs₄, hinv, hcommands, hinjections, hmask⟩ := injInv_pushMask hkept
    (injectedMask (s₃.injections.filter fun inj => !inj.expired t))
    ((s₃.injections.filter fun inj => !inj.expired t).length < s₃.injections.length ∧
      s₃.tcpState = .CONNECTED)
  rw [unit_bind_run]
  have hs₄ : (when (injectedMask (s₃.injections.filter fun inj => !inj.expired t) ≠
      (s₃.setInjections (s₃.injections.filter fun inj => !inj.expired t)).physics.injected) (do
        modify (Agent.setMask (injectedMask (s₃.injections.filter fun inj => !inj.expired t)))
        when ((s₃.injections.filter fun inj => !inj.expired t).length < s₃.injections.length ∧
          (s₃.setInjections (s₃.injections.filter fun inj => !inj.expired t)).tcpState = .CONNECTED)
          sendFaultAck)
      (s₃.setInjections (s₃.injections.filter fun inj => !inj.expired t))).2 = s₄ := hs₄
  rw [hs₄, bind_run_ok (get_run s₄)]
  refine hinv.tick (fun i => ?_) (fun inj hinj => ?_) fun k f hf hlate => ?_
  · rw [hmask, hasBit_mask, hinjections]
    rfl
  · rw [hinjections] at hinj
    have hinj : (!inj.expired t) = true := (List.mem_filter.mp hinj).2
    exact Bool.not_eq_true' _ ▸ hinj
  · have hk : k < s₁.opts.faults.length := hnow.schedule ▸ (List.getElem?_eq_some_iff.mp hf).1
    rw [hcommands]
    exact hview.2.2.2.2.2 ▸ hdue k (List.mem_range.mpr hk) f hf hlate

/-! ## Runs -/

/-- One case for each piece of the loop. -/
theorem across_injIdle (faults : List FaultSpec) (startAt : ℚ) :
    Across (Holds (InjIdle faults startAt)) where
  toWithin := sends_sameInj.within.weaken fun _ _ hs h => h.same hs
  tcpFail why s h := h.same (sends_sameInj.tcpFail why s)
  setTcpFd _ _ h := h.same (.of rfl rfl)
  setRx _ _ _ h := h.same (.of rfl rfl)
  goUp s _ _ h := by
    have hup : SameInj s s.goUp := .of rfl rfl
    exact (h.same hup).same (sends_sameInj.within.sendHello _)
  setConnecting _ _ _ h := h.same (.of rfl rfl)
  updateInjections := injIdle_updateInjections
  readSensors p s h := h.same (sends_sameInj.within.readSensors (fun _ _ => .of rfl rfl)
    (fun _ => .of rfl rfl) (fun _ _ => .of rfl rfl) p s)
  noteComputed _ h := h.same (.of rfl rfl)
  checkLocalAlerts s h := h.same (sends_sameInj.checkLocalAlerts (fun _ _ => .of rfl rfl)
    (fun _ _ _ => .of rfl rfl) s)
  sendSample s h := h.same (sends_sameInj.within.counts.sendSample
    (sends_sameInj.within.counts.emitSample fun _ _ _ => .of rfl rfl) s)
  handleFrame f s _ _ := injIdle_handleFrame f s
  finishOta t s _ _ _ _ := injIdle_finishOta t s
  completeBoot t s _ _ h := h.same (sameInj_completeBoot t s)

/-- The start of the run is when the clock is first looked at after the
    constructor. -/
theorem injIdle_start (opts : AgentOptions) (cfg : Config) (sensors : Option SysfsSensors)
    {world : World} (hclock : Monotone world.clock) (hpos : 0 ≤ world.clock 0) :
    InjIdle opts.faults (world.clock 1) (start (.init opts cfg sensors world)).2 := by
  have hw : Within (Holds (InjIdle opts.faults (world.clock 1))) :=
    sends_sameInj.within.weaken fun _ _ hs h => h.same hs
  -- nothing injected, nothing fired, no command yet
  have hstart : InjIdle opts.faults (world.clock 1)
      ((now (Agent.init opts cfg sensors world)).2.startAtTime (world.clock 1)) := by
    refine ⟨⟨0, ?_⟩, rfl⟩
    constructor
    · rfl
    · rfl
    · exact fun m n hmn => hclock (Nat.add_le_add_right hmn 2)
    · exact le_refl 0
    · exact hpos.trans (hclock (Nat.zero_le 2))
    · intro i hbit
      have hzero : hasBit 0 i = true := hbit
      rw [hasBit_zero] at hzero
      cases hzero
    · exact fun i t _ => iff_of_false (live_nil i t) (not_injected_nil i t)
    · exact List.length_replicate
    · intro k hk
      refine iff_of_false (fun hfired => ?_) (fun ⟨f, t, hmem⟩ => absurd hmem List.not_mem_nil)
      have hfalse : (List.replicate opts.faults.length false).getD k false = true := hfired
      rw [List.getD_eq_getElem?_getD, List.getElem?_replicate_of_lt hk] at hfalse
      cases hfalse
    · exact fun t ht => absurd ht List.not_mem_nil
    · exact fun e he => absurd he List.not_mem_nil
    · exact throughout_nil
    · exact throughout_nil
  -- the sockets and the log line that follow inject nothing
  rw [start, bind_run_ok (now_clock _), modify_bind_run]
  exact (hw.update fun _ => .startTimers (world.clock 1)).bind (fun _ =>
    hw.counts.openUdp.bind fun _ => Keeps.bind Keeps.get fun _ => hw.log _ _ (by
      simp only [List.append_assoc]
      rfl)) _ hstart

/-- Injected faults follow the command history, as long as the clock does not run
    backwards.  A run is made of episodes, so a received frame leaves the entry of
    its command, and a tick its mask; the entries are in the order of their times;
    and they say what a tick's mask is. -/
theorem injected_follows_history (opts : AgentOptions) (cfg : Config)
    (sensors : Option SysfsSensors) (world : World) (n : ℕ) (hclock : Monotone world.clock)
    (hpos : 0 ≤ world.clock 0) :
    Episodes (Agent.top opts cfg sensors world n).marks ∧
      Throughout InOrder (Agent.top opts cfg sensors world n).commands ∧
      Throughout (Follows opts.faults (Agent.top opts cfg sensors world n).startAt)
        (Agent.top opts cfg sensors world n).commands := by
  obtain ⟨⟨τ, hinv⟩, -⟩ := (across_injIdle opts.faults (world.clock 1)).top
    (injIdle_start opts cfg sensors hclock hpos) n
  refine ⟨episodes_top opts cfg sensors world n, hinv.order, ?_⟩
  exact hinv.start ▸ hinv.history

/-- OVERTEMP from the start, for ten seconds. -/
def heated : AgentOptions :=
  { deviceId := [0x45], faults := [{ flag := F_OVERTEMP, startS := 0, durS := 10 }] }

def controlFrame (msgType : UInt8) (payload : List Byte) : List Byte :=
  encodeFrame { msgType, deviceId := [0x45], seq := 0, tsMs := 0, fwVersion := 0 } payload

/-- What the backend sends, one frame a call: ENCODER_FAULT, then clear_faults. -/
def faultCommands : List (List Byte) :=
  [controlFrame MsgType.FAULT_INJECT
     (FaultInject.encode { setFlags := F_ENCODER_FAULT, clearFlags := 0, durationMs := 0 }),
   controlFrame MsgType.CMD (Cmd.encode { cmd := CmdCode.CLEAR_FAULTS })]

/-- A second goes by from one look at the clock to the next. -/
def faultWorld : World :=
  { World.idle with
    connect := fun _ => .done, select := fun _ => .ready true false
    recv := fun n => (faultCommands[n]?.map Io.done).toList }

def Seen.mask : Seen → Option UInt32
  | .tick _ mask => some mask
  | _ => none

/-- The masks of the first three ticks, the latest first. -/
theorem injected_follows_history_commands :
    (Agent.top heated {} none faultWorld 3).commands.filterMap Seen.mask =
        [0, F_OVERTEMP ||| F_ENCODER_FAULT, F_OVERTEMP] ∧
      Episodes (Agent.top heated {} none faultWorld 3).marks ∧
      Throughout InOrder (Agent.top heated {} none faultWorld 3).commands ∧
      Throughout (Follows heated.faults (Agent.top heated {} none faultWorld 3).startAt)
        (Agent.top heated {} none faultWorld 3).commands :=
  ⟨by decide +kernel,
    injected_follows_history heated {} none faultWorld 3 (fun _ _ h => Nat.cast_le.mpr h)
      (le_refl 0)⟩

end EcuTelemetry.Firmware
