/-
  EcuTelemetry.Firmware.SampleFlags

  Flags and state of the samples.  The plant and `readSensors` each derive them
  from the injected, the detected and the comm-degraded bits; a sample goes out
  in the tick that computed it.
-/

import EcuTelemetry.Firmware.LiveSensors

namespace EcuTelemetry.Firmware

open Proc

/-! ## The state machine -/

/-- The flags are those given, and the state follows the flags. -/
structure Telemetry.Follows (t : Telemetry) (flags : UInt32) : Prop where
  faultFlags : t.faultFlags = flags
  fault : t.state = DeviceState.FAULT ↔ t.faultFlags &&& kHardFaults ≠ 0
  degraded : t.state = DeviceState.DEGRADED ↔ t.faultFlags ≠ 0 ∧ t.faultFlags &&& kHardFaults = 0

instance (t : Telemetry) (flags : UInt32) : Decidable (t.Follows flags) :=
  decidable_of_iff (t.faultFlags = flags ∧
      (t.state = DeviceState.FAULT ↔ t.faultFlags &&& kHardFaults ≠ 0) ∧
      (t.state = DeviceState.DEGRADED ↔ t.faultFlags ≠ 0 ∧ t.faultFlags &&& kHardFaults = 0))
    ⟨fun ⟨h₁, h₂, h₃⟩ => ⟨h₁, h₂, h₃⟩, fun ⟨h₁, h₂, h₃⟩ => ⟨h₁, h₂, h₃⟩⟩

namespace FlagSources

def comm (c : FlagSources) : UInt32 := if c.commDegraded then F_COMM_DEGRADED else 0

/-- `injected | detected | comm`. -/
def flags (c : FlagSources) : UInt32 := c.injected ||| c.detected ||| c.comm

/-- The same with the detection of the plant. -/
def plantFlags (c : FlagSources) : UInt32 := c.injected ||| c.plantDetected ||| c.comm

/-- Where a sample follows its sources: always in plant mode.  After a successful
    reading the flags have to be empty or hold a hard fault or the comm-degraded
    bit; after a failed one the plant has to detect what the sensors do. -/
def Met (c : FlagSources) (live : Bool) : Option SensorReading → Prop
  | none => True
  | some r =>
    if live then
      if r.ok then
        c.flags = 0 ∨ c.flags &&& kHardFaults ≠ 0 ∨ c.flags &&& F_COMM_DEGRADED ≠ 0
      else c.plantFlags = c.flags
    else True

theorem met_plant (c : FlagSources) : ∀ r, c.Met false r
  | none => trivial
  | some _ => trivial

end FlagSources

/-- The state as the plant derives it. -/
theorem follows_of_plant {t : Telemetry} {still : Bool}
    (h : t.state = if t.faultFlags &&& kHardFaults ≠ 0 then DeviceState.FAULT
      else if t.faultFlags ≠ 0 then DeviceState.DEGRADED
      else if still then DeviceState.IDLE
      else DeviceState.RUNNING) : t.Follows t.faultFlags := by
  by_cases hhard : t.faultFlags &&& kHardFaults ≠ 0
  · rw [if_pos hhard] at h
    exact ⟨rfl, iff_of_true h hhard, iff_of_false (by rw [h]; decide) fun hd => hhard hd.2⟩
  · rw [if_neg hhard] at h
    by_cases hne : t.faultFlags ≠ 0
    · rw [if_pos hne] at h
      exact ⟨rfl, iff_of_false (by rw [h]; decide) hhard, iff_of_true h ⟨hne, not_not.mp hhard⟩⟩
    · rw [if_neg hne] at h
      have hstate : t.state ≠ DeviceState.FAULT ∧ t.state ≠ DeviceState.DEGRADED := by
        rw [h]
        cases still
        · decide
        · decide
      exact ⟨rfl, iff_of_false hstate.1 hhard, iff_of_false hstate.2 fun hd => hne hd.1⟩

/-- The state as `readSensors` derives it: no state for the flags that are
    neither a hard fault nor the comm-degraded bit. -/
theorem follows_of_measured {t : Telemetry}
    (h : t.state = if t.faultFlags &&& kHardFaults ≠ 0 then DeviceState.FAULT
      else if t.faultFlags &&& F_COMM_DEGRADED ≠ 0 then DeviceState.DEGRADED
      else DeviceState.RUNNING) :
    t.Follows t.faultFlags ↔ t.faultFlags = 0 ∨ t.faultFlags &&& kHardFaults ≠ 0 ∨
      t.faultFlags &&& F_COMM_DEGRADED ≠ 0 := by
  -- the three branches of the state, in their order
  by_cases hhard : t.faultFlags &&& kHardFaults ≠ 0
  · rw [if_pos hhard] at h
    refine iff_of_true ⟨rfl, iff_of_true h hhard, ?_⟩ (.inr (.inl hhard))
    exact iff_of_false (by rw [h]; decide) fun hd => hhard hd.2
  · rw [if_neg hhard] at h
    by_cases hcomm : t.faultFlags &&& F_COMM_DEGRADED ≠ 0
    · rw [if_pos hcomm] at h
      have hne : t.faultFlags ≠ 0 := fun hzero => hcomm (by rw [hzero]; rfl)
      refine iff_of_true ⟨rfl, iff_of_false (by rw [h]; decide) hhard, ?_⟩ (.inr (.inr hcomm))
      exact iff_of_true h ⟨hne, not_not.mp hhard⟩
    · rw [if_neg hcomm] at h
      -- RUNNING is right only for no flags at all
      have hstate : t.state ≠ DeviceState.FAULT ∧ t.state ≠ DeviceState.DEGRADED := by
        rw [h]
        decide
      constructor
      · intro hfollows
        refine .inl (by_contra fun hne => hstate.2 (hfollows.degraded.mpr ⟨hne, not_not.mp hhard⟩))
      · rintro (hzero | h | h)
        · exact ⟨rfl, iff_of_false hstate.1 hhard, iff_of_false hstate.2 fun hd => hd.1 hzero⟩
        · exact absurd h hhard
        · exact absurd h hcomm

/-! ## Bits -/

theorem and_or_left (a b m : UInt32) : (a ||| b) &&& m = a &&& m ||| b &&& m :=
  UInt32.toBitVec_inj.mp BitVec.and_or_distrib_right

theorem or_and_self (a m : UInt32) : a ||| a &&& m = a :=
  UInt32.toBitVec_inj.mp (BitVec.eq_of_getElem_eq fun i hi => by
    rw [UInt32.toBitVec_or, UInt32.toBitVec_and, BitVec.getElem_or, BitVec.getElem_and]
    exact sup_inf_self)

/-- A fold of bits that are not in `m`. -/
theorem bits_and_eq_zero {m : UInt32} (fs : List (Bool × UInt32))
    (h : ∀ b ∈ fs.map Prod.snd, b &&& m = 0) :
    bits fs &&& m = 0 := by
  have hfold : ∀ acc : UInt32, acc &&& m = 0 →
      fs.foldl (fun acc f => if f.1 then acc ||| f.2 else acc) acc &&& m = 0 := by
    induction fs with
    | nil => exact fun acc hacc => hacc
    | cons f fs ih =>
      obtain ⟨hf, hfs⟩ := List.forall_mem_cons.mp h
      intro acc hacc
      refine ih hfs _ ?_
      show (if f.1 then acc ||| f.2 else acc) &&& m = 0
      split
      · rw [and_or_left, hacc, hf]
        rfl
      · exact hacc
  exact hfold 0 UInt32.zero_and

/-- The threshold checks do not detect a degraded channel. -/
theorem detect_comm (p : Physics) : p.detect &&& F_COMM_DEGRADED = 0 := by
  refine bits_and_eq_zero _ ?_
  show ∀ b ∈ [F_OVERTEMP, F_OVERCURRENT, F_UNDERVOLTAGE, F_VIBRATION_HIGH, F_ENCODER_FAULT],
    b &&& F_COMM_DEGRADED = 0
  intro b hb
  simp only [List.mem_cons, List.not_mem_nil, or_false] at hb
  rcases hb with rfl | rfl | rfl | rfl | rfl <;> rfl

/-- The flags of a successful reading. -/
theorem measure_flags (r : SensorReading) (s : Agent)
    (hplant : s.physics.faultFlags = s.physics.injected ||| s.physics.detect |||
      (if s.physics.commDegraded then F_COMM_DEGRADED else 0)) :
    (s.measure r).live.faultFlags = s.physics.injected ||| (s.measure r).liveDetected |||
      (if s.physics.commDegraded then F_COMM_DEGRADED else 0) := by
  show (s.measure r).liveDetected ||| s.physics.injected |||
    (s.physics.faultFlags &&& F_COMM_DEGRADED) = _
  have hcomm : ∀ b : Bool, (if b then F_COMM_DEGRADED else 0) &&& F_COMM_DEGRADED =
      if b then F_COMM_DEGRADED else 0 := by decide
  rw [hplant, and_or_left, and_or_left, detect_comm, hcomm, UInt32.or_zero]
  rw [UInt32.or_comm _ s.physics.injected, UInt32.or_assoc, UInt32.or_assoc]
  -- the injected bit is among the injected ones
  calc s.physics.injected |||
    ((s.measure r).liveDetected ||| (s.physics.injected &&& F_COMM_DEGRADED |||
          if s.physics.commDegraded then F_COMM_DEGRADED else 0))
      = (s.physics.injected ||| s.physics.injected &&& F_COMM_DEGRADED) |||
          ((s.measure r).liveDetected ||| if s.physics.commDegraded then F_COMM_DEGRADED
            else 0) := by
        ac_rfl
    _ = _ := by rw [or_and_self]

/-! ## Samples of a trace -/

/-- What the flags of the samples depend on. -/
def Seen.isFlagging : Seen → Bool
  | .sensors _ => true
  | .computed _ => true
  | .datagram _ _ => true
  | _ => false

/-- The readings, the computed and the sent samples, the latest first. -/
def Agent.flagging (s : Agent) : List Seen := s.trace.filter Seen.isFlagging

/-- The sources of the last sample computed. -/
def lastComputed : List Seen → Option FlagSources
  | [] => none
  | .computed c :: _ => some c
  | _ :: es => lastComputed es

/-- The flags and the state are those of the last sample computed. -/
def FollowsComputed (t : Telemetry) (es : List Seen) : Prop :=
  ∃ c ∈ lastComputed es, t.Follows c.flags

instance (t : Telemetry) (es : List Seen) : Decidable (FollowsComputed t es) :=
  match h : lastComputed es with
  | none => isFalse fun ⟨_, hc, _⟩ => Option.some_ne_none _ ((Option.mem_def.mp hc).symm.trans h)
  | some c => decidable_of_iff (t.Follows c.flags)
      ⟨fun hf => ⟨c, h, hf⟩, fun ⟨_, hc, hf⟩ => Option.some.inj (h.symm.trans hc) ▸ hf⟩

/-- The condition on the sources holds. -/
def MetComputed (live : Bool) (es : List Seen) : Prop :=
  ∃ c ∈ lastComputed es, c.Met live (lastReading es)

/-- A sample follows its sources exactly where the condition on them holds. -/
def SampleRight (live : Bool) (t : Telemetry) (es : List Seen) : Prop :=
  ∃ c, lastComputed es = some c ∧ (t.Follows c.flags ↔ c.Met live (lastReading es))

/-- In terms of the two conditions on the history. -/
theorem SampleRight.iff {live : Bool} {t : Telemetry} {es : List Seen} (h : SampleRight live t es) :
    FollowsComputed t es ↔ MetComputed live es := by
  obtain ⟨c, hc, hiff⟩ := h
  constructor
  · rintro ⟨c', hc', hfollows⟩
    have heq : c = c' := Option.some.inj (hc.symm.trans hc')
    exact ⟨c, hc, hiff.mp (heq ▸ hfollows)⟩
  · rintro ⟨c', hc', hmet⟩
    have heq : c = c' := Option.some.inj (hc.symm.trans hc')
    exact ⟨c, hc, hiff.mpr (heq ▸ hmet)⟩

/-- Every sample that went out does. -/
def SamplesRight (live : Bool) (es : List Seen) : Prop := ∀ p ∈ samples es, SampleRight live p.1 p.2

/-- Events that set no flag are none of the history of the flags. -/
theorem quiet_flagging {es : List Seen} (h : Quiet es) : es.filter Seen.isFlagging = [] := by
  refine List.filter_eq_nil_iff.mpr fun e he hs => ?_
  have hquiet := h e he
  cases e with
  | sensors r => cases hquiet
  | computed c => cases hquiet
  | datagram t frame => cases hquiet
  | _ => cases hs

/-! ## The invariant -/

/-- What a sample that goes out is made of. -/
def Agent.outgoing (s : Agent) : Bool × Telemetry × List Seen :=
  (s.sensors.isSome, s.current, s.flagging)

theorem flagging_append {es : List Seen} {s u : Agent} (h : u.trace = es ++ s.trace)
    (hes : es.filter Seen.isFlagging = []) : u.flagging = s.flagging := by
  rw [Agent.flagging, h, List.filter_append, hes]
  rfl

theorem Dropped.flagging {s u : Agent} (h : Dropped s u) : u.flagging = s.flagging := by
  obtain ⟨es, es', htrace, hq, hq'⟩ := h.trace
  refine flagging_append htrace ?_
  rw [List.filter_append, List.filter_append, quiet_flagging hq, quiet_flagging hq']
  split <;> rfl

/-- Communication leaves the sample alone: a lost channel shows in the next one. -/
theorem Comm.outgoing {s u : Agent} (h : Comm s u) : u.outgoing = s.outgoing := by
  have hflagging : u.flagging = s.flagging := by
    rcases h.channel with hk | ⟨-, hd⟩
    · obtain ⟨es, htrace, hq⟩ := hk.trace
      exact flagging_append htrace (quiet_flagging hq)
    · exact hd.flagging
  rw [Agent.outgoing, hflagging]
  exact congrArg (fun p => (p.1, p.2, s.flagging)) (h.get fun s => (s.sensors.isSome, s.current))

structure FlagInv (live : Bool) (s : Agent) : Prop where
  sensors : s.sensors.isSome = live
  right : SamplesRight live s.flagging

/-- The sample is computed and waits for `sendTelemetry`. -/
structure FlagsReady (live : Bool) (s : Agent) : Prop extends FlagInv live s where
  current : SampleRight live s.current s.flagging

section Updates

variable {live : Bool} {s u : Agent}

theorem FlagInv.congr (h : FlagInv live s) (hsensors : u.sensors = s.sensors)
    (hsamples : samples u.flagging = samples s.flagging) : FlagInv live u :=
  ⟨hsensors ▸ h.sensors, fun p hp => h.right p (hsamples ▸ hp)⟩

theorem FlagsReady.congr (h : FlagsReady live s) (heq : u.outgoing = s.outgoing) :
    FlagsReady live u := by
  simp only [Agent.outgoing, Prod.mk.injEq] at heq
  obtain ⟨hsensors, hcurrent, hflagging⟩ := heq
  exact ⟨⟨hsensors.trans h.sensors, hflagging ▸ h.right⟩,
    by rw [hcurrent, hflagging]; exact h.current⟩

theorem Comm.flagInv (hc : Comm s u) (h : FlagInv live s) : FlagInv live u :=
  h.congr (hc.get (·.sensors)) (congrArg (fun o => samples o.2.2) hc.outgoing)

theorem within_flagInv : Within (Holds (FlagInv live)) :=
  .ofComm (fun _ _ hc h => hc.flagInv h) fun _ _ ha h => by cases ha <;> exact h.congr rfl rfl

theorem counts_flagsReady : Counts (Holds (FlagsReady live)) where
  world s w _ h := h.congr (comm_withWorld s w).outgoing
  counted _ _ hc h := by cases hc <;> exact h.congr rfl
  log lvl msg _ := (comm_log lvl msg).weaken fun _ _ hc h => h.congr hc.outgoing

theorem flagsReady_checkLocalAlerts : Keeps (Holds (FlagsReady live)) checkLocalAlerts :=
  keeps_checkLocalAlerts (fun _ _ h => h.congr rfl) fun lvl msg =>
    (comm_log lvl msg).weaken fun _ _ hc h => h.congr hc.outgoing

theorem flagInv_reconfigured (s u : Agent) (hr : Reconfigured s u) : Holds (FlagInv live) s u :=
  fun h => by cases hr <;> exact h.congr rfl rfl

theorem flagInv_reinjected (s u : Agent) (hr : Reinjected s u) : Holds (FlagInv live) s u :=
  fun h => by cases hr <;> exact h.congr rfl rfl

theorem flagInv_tcpFail (why : List Byte) : Keeps (Holds (FlagInv live)) (tcpFail why) := by
  intro s h
  obtain ⟨hframe, hdropped⟩ := tcpFail_spec why s
  have hsensors := congrArg Agent.sensors hframe
  exact h.congr hsensors (congrArg samples hdropped.flagging)

/-! ## The sample of a tick -/

theorem updateFlagsAndState_idem (p : Physics) :
    p.updateFlagsAndState.updateFlagsAndState = p.updateFlagsAndState := rfl

/-- The plant's sample, right after an update. -/
theorem Physics.follows {p : Physics} (hfresh : p.updateFlagsAndState = p) :
    p.sample.Follows (p.injected ||| p.detected ||| if p.commDegraded then F_COMM_DEGRADED
      else 0) := by
  rw [← hfresh]
  exact follows_of_plant rfl

/-- Plant mode. -/
theorem sampleRight_plant (hmode : s.sensors = none)
    (hfresh : s.physics.updateFlagsAndState = s.physics)
    (es : List Seen) : SampleRight false s.current (.computed s.flagSources :: es) := by
  have hcurrent : s.current = s.physics.sample := if_neg (by rw [hmode]; decide)
  have hdetected : s.currentDetected = s.physics.detected := if_neg (by rw [hmode]; decide)
  refine ⟨s.flagSources, rfl, iff_of_true ?_ ?_⟩
  · show s.current.Follows (s.physics.injected ||| s.currentDetected ||| _)
    rw [hcurrent, hdetected]
    exact Physics.follows hfresh
  · show s.flagSources.Met false (lastReading es)
    exact s.flagSources.met_plant _

/-- Real-sensor mode, after a failed reading: the plant's sample goes out. -/
theorem sampleRight_failed {r : SensorReading} (hmode : s.sensors.isSome = true)
    (hok : r.ok = false) (hfresh : s.physics.updateFlagsAndState = s.physics)
    (hlive : s.live = s.physics.sample) {es : List Seen} (hread : lastReading es = some r) :
    SampleRight true s.current (.computed s.flagSources :: es) := by
  have hcurrent : s.current = s.physics.sample := (if_pos hmode).trans hlive
  have hplant := Physics.follows hfresh
  refine ⟨s.flagSources, rfl, ?_⟩
  have hmet : s.flagSources.Met true (lastReading (.computed s.flagSources :: es)) ↔
      s.flagSources.plantFlags = s.flagSources.flags := by
    show s.flagSources.Met true (lastReading es) ↔ _
    rw [hread, FlagSources.Met, if_pos rfl, hok]
    exact Iff.rfl
  rw [hmet, hcurrent]
  constructor
  · intro h
    exact hplant.faultFlags.symm.trans h.faultFlags
  · intro h
    exact h ▸ hplant

/-- Real-sensor mode, after a successful reading. -/
theorem sampleRight_measured {r : SensorReading} (hmode : s.sensors.isSome = true)
    (hok : r.ok = true) (hfresh : s.physics.updateFlagsAndState = s.physics)
    {es : List Seen} (hread : lastReading es = some r) :
    SampleRight true (s.measure r).current (.computed (s.measure r).flagSources :: es) := by
  have hcurrent : (s.measure r).current = (s.measure r).live := if_pos hmode
  have hdetected : (s.measure r).currentDetected = (s.measure r).liveDetected := if_pos hmode
  have hplant : s.physics.faultFlags = s.physics.injected ||| s.physics.detect |||
      (if s.physics.commDegraded then F_COMM_DEGRADED else 0) := by
    rw [← hfresh]
    rfl
  have hflags : (s.measure r).live.faultFlags = (s.measure r).flagSources.flags := by
    show _ = s.physics.injected ||| (s.measure r).currentDetected ||| _
    rw [hdetected]
    exact measure_flags r s hplant
  refine ⟨_, rfl, ?_⟩
  show _ ↔ (s.measure r).flagSources.Met true (lastReading es)
  rw [hread, FlagSources.Met, if_pos rfl, if_pos hok, hcurrent, ← hflags]
  exact follows_of_measured rfl

/-- Reading the sensors only asks the world. -/
def Asked (s u : Agent) : Prop := u = s.withWorld u.world

instance : IsPreorder Agent Asked where
  refl _ := rfl
  trans s t u h h' := by
    rw [Asked] at h h' ⊢
    rw [h', h]
    rfl

theorem asks_asked : Asks Asked where
  world _ _ _ := rfl

/-- What `readSensors` leaves: one reading, and the live sample rebuilt from it. -/
theorem readSensors_run (p : SysfsSensors) (s : Agent) : ∃ r w, (readSensors p s).2 =
    if r.ok then (((s.withWorld w).noted (.sensors r)).rebuildLive.measure r)
    else ((s.withWorld w).noted (.sensors r)).rebuildLive := by
  obtain ⟨r, hr⟩ := exists_run_ok p.read s
  have hasked : Asked s (p.read s).2 := asks_asked.readSensor p s
  refine ⟨r, (p.read s).2.world, ?_⟩
  rw [readSensors, bind_run_ok hr, unit_bind_run, unit_bind_run, when, ← hasked]
  split
  · rfl
  · rfl

theorem FlagInv.ready (h : FlagInv live s)
    (hright : SampleRight live s.current (.computed s.flagSources :: s.flagging)) :
    FlagsReady live s.noteComputed := ⟨h.congr rfl rfl, hright⟩

/-- The sample is right once it is computed. -/
theorem computed_run (h : FlagInv live s) (readings : PlantReadings) (rest : AgentM Unit) :
    ∃ u, FlagsReady live u ∧ (do
      modify (Agent.stepPlant readings)
      let s ← get
      match s.sensors with
      | some paths => readSensors paths
      | none => pure ()
      modify Agent.noteComputed
      rest : AgentM Unit) s = rest u := by
  rw [modify_bind_run, bind_run_ok (get_run _)]
  have hfresh : (s.stepPlant readings).physics.updateFlagsAndState =
      (s.stepPlant readings).physics :=
    updateFlagsAndState_idem _
  have h : FlagInv live (s.stepPlant readings) := h.congr rfl rfl
  generalize s.stepPlant readings = s at h hfresh ⊢
  rcases hmode : s.sensors with _ | p
  · have hlive : live = false := by rw [← h.sensors, hmode]; rfl
    subst hlive
    exact ⟨s.noteComputed, h.ready (sampleRight_plant hmode hfresh _), rfl⟩
  · have hsome : s.sensors.isSome = true := by rw [hmode]; rfl
    have hlive : live = true := by rw [← h.sensors, hsome]
    subst hlive
    obtain ⟨r, w, hrun⟩ := readSensors_run p s
    dsimp only
    rw [unit_bind_run, hrun, modify_bind_run]
    refine ⟨_, ?_, rfl⟩
    -- `live_` is rebuilt from the plant, and measured when the reading is good
    have hu : FlagInv true ((s.withWorld w).noted (.sensors r)).rebuildLive := h.congr rfl rfl
    have hread : lastReading ((s.withWorld w).noted (.sensors r)).rebuildLive.flagging = some r :=
      rfl
    have hlive : ((s.withWorld w).noted (.sensors r)).rebuildLive.live = s.physics.sample := rfl
    generalize hgen : ((s.withWorld w).noted (.sensors r)).rebuildLive = u at hu hread hlive ⊢
    have hsome : u.sensors.isSome = true := by rw [← hgen]; exact hsome
    have hphysics : u.physics = s.physics := by rw [← hgen]; rfl
    rw [← hphysics] at hfresh hlive
    cases hok : r.ok with
    | false => exact hu.ready (sampleRight_failed hsome hok hfresh hlive hread)
    | true =>
      have hmeasured : FlagInv true (u.measure r) := hu.congr rfl rfl
      exact hmeasured.ready (sampleRight_measured hsome hok hfresh hread)

/-- The sample that waits goes out. -/
theorem FlagsReady.datagram (h : FlagsReady live s) {u : Agent} (heq : u.outgoing = s.outgoing)
    (frame : List Byte) : FlagsReady live (u.noted (.datagram s.current frame)) := by
  have hu := h.congr heq
  have hcurrent : u.current = s.current := congrArg (fun o => o.2.1) heq
  refine ⟨⟨hu.sensors, ?_⟩, hu.current⟩
  exact List.forall_mem_cons.mpr ⟨hcurrent ▸ hu.current, hu.right⟩

/-- `sendSample` sends the flags of the tick it belongs to. -/
theorem flagsReady_sendSample : Keeps (Holds (FlagsReady live)) sendSample := by
  intro s h
  rw [sendSample, bind_run_ok (get_run s), unit_bind_run, unit_bind_run]
  have houtgoing : s.countSample.drawDrop.outgoing = s.outgoing := by
    rw [Agent.drawDrop]
    split
    · rfl
    · rfl
  split
  · exact counts_flagsReady.log _ _ rfl _ (h.congr houtgoing)
  · rw [emitSample]
    obtain ⟨hdr, w, hhdr, -⟩ := makeHeader_run MsgType.TELEMETRY s.udpSeq s.countSample.drawDrop
    rw [modify_run, modify_run, bind_run_ok hhdr, unit_bind_run]
    have hsent := h.datagram (u := s.countSample.drawDrop.withWorld w) houtgoing
      (encodeFrame hdr s.current.encode)
    -- an error of `sendto` is only logged
    refine Keeps.bind (counts_flagsReady.ask _ _ fun _ _ => by rfl) (fun err => ?_) _ hsent
    cases err with
    | none => exact Keeps.pure ()
    | some why => exact counts_flagsReady.log _ _ rfl

/-- One tick: the flags are recomputed, then the sample is sent. -/
theorem flagInv_tick : Keeps (Holds (FlagInv live)) tick := by
  intro s h
  obtain ⟨t, ht⟩ := exists_run_ok now s
  rw [tick, bind_run_ok ht, unit_bind_run]
  have hinject := within_flagInv.updateInjections flagInv_reinjected t _ (within_flagInv.now s h)
  obtain ⟨readings, hplant⟩ := exists_run_ok
    (ask (·.plant) fun w x => { w with plant := x } : AgentM PlantReadings)
    (updateInjections t (now s).2).2
  have hask :=
    within_flagInv.ask (·.plant) (fun w x => { w with plant := x }) (fun _ _ => rfl) _ hinject
  rw [bind_run_ok hplant]
  obtain ⟨u, hready, hrun⟩ :=
    computed_run hask readings (checkLocalAlerts >>= fun _ => sendTelemetry)
  have hsend : Keeps (Holds (FlagsReady live)) (checkLocalAlerts >>= fun _ => sendTelemetry) :=
    flagsReady_checkLocalAlerts.bind fun _ =>
      counts_flagsReady.sendTelemetry flagsReady_sendSample
  exact (congrArg (FlagInv live ·.2) hrun).mpr (hsend u hready).toFlagInv

/-! ## Handlers -/

theorem flagInv_startReboot (reason : List Byte) (fw : Bool) :
    Keeps (Holds (FlagInv live)) (startReboot reason fw) :=
  within_flagInv.startReboot (fun _ _ h => h.congr rfl rfl) (fun _ h => h.congr rfl rfl) reason fw

/-- Frames change flags only through injections. -/
theorem flagInv_handleFrame (f : Frame) : Keeps (Holds (FlagInv live)) (handleFrame f) := by
  have h : Within (Holds (FlagInv live)) := within_flagInv
  have hack : ∀ v status, Keeps (Holds (FlagInv live)) (sendConfigAck v status) :=
    fun _ _ => (comm_sendFrame _ _).weaken fun _ _ hc h => hc.flagInv h
  refine h.handleFrame (fun _ _ _ h => h.congr rfl rfl) (fun _ h => h.congr rfl rfl)
    (fun _ _ _ h => h.congr rfl rfl) ?_
  exact h.dispatch (h.handleConfigSet flagInv_reconfigured hack f)
    (h.handleFwUpdate fun _ _ _ _ _ _ => h.acceptFwUpdate fun _ _ _ h => h.congr rfl rfl)
    (h.handleFaultInject flagInv_reinjected f)
    (h.handleCmd flagInv_reinjected flagInv_startReboot f)

theorem flagInv_finishOta (t : ℚ) : Keeps (Holds (FlagInv live)) (finishOta t) :=
  within_flagInv.finishOta (fun _ _ _ h => h.congr rfl rfl) (fun _ h => h.congr rfl rfl)
    flagInv_startReboot t

theorem flagInv_completeBoot (t : ℚ) : Keeps (Holds (FlagInv live)) (completeBoot t) := by
  refine within_flagInv.completeBoot (fun _ _ h => h.congr rfl rfl) (fun s h => ?_) t
  rw [Agent.install]
  split
  · exact h.congr rfl rfl
  · exact h.congr rfl rfl

/-! ## Runs -/

/-- Every step of the loop. -/
theorem steps_flagInv : Steps (Holds (FlagInv live)) where
  toWithin := within_flagInv
  tcpFail := flagInv_tcpFail
  setTcpFd _ _ h := h.congr rfl rfl
  setRx _ _ _ h := h.congr rfl rfl
  goUp s _ _ h := within_flagInv.sendHello _ (h.congr (u := s.goUp) rfl rfl)
  setConnecting _ _ _ h := h.congr rfl rfl
  tick := flagInv_tick
  handleFrame f s _ _ := flagInv_handleFrame f s
  finishOta t s _ _ _ _ := flagInv_finishOta t s
  completeBoot t s _ _ := flagInv_completeBoot t s

end Updates

theorem flagInv_top (opts : AgentOptions) (cfg : Config) (sensors : Option SysfsSensors)
    (world : World) (n : ℕ) : FlagInv sensors.isSome (.top opts cfg sensors world n) := by
  have hnew : FlagInv sensors.isSome (.new opts cfg sensors world) := ⟨rfl, fun _ => nofun⟩
  have hinit := within_flagInv.applyHz flagInv_reconfigured cfg.hz _ hnew
  exact steps_flagInv.top (within_flagInv.start (fun _ _ h => h.congr rfl rfl) _ hinit) n

/-- In any run, a sample has the flags of its sources and the state that follows
    from them exactly where the condition on the sources holds: always in plant
    mode. -/
theorem samples_follow_iff (opts : AgentOptions) (cfg : Config) (sensors : Option SysfsSensors)
    (world : World) (n : ℕ) (p : Telemetry × List Seen)
    (h : p ∈ samples (Agent.top opts cfg sensors world n).flagging) :
    FollowsComputed p.1 p.2 ↔ MetComputed sensors.isSome p.2 :=
  ((flagInv_top opts cfg sensors world n).right p h).iff

/-- The board's thermal zone can be read, and the backend is there. -/
def zoneOnline : World :=
  { World.idle with
    readDouble := fun _ _ => some (F64.ofNat 52500), connect := fun _ => .done }

def vibrating : AgentOptions :=
  { deviceId := [0x45], faults := [{ flag := F_VIBRATION_HIGH, startS := 0, durS := 0 }] }

/-- What went out in the first rounds. -/
def vibratingSamples (n : ℕ) : List (Telemetry × List Seen) :=
  samples (Agent.top vibrating {} (some zonePaths) zoneOnline n).flagging

/-- Connected, with VIBRATION_HIGH injected: the sample is RUNNING. -/
theorem samples_follow_fails : ¬ ∀ p ∈ vibratingSamples 2, FollowsComputed p.1 p.2 := by
  decide +kernel

/-- The first sample goes out before the channel is up, under COMM_DEGRADED; the
    third has nothing but the vibration. -/
theorem samples_follow_iff_third :
    (vibratingSamples 3).map (fun p => p.1.faultFlags) =
        [F_VIBRATION_HIGH, F_VIBRATION_HIGH, F_VIBRATION_HIGH ||| F_COMM_DEGRADED] ∧
      ∃ p, (vibratingSamples 3).head? = some p ∧ ¬ MetComputed true p.2 ∧
        (FollowsComputed p.1 p.2 ↔ MetComputed true p.2) := by
  have hlen : 0 < (vibratingSamples 3).length := by decide +kernel
  have hfails : ∀ p ∈ (vibratingSamples 3).take 1, ¬ FollowsComputed p.1 p.2 := by decide +kernel
  refine ⟨by decide +kernel, ?_⟩
  obtain ⟨p, ps, hsamples⟩ := List.exists_cons_of_length_pos hlen
  have hmem : p ∈ vibratingSamples 3 := by simp [hsamples]
  have hiff := samples_follow_iff vibrating {} (some zonePaths) zoneOnline 3 p hmem
  exact ⟨p, by simp [hsamples], fun hmet => hfails p (by simp [hsamples]) (hiff.mpr hmet), hiff⟩

end EcuTelemetry.Firmware
