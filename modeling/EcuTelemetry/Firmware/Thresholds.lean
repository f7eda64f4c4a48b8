/-
  EcuTelemetry.Firmware.Thresholds

  The threshold checks of the real-sensor mode.  Each of the four bits is a latch
  with hysteresis over the successful readings, whatever else the agent does in
  between, and `checkLocalAlerts` logs its edges.
-/

import EcuTelemetry.Firmware.Outgoing
import EcuTelemetry.Firmware.SampleFlags
import EcuTelemetry.Lib.FloatOrder
import EcuTelemetry.Lib.Latch

namespace EcuTelemetry.Firmware

open Printf Proc

/-! ## The latches -/

/-- Above the limit, until it is back under it by the margin. -/
def overLatch (field : SensorReading → F32) (limit margin : F32)
    (h : F32.zero.lt margin = true) : Latch SensorReading where
  set r := limit.lt (field r)
  hold r := (limit.sub margin).lt (field r)
  hold_of_set _ hset := F32.lt_of_sub h hset

/-- Between zero and the limit, until it is back above it by a tenth of a volt. -/
def underLatch (limit : F32) : Latch SensorReading where
  set r := F32.zero.lt r.voltageV && r.voltageV.lt limit
  hold r := F32.zero.lt r.voltageV && r.voltageV.lt (limit.add ⟨0x3DCCCCCD⟩)
  hold_of_set r hset := by
    rw [Bool.and_eq_true] at hset ⊢
    exact ⟨hset.1, F32.lt_of_add (by decide) hset.2⟩

/-- Margins in proportion to a limit are positive. -/
structure Limits.Margins (l : Limits) : Prop where
  current : F32.zero.lt (F32.mul ⟨0x3D4CCCCD⟩ l.currentLimitA) = true
  rpm : F32.zero.lt (F32.mul ⟨0x3CA3D70A⟩ l.rpmLimit) = true

/-- The bits of the threshold checks, each with its latch: margins of a degree,
    5 %, a tenth of a volt and 2 %. -/
def Limits.latches (l : Limits) (undervoltageV : F64) (h : l.Margins) :
    List (UInt32 × Latch SensorReading) :=
  [(F_OVERTEMP, overLatch (·.tempC) l.tempLimitC ⟨0x3F800000⟩ (by decide)),
   (F_OVERCURRENT, overLatch (·.currentA) l.currentLimitA (F32.mul ⟨0x3D4CCCCD⟩ l.currentLimitA)
     h.current),
   (F_UNDERVOLTAGE, underLatch undervoltageV.toFloat),
   (F_ENCODER_FAULT, overLatch (·.rpm) l.rpmLimit (F32.mul ⟨0x3CA3D70A⟩ l.rpmLimit) h.rpm)]

/-- `mask & bit`. -/
def isSet (mask bit : UInt32) : Bool := decide (mask &&& bit ≠ 0)

theorem isSet_bits (a b c d : Bool) :
    let mask := bits
      [(a, F_OVERTEMP), (b, F_OVERCURRENT), (c, F_UNDERVOLTAGE), (d, F_ENCODER_FAULT)]
    isSet mask F_OVERTEMP = a ∧ isSet mask F_OVERCURRENT = b ∧ isSet mask F_UNDERVOLTAGE = c ∧
      isSet mask F_ENCODER_FAULT = d := by
  revert a b c d
  decide

/-- An over-limit flag is a latch: set above the limit, held down to the margin. -/
theorem overLimit_eq (was bit : UInt32) (field : SensorReading → F32) (limit margin : F32)
    (h : F32.zero.lt margin = true) (r : SensorReading) :
    overLimit was bit (field r) limit margin = (overLatch field limit margin h).next
      (isSet was bit) r := by
  rw [overLimit, Latch.next, isSet]
  by_cases hset : was &&& bit ≠ 0
  · rw [if_pos hset, if_pos (decide_eq_true hset)]
    rfl
  · rw [if_neg hset, if_neg (by simpa using hset)]
    rfl

/-- No voltage is below a limit that is switched off. -/
theorem underLatch_off {limit : F64} (h : F64.lt ⟨0⟩ limit = false) (r : SensorReading) :
    (underLatch limit.toFloat).set r = false := by
  rw [Bool.eq_false_iff]
  intro hset
  obtain ⟨hpos, hlt⟩ := Bool.and_eq_true_iff.mp hset
  obtain ⟨-, hnan, hlt⟩ := F32.lt_iff.mp hlt
  obtain ⟨-, -, hpos⟩ := F32.lt_iff.mp hpos
  rw [F32.zero_signedMag] at hpos
  rcases F64.toFloat_nonpos h with hnan' | hle
  · rw [hnan'] at hnan
    cases hnan
  · omega

theorem run_of_never {α : Type} {l : Latch α} (h : ∀ a, l.set a = false) (as : List α) :
    l.run false as = false := by
  rw [Bool.eq_false_iff]
  intro hrun
  obtain ⟨-, a, -, -, hset, -⟩ := (l.run_iff as).mp hrun
  rw [h a] at hset
  cases hset

/-- A successful reading moves every latch; a voltage check that is switched off
    must not have been set. -/
theorem detectLive_spec {s : Agent} {r : SensorReading} {l : Limits} {uv : F64} (hl : l.Margins)
    (hlimits : s.physics.limits = l) (huv : s.opts.undervoltageV = uv) (hlive : s.live.Carries r)
    (hoff : F64.lt ⟨0⟩ uv = false → isSet s.liveDetected F_UNDERVOLTAGE = false) :
    ∀ p ∈ l.latches uv hl, isSet s.detectLive p.1 = p.2.next (isSet s.liveDetected p.1) r := by
  subst hlimits huv
  rw [Agent.detectLive, hlive.tempC, hlive.currentA, hlive.rpm, hlive.voltageV]
  obtain ⟨htemp, hcurrent, hvolt, hrpm⟩ := isSet_bits
    (overLimit s.liveDetected F_OVERTEMP r.tempC s.physics.limits.tempLimitC ⟨0x3F800000⟩)
    (overLimit s.liveDetected F_OVERCURRENT r.currentA s.physics.limits.currentLimitA
      (F32.mul ⟨0x3D4CCCCD⟩ s.physics.limits.currentLimitA))
    (F64.lt ⟨0⟩ s.opts.undervoltageV && F32.zero.lt r.voltageV &&
      if s.liveDetected &&& F_UNDERVOLTAGE ≠ 0 then
        r.voltageV.lt (s.opts.undervoltageV.toFloat.add ⟨0x3DCCCCCD⟩)
      else r.voltageV.lt s.opts.undervoltageV.toFloat)
    (overLimit s.liveDetected F_ENCODER_FAULT r.rpm s.physics.limits.rpmLimit
      (F32.mul ⟨0x3CA3D70A⟩ s.physics.limits.rpmLimit))
  -- the four latches in the order of the table
  refine List.forall_mem_cons.mpr ⟨?_, List.forall_mem_cons.mpr ⟨?_, List.forall_mem_cons.mpr
    ⟨?_, List.forall_mem_singleton.mpr ?_⟩⟩⟩
  · rw [htemp]
    exact overLimit_eq _ _ (·.tempC) _ _ (by decide) r
  · rw [hcurrent]
    exact overLimit_eq _ _ (·.currentA) _ _ hl.current r
  · rw [hvolt, Latch.next, isSet]
    -- the undervoltage latch is off when its limit is zero
    cases hon : F64.lt ⟨0⟩ s.opts.undervoltageV with
    | false =>
      rw [Bool.false_and, Bool.false_and, ← isSet, hoff hon]
      exact (underLatch_off hon r).symm
    | true =>
      by_cases hset : s.liveDetected &&& F_UNDERVOLTAGE ≠ 0
      · rw [if_pos hset, if_pos (decide_eq_true hset), Bool.true_and]
        rfl
      · rw [if_neg hset, if_neg (by simpa using hset), Bool.true_and]
        rfl
  · rw [hrpm]
    exact overLimit_eq _ _ (·.rpm) _ _ hl.rpm r

/-! ## Readings and records of a trace -/

/-- The successful readings, from the first on. -/
def goodReadings (es : List Seen) : List SensorReading :=
  es.reverse.filterMap fun
    | .sensors r => if r.ok then some r else none
    | _ => none

/-- An ALERT record of a bit, or an ALERT-cleared one. -/
def Seen.alert (bit : UInt32) : Seen → Option Bool
  | .log _ msg =>
    if (str "ALERT " ++ faultName bit).isPrefixOf msg then some true
    else if (str "ALERT cleared: " ++ faultName bit).isPrefixOf msg then some false
    else none
  | _ => none

/-- The ALERT (`true`) and ALERT-cleared (`false`) records of a bit, from the first on. -/
def alertRecords (bit : UInt32) (es : List Seen) : List Bool :=
  es.reverse.filterMap (Seen.alert bit)

theorem alertRecords_append (bit : UInt32) (es es' : List Seen) :
    alertRecords bit (es ++ es') = alertRecords bit es' ++ alertRecords bit es := by
  rw [alertRecords, List.reverse_append, List.filterMap_append]
  rfl

/-- A log line of another kind is no alert. -/
theorem alert_plain {bit : UInt32} {lvl : LogLevel} {msg : List Byte} (h : plainText msg = true) :
    Seen.alert bit (.log lvl msg) = none := by
  have hne : ∀ text : List Byte, text.head? = (str "ALERT").head? →
      text.isPrefixOf msg = false := by
    intro text htext
    rw [Bool.eq_false_iff]
    intro hprefix
    obtain ⟨rest, hrest⟩ := List.isPrefixOf_iff_prefix.mp hprefix
    refine absurd (of_decide_eq_true h) (not_not.mpr ?_)
    rw [← hrest, ← htext, List.head?_append, htext]
    rfl
  have halert := hne (str "ALERT " ++ faultName bit) rfl
  have hcleared := hne (str "ALERT cleared: " ++ faultName bit) rfl
  rw [Seen.alert, halert, hcleared]
  rfl

/-! ## What leaves the latches alone -/

/-- Readings and the records of `checkLocalAlerts`. -/
def Seen.isLatching : Seen → Bool
  | .sensors _ => true
  | .log _ msg => !plainText msg
  | _ => false

/-- The readings among the events that latch are all the readings. -/
theorem goodReadings_filter (es : List Seen) :
    goodReadings (es.filter Seen.isLatching) = goodReadings es := by
  rw [goodReadings, goodReadings, ← List.filter_reverse, List.filterMap_filter]
  refine congrArg (List.filterMap · es.reverse) (funext fun e => ?_)
  cases e with
  | log lvl msg =>
    split
    · rfl
    · rfl
  | _ => rfl

/-- And so are the alerts. -/
theorem alertRecords_filter (bit : UInt32) (es : List Seen) :
    alertRecords bit (es.filter Seen.isLatching) = alertRecords bit es := by
  rw [alertRecords, alertRecords, ← List.filter_reverse, List.filterMap_filter]
  refine congrArg (List.filterMap · es.reverse) (funext fun e => ?_)
  cases e with
  | log lvl msg =>
    split
    · rfl
    · next h =>
      rw [Seen.isLatching, Bool.not_eq_true', Bool.not_eq_false] at h
      exact (alert_plain h).symm
  | _ => rfl

/-- The members that the latches depend on. -/
def Agent.latchView (s : Agent) : Bool × F64 × UInt32 × UInt32 :=
  (s.sensors.isSome, s.opts.undervoltageV, s.liveDetected, s.prevDetected)

/-- The records `es` of `checkLocalAlerts` are added; the checks are as before. -/
structure Alerted (es : List Seen) (s s' : Agent) : Prop where
  view : s'.latchView = s.latchView
  latching : s'.trace.filter Seen.isLatching = es ++ s.trace.filter Seen.isLatching
  trace : s.trace <:+ s'.trace

/-- The latches are as before. -/
abbrev SameLatch := Alerted []

/-- And so are the limits and the log level. -/
structure SameChecks (s s' : Agent) : Prop where
  latch : SameLatch s s'
  limits : s'.physics.limits = s.physics.limits
  logLevel : s'.logLevel = s.logLevel

theorem Alerted.trans {es es' : List Seen} {s s' s'' : Agent} (h : Alerted es s s')
    (h' : Alerted es' s' s'') : Alerted (es' ++ es) s s'' where
  view := h'.view.trans h.view
  latching := by rw [h'.latching, h.latching, List.append_assoc]
  trace := h.trace.trans h'.trace

theorem Alerted.refl (s : Agent) : Alerted [] s s := ⟨rfl, rfl, List.suffix_rfl⟩

instance : IsPreorder Agent SameLatch where
  refl := Alerted.refl
  trans _ _ _ h h' := h.trans h'

instance : IsPreorder Agent SameChecks where
  refl s := ⟨.refl s, rfl, rfl⟩
  trans _ _ _ h h' :=
    ⟨h.latch.trans h'.latch, h'.limits.trans h.limits, h'.logLevel.trans h.logLevel⟩

/-- The trace grows by what is neither a reading nor an ALERT record. -/
theorem SameLatch.of {s s' : Agent} (hview : s'.latchView = s.latchView) (es : List Seen)
    (htrace : s'.trace = es ++ s.trace) (hes : es.filter Seen.isLatching = []) :
    SameLatch s s' := by
  refine ⟨hview, ?_, htrace ▸ List.suffix_append es s.trace⟩
  rw [htrace, List.filter_append, hes]

theorem SameChecks.of {s s' : Agent} (hview : s'.latchView = s.latchView) (es : List Seen)
    (htrace : s'.trace = es ++ s.trace) (hes : es.filter Seen.isLatching = [])
    (hlimits : s'.physics.limits = s.physics.limits) (hlevel : s'.logLevel = s.logLevel) :
    SameChecks s s' := ⟨.of hview es htrace hes, hlimits, hlevel⟩

/-- A dropped channel checks nothing. -/
theorem sameChecks_drop (s : Agent) : SameChecks s s.drop := by
  refine .of rfl (if s.tcpState = .CONNECTED then [.lost] else []) ?_ ?_ rfl rfl
  · rw [Agent.drop]
    split
    · rfl
    · rfl
  · split
    · rfl
    · rfl

/-- And neither does sending. -/
theorem sends_sameChecks : Sends SameChecks where
  aside _ _ ha := by cases ha <;> exact .of rfl [] rfl rfl rfl rfl
  world _ _ _ := .of rfl [] rfl rfl rfl rfl
  logged lvl msg s hmsg := by
    refine .of rfl [.log lvl msg] rfl ?_ rfl rfl
    rw [List.filter_cons_of_neg (by rw [Seen.isLatching, hmsg]; decide)]
    rfl
  inLogSink _ _ := .of rfl [] rfl rfl rfl rfl
  takeSent n s := .of rfl [.sent (s.tx.take n)] rfl rfl rfl rfl
  retry _ _ := .of rfl [] rfl rfl rfl rfl
  backOff _ := .of rfl [] rfl rfl rfl rfl
  drop := sameChecks_drop
  overflow w s _ _ := by
    have hseq : SameChecks s (s.nextSeq.withWorld w) := .of rfl [] rfl rfl rfl rfl
    exact trans_of SameChecks hseq (sameChecks_drop _)
  push msgType ts payload w s _ _ _ _ :=
    .of rfl [.queued (s.header msgType ts) payload] rfl rfl rfl rfl

theorem within_sameLatch : Within SameLatch :=
  sends_sameChecks.within.weaken fun _ _ h => h.latch

/-- A frame can change the configuration, but not the latches. -/
theorem handleFrame_sameLatch (f : Frame) (s : Agent) :
    ∃ u, SameLatch s u ∧ (handleFrame f s).2 = u.noted (.handled f u.running) := by
  have h := within_sameLatch
  have hconf : ∀ s s', Reconfigured s s' → SameLatch s s' :=
    fun _ _ hr => by cases hr <;> exact .of rfl [] rfl rfl
  -- none of these notes is one of the history of the latches
  have hinj : ∀ s s', Reinjected s s' → SameLatch s s' := by
    intro s s' hr
    cases hr with
    | inject fi t => exact .of rfl [.inject fi t] rfl rfl
    | clearInjected => exact .of rfl [.cleared] rfl rfl
    | fire f t i => exact .of rfl [.fired i f t] rfl rfl
    | tick t mask => exact .of rfl [.tick t mask] rfl rfl
    | _ => exact .of rfl [] rfl rfl
  have hreboot : ∀ reason fw, Keeps SameLatch (startReboot reason fw) :=
    h.startReboot (fun _ _ => .of rfl [] rfl rfl) fun s => .of rfl [.closed] rfl rfl
  have hack : ∀ v status, Keeps SameLatch (sendConfigAck v status) := fun v status s =>
    (sends_sameChecks.sendFrame_of_push fun ts w _ _ =>
      .of rfl [.queued (s.header MsgType.CONFIG_ACK ts) _] rfl rfl rfl rfl).latch
  refine h.handleFrame_run (fun f v s => .of rfl [.rx f v] rfl rfl)
    (fun s => .of rfl [.dispatch] rfl rfl) ?_ s
  refine h.dispatch (h.handleConfigSet hconf hack f)
    (h.handleFwUpdate fun s fu target _ _ _ => h.acceptFwUpdate fun w t _ => ?_)
    (h.handleFaultInject hinj f) (h.handleCmd hinj hreboot f)
  exact .of rfl [.due t, .accepted fu.targetVersion] rfl rfl

/-! ## The edges -/

/-- The bits that `checkLocalAlerts` looks at. -/
def alertedBits : List UInt32 := (List.range 8).map fun i => (1 : UInt32) <<< UInt32.ofNat i

/-- The records of one bit. -/
def alertEvents (lvl : LogLevel) (rose fell : UInt32) (t : Telemetry) (l : Limits) (bit : UInt32) :
    List Seen :=
  (if isSet rose bit ∧ lvl.code ≤ LogLevel.WARN.code then
      [.log .WARN ((alertText bit t l).take 1023)]
    else []) ++
  (if isSet fell bit ∧ lvl.code ≤ LogLevel.INFO.code then
      [.log .INFO ((str "ALERT cleared: " ++ faultName bit).take 1023)]
    else [])

theorem plainText_alertText (bit : UInt32) (t : Telemetry) (l : Limits) :
    plainText (alertText bit t l) = false := by
  rw [alertText]
  repeat' split
  all_goals
    try simp only [List.append_assoc]
    rfl

/-- A record of `checkLocalAlerts`, if its level is logged. -/
theorem log_alerted {lvl : LogLevel} {msg : List Byte} (h : plainText msg = false) (s : Agent) :
    Alerted (if s.logLevel.code ≤ lvl.code then [.log lvl (msg.take 1023)] else [])
      s (log lvl msg s).2 ∧
      (log lvl msg s).2.physics.limits = s.physics.limits ∧
      (log lvl msg s).2.logLevel = s.logLevel := by
  rw [log, bind_run_ok (get_run s), when]
  split
  · rw [unit_bind_run]
    have hsink := sends_sameChecks.logSink lvl (msg.take 1023) (s.noted (.log lvl (msg.take 1023)))
    have hnoted : Alerted [.log lvl (msg.take 1023)] s (s.noted (.log lvl (msg.take 1023))) := by
      refine ⟨rfl, ?_, List.suffix_cons _ _⟩
      rw [Agent.noted, List.filter_cons_of_pos (by rw [Seen.isLatching, plainText_take, h]; rfl)]
      rfl
    exact ⟨hnoted.trans hsink.latch, hsink.limits, hsink.logLevel⟩
  · exact ⟨.refl s, rfl, rfl⟩

/-- Each bit that rose or fell is logged once, in the order of `alertedBits`. -/
theorem alertBits_alerted (rose fell : UInt32) (t : Telemetry) (l : Limits) (bs : List UInt32)
    (s : Agent) :
    let s' := (forEach bs (fun bit => do
      when (rose &&& bit ≠ 0) (log .WARN (alertText bit t l))
      when (fell &&& bit ≠ 0) (log .INFO (str "ALERT cleared: " ++ faultName bit)) : UInt32 →
        AgentM Unit) s).2
    Alerted (bs.flatMap (alertEvents s.logLevel rose fell t l)).reverse s s' ∧
      s'.physics.limits = s.physics.limits ∧ s'.logLevel = s.logLevel := by
  induction bs generalizing s with
  | nil => exact ⟨.refl s, rfl, rfl⟩
  | cons bit bs ih =>
    intro s'
    -- one conditional record
    have hone : ∀ (mask : UInt32) (lvl : LogLevel) (msg : List Byte), plainText msg = false →
        ∀ s : Agent,
          Alerted (if isSet mask bit ∧ s.logLevel.code ≤ lvl.code then [.log lvl (msg.take 1023)]
            else []) s (when (mask &&& bit ≠ 0) (log lvl msg) s).2 ∧
          (when (mask &&& bit ≠ 0) (log lvl msg) s).2.physics.limits = s.physics.limits ∧
          (when (mask &&& bit ≠ 0) (log lvl msg) s).2.logLevel = s.logLevel := by
      intro mask lvl msg hmsg s
      by_cases hset : mask &&& bit ≠ 0
      · have hbit : isSet mask bit = true := decide_eq_true hset
        rw [when, if_pos hset]
        simpa only [hbit, true_and] using log_alerted hmsg s
      · have hbit : ¬ (isSet mask bit = true ∧ s.logLevel.code ≤ lvl.code) :=
          fun h => hset (of_decide_eq_true h.1)
        rw [when, if_neg hset, if_neg hbit]
        exact ⟨.refl s, rfl, rfl⟩
    obtain ⟨hrose, hlimits, hlevel⟩ :=
      hone rose .WARN (alertText bit t l) (plainText_alertText bit t l) s
    generalize hu : (when (rose &&& bit ≠ 0) (log .WARN (alertText bit t l)) s).2 =
      u at hrose hlimits hlevel
    obtain ⟨hfell, hlimits', hlevel'⟩ :=
      hone fell .INFO (str "ALERT cleared: " ++ faultName bit) rfl u
    generalize hv :
      (when (fell &&& bit ≠ 0) (log .INFO (str "ALERT cleared: " ++ faultName bit)) u).2 = v
      at hfell hlimits' hlevel'
    have hrun : s' = (forEach bs (fun bit => do
        when (rose &&& bit ≠ 0) (log .WARN (alertText bit t l))
        when (fell &&& bit ≠ 0) (log .INFO (str "ALERT cleared: " ++ faultName bit)) :
          UInt32 → AgentM Unit) v).2 := by
      show (forEach (bit :: bs) _ s).2 = _
      rw [forEach, bind_assoc, unit_bind_run, hu, unit_bind_run, hv]
    obtain ⟨hrest, hlimits'', hlevel''⟩ := ih v
    rw [hrun]
    refine ⟨?_, hlimits''.trans (hlimits'.trans hlimits), hlevel''.trans (hlevel'.trans hlevel)⟩
    have hall := (hrose.trans hfell).trans hrest
    rw [hlevel', hlevel] at hall
    rw [List.flatMap_cons, List.reverse_append]
    have hbit : (alertEvents s.logLevel rose fell t l bit).reverse =
        (if isSet fell bit ∧ s.logLevel.code ≤ LogLevel.INFO.code then
          [Seen.log .INFO ((str "ALERT cleared: " ++ faultName bit).take 1023)] else []) ++
        (if isSet rose bit ∧ s.logLevel.code ≤ LogLevel.WARN.code then
          [Seen.log .WARN ((alertText bit t l).take 1023)] else []) := by
      rw [alertEvents, List.reverse_append]
      split <;> split <;> rfl
    rw [hbit]
    exact hall

/-- The bits that have a latch. -/
def latchedBits : List UInt32 := [F_OVERTEMP, F_OVERCURRENT, F_UNDERVOLTAGE, F_ENCODER_FAULT]

theorem fst_mem_latchedBits {l : Limits} {uv : F64} {hl : l.Margins}
    {p : UInt32 × Latch SensorReading}
    (h : p ∈ l.latches uv hl) : p.1 ∈ latchedBits := List.mem_map_of_mem h

theorem isPrefixOf_take (p msg : List Byte) {n : ℕ} (h : p.length ≤ n) :
    p.isPrefixOf (msg.take n) = p.isPrefixOf msg := by
  rw [Bool.eq_iff_iff, List.isPrefixOf_iff_prefix, List.isPrefixOf_iff_prefix, List.prefix_take_iff]
  exact and_iff_left h

/-- A record of one bit is none of another. -/
theorem alert_rose (t : Telemetry) (l : Limits) :
    ∀ b ∈ alertedBits, ∀ bit ∈ latchedBits,
      Seen.alert bit (.log .WARN ((alertText b t l).take 1023)) = if b = bit then some true
        else none := by
  intro b hb bit hbit
  have hname : (str "ALERT " ++ faultName bit).length ≤ 1023 ∧
      (str "ALERT cleared: " ++ faultName bit).length ≤ 1023 := by
    have hall : latchedBits.all (fun bit => decide ((str "ALERT " ++ faultName bit).length ≤ 1023 ∧
        (str "ALERT cleared: " ++ faultName bit).length ≤ 1023)) = true := by decide +kernel
    exact of_decide_eq_true (List.all_eq_true.mp hall bit hbit)
  rw [Seen.alert, isPrefixOf_take _ _ hname.1, isPrefixOf_take _ _ hname.2]
  have hbits : b ∈ [F_OVERTEMP, F_OVERCURRENT, F_UNDERVOLTAGE, F_VIBRATION_HIGH, F_SENSOR_STUCK,
      F_GPS_LOST, F_COMM_DEGRADED, F_ENCODER_FAULT] := hb
  simp only [List.mem_cons, List.not_mem_nil, or_false] at hbits
  simp only [latchedBits, List.mem_cons, List.not_mem_nil, or_false] at hbit
  rcases hbits with rfl | rfl | rfl | rfl | rfl | rfl | rfl | rfl <;>
    rcases hbit with rfl | rfl | rfl | rfl <;> rfl

/-- The text of a cleared alert names its own bit and no other. -/
theorem alert_fell :
    ∀ b ∈ alertedBits, ∀ bit ∈ latchedBits,
      Seen.alert bit (.log .INFO ((str "ALERT cleared: " ++ faultName b).take 1023)) =
        if b = bit then some false else none := by
  have hall : alertedBits.all (fun b => latchedBits.all fun bit => decide (Seen.alert bit
      (.log .INFO ((str "ALERT cleared: " ++ faultName b).take 1023)) =
        if b = bit then some false else none)) = true := by decide +kernel
  intro b hb bit hbit
  exact of_decide_eq_true (List.all_eq_true.mp (List.all_eq_true.mp hall b hb) bit hbit)

/-- So the log lines of a tick hold at most one record of a bit. -/
theorem filterMap_alertEvents {lvl : LogLevel} (hlvl : lvl.code ≤ LogLevel.INFO.code)
    (rose fell : UInt32) (t : Telemetry) (l : Limits) {bit : UInt32} (hbit : bit ∈ latchedBits) :
    (alertedBits.flatMap (alertEvents lvl rose fell t l)).filterMap (Seen.alert bit) =
      (if isSet rose bit then [true] else []) ++ (if isSet fell bit then [false] else []) := by
  have hwarn : lvl.code ≤ LogLevel.WARN.code := UInt8.le_trans hlvl (by decide)
  -- each record is about its own bit, and at INFO and below both kinds are logged
  have hone : ∀ b ∈ alertedBits, (alertEvents lvl rose fell t l b).filterMap (Seen.alert bit) =
      if b = bit then
        (if isSet rose bit then [true] else []) ++ (if isSet fell bit then [false] else [])
      else [] := by
    intro b hb
    have hrose := alert_rose t l b hb bit hbit
    have hfell := alert_fell b hb bit hbit
    rw [alertEvents, List.filterMap_append]
    by_cases heq : b = bit
    · rw [if_pos heq] at hrose hfell ⊢
      rw [← heq]
      simp only [hlvl, hwarn, and_true]
      congr 1
      · split
        · rw [heq, List.filterMap_cons_some (heq ▸ hrose), List.filterMap_nil]
        · rfl
      · split
        · rw [heq, List.filterMap_cons_some (heq ▸ hfell), List.filterMap_nil]
        · rfl
    · rw [if_neg heq] at hrose hfell ⊢
      simp only [hlvl, hwarn, and_true]
      split <;> split <;> simp [hrose, hfell]
  rw [List.filterMap_flatMap, List.flatMap_congr hone]
  generalize (if isSet rose bit then [true] else []) ++
    (if isSet fell bit then [false] else []) = edge
  -- the bit is one of the four
  have hall : alertedBits.flatMap (fun b => if b = bit then edge else []) = edge ++ [] := by
    simp only [latchedBits, List.mem_cons, List.not_mem_nil, or_false] at hbit
    rcases hbit with rfl | rfl | rfl | rfl <;> rfl
  rw [hall, List.append_nil]

/-! ## Single bits -/

/-- A latched flag is one bit of the mask. -/
theorem isSet_eq {bit : UInt32} (hbit : bit ∈ latchedBits) :
    ∃ k, ∀ mask, isSet mask bit = mask.toBitVec.getLsbD k := by
  have hpow : ∀ k, k < 32 → bit.toBitVec = BitVec.twoPow 32 k →
      ∀ mask, isSet mask bit = mask.toBitVec.getLsbD k := by
    intro k hk htwo mask
    have hand : mask.toBitVec &&& bit.toBitVec = if mask.toBitVec.getLsbD k then BitVec.twoPow 32 k
        else 0#32 := by
      rw [htwo, BitVec.and_twoPow]
    have hiff : mask &&& bit ≠ 0 ↔ mask.toBitVec &&& bit.toBitVec ≠ 0#32 := by
      rw [← UInt32.toBitVec_and]
      exact not_congr UInt32.toBitVec_inj.symm
    rw [Bool.eq_iff_iff, isSet, decide_eq_true_iff, hiff, hand]
    cases mask.toBitVec.getLsbD k with
    | false => exact iff_of_false (fun h => h rfl) nofun
    | true =>
      refine iff_of_true (fun hzero => ?_) rfl
      have hget := congrArg (BitVec.getLsbD · k) hzero
      simp [hk] at hget
  simp only [latchedBits, List.mem_cons, List.not_mem_nil, or_false] at hbit
  rcases hbit with rfl | rfl | rfl | rfl
  · exact ⟨0, hpow 0 (by decide) rfl⟩
  · exact ⟨1, hpow 1 (by decide) rfl⟩
  · exact ⟨2, hpow 2 (by decide) rfl⟩
  · exact ⟨7, hpow 7 (by decide) rfl⟩

/-- `a & ~b`. -/
theorem isSet_and_not {bit : UInt32} (hbit : bit ∈ latchedBits) (a b : UInt32) :
    isSet (a &&& ~~~b) bit = (isSet a bit && !isSet b bit) := by
  obtain ⟨k, hk⟩ := isSet_eq hbit
  rw [hk, hk, hk, UInt32.toBitVec_and, UInt32.toBitVec_not, BitVec.getLsbD_and, BitVec.getLsbD_not]
  by_cases hlt : k < 32
  · rw [decide_eq_true hlt, Bool.true_and]
  · rw [BitVec.getLsbD_of_ge _ _ (Nat.not_lt.mp hlt), Bool.false_and, Bool.false_and]

/-! ## The invariant -/

/-- Every frame left these limits in force. -/
def FixedLimits (l : Limits) (es : List Seen) : Prop := ∀ f r, Seen.handled f r ∈ es → r.limits = l

/-- The log level was INFO or DEBUG all along. -/
def Verbose (initial : LogLevel) (es : List Seen) : Prop :=
  initial.code ≤ LogLevel.INFO.code ∧
    ∀ f r, Seen.handled f r ∈ es → r.logLevel.code ≤ LogLevel.INFO.code

section Invariant

variable {l : Limits} {uv : F64} {hl : l.Margins} {initial : LogLevel} {s u : Agent}

/-- The latches are those of the readings; the edges since `prev_detected_` are
    still to be logged. -/
structure Pending (l : Limits) (uv : F64) (hl : l.Margins) (initial : LogLevel) (s : Agent) :
    Prop where
  sensors : s.sensors.isSome = true
  undervoltageV : s.opts.undervoltageV = uv
  limits : FixedLimits l s.trace → s.physics.limits = l
  level : Verbose initial s.trace → s.logLevel.code ≤ LogLevel.INFO.code
  detected : FixedLimits l s.trace → ∀ p ∈ l.latches uv hl,
    isSet s.liveDetected p.1 = p.2.run false (goodReadings s.trace)
  records : FixedLimits l s.trace → Verbose initial s.trace → ∀ p ∈ l.latches uv hl,
    alertRecords p.1 s.trace ++ (if isSet s.liveDetected p.1 = isSet s.prevDetected p.1 then []
      else [isSet s.liveDetected p.1]) = p.2.edges false (goodReadings s.trace)

/-- All edges are logged. -/
structure LatchInv (l : Limits) (uv : F64) (hl : l.Margins) (initial : LogLevel) (s : Agent) : Prop
    extends Pending l uv hl initial s where
  prev : s.prevDetected = s.liveDetected

theorem LatchInv.logged (h : LatchInv l uv hl initial s) (hfixed : FixedLimits l s.trace)
    (hverbose : Verbose initial s.trace) {p : UInt32 × Latch SensorReading}
    (hp : p ∈ l.latches uv hl) :
    alertRecords p.1 s.trace = p.2.edges false (goodReadings s.trace) := by
  have hrecords := h.records hfixed hverbose p hp
  rwa [h.prev, if_pos rfl, List.append_nil] at hrecords

theorem FixedLimits.of_suffix {es es' : List Seen} (h : FixedLimits l es') (hes : es <:+ es') :
    FixedLimits l es := fun f r hmem => h f r (hes.subset hmem)

theorem Verbose.of_suffix {es es' : List Seen} (h : Verbose initial es') (hes : es <:+ es') :
    Verbose initial es := ⟨h.1, fun f r hmem => h.2 f r (hes.subset hmem)⟩

theorem Alerted.alertRecords {es : List Seen} (h : Alerted es s u) (bit : UInt32) :
    alertRecords bit u.trace = alertRecords bit s.trace ++ Firmware.alertRecords bit es := by
  rw [← alertRecords_filter, h.latching, alertRecords_append, alertRecords_filter]

theorem SameLatch.goodReadings (h : SameLatch s u) :
    goodReadings u.trace = goodReadings s.trace := by
  rw [← goodReadings_filter, h.latching, List.nil_append, goodReadings_filter]

/-- The limits and the level may have changed, if the trace says so. -/
theorem Pending.moved (h : Pending l uv hl initial s) (hs : SameLatch s u)
    (hlimits : FixedLimits l u.trace → u.physics.limits = l)
    (hlevel : Verbose initial u.trace → u.logLevel.code ≤ LogLevel.INFO.code) :
    Pending l uv hl initial u := by
  have hview := hs.view
  simp only [Agent.latchView, Prod.mk.injEq] at hview
  obtain ⟨hsensors, huv, hlive, hprev⟩ := hview
  refine ⟨hsensors.trans h.sensors, huv.trans h.undervoltageV, hlimits, hlevel, ?_, ?_⟩
  · rw [hlive, hs.goodReadings]
    exact fun hfixed => h.detected (hfixed.of_suffix hs.trace)
  · intro hfixed hverbose p hp
    rw [hlive, hprev, hs.goodReadings, hs.alertRecords,
      ← h.records (hfixed.of_suffix hs.trace) (hverbose.of_suffix hs.trace) p hp]
    exact congrArg (· ++ _) (List.append_nil _)

theorem Pending.same (h : Pending l uv hl initial s) (hs : SameChecks s u) :
    Pending l uv hl initial u :=
  h.moved hs.latch (fun hfixed => hs.limits.trans (h.limits (hfixed.of_suffix hs.latch.trace)))
    fun hverbose => hs.logLevel ▸ h.level (hverbose.of_suffix hs.latch.trace)

theorem SameLatch.prev (hs : SameLatch s u) (h : s.prevDetected = s.liveDetected) :
    u.prevDetected = u.liveDetected := by
  have hview := hs.view
  simp only [Agent.latchView, Prod.mk.injEq] at hview
  rw [hview.2.2.1, hview.2.2.2, h]

theorem LatchInv.same (h : LatchInv l uv hl initial s) (hs : SameChecks s u) :
    LatchInv l uv hl initial u := ⟨h.toPending.same hs, hs.latch.prev h.prev⟩

/-- A frame leaves the configuration it notes. -/
theorem LatchInv.handled (h : LatchInv l uv hl initial s) (hs : SameLatch s u) (f : Frame) :
    LatchInv l uv hl initial (u.noted (.handled f u.running)) := by
  have hnoted : SameLatch u (u.noted (.handled f u.running)) :=
    .of rfl [.handled f u.running] rfl rfl
  have hall : SameLatch s (u.noted (.handled f u.running)) := hs.trans hnoted
  refine ⟨h.toPending.moved hall (fun hfixed => ?_) fun hverbose => ?_, hall.prev h.prev⟩
  · exact hfixed f u.running List.mem_cons_self
  · exact hverbose.2 f u.running List.mem_cons_self

/-! ## The tick -/

theorem goodReadings_sensors (r : SensorReading) (es : List Seen) :
    goodReadings (.sensors r :: es) = goodReadings es ++ if r.ok then [r] else [] := by
  rw [goodReadings, List.reverse_cons, List.filterMap_append]
  congr 1
  by_cases hok : r.ok = true <;> simp [hok]

/-- One reading, from a state in which no edge is pending. -/
theorem LatchInv.read (h : LatchInv l uv hl initial s) (r : SensorReading) (w : World) :
    Pending l uv hl initial
      (if r.ok then (((s.withWorld w).noted (.sensors r)).rebuildLive.measure r)
      else ((s.withWorld w).noted (.sensors r)).rebuildLive) := by
  have hrecords : ∀ bit, alertRecords bit (.sensors r :: s.trace) = alertRecords bit s.trace := by
    intro bit
    rw [← List.singleton_append, alertRecords_append]
    exact List.append_nil _
  have hfixed : ∀ {es}, FixedLimits l (.sensors r :: es) → FixedLimits l es :=
    fun hfixed => hfixed.of_suffix (List.suffix_cons _ _)
  have hverbose : ∀ {es}, Verbose initial (.sensors r :: es) → Verbose initial es :=
    fun hverbose => hverbose.of_suffix (List.suffix_cons _ _)
  have hgood := goodReadings_sensors r s.trace
  split
  · next hok =>
    rw [if_pos hok] at hgood
    obtain ⟨u, hu⟩ : ∃ u, u = ((s.withWorld w).noted (.sensors r)).rebuildLive := ⟨_, rfl⟩
    rw [← hu]
    have htrace : (u.measure r).trace = .sensors r :: s.trace := by rw [hu]; rfl
    have hlimits : (u.measure r).physics.limits = s.physics.limits := by rw [hu]; rfl
    have hdetected : (u.measure r).liveDetected =
        Agent.detectLive { u with live := u.live.measured r } := rfl
    -- the latches move with the reading
    have hstep : FixedLimits l s.trace → ∀ p ∈ l.latches uv hl,
        isSet (u.measure r).liveDetected p.1 = p.2.next (isSet s.liveDetected p.1) r := by
      intro hfix p hp
      have hu' : u.liveDetected = s.liveDetected := by rw [hu]; rfl
      have huv : u.opts.undervoltageV = uv := by rw [hu]; exact h.undervoltageV
      have hlim : u.physics.limits = l := by rw [hu]; exact h.limits hfix
      have hunder : (F_UNDERVOLTAGE, underLatch uv.toFloat) ∈ l.latches uv hl := by
        simp [Limits.latches]
      have hoff : F64.lt ⟨0⟩ uv = false → isSet u.liveDetected F_UNDERVOLTAGE = false := by
        intro hoff
        rw [hu', h.detected hfix _ hunder]
        exact run_of_never (underLatch_off hoff) _
      rw [hdetected, ← hu']
      have hspec : ∀ p ∈ l.latches uv hl,
          isSet (Agent.detectLive { u with live := u.live.measured r }) p.1 =
          p.2.next (isSet u.liveDetected p.1) r :=
        detectLive_spec hl hlim huv ⟨rfl, rfl, rfl, rfl, rfl, rfl, rfl, rfl⟩ hoff
      exact hspec p hp
    have hrun : FixedLimits l s.trace → ∀ p ∈ l.latches uv hl,
        isSet (u.measure r).liveDetected p.1 = p.2.run false (goodReadings s.trace ++ [r]) := by
      intro hfix p hp
      rw [hstep hfix p hp, h.detected hfix p hp, Latch.run_concat]
    refine ⟨by rw [hu]; exact h.sensors, by rw [hu]; exact h.undervoltageV, ?_, ?_, ?_, ?_⟩
    · rw [htrace, hlimits]
      exact fun hfix => h.limits (hfixed hfix)
    · rw [htrace, hu]
      exact fun hver => h.level (hverbose hver)
    · rw [htrace, hgood]
      exact fun hfix => hrun (hfixed hfix)
    · intro hfix hver p hp
      rw [htrace] at hfix hver ⊢
      have hprev : (u.measure r).prevDetected = s.liveDetected := by rw [hu]; exact h.prev
      rw [hrecords, hgood, h.logged (hfixed hfix) (hverbose hver) hp, Latch.edges_append, hprev,
        hstep (hfixed hfix) p hp, h.detected (hfixed hfix) p hp, Latch.edges]
      rfl
  · next hok =>
    rw [if_neg hok, List.append_nil] at hgood
    refine ⟨h.sensors, h.undervoltageV, fun hfix => h.limits (hfixed hfix),
      fun hver => h.level (hverbose hver), fun hfix => ?_, fun hfix hver p hp => ?_⟩
    · show ∀ p ∈ l.latches uv hl,
        isSet s.liveDetected p.1 = p.2.run false (goodReadings (.sensors r :: s.trace))
      rw [hgood]
      exact h.detected (hfixed hfix)
    · show alertRecords p.1 (.sensors r :: s.trace) ++ (if isSet s.liveDetected p.1 =
        isSet s.prevDetected p.1 then [] else [isSet s.liveDetected p.1]) =
          p.2.edges false (goodReadings (.sensors r :: s.trace))
      rw [hrecords, hgood]
      exact h.records (hfixed hfix) (hverbose hver) p hp

/-- The edges are logged. -/
theorem Pending.check (h : Pending l uv hl initial s) :
    LatchInv l uv hl initial (checkLocalAlerts s).2 := by
  have hdet : s.currentDetected = s.liveDetected := if_pos h.sensors
  have hrun : (checkLocalAlerts s).2 = (forEach alertedBits (fun bit => do
      when ((s.liveDetected &&& ~~~s.prevDetected) &&& bit ≠ 0)
        (log .WARN (alertText bit s.current s.physics.limits))
      when ((s.prevDetected &&& ~~~s.liveDetected) &&& bit ≠ 0)
        (log .INFO (str "ALERT cleared: " ++ faultName bit)) : UInt32 → AgentM Unit)
      (s.setPrevDetected s.liveDetected)).2 := by
    rw [checkLocalAlerts, bind_run_ok (get_run s), modify_bind_run, hdet]
    rfl
  -- the LOG records are those of the four bits, and no latch moves
  obtain ⟨halerted, hlimits, hlevel⟩ := alertBits_alerted (s.liveDetected &&& ~~~s.prevDetected)
    (s.prevDetected &&& ~~~s.liveDetected) s.current s.physics.limits alertedBits
    (s.setPrevDetected s.liveDetected)
  rw [hrun]
  generalize (forEach alertedBits _ (s.setPrevDetected s.liveDetected)).2 =
    u at halerted hlimits hlevel
  have hlevel' : (s.setPrevDetected s.liveDetected).logLevel = s.logLevel := rfl
  rw [hlevel'] at halerted hlevel
  have hsuffix : s.trace <:+ u.trace := halerted.trace
  have hview := halerted.view
  simp only [Agent.latchView, Prod.mk.injEq] at hview
  obtain ⟨hsensors, huv, hlive, hprev⟩ := hview
  have hlive : u.liveDetected = s.liveDetected := hlive
  -- no reading is among them
  have hgood : goodReadings u.trace = goodReadings s.trace := by
    have hnone : goodReadings (alertedBits.flatMap (alertEvents s.logLevel
        (s.liveDetected &&& ~~~s.prevDetected) (s.prevDetected &&& ~~~s.liveDetected) s.current
        s.physics.limits)).reverse = [] := by
      rw [goodReadings, List.reverse_reverse, List.filterMap_eq_nil_iff]
      intro e he
      obtain ⟨bit, -, he⟩ := List.mem_flatMap.mp he
      rw [alertEvents, List.mem_append] at he
      rcases he with he | he
      · split at he
        · rw [List.mem_singleton.mp he]
        · cases he
      · split at he
        · rw [List.mem_singleton.mp he]
        · cases he
    rw [← goodReadings_filter, halerted.latching, goodReadings, List.reverse_append,
      List.filterMap_append]
    rw [goodReadings] at hnone
    rw [hnone, List.append_nil]
    exact goodReadings_filter s.trace
  have hprev : u.prevDetected = u.liveDetected := hprev.trans hlive.symm
  refine ⟨⟨hsensors.trans h.sensors, huv.trans h.undervoltageV, ?_, ?_, ?_, ?_⟩, hprev⟩
  · exact fun hfix => hlimits.trans (h.limits (hfix.of_suffix hsuffix))
  · exact fun hver => hlevel ▸ h.level (hver.of_suffix hsuffix)
  · rw [hlive, hgood]
    exact fun hfix => h.detected (hfix.of_suffix hsuffix)
  -- the edges logged and the edges of the readings gain the same one
  · intro hfix hver p hp
    have hfix := hfix.of_suffix hsuffix
    have hver := hver.of_suffix hsuffix
    have hbit := fst_mem_latchedBits hp
    rw [hprev, if_pos rfl, List.append_nil, halerted.alertRecords, hgood,
      ← h.records hfix hver p hp]
    refine congrArg (alertRecords p.1 s.trace ++ ·) ?_
    rw [alertRecords, List.reverse_reverse, filterMap_alertEvents (h.level hver) _ _ _ _ hbit,
      isSet_and_not hbit, isSet_and_not hbit]
    cases isSet s.liveDetected p.1 <;> cases isSet s.prevDetected p.1 <;> rfl

/-- One tick: latch each flag on the reading, then log the differences. -/
theorem latchInv_tick : Keeps (Holds (LatchInv l uv hl initial)) tick := by
  intro s h
  have hwithin := sends_sameChecks.within
  have hinj : ∀ s s', Reinjected s s' → SameChecks s s' := by
    intro s s' hr
    cases hr with
    | inject fi t => exact .of rfl [.inject fi t] rfl rfl rfl rfl
    | clearInjected => exact .of rfl [.cleared] rfl rfl rfl rfl
    | fire f t i => exact .of rfl [.fired i f t] rfl rfl rfl rfl
    | tick t mask => exact .of rfl [.tick t mask] rfl rfl rfl rfl
    | _ => exact .of rfl [] rfl rfl rfl rfl
  obtain ⟨t, ht⟩ := exists_run_ok now s
  rw [tick, bind_run_ok ht, unit_bind_run]
  -- before the sensors: the injections and the plant
  have hbefore : SameChecks s (updateInjections t (now s).2).2 :=
    trans_of SameChecks (hwithin.now s) (hwithin.updateInjections hinj t _)
  generalize (updateInjections t (now s).2).2 = s₁ at hbefore
  obtain ⟨readings, hplant⟩ := exists_run_ok
    (ask (·.plant) fun w x => { w with plant := x } : AgentM PlantReadings) s₁
  have hask : SameChecks s₁ (ask (·.plant) (fun w x => { w with plant := x }) s₁).2 :=
    hwithin.ask (·.plant) (fun w x => { w with plant := x }) (fun _ _ => rfl) s₁
  rw [bind_run_ok hplant, modify_bind_run, bind_run_ok (get_run _)]
  have hplanted := trans_of SameChecks (trans_of SameChecks hbefore hask)
    (hwithin.aside _ _ (.stepPlant readings))
  generalize (ask (·.plant) (fun w x => { w with plant := x }) s₁).2.stepPlant readings =
    s₂ at hplanted ⊢
  have h₂ := h.same hplanted
  obtain ⟨paths, hpaths⟩ := Option.isSome_iff_exists.mp h₂.sensors
  obtain ⟨r, w, hread⟩ := readSensors_run paths s₂
  rw [hpaths]
  dsimp only
  rw [unit_bind_run, hread, modify_bind_run, unit_bind_run]
  -- the reading moves the latches; what it changes is logged by `checkLocalAlerts`
  have hpending := h₂.read r w
  generalize (if r.ok then (((s₂.withWorld w).noted (.sensors r)).rebuildLive.measure r)
    else ((s₂.withWorld w).noted (.sensors r)).rebuildLive) = u at hpending ⊢
  have hcomputed : SameChecks u u.noteComputed := .of rfl [.computed u.flagSources] rfl rfl rfl rfl
  -- after the alerts: the sample is sent
  exact (hpending.same hcomputed).check.same
    (hwithin.counts.sendTelemetry (hwithin.counts.sendSample (hwithin.counts.emitSample
      fun t frame s => .of rfl [.datagram t frame] rfl rfl rfl rfl)) _)

/-! ## Runs -/

/-- Every step of the loop. -/
theorem steps_latchInv : Steps (Holds (LatchInv l uv hl initial)) where
  toWithin := sends_sameChecks.within.weaken fun _ _ hs h => h.same hs
  tcpFail why s h := h.same (sends_sameChecks.tcpFail why s)
  setTcpFd _ _ h := h.same (.of rfl [] rfl rfl rfl rfl)
  setRx _ _ _ h := h.same (.of rfl [] rfl rfl rfl rfl)
  goUp s _ _ h := by
    have hup : SameChecks s s.goUp := .of rfl [.connected] rfl rfl rfl rfl
    exact (h.same hup).same (sends_sameChecks.within.sendHello _)
  setConnecting _ _ _ h := h.same (.of rfl [] rfl rfl rfl rfl)
  tick := latchInv_tick
  -- a received frame may change limits and log level, which `handled` asks about
  handleFrame f s _ _ h := by
    obtain ⟨u, hu, hrun⟩ := handleFrame_sameLatch f s
    rw [hrun]
    exact h.handled hu f
  finishOta t s _ _ _ _ h := h.same (sends_sameChecks.within.finishOta
    (fun target t s => .of rfl [.applied target t] rfl rfl rfl rfl)
    (fun _ => .of rfl [] rfl rfl rfl rfl)
    (sends_sameChecks.within.startReboot (fun _ _ => .of rfl [] rfl rfl rfl rfl)
      fun _ => .of rfl [.closed] rfl rfl rfl rfl) t s)
  completeBoot t s _ _ h := by
    refine h.same (sends_sameChecks.within.completeBoot (fun _ _ => .of rfl [] rfl rfl rfl rfl)
      (fun s => ?_) t s)
    -- with new firmware or with the old one
    rw [Agent.install]
    split
    · exact .of rfl [.booted s.pendingFw] rfl rfl rfl rfl
    · exact .of rfl [.booted []] rfl rfl rfl rfl

theorem applyHz_sameChecks (hz : ℤ) : Keeps SameChecks (applyHz hz) := by
  have hset : ∀ hz, Keeps SameChecks (modify (Agent.setHz hz) : AgentM Unit) :=
    fun hz s => .of rfl [] rfl rfl rfl rfl
  have hwithin := sends_sameChecks.within
  exact (hset _).bind fun _ => hwithin.now.bind fun t => hwithin.update fun _ => .startPeriod t

/-- Every state at the top of the loop. -/
theorem latchInv_top (opts : AgentOptions) (cfg : Config) (hl : cfg.limits.Margins)
    (paths : SysfsSensors) (world : World) (n : ℕ) :
    LatchInv cfg.limits opts.undervoltageV hl cfg.logLevel
      (.top opts cfg (some paths) world n) := by
  have hnew : LatchInv cfg.limits opts.undervoltageV hl cfg.logLevel
      (.new opts cfg (some paths) world) := by
    refine ⟨⟨rfl, rfl, fun _ => rfl, fun h => h.1, fun _ p _ => ?_,
      fun _ _ p _ => (List.nil_append _).trans (if_pos rfl)⟩, rfl⟩
    show isSet 0 p.1 = false
    rw [isSet, UInt32.zero_and]
    rfl
  have hinit := hnew.same (applyHz_sameChecks cfg.hz _)
  have hstart : Keeps SameChecks start :=
    sends_sameChecks.within.start fun _ _ => .of rfl [] rfl rfl rfl rfl
  exact steps_latchInv.top (hinit.same (hstart _)) n

end Invariant

/-! ## The latches of a run -/

/-- The bit is the latch of the successful readings; those that stay within the
    margin leave it alone. -/
structure Agent.Latches (s : Agent) (bit : UInt32) (l : Latch SensorReading) : Prop where
  value : isSet s.liveDetected bit = true ↔ l.Latched (goodReadings s.trace)
  band : ∀ before band, goodReadings s.trace = before ++ band →
    (∀ r ∈ band, l.set r = false ∧ l.hold r = true) →
      (isSet s.liveDetected bit = true ↔ l.Latched before)

/-- The records of the bit are the edges of the latch, and alternate; readings
    within the margin add none. -/
structure Agent.LogsEdges (s : Agent) (bit : UInt32) (l : Latch SensorReading) : Prop where
  records : alertRecords bit s.trace = l.edges false (goodReadings s.trace)
  alternates : Latch.Alternates false (alertRecords bit s.trace)
  band : ∀ before band, goodReadings s.trace = before ++ band →
    (∀ r ∈ band, l.set r = false ∧ l.hold r = true) →
      alertRecords bit s.trace = l.edges false before

/-- With the limits of the start in force, the four bits latch; at log level INFO
    or below their edges are logged. -/
theorem thresholds_latch (opts : AgentOptions) (cfg : Config) (hl : cfg.limits.Margins)
    (paths : SysfsSensors) (world : World) (n : ℕ)
    (hfixed : FixedLimits cfg.limits (Agent.top opts cfg (some paths) world n).trace) :
    ∀ p ∈ cfg.limits.latches opts.undervoltageV hl,
      (Agent.top opts cfg (some paths) world n).Latches p.1 p.2 ∧
        (Verbose cfg.logLevel (Agent.top opts cfg (some paths) world n).trace →
          (Agent.top opts cfg (some paths) world n).LogsEdges p.1 p.2) := by
  intro p hp
  have hinv := latchInv_top opts cfg hl paths world n
  have hdetected := hinv.detected hfixed p hp
  refine ⟨⟨?_, fun before band hgood hband => ?_⟩, fun hverbose => ?_⟩
  · rw [hdetected]
    exact p.2.run_iff _
  · rw [hdetected, ← p.2.run_iff, hgood, Latch.run, List.foldl_append]
    exact Bool.eq_iff_iff.mp (p.2.edges_of_band _ hband).1
  · have hrecords := hinv.logged hfixed hverbose hp
    refine ⟨hrecords, hrecords ▸ p.2.alternates_edges _ _, fun before band hgood hband => ?_⟩
    rw [hrecords, hgood, Latch.edges_append, (p.2.edges_of_band _ hband).2, List.append_nil]

/-- Every second reading of the board's thermal zone is above the limit. -/
def zoneSwings : World :=
  { World.idle with
    readDouble := fun n _ => some (F64.ofNat (if n % 2 = 0 then 120000 else 40000)) }

def zoneAgent (logLevel : LogLevel) (n : ℕ) : Agent :=
  .top { deviceId := [0x45] } { logLevel } (some zonePaths) zoneSwings n

/-- No frame is handled. -/
def unhandled (es : List Seen) : Bool :=
  es.all fun
    | .handled _ _ => false
    | _ => true

theorem fixedLimits_of_unhandled {es : List Seen} (h : unhandled es = true) (l : Limits) :
    FixedLimits l es :=
  fun f r hmem => absurd (List.all_eq_true.mp h (.handled f r) hmem) nofun

/-- At log level WARN, the end of an alert is not logged. -/
theorem thresholds_latch_warn :
    FixedLimits {} (zoneAgent .WARN 3).trace ∧
      ¬ Latch.Alternates false (alertRecords F_OVERTEMP (zoneAgent .WARN 3).trace) := by
  have hrecords : alertRecords F_OVERTEMP (zoneAgent .WARN 3).trace = [true, true] := by
    decide +kernel
  refine ⟨fixedLimits_of_unhandled (by decide +kernel) {}, ?_⟩
  rw [hrecords]
  exact fun h => absurd h.2.1 nofun

theorem margins_default : Limits.Margins {} := ⟨by decide +kernel, by decide +kernel⟩

/-- At level INFO it is. -/
theorem thresholds_latch_info :
    ∃ l, (zoneAgent .INFO 3).LogsEdges F_OVERTEMP l :=
  have hunhandled : unhandled (zoneAgent .INFO 3).trace = true := by decide +kernel
  have hlogged := (thresholds_latch { deviceId := [0x45] } { logLevel := .INFO } margins_default
    zonePaths zoneSwings 3 (fixedLimits_of_unhandled hunhandled {}) _ List.mem_cons_self).2
  ⟨_, hlogged ⟨by decide, fun f r hmem =>
    absurd (List.all_eq_true.mp hunhandled (.handled f r) hmem) nofun⟩⟩

end EcuTelemetry.Firmware
