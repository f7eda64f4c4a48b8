/-
  EcuTelemetry.Backend.WriterRegistry

  The registered writer of a device over whole runs.  The handlers of an old and a
  new connection of one device run side by side, and both write the registry: the
  new one when it registers, the old one in its `finally`.  The registered writer is
  that of the connection that has registered last, until its own handler ends
  (`registry_right`).

  `_handle_tcp` takes an empty id for no id, so the writer of a device with the empty
  id stays registered when its handler ends.
-/

import EcuTelemetry.Backend.Reconnects

namespace EcuTelemetry.Backend

open Proc Protocol

variable {F : Type}

/-- The connection whose handler takes a frame. -/
def Event.connection : Event F → Option Nat
  | .frame c _ _ => some c
  | _ => none

namespace Ingest

/-! ## A teardown, exactly -/

/-- The teardown of a connection whose writer is not registered. -/
theorem endHandler_superseded {c : Nat} {s : Ingest F}
    (h : ∀ dev, (s.conn c).deviceId = some dev → dev ≠ "" → Dict.get? s.writers dev ≠ some c) :
    (endHandler c s).2.writers = s.writers ∧ ∀ d, (endHandler c s).2.record d = s.record d := by
  have hnone : ((s.conn c).deviceId.filter fun dev => dev ≠ "" ∧ Dict.get? s.writers dev = some c) =
      none := by
    rcases hdev : (s.conn c).deviceId with _ | dev
    · rfl
    · refine Option.filter_eq_none_iff.mpr fun d hd => ?_
      obtain rfl := Option.some.inj hd
      intro hcond
      obtain ⟨hne, hget⟩ := of_decide_eq_true hcond
      exact h dev hdev hne hget
  obtain ⟨conns, hrun, -⟩ := modifyConn_run c (fun k => { k with closing := true, ended := true }) s
  have hend : endHandler c s = (.ok (), { s with conns := conns }) := by
    rw [endHandler, bind_run_ok (get_run s), bind_run_ok hrun, hnone]
    rfl
  rw [hend]
  exact ⟨rfl, fun d => rfl⟩

/-- The teardown of the connection whose writer is registered. -/
theorem endHandler_registered {c : Nat} {s : Ingest F} {dev : String}
    (hdev : (s.conn c).deviceId = some dev) (hne : dev ≠ "")
    (hget : Dict.get? s.writers dev = some c) :
    (endHandler c s).2.writers = Dict.pop s.writers dev ∧
      ∀ d, (endHandler c s).2.record d =
        if d = dev then { s.record dev with tcpConnected := false } else s.record d := by
  have hsome : ((s.conn c).deviceId.filter fun dev => dev ≠ "" ∧ Dict.get? s.writers dev = some c) =
      some dev := by
    rw [hdev]
    exact Option.filter_eq_some_iff.mpr ⟨rfl, decide_eq_true ⟨hne, hget⟩⟩
  obtain ⟨conns, hrun, -⟩ := modifyConn_run c (fun k => { k with closing := true, ended := true }) s
  obtain ⟨stats, hstats, hrecord⟩ := modifySt_run dev (fun r => { r with tcpConnected := false })
    { s with conns := conns, writers := Dict.pop s.writers dev }
  have hend : endHandler c s =
      (.ok (), { s with conns := conns, writers := Dict.pop s.writers dev, stats := stats }) := by
    rw [endHandler, bind_run_ok (get_run s), bind_run_ok hrun, hsome]
    dsimp only
    rw [modify_bind_run, hstats]
  rw [hend]
  exact ⟨rfl, hrecord⟩

/-! ## Registrations beside the run -/

variable [PyFloat F] [PyText F]

/-- A run of the backend with the connection that has registered each device last. -/
structure Roll (F : Type) where
  ingest : Ingest F
  latest : String → Option Nat

namespace Roll

def start : Roll F := ⟨load (Engine.init {}), fun _ => none⟩

def step (t : Roll F) (e : Event F) : Roll F where
  ingest := t.ingest.step e
  latest d := if t.ingest.registers e = some d then e.connection else t.latest d

/-- The state after a run, with the registrations. -/
def run (events : List (Event F)) : Roll F := exec step start events

end Roll

/-- The registry is that of the latest registrations. -/
structure RegistryRight (t : Roll F) : Prop where
  distinct : Dict.Distinct t.ingest.writers
  connected : ∀ d, (t.ingest.record d).tcpConnected = (Dict.get? t.ingest.writers d).isSome
  /-- a connection keeps the device it has registered -/
  own : ∀ d c, t.latest d = some c → (t.ingest.conn c).deviceId = some d
  latest : ∀ d c, Dict.get? t.ingest.writers d = some c → t.latest d = some c
  alive : ∀ d c, t.latest d = some c → (t.ingest.conn c).ended = false →
    Dict.get? t.ingest.writers d = some c
  ended : ∀ d c, Dict.get? t.ingest.writers d = some c → d ≠ "" → (t.ingest.conn c).ended = false

/-! ## One event -/

section Step

variable {latest : String → Option Nat} {s s' : Ingest F}

omit [PyFloat F] [PyText F] in
/-- Only what the registry is made of counts. -/
theorem RegistryRight.congr (h : RegistryRight ⟨s, latest⟩) (hwriters : s'.writers = s.writers)
    (hconn : ∀ c, (s'.conn c).deviceId = (s.conn c).deviceId ∧ (s'.conn c).ended = (s.conn c).ended)
    (hrecord : ∀ d, (s'.record d).tcpConnected = (s.record d).tcpConnected) :
    RegistryRight ⟨s', latest⟩ := by
  -- each clause reads the writers, the link of a connection or `tcp_connected`
  refine ⟨?_, fun d => ?_, fun d c hd => ?_, fun d c hd => ?_, fun d c hd hlive => ?_,
    fun d c hd hne => ?_⟩
  · show Dict.Distinct s'.writers
    rw [hwriters]
    exact h.distinct
  · show (s'.record d).tcpConnected = (Dict.get? s'.writers d).isSome
    rw [hrecord, hwriters]
    exact h.connected d
  · exact ((hconn c).1).trans (h.own d c hd)
  · refine h.latest d c ?_
    rw [← hwriters]
    exact hd
  · show Dict.get? s'.writers d = some c
    rw [hwriters]
    exact h.alive d c hd ((hconn c).2.symm.trans hlive)
  · refine (hconn c).2.trans (h.ended d c ?_ hne)
    rw [← hwriters]
    exact hd

omit [PyFloat F] [PyText F] in
theorem RegistryRight.same (h : RegistryRight ⟨s, latest⟩) (hsame : SameRegistry s s') :
    RegistryRight ⟨s', latest⟩ := by
  have hconn : ∀ c, s'.conn c = s.conn c := fun c => by rw [conn, conn, hsame.conns]
  exact h.congr hsame.writers (fun c => by rw [hconn c]; exact ⟨rfl, rfl⟩) fun d => (hsame.link d).1

omit [PyFloat F] [PyText F] in
/-- A teardown unregisters the writer of its own connection and no other. -/
theorem RegistryRight.endHandler (h : RegistryRight ⟨s, latest⟩) (c : Nat) :
    RegistryRight ⟨(endHandler c s).2, latest⟩ := by
  have htorn := endHandler_spec c s
  have hdevice : ∀ k, ((Ingest.endHandler c s).2.conn k).deviceId = (s.conn k).deviceId := by
    intro k
    by_cases hk : k = c
    · rw [hk]
      exact htorn.own.1
    · rw [htorn.others k hk]
  -- a handler that still runs is another one, and nothing of it has changed
  have hlive : ∀ k, ((Ingest.endHandler c s).2.conn k).ended = false →
      k ≠ c ∧ (s.conn k).ended = false := by
    intro k hk
    by_cases hkc : k = c
    · rw [hkc, htorn.own.2] at hk
      cases hk
    · rw [htorn.others k hkc] at hk
      exact ⟨hkc, hk⟩
  -- either the connection is the registered writer of its device, or it has been superseded
  by_cases hregistered : ∃ dev, (s.conn c).deviceId = some dev ∧ dev ≠ "" ∧
      Dict.get? s.writers dev = some c
  · obtain ⟨dev, hdev, hne, hget⟩ := hregistered
    obtain ⟨hwriters, hrecord⟩ := endHandler_registered hdev hne hget
    -- the one entry that goes is its own
    have hpop : ∀ d, Dict.get? (Ingest.endHandler c s).2.writers d =
        if d = dev then none else Dict.get? s.writers d := by
      intro d
      rw [hwriters]
      split
      · next hd =>
        rw [hd]
        exact Dict.get?_pop_self (.of_lawful dev) h.distinct
      · next hd => exact Dict.get?_pop_ne (.of_lawful dev) (.of_lawful d) (Ne.symm hd)
    refine ⟨?_, fun d => ?_, fun d k hk => (hdevice k).trans (h.own d k hk), fun d k hk => ?_,
      fun d k hk hend => ?_, fun d k hk hd => ?_⟩
    · show Dict.Distinct (Ingest.endHandler c s).2.writers
      rw [hwriters]
      exact h.distinct.pop
    · show ((Ingest.endHandler c s).2.record d).tcpConnected = (Dict.get? _ d).isSome
      rw [hpop, hrecord]
      split
      · rfl
      · exact h.connected d
    · rw [hpop] at hk
      split at hk
      · cases hk
      · exact h.latest d k hk
    · -- another connection, so another device
      obtain ⟨hkc, hbefore⟩ := hlive k hend
      have hsame := h.alive d k hk hbefore
      show Dict.get? (Ingest.endHandler c s).2.writers d = some k
      rw [hpop, if_neg, hsame]
      rintro rfl
      rw [hget] at hsame
      exact hkc (Option.some.inj hsame).symm
    · rw [hpop] at hk
      split at hk
      · cases hk
      next hother =>
      have hkc : k ≠ c := by
        rintro rfl
        have hown := h.own d k (h.latest d k hk)
        rw [hdev] at hown
        exact hother (Option.some.inj hown).symm
      show ((Ingest.endHandler c s).2.conn k).ended = false
      rw [htorn.others k hkc]
      exact h.ended d k hk hd
  · have hnot : ∀ dev, (s.conn c).deviceId = some dev → dev ≠ "" →
        Dict.get? s.writers dev ≠ some c :=
      fun dev hdev hne hget => hregistered ⟨dev, hdev, hne, hget⟩
    -- superseded: writers and records are as before
    obtain ⟨hwriters, hrecord⟩ := endHandler_superseded hnot
    refine ⟨?_, fun d => ?_, fun d k hk => (hdevice k).trans (h.own d k hk), fun d k hk => ?_,
      fun d k hk hend => ?_, fun d k hk hd => ?_⟩
    · show Dict.Distinct (Ingest.endHandler c s).2.writers
      rw [hwriters]
      exact h.distinct
    · show ((Ingest.endHandler c s).2.record d).tcpConnected = (Dict.get? _ d).isSome
      rw [hrecord, hwriters]
      exact h.connected d
    · refine h.latest d k ?_
      rw [← hwriters]
      exact hk
    · show Dict.get? (Ingest.endHandler c s).2.writers d = some k
      rw [hwriters]
      exact h.alive d k hk (hlive k hend).2
    · replace hk : Dict.get? s.writers d = some k := hwriters ▸ hk
      have hkc : k ≠ c := by
        rintro rfl
        exact hnot d (h.own d k (h.latest d k hk)) hd hk
      show ((Ingest.endHandler c s).2.conn k).ended = false
      rw [htorn.others k hkc]
      exact h.ended d k hk hd

omit [PyFloat F] [PyText F] in
theorem RegistryRight.torn (h : RegistryRight ⟨s, latest⟩) (htorn : Torn s s') :
    RegistryRight ⟨s', latest⟩ := by
  cases htorn with
  | not => exact h
  | down c => exact h.endHandler c

omit [PyText F] in
/-- A registration puts the connection in the place of the one before. -/
theorem RegistryRight.registered (h : RegistryRight ⟨s, latest⟩) {c : Nat} {dev : String}
    (hfirst : (s.conn c).deviceId = none) (halive : (s.conn c).ended = false)
    (hreg : RegisteredBy c dev s s') :
    RegistryRight ⟨s', fun d => if d = dev then some c else latest d⟩ := by
  have hget : ∀ d, Dict.get? s'.writers d = if d = dev then some c else Dict.get? s.writers d := by
    intro d
    rw [hreg.writers]
    by_cases hd : d = dev
    · rw [if_pos hd, hd, Dict.get?_set_self (.of_lawful dev)]
    · rw [if_neg hd, Dict.get?_set_ne (.of_lawful dev) (.of_lawful d) (Ne.symm hd)]
  -- a connection that has registered before is another one
  have hother : ∀ d k, latest d = some k → k ≠ c := by
    rintro d k hk rfl
    have hown := h.own d k hk
    rw [show (s.conn k).deviceId = none from hfirst] at hown
    cases hown
  refine ⟨?_, fun d => ?_, fun d k hk => ?_, fun d k hk => ?_, fun d k hk hend => ?_,
    fun d k hk hd => ?_⟩
  · show Dict.Distinct s'.writers
    rw [hreg.writers]
    exact h.distinct.set (.of_lawful dev)
  · show (s'.record d).tcpConnected = (Dict.get? s'.writers d).isSome
    rw [hget, hreg.record]
    split
    · rfl
    · exact h.connected d
  · show (s'.conn k).deviceId = some d
    dsimp only at hk
    split at hk
    · next hd =>
      obtain rfl := Option.some.inj hk
      rw [hreg.own.1, hd]
    · rw [(hreg.others k (hother d k hk)).1]
      exact h.own d k hk
  · show (if d = dev then some c else latest d) = some k
    replace hk : Dict.get? s'.writers d = some k := hk
    rw [hget] at hk
    by_cases hd : d = dev
    · rw [if_pos hd] at hk ⊢
      exact hk
    · rw [if_neg hd] at hk ⊢
      exact h.latest d k hk
  · show Dict.get? s'.writers d = some k
    rw [hget]
    dsimp only at hk
    by_cases hd : d = dev
    · rw [if_pos hd] at hk ⊢
      exact hk
    · rw [if_neg hd] at hk ⊢
      exact h.alive d k hk ((hreg.others k (hother d k hk)).2.symm.trans hend)
  · show (s'.conn k).ended = false
    replace hk : Dict.get? s'.writers d = some k := hk
    rw [hget] at hk
    split at hk
    · obtain rfl := Option.some.inj hk
      rw [hreg.own.2]
      exact halive
    · rw [(hreg.others k (hother d k (h.latest d k hk))).2]
      exact h.ended d k hk hd

omit [PyFloat F] [PyText F] in
/-- A connection after all of them are changed. -/
theorem get?_map_conns (f : Conn → Conn) (conns : Dict Nat Conn) (c : Nat) :
    Dict.get? (conns.map fun e => (e.1, f e.2)) c = (Dict.get? conns c).map f := by
  induction conns with
  | nil => rfl
  | cons e conns ih =>
    obtain ⟨k, v⟩ := e
    simp only [List.map_cons, Dict.get?]
    split
    · rfl
    · exact ih

omit [PyFloat F] [PyText F] in
/-- No connection is loaded from the database. -/
theorem tcpConnected_load (engine : Engine F) (dev : String) :
    ((load engine).record dev).tcpConnected = false := by
  rw [record, load, get?_load]
  generalize engine.db.deviceStats.reverse.find? (fun x => decide (x.deviceId = dev)) = last
  cases last <;> rfl

/-- A new process has no writers, and all the handlers are gone. -/
theorem RegistryRight.restart (h : RegistryRight ⟨s, latest⟩) :
    RegistryRight ⟨(restart s).2, latest⟩ := by
  have hconn : ∀ c, (Ingest.restart s).2.conn c =
      ((Dict.get? s.conns c).map fun k => { k with closing := true, ended := true }).getD {} :=
    fun c => congrArg (fun o : Option Conn => o.getD {})
      (get?_map_conns (fun k => { k with closing := true, ended := true }) s.conns c)
  -- the connection that has registered is known, so its handler has ended
  have hknown : ∀ d c, latest d = some c → ∃ k, Dict.get? s.conns c = some k ∧
      k.deviceId = some d := by
    intro d c hd
    have hown : (s.conn c).deviceId = some d := h.own d c hd
    rw [conn] at hown
    rcases hget : Dict.get? s.conns c with _ | k
    · rw [hget] at hown
      cases hown
    · rw [hget] at hown
      exact ⟨k, rfl, hown⟩
  refine ⟨List.nodup_nil, fun d => tcpConnected_load _ d, fun d c hd => ?_, nofun,
    fun d c hd hend => ?_, nofun⟩
  · obtain ⟨k, hget, hown⟩ := hknown d c hd
    show ((Ingest.restart s).2.conn c).deviceId = some d
    rw [hconn, hget]
    exact hown
  · obtain ⟨k, hget, -⟩ := hknown d c hd
    replace hend : ((Ingest.restart s).2.conn c).ended = false := hend
    rw [hconn, hget] at hend
    cases hend

omit [PyFloat F] [PyText F] in
/-- `writer.close()` ends no handler. -/
theorem RegistryRight.lost (h : RegistryRight ⟨s, latest⟩) (c : Nat) :
    RegistryRight ⟨(modifyConn c (fun k => { k with closing := true }) s).2, latest⟩ := by
  obtain ⟨conns, hrun, hconn⟩ := modifyConn_run c (fun k => { k with closing := true }) s
  rw [hrun]
  refine h.congr rfl (fun k => ?_) fun d => rfl
  show ((Dict.get? conns k).getD {}).deviceId = _ ∧ ((Dict.get? conns k).getD {}).ended = _
  rw [hconn k]
  split
  · next hk => exact hk ▸ ⟨rfl, rfl⟩
  · exact ⟨rfl, rfl⟩

end Step

/-- Every event keeps the registry right. -/
theorem RegistryRight.step {t : Roll F} (h : RegistryRight t) (e : Event F) :
    RegistryRight (t.step e) := by
  obtain ⟨s, latest⟩ := t
  -- the event that registers no device
  have hquiet : s.registers e = none → Roll.step ⟨s, latest⟩ e = ⟨s.step e, latest⟩ := by
    intro hnone
    rw [Roll.step]
    congr 1
    funext d
    rw [if_neg]
    show s.registers e ≠ some d
    rw [hnone]
    exact Option.some_ne_none d |>.symm
  have hstep := step_registry s e
  generalize hs' : s.step e = s' at hstep
  rw [hs'] at hquiet
  cases hstep with
  | work _ hrestart hnone hwork htorn =>
    rw [hquiet hnone]
    exact (h.same hwork).torn htorn
  | registered c f clock htakes hfirst hwork htorn =>
    have hregisters : s.registers (.frame c f clock) = some f.deviceId := if_pos ⟨htakes, hfirst⟩
    have halive : (s.conn c).ended = false := by
      simp only [takes, Bool.and_eq_true, Bool.not_eq_true'] at htakes
      exact htakes.1.1
    have hlatest : Roll.step ⟨s, latest⟩ (.frame c f clock) =
        ⟨s', fun d => if d = f.deviceId then some c else latest d⟩ := by
      rw [Roll.step, hregisters]
      congr 1
      funext d
      by_cases hd : d = f.deviceId
      · rw [if_pos (congrArg some hd.symm), if_pos hd]
        rfl
      · rw [if_neg (fun heq => hd (Option.some.inj heq).symm), if_neg hd]
    rw [hlatest]
    exact ((h.registered hfirst halive (registerFirst_spec hfirst)).same hwork).torn htorn
  | lost c =>
    rw [hquiet rfl]
    exact h.lost c
  | restarted =>
    rw [hquiet rfl]
    exact h.restart

omit [PyText F] in
theorem RegistryRight.start : RegistryRight (Roll.start (F := F)) :=
  ⟨List.nodup_nil, fun d => tcpConnected_load _ d, nofun, nofun, nofun, nofun⟩

/-- The run beside which the registrations are kept is the backend's. -/
theorem roll_ingest (events : List (Event F)) : (Roll.run events).ingest = Ingest.run events := by
  have h : ∀ (es : List (Event F)) (t : Roll F),
      (exec Roll.step t es).ingest = exec step t.ingest es := by
    intro es
    induction es with
    | nil => exact fun _ => rfl
    | cons e es ih => exact fun t => ih (t.step e)
  exact h events Roll.start

/-- The connection that has registered a device last. -/
def latestRegistration (events : List (Event F)) (d : String) : Option Nat :=
  (Roll.run events).latest d

/-- In every state reached, the writer of a device is that of the connection that has
    registered it last, which is there as long as the handler of that connection runs and
    shows as `tcp_connected`: no handler that ends takes the writer of another. -/
theorem registry_right (events : List (Event F)) (d : String) (c : Nat) :
    (((Ingest.run events).record d).tcpConnected = true ↔
        ∃ k, Dict.get? (Ingest.run events).writers d = some k) ∧
      (Dict.get? (Ingest.run events).writers d = some c →
        latestRegistration events d = some c ∧ ((Ingest.run events).conn c).deviceId = some d ∧
          (d ≠ "" → ((Ingest.run events).conn c).ended = false)) ∧
      (latestRegistration events d = some c → ((Ingest.run events).conn c).ended = false →
        Dict.get? (Ingest.run events).writers d = some c) := by
  have h : RegistryRight (Roll.run events) :=
    exec_invariant (P := RegistryRight) (fun _ e h => h.step e) .start
  rw [← roll_ingest]
  refine ⟨?_, fun hget => ⟨h.latest d c hget, h.own d c (h.latest d c hget), h.ended d c hget⟩,
    h.alive d c⟩
  rw [h.connected, Option.isSome_iff_exists]

end Ingest

end EcuTelemetry.Backend
