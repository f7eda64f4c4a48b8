/-
  EcuTelemetry.Sim.ProxyRelay

  The way of a datagram through sim/lossy_proxy.py: what `datagram_received` draws
  and decides, the timers and tasks of its copies, the upstream socket that `_send`
  looks up or opens, and the way back.

  A task waits while its socket is opened, so the tasks of one client overlap; and
  timers may go off in any order.
-/

import EcuTelemetry.Backend.Anomaly
import EcuTelemetry.Sim.LossyProxy

namespace EcuTelemetry.Sim

open Backend

/-! ## Datagrams and draws -/

/-- Host and port. -/
abbrev Addr := String × Nat

structure Datagram where
  data : List Byte
  client : Addr
deriving DecidableEq

/-- What `rng` returns for one datagram: for each copy the draw of `uniform` and the one
    for a reordering. -/
structure Draws (F : Type) where
  drop : F
  dup : F
  first : F × F
  second : F × F

variable {F : Type} [PyFloat F]

/-- `if x`, of a float. -/
def truthy (x : F) : Bool := !PyFloat.eqInt x 0

/-- `rng.uniform(a, b)`, from what `random()` returns. -/
def uniform (a b r : F) : F := PyFloat.add a (PyFloat.mul (PyFloat.sub b a) r)

namespace Impairments

/-- How many copies of a datagram go on. -/
def copies (imp : Impairments F) (draws : Draws F) : Nat :=
  if PyFloat.lt draws.drop imp.drop then 0
  else if truthy imp.dup && PyFloat.lt draws.dup imp.dup then 2
  else 1

/-- A copy is held back. -/
def holdsBack (imp : Impairments F) (draw : F × F) : Bool :=
  truthy imp.reorder && PyFloat.lt draw.2 imp.reorder

/-- The delay of a copy in milliseconds. -/
def delay (imp : Impairments F) (draw : F × F) : F :=
  let delay := PyFloat.add imp.delayMs (uniform (PyFloat.ofRat 0) imp.jitterMs draw.1)
  if imp.holdsBack draw then
    PyFloat.add delay (Engine.pyMax (Engine.pyMax (PyFloat.mul (PyFloat.ofRat 2) imp.delayMs)
      (PyFloat.mul (PyFloat.ofRat 2) imp.jitterMs)) (PyFloat.ofRat 30))
  else delay

end Impairments

/-! ## The relay -/

/-- An upstream socket and the client it was opened for. -/
structure Endpoint where
  client : Addr
  /-- `is_closing()` -/
  closing : Bool := false
deriving DecidableEq

/-- A datagram on its way back. -/
structure Reply where
  endpoint : Nat
  data : List Byte
  client : Addr
deriving DecidableEq

/-- `ProxyProtocol` with its `Stats`. -/
structure Relay (F : Type) where
  imp : Impairments F
  received : Nat := 0
  forwarded : Nat := 0
  dropped : Nat := 0
  duplicated : Nat := 0
  reordered : Nat := 0
  returned : Nat := 0
  upstreams : Dict Addr Nat := []
  /-- all sockets that were opened -/
  endpoints : List Endpoint := []
  /-- copies that wait for their delay -/
  timers : List (F × Datagram) := []
  /-- copies whose `_send` has not begun -/
  tasks : List Datagram := []
  /-- copies whose `_send` waits for its socket -/
  opening : List Datagram := []
  /-- history variable: the datagrams received, each with the number of its copies -/
  arrived : List (Datagram × Nat) := []
  /-- history variable: the datagrams given to a socket -/
  sent : List (Nat × Datagram) := []
  /-- history variable: the copies that raised an `OSError` -/
  failed : List Datagram := []
  /-- history variable -/
  replies : List Reply := []

namespace Relay

/-- One turn of the loop over the copies. -/
def launch (d : Datagram) (s : Relay F) (draw : F × F) : Relay F :=
  let delay := s.imp.delay draw
  let s := if s.imp.holdsBack draw then { s with reordered := s.reordered + 1 } else s
  if PyFloat.le delay (PyFloat.ofRat 0) then { s with tasks := s.tasks ++ [d] }
  else { s with timers := s.timers ++ [(delay, d)] }

/-- `datagram_received`. -/
def datagramReceived (s : Relay F) (d : Datagram) (draws : Draws F) : Relay F :=
  let n := s.imp.copies draws
  let s := { s with received := s.received + 1, arrived := s.arrived ++ [(d, n)] }
  if n = 0 then { s with dropped := s.dropped + 1 }
  else
    let s := if n = 2 then { s with duplicated := s.duplicated + 1 } else s
    ([draws.first, draws.second].take n).foldl (launch d) s

/-- `sendto`. -/
def sendto (s : Relay F) (d : Datagram) (endpoint : Nat) (ok : Bool) : Relay F :=
  if ok then { s with sent := s.sent ++ [(endpoint, d)], forwarded := s.forwarded + 1 }
  else { s with failed := s.failed ++ [d] }

/-- `self.upstreams.get(client_addr)`, unless it is closing. -/
def upstream (s : Relay F) (client : Addr) : Option Nat :=
  (s.upstreams.get? client).filter fun e => (s.endpoints[e]?).any fun p => !p.closing

/-- `_send` up to its `await`. -/
def send (s : Relay F) (d : Datagram) (ok : Bool) : Relay F :=
  match s.upstream d.client with
  | some e => s.sendto d e ok
  | none => { s with opening := s.opening ++ [d] }

/-- `_send` from its `await` on. -/
def opened (s : Relay F) (d : Datagram) (created ok : Bool) : Relay F :=
  if created then
    let e := s.endpoints.length
    let s := { s with
      endpoints := s.endpoints ++ [Endpoint.mk d.client false]
      upstreams := s.upstreams.set d.client e }
    s.sendto d e ok
  else { s with failed := s.failed ++ [d] }

/-- `ReturnProtocol.datagram_received`. -/
def returnToClient (s : Relay F) (e : Nat) (data : List Byte) : Relay F :=
  match s.endpoints[e]? with
  | some p => { s with replies := s.replies ++ [⟨e, data, p.client⟩], returned := s.returned + 1 }
  | none => s

end Relay

/-- What happens to the relay; `ok` and `created` say whether the socket calls raise. -/
inductive RelayEvent (F : Type)
  | datagram (d : Datagram) (draws : Draws F)
  /-- the delay of a copy is over -/
  | timer (i : Nat)
  /-- the task of a copy begins -/
  | task (i : Nat) (ok : Bool)
  /-- the socket of a task is there, or is not -/
  | socket (i : Nat) (created ok : Bool)
  /-- a socket is closed -/
  | closing (e : Nat)
  /-- the backend answers -/
  | reply (e : Nat) (data : List Byte)
  /-- `POST /set` -/
  | set (values : Dict String (Json F))

namespace Relay

def step (s : Relay F) : RelayEvent F → Relay F
  | .datagram d draws => s.datagramReceived d draws
  | .timer i =>
    match s.timers[i]? with
    | none => s
    | some (_, d) => { s with timers := s.timers.eraseIdx i, tasks := s.tasks ++ [d] }
  | .task i ok =>
    match s.tasks[i]? with
    | none => s
    | some d => { s with tasks := s.tasks.eraseIdx i }.send d ok
  -- the socket that a datagram waited for, whether it could be opened
  | .socket i created ok =>
    match s.opening[i]? with
    | none => s
    | some d => { s with opening := s.opening.eraseIdx i }.opened d created ok
  | .closing e =>
    { s with endpoints := s.endpoints.modify e fun p => { p with closing := true } }
  | .reply e data => s.returnToClient e data
  | .set values => { s with imp := (s.imp.post values).2 }

def run (imp : Impairments F) (events : List (RelayEvent F)) : Relay F :=
  exec step { imp := imp } events

end Relay

/-! ## The flow of the copies -/

namespace Relay

/-- The copies, wherever they are. -/
def copiesNow (s : Relay F) : List Datagram :=
  s.sent.map Prod.snd ++ s.failed ++ s.opening ++ (s.tasks ++ s.timers.map Prod.snd)

/-- The copies that were made. -/
def copiesMade (s : Relay F) : List Datagram := s.arrived.flatMap fun a => List.replicate a.2 a.1

/-- No copy is lost or made up, and the counters count. -/
structure Flow (s : Relay F) : Prop where
  copies : s.copiesNow.Perm s.copiesMade
  atMost : ∀ a ∈ s.arrived, a.2 ≤ 2
  received : s.received = s.arrived.length
  dropped : s.dropped = s.arrived.countP (·.2 = 0)
  duplicated : s.duplicated = s.arrived.countP (·.2 = 2)
  forwarded : s.forwarded = s.sent.length
  returned : s.returned = s.replies.length

omit [PyFloat F] in
/-- A copy moves. -/
theorem Flow.moved {s s' : Relay F} (h : s.Flow) (hcopies : s'.copiesNow.Perm s.copiesNow)
    (harrived : s'.arrived = s.arrived) (hreceived : s'.received = s.received)
    (hdropped : s'.dropped = s.dropped) (hduplicated : s'.duplicated = s.duplicated)
    (hforwarded : s'.forwarded = s'.sent.length) (hreturned : s'.returned = s'.replies.length) :
    s'.Flow where
  copies := hcopies.trans (by rw [copiesMade, harrived]; exact h.copies)
  atMost := harrived ▸ h.atMost
  received := by rw [hreceived, harrived, h.received]
  dropped := by rw [hdropped, harrived, h.dropped]
  duplicated := by rw [hduplicated, harrived, h.duplicated]
  forwarded := hforwarded
  returned := hreturned

/-- A turn of the loop puts one copy on its way. -/
theorem launch_eq (d : Datagram) (s : Relay F) (draw : F × F) :
    ∃ timers tasks reordered,
      s.launch d draw = { s with timers := timers, tasks := tasks, reordered := reordered } ∧
      (tasks ++ timers.map Prod.snd).Perm (d :: (s.tasks ++ s.timers.map Prod.snd)) := by
  have htask : (s.tasks ++ [d] ++ s.timers.map Prod.snd).Perm
      (d :: (s.tasks ++ s.timers.map Prod.snd)) := by
    rw [List.append_assoc]
    exact List.perm_middle
  have htimer : ∀ delay : F, (s.tasks ++ (s.timers ++ [(delay, d)]).map Prod.snd).Perm
      (d :: (s.tasks ++ s.timers.map Prod.snd)) := by
    intro delay
    rw [List.map_append, ← List.append_assoc]
    exact List.perm_append_comm
  rw [launch]
  -- without a delay the copy becomes a task, else it gets a timer
  by_cases hnow : PyFloat.le (s.imp.delay draw) (PyFloat.ofRat 0) = true
  · rw [if_pos hnow]
    cases s.imp.holdsBack draw with
    | true => exact ⟨_, _, _, rfl, htask⟩
    | false => exact ⟨_, _, _, rfl, htask⟩
  · rw [if_neg hnow]
    cases s.imp.holdsBack draw with
    | true => exact ⟨_, _, _, rfl, htimer _⟩
    | false => exact ⟨_, _, _, rfl, htimer _⟩

/-- Launching copies adds timers and tasks, and nothing else. -/
theorem launches_eq (d : Datagram) (s : Relay F) (draws : List (F × F)) :
    ∃ timers tasks reordered,
      draws.foldl (launch d) s =
        { s with timers := timers, tasks := tasks, reordered := reordered } ∧
      (tasks ++ timers.map Prod.snd).Perm
        (List.replicate draws.length d ++ (s.tasks ++ s.timers.map Prod.snd)) := by
  induction draws generalizing s with
  | nil => exact ⟨_, _, _, rfl, List.Perm.refl _⟩
  | cons draw draws ih =>
    obtain ⟨timers, tasks, k, hlaunch, hone⟩ := launch_eq d s draw
    obtain ⟨timers', tasks', k', hrest, hmore⟩ := ih (s.launch d draw)
    refine ⟨timers', tasks', k', ?_, hmore.trans ?_⟩
    · rw [List.foldl_cons, hrest, hlaunch]
    · rw [hlaunch, List.length_cons, List.replicate_succ, List.cons_append]
      exact (hone.append_left _).trans List.perm_middle

theorem copies_le (imp : Impairments F) (draws : Draws F) : imp.copies draws ≤ 2 := by
  rw [Impairments.copies]
  split_ifs <;> omega

/-- A datagram is dropped, or launched once or twice. -/
theorem flow_datagramReceived {s : Relay F} (h : s.Flow) (d : Datagram) (draws : Draws F) :
    (s.datagramReceived d draws).Flow := by
  obtain ⟨n, hn⟩ : ∃ n, n = s.imp.copies draws := ⟨_, rfl⟩
  have hle : n ≤ 2 := hn ▸ copies_le s.imp draws
  have hatMost : ∀ a ∈ s.arrived ++ [(d, n)], a.2 ≤ 2 := by
    intro a ha
    rcases List.mem_append.mp ha with ha | ha
    · exact h.atMost a ha
    · rw [List.mem_singleton.mp ha]
      exact hle
  -- what the books say of the datagrams seen so far
  have hmade : (s.arrived ++ [(d, n)]).flatMap (fun a => List.replicate a.2 a.1) =
      s.copiesMade ++ List.replicate n d := by
    rw [List.flatMap_append, List.flatMap_singleton, copiesMade]
  have hreceived : s.received + 1 = (s.arrived ++ [(d, n)]).length := by
    rw [List.length_append, h.received]
    rfl
  have hcount : ∀ k, (s.arrived ++ [(d, n)]).countP (·.2 = k) =
      s.arrived.countP (·.2 = k) + if n = k then 1 else 0 := by
    intro k
    rw [List.countP_append, List.countP_singleton]
    simp only [decide_eq_true_eq]
  rw [datagramReceived, ← hn]
  dsimp only
  -- dropped: no copy, and `dropped` counts it
  by_cases hzero : n = 0
  · rw [if_pos hzero]
    refine ⟨?_, hatMost, hreceived, ?_, ?_, h.forwarded, h.returned⟩
    · show s.copiesNow.Perm ((s.arrived ++ [(d, n)]).flatMap _)
      rw [hmade, hzero, List.replicate_zero, List.append_nil]
      exact h.copies
    · show s.dropped + 1 = (s.arrived ++ [(d, n)]).countP _
      rw [hcount, h.dropped, if_pos hzero]
    · show s.duplicated = (s.arrived ++ [(d, n)]).countP _
      rw [hcount, h.duplicated, if_neg (by omega), Nat.add_zero]
  · rw [if_neg hzero]
    have hlen : ([draws.first, draws.second].take n).length = n := by
      rw [List.length_take]
      exact Nat.min_eq_left hle
    -- each copy goes to the timers or to the tasks
    generalize hstart : (if n = 2 then _ else _ : Relay F) = t
    obtain ⟨timers, tasks, k, hloop, hcopies⟩ :=
      launches_eq d t ([draws.first, draws.second].take n)
    rw [hlen] at hcopies
    have ht : t = { s with
        received := s.received + 1
        arrived := s.arrived ++ [(d, n)]
        duplicated := s.duplicated + if n = 2 then 1 else 0 } := by
      rw [← hstart]
      split <;> rfl
    rw [hloop, ht]
    rw [ht] at hcopies
    refine ⟨?_, hatMost, hreceived, ?_, ?_, h.forwarded, h.returned⟩
    · show (s.sent.map Prod.snd ++ s.failed ++ s.opening ++ (tasks ++ timers.map Prod.snd)).Perm
        ((s.arrived ++ [(d, n)]).flatMap _)
      rw [hmade]
      -- the new copies come at the end of the timers and the tasks
      refine (hcopies.append_left _).trans ?_
      refine (List.perm_append_comm_assoc _ _ _).trans (List.perm_append_comm.trans ?_)
      exact h.copies.append_right _
    · show s.dropped = (s.arrived ++ [(d, n)]).countP _
      rw [hcount, h.dropped, if_neg hzero, Nat.add_zero]
    · show s.duplicated + _ = (s.arrived ++ [(d, n)]).countP _
      rw [hcount, h.duplicated]

omit [PyFloat F] in
theorem count_copiesNow (s : Relay F) (x : Datagram) : s.copiesNow.count x =
    (s.sent.map Prod.snd).count x + s.failed.count x + s.opening.count x +
      (s.tasks.count x + (s.timers.map Prod.snd).count x) := by
  simp only [copiesNow, List.count_append]

omit [PyFloat F] in
/-- `sendto` puts a copy among the sent or the failed ones. -/
theorem sendto_copiesNow (s : Relay F) (d : Datagram) (e : Nat) (ok : Bool) :
    (s.sendto d e ok).copiesNow.Perm (d :: s.copiesNow) := by
  refine List.perm_iff_count.mpr fun x => ?_
  rw [count_copiesNow, List.count_cons, count_copiesNow]
  cases ok with
  | true =>
    simp only [sendto, if_true, List.map_append, List.count_append, List.map_cons, List.map_nil,
      List.count_singleton]
    omega
  | false =>
    simp only [sendto, Bool.false_eq_true, if_false, List.count_append, List.count_singleton]
    omega

/-- The element at an index, and the rest. -/
theorem perm_of_getElem? {α : Type} {l : List α} {i : Nat} {a : α} (h : l[i]? = some a) :
    (a :: l.eraseIdx i).Perm l := by
  obtain ⟨hlt, rfl⟩ := List.getElem?_eq_some_iff.mp h
  exact List.getElem_cons_eraseIdx_perm hlt

omit [PyFloat F] in
/-- A task that begins takes its copy along. -/
theorem perm_tasks {s : Relay F} {i : Nat} {d : Datagram} (h : s.tasks[i]? = some d) :
    (d :: copiesNow { s with tasks := s.tasks.eraseIdx i }).Perm s.copiesNow := by
  refine List.perm_iff_count.mpr fun x => ?_
  have hcount := (perm_of_getElem? h).count_eq x
  rw [List.count_cons] at hcount ⊢
  rw [count_copiesNow, count_copiesNow]
  dsimp only
  omega

omit [PyFloat F] in
/-- A task that goes on too. -/
theorem perm_opening {s : Relay F} {i : Nat} {d : Datagram} (h : s.opening[i]? = some d) :
    (d :: copiesNow { s with opening := s.opening.eraseIdx i }).Perm s.copiesNow := by
  refine List.perm_iff_count.mpr fun x => ?_
  have hcount := (perm_of_getElem? h).count_eq x
  rw [List.count_cons] at hcount ⊢
  rw [count_copiesNow, count_copiesNow]
  dsimp only
  omega

omit [PyFloat F] in
/-- A timer becomes a task. -/
theorem perm_timers {s : Relay F} {i : Nat} {delay : F} {d : Datagram}
    (h : s.timers[i]? = some (delay, d)) :
    (copiesNow { s with timers := s.timers.eraseIdx i, tasks := s.tasks ++ [d] }).Perm
      s.copiesNow := by
  refine List.perm_iff_count.mpr fun x => ?_
  have hcount := ((perm_of_getElem? h).map Prod.snd).count_eq x
  rw [List.map_cons, List.count_cons] at hcount
  rw [count_copiesNow, count_copiesNow]
  dsimp only at hcount ⊢
  rw [List.count_append, List.count_singleton]
  omega

/-! ## One step -/

omit [PyFloat F] in
/-- A copy goes out, or is lost with its socket. -/
theorem Flow.sendto {s t : Relay F} {d : Datagram} (h : s.Flow) (e : Nat) (ok : Bool)
    (hcopies : (d :: t.copiesNow).Perm s.copiesNow) (harrived : t.arrived = s.arrived)
    (hcounts : t.received = s.received ∧ t.dropped = s.dropped ∧ t.duplicated = s.duplicated)
    (hforwarded : t.forwarded = t.sent.length) (hreturned : t.returned = t.replies.length) :
    (t.sendto d e ok).Flow := by
  have hmove := (sendto_copiesNow t d e ok).trans hcopies
  obtain ⟨hreceived, hdropped, hduplicated⟩ := hcounts
  cases ok with
  | true =>
    refine h.moved hmove harrived hreceived hdropped hduplicated ?_ hreturned
    show t.forwarded + 1 = (t.sent ++ [(e, d)]).length
    rw [List.length_append, hforwarded]
    rfl
  | false => exact h.moved hmove harrived hreceived hdropped hduplicated hforwarded hreturned

/-- One event keeps every copy accounted for. -/
theorem flow_step {s : Relay F} (h : s.Flow) (e : RelayEvent F) : (s.step e).Flow := by
  -- a copy moves from one place to the next; no step makes or loses one, save `datagram`
  cases e with
  | datagram d draws => exact flow_datagramReceived h d draws
  | timer i =>
    rw [step]
    rcases hi : s.timers[i]? with _ | ⟨delay, d⟩
    · exact h
    · exact h.moved (perm_timers hi) rfl rfl rfl rfl h.forwarded h.returned
  | task i ok =>
    rw [step]
    rcases hi : s.tasks[i]? with _ | d
    · exact h
    · have htaken := perm_tasks hi
      show (send { s with tasks := s.tasks.eraseIdx i } d ok).Flow
      rw [send]
      split
      · exact h.sendto _ ok htaken rfl ⟨rfl, rfl, rfl⟩ h.forwarded h.returned
      -- from the tasks to those that wait for a socket
      · refine h.moved ?_ rfl rfl rfl rfl h.forwarded h.returned
        refine List.Perm.trans (List.perm_iff_count.mpr fun x => ?_) htaken
        rw [count_copiesNow, List.count_cons, count_copiesNow]
        simp only [List.count_append, List.count_singleton]
        omega
  | socket i created ok =>
    rw [step]
    rcases hi : s.opening[i]? with _ | d
    · exact h
    · have htaken := perm_opening hi
      show (opened { s with opening := s.opening.eraseIdx i } d created ok).Flow
      cases created with
      | true => exact h.sendto _ ok htaken rfl ⟨rfl, rfl, rfl⟩ h.forwarded h.returned
      | false => exact h.sendto 0 false htaken rfl ⟨rfl, rfl, rfl⟩ h.forwarded h.returned
  | closing e => exact h.moved (List.Perm.refl _) rfl rfl rfl rfl h.forwarded h.returned
  | reply e data =>
    rw [step, returnToClient]
    split
    · refine h.moved (List.Perm.refl _) rfl rfl rfl rfl h.forwarded ?_
      show s.returned + 1 = (s.replies ++ [_]).length
      rw [List.length_append, h.returned]
      rfl
    · exact h
  | set values => exact h.moved (List.Perm.refl _) rfl rfl rfl rfl h.forwarded h.returned

/-! ## The sockets of the clients -/

/-- The client a socket was opened for. -/
def owner (s : Relay F) (e : Nat) : Option Addr := (s.endpoints[e]?).map Endpoint.client

/-- Every socket serves one client. -/
structure Owners (s : Relay F) : Prop where
  upstreams : ∀ c e, s.upstreams.get? c = some e → s.owner e = some c
  sent : ∀ w ∈ s.sent, s.owner w.1 = some w.2.client
  replies : ∀ r ∈ s.replies, s.owner r.endpoint = some r.client

omit [PyFloat F] in
theorem Owners.congr {s s' : Relay F} (h : s.Owners) (howner : ∀ e, s'.owner e = s.owner e)
    (hupstreams : s'.upstreams = s.upstreams) (hsent : s'.sent = s.sent)
    (hreplies : s'.replies = s.replies) : s'.Owners where
  upstreams c e he := (howner e).trans (h.upstreams c e (hupstreams ▸ he))
  sent w hw := (howner w.1).trans (h.sent w (hsent ▸ hw))
  replies r hr := (howner r.endpoint).trans (h.replies r (hreplies ▸ hr))

omit [PyFloat F] in
/-- A copy goes out through a socket of its client. -/
theorem Owners.sendto {s : Relay F} (h : s.Owners) {d : Datagram} {e : Nat}
    (howner : s.owner e = some d.client) (ok : Bool) : (s.sendto d e ok).Owners := by
  cases ok with
  | true =>
    refine ⟨h.upstreams, fun w hw => ?_, h.replies⟩
    rcases List.mem_append.mp hw with hw | hw
    · exact h.sent w hw
    · rw [List.mem_singleton.mp hw]
      exact howner
  | false => exact h.congr (fun _ => rfl) rfl rfl rfl

omit [PyFloat F] in
theorem upstream_eq_some {s : Relay F} {c : Addr} {e : Nat} (h : s.upstream c = some e) :
    s.upstreams.get? c = some e := (Option.filter_eq_some_iff.mp h).1

omit [PyFloat F] in
/-- A new socket belongs to the client of its task. -/
theorem Owners.opened {s : Relay F} (h : s.Owners) (d : Datagram) (created ok : Bool) :
    (s.opened d created ok).Owners := by
  cases created with
  | false => exact h.congr (fun _ => rfl) rfl rfl rfl
  | true =>
    obtain ⟨t, ht⟩ : ∃ t : Relay F, t = { s with
        endpoints := s.endpoints ++ [Endpoint.mk d.client false]
        upstreams := s.upstreams.set d.client s.endpoints.length } := ⟨_, rfl⟩
    -- the endpoints are only added to
    have hold : ∀ e c, s.owner e = some c → t.owner e = some c := by
      intro e c he
      obtain ⟨p, hp, rfl⟩ := Option.map_eq_some_iff.mp he
      have hlt := (List.getElem?_eq_some_iff.mp hp).1
      rw [ht, owner, List.getElem?_append_left hlt, hp]
      rfl
    have hnew : t.owner s.endpoints.length = some d.client := by
      rw [ht, owner, List.getElem?_concat_length]
      rfl
    have howners : t.Owners := by
      refine ⟨fun c e he => ?_, fun w hw => hold _ _ (h.sent w (by rwa [ht] at hw)),
        fun r hr => hold _ _ (h.replies r (by rwa [ht] at hr))⟩
      replace he : (s.upstreams.set d.client s.endpoints.length).get? c = some e := by
        rwa [ht] at he
      by_cases hc : c = d.client
      · rw [hc, Dict.get?_set_self (.of_lawful d.client)] at he
        rw [hc, ← Option.some.inj he]
        exact hnew
      · rw [Dict.get?_set_ne (.of_lawful _) (.of_lawful _) (Ne.symm hc)] at he
        exact hold e c (h.upstreams c e he)
    have heq : s.opened d true ok = t.sendto d s.endpoints.length ok := by
      rw [ht]
      rfl
    exact heq ▸ howners.sendto hnew ok

omit [PyFloat F] in
/-- A closing socket keeps its client. -/
theorem owner_modify (s : Relay F) (i e : Nat) :
    owner { s with endpoints := s.endpoints.modify i fun p => { p with closing := true } } e =
      s.owner e := by
  rw [owner, owner, List.getElem?_modify]
  rcases hp : s.endpoints[e]? with _ | p
  · split <;> rfl
  · by_cases hi : i = e
    · simp only [hi, if_true, Option.map_eq_map, Option.map_some]
    · simp only [hi, if_false, Option.map_eq_map, Option.map_some]

/-- One event keeps every socket with its client. -/
theorem owners_step {s : Relay F} (h : s.Owners) (e : RelayEvent F) : (s.step e).Owners := by
  -- an endpoint belongs to the client it was opened for; only `socket` opens one
  cases e with
  | datagram d draws =>
    rw [step, datagramReceived]
    dsimp only
    split
    · exact h.congr (fun _ => rfl) rfl rfl rfl
    · obtain ⟨timers, tasks, k, hloop, -⟩ := launches_eq d _ ([draws.first, draws.second].take _)
      rw [hloop]
      split
      · exact h.congr (fun _ => rfl) rfl rfl rfl
      · exact h.congr (fun _ => rfl) rfl rfl rfl
  | timer i =>
    rw [step]
    rcases s.timers[i]? with _ | ⟨delay, d⟩
    · exact h
    · exact h.congr (fun _ => rfl) rfl rfl rfl
  | task i ok =>
    rw [step]
    rcases s.tasks[i]? with _ | d
    · exact h
    · show (send { s with tasks := s.tasks.eraseIdx i } d ok).Owners
      have htaken : Owners { s with tasks := s.tasks.eraseIdx i } :=
        h.congr (fun _ => rfl) rfl rfl rfl
      rw [send]
      split
      · next e he => exact htaken.sendto (htaken.upstreams _ _ (upstream_eq_some he)) ok
      · exact htaken.congr (fun _ => rfl) rfl rfl rfl
  | socket i created ok =>
    rw [step]
    rcases s.opening[i]? with _ | d
    · exact h
    · have htaken : Owners { s with opening := s.opening.eraseIdx i } :=
        h.congr (fun _ => rfl) rfl rfl rfl
      exact htaken.opened d created ok
  | closing e => exact h.congr (owner_modify s e) rfl rfl rfl
  | reply e data =>
    rw [step, returnToClient]
    split
    · next p hp =>
      refine ⟨h.upstreams, h.sent, fun r hr => ?_⟩
      rcases List.mem_append.mp hr with hr | hr
      · exact h.replies r hr
      · rw [List.mem_singleton.mp hr, owner]
        show (s.endpoints[e]?).map Endpoint.client = some p.client
        -- a reply goes to the client of the endpoint it came in on
        rw [hp]
        rfl
    · exact h
  | set values => exact h.congr (fun _ => rfl) rfl rfl rfl

/-! ## What arrived -/

/-- The datagrams of a run, in order. -/
def arrivals (events : List (RelayEvent F)) : List Datagram :=
  events.filterMap fun
    | .datagram d _ => some d
    | _ => none

/-- Only a datagram of a client arrives. -/
theorem arrived_step (s : Relay F) (e : RelayEvent F) :
    (s.step e).arrived.map Prod.fst = s.arrived.map Prod.fst ++ arrivals [e] := by
  cases e with
  | datagram d draws =>
    rw [step, datagramReceived]
    dsimp only
    -- the datagram is booked once, whatever happens to its copies
    have hadd : (s.arrived ++ [(d, s.imp.copies draws)]).map Prod.fst =
        s.arrived.map Prod.fst ++ [d] := by rw [List.map_append, List.map_cons, List.map_nil]
    split
    · exact hadd
    · obtain ⟨timers, tasks, k, hloop, -⟩ := launches_eq d _ ([draws.first, draws.second].take _)
      rw [hloop]
      split
      · exact hadd
      · exact hadd
  | timer i =>
    rw [step]
    rcases s.timers[i]? with _ | ⟨delay, d⟩ <;> exact (List.append_nil _).symm
  | task i ok =>
    rw [step]
    rcases s.tasks[i]? with _ | d
    · exact (List.append_nil _).symm
    · refine Eq.trans ?_ (List.append_nil _).symm
      show List.map Prod.fst (send { s with tasks := s.tasks.eraseIdx i } d ok).arrived = _
      rw [send]
      split
      · cases ok <;> rfl
      · rfl
  | socket i created ok =>
    rw [step]
    rcases s.opening[i]? with _ | d
    · exact (List.append_nil _).symm
    · cases created <;> cases ok <;> exact (List.append_nil _).symm
  | closing e => exact (List.append_nil _).symm
  | reply e data =>
    rw [step, returnToClient]
    split <;> exact (List.append_nil _).symm
  | set values => exact (List.append_nil _).symm

/-- The arrivals of a run are those of its events. -/
theorem arrived_run (imp : Impairments F) (events : List (RelayEvent F)) :
    (run imp events).arrived.map Prod.fst = arrivals events := by
  have hrun : ∀ s : Relay F, (exec step s events).arrived.map Prod.fst =
      s.arrived.map Prod.fst ++ arrivals events := by
    induction events with
    | nil => exact fun s => (List.append_nil _).symm
    | cons e events ih =>
      intro s
      rw [exec_cons, ih, arrived_step, List.append_assoc, arrivals, arrivals, arrivals,
        ← List.filterMap_append, List.singleton_append]
  exact hrun _

/-! ## Whole runs -/

/-- Each datagram counts once, and once more if it was doubled. -/
theorem length_copies {l : List (Datagram × Nat)} (h : ∀ a ∈ l, a.2 ≤ 2) :
    (l.flatMap fun a => List.replicate a.2 a.1).length + l.countP (·.2 = 0) =
      l.length + l.countP (·.2 = 2) := by
  induction l with
  | nil => rfl
  | cons a l ih =>
    obtain ⟨ha, hl⟩ := List.forall_mem_cons.mp h
    have hrest := ih hl
    rw [List.flatMap_cons, List.length_append, List.length_replicate, List.countP_cons,
      List.countP_cons, List.length_cons]
    simp only [decide_eq_true_eq]
    split_ifs <;> omega

/-- At most two copies of each datagram. -/
theorem count_copies {l : List (Datagram × Nat)} (h : ∀ a ∈ l, a.2 ≤ 2) (d : Datagram) :
    (l.flatMap fun a => List.replicate a.2 a.1).count d ≤ 2 * (l.map Prod.fst).count d := by
  induction l with
  | nil => exact Nat.zero_le _
  | cons a l ih =>
    obtain ⟨ha, hl⟩ := List.forall_mem_cons.mp h
    have hrest := ih hl
    rw [List.flatMap_cons, List.count_append, List.count_replicate, List.map_cons, List.count_cons]
    split_ifs <;> omega

theorem flow_run (imp : Impairments F) (events : List (RelayEvent F)) : (run imp events).Flow := by
  refine exec_invariant (P := Flow) (fun s e hs => flow_step hs e) ?_
  exact ⟨List.Perm.refl _, fun _ h => absurd h List.not_mem_nil, rfl, rfl, rfl, rfl, rfl⟩

theorem owners_run (imp : Impairments F) (events : List (RelayEvent F)) :
    (run imp events).Owners := by
  refine exec_invariant (P := Owners) (fun s e hs => owners_step hs e) ⟨fun c e h => ?_, ?_, ?_⟩
  · have hnone : (none : Option Nat) = some e := h
    cases hnone
  · exact fun _ h => absurd h List.not_mem_nil
  · exact fun _ h => absurd h List.not_mem_nil

/-- In every run the counters account for every copy, no datagram goes on more than twice
    as often as it came, and an answer reaches only the client whose datagrams its socket
    took. -/
theorem run_relay (imp : Impairments F) (events : List (RelayEvent F)) :
    let s := run imp events
    s.received = (arrivals events).length ∧
      s.received + s.duplicated = s.dropped + s.forwarded + s.failed.length +
        (s.opening.length + s.tasks.length + s.timers.length) ∧
      (∀ d, (s.sent.map Prod.snd).count d ≤ 2 * (arrivals events).count d) ∧
      s.returned = s.replies.length ∧
      ∀ w ∈ s.sent, ∀ r ∈ s.replies, r.endpoint = w.1 → r.client = w.2.client := by
  intro s
  have hflow : s.Flow := flow_run imp events
  have howners : s.Owners := owners_run imp events
  have harrived : s.arrived.map Prod.fst = arrivals events := arrived_run imp events
  refine ⟨?_, ?_, ?_, hflow.returned, ?_⟩
  · rw [hflow.received, ← harrived, List.length_map]
  -- every copy made is on its way, sent or failed
  · have hlength := hflow.copies.length_eq
    have hmade := length_copies hflow.atMost
    rw [← hflow.received, ← hflow.dropped, ← hflow.duplicated, ← copiesMade, ← hlength] at hmade
    simp only [copiesNow, List.length_append, List.length_map] at hmade
    rw [hflow.forwarded]
    omega
  · intro d
    have hmade := count_copies hflow.atMost d
    rw [harrived, ← copiesMade, ← hflow.copies.count_eq d, count_copiesNow] at hmade
    omega
  -- both go through one socket, and a socket has one client
  · intro w hw r hr he
    have hsent := howners.sent w hw
    rw [← he, howners.replies r hr] at hsent
    exact Option.some.inj hsent

/-! ## One socket for each client -/

/-- No task begins while another of its client waits for a socket. -/
def Apart (s : Relay F) : RelayEvent F → Prop
  | .task i _ => ∀ d ∈ s.tasks[i]?, ∀ d' ∈ s.opening, d'.client ≠ d.client
  | _ => True

instance : ∀ (s : Relay F) (e : RelayEvent F), Decidable (Apart s e)
  | s, .task i _ => inferInstanceAs (Decidable (∀ d ∈ s.tasks[i]?, ∀ d' ∈ s.opening, _))
  | _, .datagram .. => isTrue trivial
  | _, .timer _ => isTrue trivial
  | _, .socket .. => isTrue trivial
  | _, .closing _ => isTrue trivial
  | _, .reply .. => isTrue trivial
  | _, .set _ => isTrue trivial

/-- Every socket that is not closing is the one its client's next datagram would find. -/
structure OneSocket (s : Relay F) : Prop where
  live : ∀ (e : Nat) (p : Endpoint), s.endpoints[e]? = some p → p.closing = false →
    s.upstreams.get? p.client = some e
  waiting : ∀ d ∈ s.opening, s.upstream d.client = none
  clients : (s.opening.map Datagram.client).Nodup

omit [PyFloat F] in
/-- The invariant reads the sockets and the clients. -/
theorem OneSocket.congr {s s' : Relay F} (h : s.OneSocket) (hends : s'.endpoints = s.endpoints)
    (hups : s'.upstreams = s.upstreams) (hopening : s'.opening = s.opening) : s'.OneSocket where
  live e p hp hopen := by
    rw [hups]
    exact h.live e p (hends ▸ hp) hopen
  waiting d hd := by
    rw [upstream, hups, hends]
    exact h.waiting d (hopening ▸ hd)
  clients := hopening ▸ h.clients

omit [PyFloat F] in
theorem OneSocket.sendto {s : Relay F} (h : s.OneSocket) (d : Datagram) (e : Nat) (ok : Bool) :
    (s.sendto d e ok).OneSocket := by
  cases ok <;> exact h.congr rfl rfl rfl

omit [PyFloat F] in
/-- A live socket is found. -/
theorem upstream_of_live {s : Relay F} (h : s.OneSocket) {e : Nat} {p : Endpoint}
    (hp : s.endpoints[e]? = some p) (hopen : p.closing = false) :
    s.upstream p.client = some e := by
  rw [upstream, h.live e p hp hopen, Option.filter_some, hp, Option.any_some, hopen]
  rfl

omit [PyFloat F] in
/-- The socket of a waiting task is the only one of its client. -/
theorem OneSocket.opened {s : Relay F} (h : s.OneSocket) (howners : s.Owners) {d : Datagram}
    (hnone : s.upstream d.client = none) (hapart : ∀ d' ∈ s.opening, d'.client ≠ d.client)
    (created ok : Bool) : (s.opened d created ok).OneSocket := by
  cases created with
  | false => exact h.congr rfl rfl rfl
  | true =>
    suffices hnew : OneSocket { s with
        endpoints := s.endpoints ++ [Endpoint.mk d.client false]
        upstreams := s.upstreams.set d.client s.endpoints.length } from hnew.sendto d _ ok
    refine ⟨fun e p hp hopen => ?_, fun d' hd' => ?_, h.clients⟩
    · show (s.upstreams.set d.client s.endpoints.length).get? p.client = some e
      replace hp : (s.endpoints ++ [Endpoint.mk d.client false])[e]? = some p := hp
      -- the sockets before this one belong to other clients, or are closed
      rcases Nat.lt_trichotomy e s.endpoints.length with hlt | heq | hgt
      · rw [List.getElem?_append_left hlt] at hp
        have hne : d.client ≠ p.client := by
          intro hc
          rw [hc, upstream_of_live h hp hopen] at hnone
          cases hnone
        rw [Dict.get?_set_ne (.of_lawful _) (.of_lawful _) hne]
        exact h.live e p hp hopen
      · rw [heq, List.getElem?_concat_length] at hp
        rw [← Option.some.inj hp, heq, Dict.get?_set_self (.of_lawful _)]
      · rw [List.getElem?_eq_none (by rw [List.length_append]; exact hgt)] at hp
        cases hp
    · show Option.filter _ ((s.upstreams.set d.client s.endpoints.length).get? d'.client) = none
      rw [Dict.get?_set_ne (.of_lawful _) (.of_lawful _) (Ne.symm (hapart d' hd'))]
      have hold := h.waiting d' hd'
      rw [upstream] at hold
      rcases hget : s.upstreams.get? d'.client with _ | e
      · rfl
      · -- the old socket of the other client is still there
        obtain ⟨p, hp, -⟩ := Option.map_eq_some_iff.mp (howners.upstreams _ _ hget)
        rw [hget, Option.filter_some, hp] at hold
        rw [Option.filter_some]
        show (if Option.any _ ((s.endpoints ++ [Endpoint.mk d.client false])[e]?) = true then _
          else _) = none
        rw [List.getElem?_append_left (List.getElem?_eq_some_iff.mp hp).1, hp]
        exact hold

omit [PyFloat F] in
/-- A socket that closes leaves the others. -/
theorem OneSocket.closing {s : Relay F} (h : s.OneSocket) (i : Nat) :
    OneSocket { s with endpoints := s.endpoints.modify i fun p => { p with closing := true } } := by
  refine ⟨fun e p hp hopen => ?_, fun d hd => ?_, h.clients⟩
  · replace hp : (s.endpoints.modify i fun p => { p with closing := true })[e]? = some p := hp
    rw [List.getElem?_modify] at hp
    obtain ⟨q, hq, hqp⟩ := Option.map_eq_some_iff.mp hp
    -- the endpoint that closes is open no more
    by_cases hi : i = e
    · rw [if_pos hi] at hqp
      rw [← hqp] at hopen
      exact absurd hopen Bool.noConfusion
    · rw [if_neg hi] at hqp
      exact hqp ▸ h.live e q hq (hqp ▸ hopen)
  · have hold := h.waiting d hd
    rw [upstream] at hold ⊢
    rcases hget : s.upstreams.get? d.client with _ | e
    · rfl
    · rw [hget, Option.filter_eq_none_iff] at hold
      rw [Option.filter_eq_none_iff]
      intro x hx hany
      refine hold x hx ?_
      rw [List.getElem?_modify] at hany
      -- a task that found no open socket finds none now either
      rcases hq : s.endpoints[x]? with _ | q
      · rw [hq] at hany
        exact hany
      · rw [hq] at hany
        by_cases hi : i = x
        · simp only [hi, if_true, Option.map_eq_map, Option.map_some, Option.any_some,
            Bool.not_true, Bool.false_eq_true] at hany
        · simpa only [hi, if_false, Option.map_eq_map, Option.map_some] using hany

/-- One event, where no client has two lookups in flight. -/
theorem oneSocket_step {s : Relay F} (h : s.OneSocket) (howners : s.Owners) {e : RelayEvent F}
    (hapart : Apart s e) : (s.step e).OneSocket := by
  cases e with
  | datagram d draws =>
    rw [step, datagramReceived]
    dsimp only
    split
    -- a copy is a timer or a task, and neither is a socket
    · exact h.congr rfl rfl rfl
    · obtain ⟨timers, tasks, k, hloop, -⟩ := launches_eq d _ ([draws.first, draws.second].take _)
      rw [hloop]
      split
      · exact h.congr rfl rfl rfl
      · exact h.congr rfl rfl rfl
  | timer i =>
    rw [step]
    rcases s.timers[i]? with _ | ⟨delay, d⟩
    · exact h
    · exact h.congr rfl rfl rfl
  | task i ok =>
    rw [step]
    rcases hi : s.tasks[i]? with _ | d
    · exact h
    · show (send { s with tasks := s.tasks.eraseIdx i } d ok).OneSocket
      have htaken : OneSocket { s with tasks := s.tasks.eraseIdx i } := h.congr rfl rfl rfl
      rw [send]
      split
      · exact htaken.sendto d _ ok
      -- no socket yet: the task waits for one, the only one of its client
      · next hnone =>
        refine ⟨h.live, fun d' hd' => ?_, ?_⟩
        · rcases List.mem_append.mp hd' with hd' | hd'
          · exact h.waiting d' hd'
          · rw [List.mem_singleton.mp hd']
            exact hnone
        · show ((s.opening ++ [d]).map Datagram.client).Nodup
          rw [List.map_append, List.map_cons, List.map_nil, ← List.concat_eq_append,
            List.nodup_concat]
          refine ⟨fun hmem => ?_, h.clients⟩
          obtain ⟨d', hd', hclient⟩ := List.mem_map.mp hmem
          -- here `Apart` is used: no other task of the client is waiting
          exact hapart d hi d' hd' hclient
  | socket i created ok =>
    rw [step]
    rcases hi : s.opening[i]? with _ | d
    · exact h
    · -- the clients of the waiting tasks differ, so the others are not this one's
      have hperm := ((perm_of_getElem? hi).map Datagram.client).symm
      have hnodup := hperm.nodup h.clients
      rw [List.map_cons, List.nodup_cons] at hnodup
      have hmem : d ∈ s.opening := List.mem_of_getElem? hi
      have htaken : OneSocket { s with opening := s.opening.eraseIdx i } :=
        ⟨h.live, fun d' hd' => h.waiting d' (List.mem_of_mem_eraseIdx hd'), hnodup.2⟩
      have howners' : Owners { s with opening := s.opening.eraseIdx i } :=
        howners.congr (fun _ => rfl) rfl rfl rfl
      refine htaken.opened howners' (h.waiting d hmem) (fun d' hd' hclient => ?_) created ok
      exact hnodup.1 (List.mem_map.mpr ⟨d', hd', hclient⟩)
  | closing i => exact h.closing i
  | reply e data =>
    rw [step, returnToClient]
    split
    · exact h.congr rfl rfl rfl
    · exact h
  | set values => exact h.congr rfl rfl rfl

/-- As long as no task begins while another of its client waits for a socket, every client
    has at most one open socket, and it is the one its datagrams take. -/
theorem run_oneSocket (imp : Impairments F) (events : List (RelayEvent F))
    (h : AllSteps step Apart { imp := imp } events) {e e' : Nat} {p p' : Endpoint}
    (hp : (run imp events).endpoints[e]? = some p) (hopen : p.closing = false)
    (hp' : (run imp events).endpoints[e']? = some p') (hopen' : p'.closing = false)
    (hclient : p.client = p'.client) :
    e = e' ∧ (run imp events).upstream p.client = some e := by
  have hinv : (run imp events).Owners ∧ (run imp events).OneSocket := by
    refine h.invariant (P := fun s => s.Owners ∧ s.OneSocket)
      (fun s e hapart hs => ⟨owners_step hs.1 e, oneSocket_step hs.2 hs.1 hapart⟩) ?_
    refine ⟨owners_run imp [], fun e p hp => ?_, fun d hd => ?_, List.nodup_nil⟩
    · have hnone : (none : Option Endpoint) = some p := hp
      cases hnone
    · exact absurd hd List.not_mem_nil
  have hfirst := upstream_of_live hinv.2 hp hopen
  have hsecond := upstream_of_live hinv.2 hp' hopen'
  rw [← hclient, hfirst] at hsecond
  exact ⟨Option.some.inj hsecond, hfirst⟩

/-- A proxy that doubles half of the datagrams. -/
def doubling : Impairments ℚ := ⟨0, 0, 0, 0, 1 / 2⟩

def hello : Datagram := ⟨[1, 2, 3], ("10.0.0.7", 40000)⟩

/-- A datagram, its socket, and one more that is doubled. -/
def settled : List (RelayEvent ℚ) :=
  [.datagram hello ⟨1 / 2, 3 / 4, (0, 0), (0, 0)⟩, .task 0 true, .socket 0 true true,
    .datagram hello ⟨1 / 2, 1 / 4, (0, 0), (0, 0)⟩, .task 0 true, .task 0 true,
    .reply 0 [9]]

theorem settled_oneSocket : (run doubling settled).sent = [(0, hello), (0, hello), (0, hello)] ∧
    (0 : Nat) = 0 ∧ (run doubling settled).upstream hello.client = some 0 :=
  ⟨by decide +kernel, run_oneSocket doubling settled (by decide +kernel)
    (p := ⟨hello.client, false⟩) (by decide +kernel) rfl
    (by decide +kernel) rfl rfl⟩

/-- A first datagram that is doubled opens two sockets, and the map forgets one of them. -/
example : (run doubling [.datagram hello ⟨1 / 2, 1 / 4, (0, 0), (0, 0)⟩, .task 0 true,
    .task 0 true, .socket 0 true true, .socket 0 true true]).endpoints =
      [⟨hello.client, false⟩, ⟨hello.client, false⟩] := by decide +kernel

end Relay

end EcuTelemetry.Sim
