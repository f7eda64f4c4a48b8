/-
  EcuTelemetry.Backend.EventBus

  backend/app/bus.py and the readers of api.py's events_stream: subscribing,
  publishing to all queues, and what each reader has taken out of its queue, over
  any interleaving.

  The items of a run carry the number of publishes before them.  The bus never
  looks at an item.
-/

import Mathlib.Data.Finset.Basic
import Mathlib.Data.List.Enum
import Mathlib.Data.Rat.Defs
import Mathlib.Logic.Function.Basic
import EcuTelemetry.Lib.AsyncQueue
import EcuTelemetry.Lib.Dict
import EcuTelemetry.Lib.Run

namespace EcuTelemetry.Backend

/-! ## The bus -/

/-- The queues stand in the order of their creation and are known by their place;
    `subs` holds the places of those that are subscribed. -/
structure EventBus (α : Type) where
  queues : List (AsyncQueue α) := []
  subs : Finset ℕ := ∅
  maxsize : ℤ := 1000
  lastTel : Dict String ℚ := []
  published : ℕ := 0

namespace EventBus

variable {α : Type}

def subscribe (b : EventBus α) : ℕ × EventBus α :=
  (b.queues.length,
    { b with
      queues := b.queues ++ [.new b.maxsize]
      subs := insert b.queues.length b.subs })

def unsubscribe (b : EventBus α) (q : ℕ) : EventBus α := { b with subs := b.subs.erase q }

def publish (b : EventBus α) (x : α) : EventBus α :=
  { b with
    published := b.published + 1
    queues := b.queues.mapIdx fun i q => if i ∈ b.subs then q.putOrDrop x else q }

/-- `publish_telemetry` at the time `now`. -/
def publishTelemetry (b : EventBus α) (deviceId : String) (x : α) (now : ℚ) (maxHz : ℚ) :
    Bool × EventBus α :=
  let last := (Dict.get? b.lastTel deviceId).getD 0
  if now - last < 1 / maxHz then (false, b)
  else (true, publish { b with lastTel := Dict.set b.lastTel deviceId now } x)

/-- What a reader that waits on `q.get()` is given, if there is anything. -/
def get (b : EventBus α) (q : ℕ) : Option (α × EventBus α) := do
  let queue ← b.queues[q]?
  let (x, queue) ← queue.getNowait.toOption
  return (x, { b with queues := b.queues.set q queue })

end EventBus

/-! ## Readers -/

inductive BusEvent (α : Type)
  | subscribe
  | unsubscribe (q : ℕ)
  | publish (x : α)
  | publishTelemetry (deviceId : String) (x : α) (now : ℚ)
  | consume (q : ℕ)

/-- The bus, all that has been published, and for each queue the count of
    publishes at its subscription and what has been taken out of it. -/
structure Streams (α : Type) where
  bus : EventBus (α × ℕ)
  log : List α := []
  since : ℕ → ℕ := fun _ => 0
  taken : ℕ → List (α × ℕ) := fun _ => []

namespace Streams

variable {α : Type}

def step (w : Streams α) : BusEvent α → Streams α
  | .subscribe =>
    { w with
      bus := w.bus.subscribe.2
      since := Function.update w.since w.bus.subscribe.1 w.log.length
      taken := Function.update w.taken w.bus.subscribe.1 [] }
  | .unsubscribe q => { w with bus := w.bus.unsubscribe q }
  | .publish x => { w with bus := w.bus.publish (x, w.log.length), log := w.log ++ [x] }
  | .publishTelemetry deviceId x now =>
    -- at most two samples a second of one device
    let (sent, bus) := w.bus.publishTelemetry deviceId (x, w.log.length) now 2
    { w with bus, log := if sent then w.log ++ [x] else w.log }
  | .consume q =>
    match w.bus.get q with
    | none => w
    | some (x, bus) => { w with bus, taken := Function.update w.taken q (w.taken q ++ [x]) }

def new (maxsize : ℤ) : Streams α := { bus := { maxsize } }

/-- All publishes with their numbers. -/
def numbered (w : Streams α) : List (α × ℕ) := w.log.zipIdx

/-- What reader `q` has taken, then what waits for it. -/
def held (w : Streams α) (i : ℕ) (q : AsyncQueue (α × ℕ)) : List (α × ℕ) := w.taken i ++ q.items

/-! ## The invariant -/

/-- What a reader took and what waits for it stand in the order of the publishes. -/
def Ordered (w : Streams α) (i : ℕ) (q : AsyncQueue (α × ℕ)) : Prop :=
  (w.held i q).Sublist (w.numbered.drop (w.since i))

/-- The newest publishes wait, and what a reader has missed was overtaken by as many
    as its queue holds. -/
structure Served (m : ℤ) (w : Streams α) (i : ℕ) (q : AsyncQueue (α × ℕ)) : Prop where
  newest : q.items <:+ w.numbered
  overtaken : ∀ x ∈ w.numbered.drop (w.since i), x ∉ w.held i q → x.2 + m < w.log.length

structure Kept (m : ℤ) (w : Streams α) : Prop where
  maxsize : w.bus.maxsize = m
  since_le : ∀ i, w.since i ≤ w.log.length
  subs_lt : ∀ i ∈ w.bus.subs, i < w.bus.queues.length
  bounded : ∀ (i : ℕ) q, w.bus.queues[i]? = some q → q.Bounded m
  ordered : ∀ (i : ℕ) q, w.bus.queues[i]? = some q → w.Ordered i q
  served : ∀ (i : ℕ) q, w.bus.queues[i]? = some q → i ∈ w.bus.subs → w.Served m i q

theorem kept_new (m : ℤ) : (new m : Streams α).Kept m where
  maxsize := rfl
  since_le _ := Nat.le_refl 0
  subs_lt i hi := by simp [new] at hi
  bounded i q hq := by simp [new] at hq
  ordered i q hq := by simp [new] at hq
  served i q hq := by simp [new] at hq

variable {m : ℤ} {w : Streams α}

/-! ## The numbers -/

theorem numbered_append (x : α) : (w.log ++ [x]).zipIdx = w.numbered ++ [(x, w.log.length)] := by
  simp [numbered, List.zipIdx_append]

/-- The number of a publish is the count of those before it. -/
theorem number_of_split {earlier later : List (α × ℕ)} {x : α × ℕ}
    (h : earlier ++ x :: later = w.numbered) : x.2 = earlier.length := by
  have hget : w.numbered[earlier.length]? = some x := by simp [← h]
  rw [numbered, List.getElem?_zipIdx] at hget
  obtain ⟨y, -, hy⟩ := Option.map_eq_some_iff.mp hget
  rw [← hy, Nat.zero_add]

/-! ## Publishing -/

/-- One publish, as the readers see it. -/
def published (w : Streams α) (bus : EventBus (α × ℕ)) (x : α) : Streams α :=
  { w with bus := bus.publish (x, w.log.length), log := w.log ++ [x] }

section Publish

variable {bus : EventBus (α × ℕ)} {x : α} {i : ℕ} {q : AsyncQueue (α × ℕ)}

theorem published_drop (hsince : w.since i ≤ w.log.length) :
    (w.published bus x).numbered.drop (w.since i) =
      w.numbered.drop (w.since i) ++ [(x, w.log.length)] := by
  rw [numbered, published, numbered_append]
  apply List.drop_append_of_le_length
  rwa [numbered, List.length_zipIdx]

theorem ordered_published (hsince : w.since i ≤ w.log.length) (h : w.Ordered i q) :
    (w.published bus x).Ordered i q := by
  have hdrop : (w.published bus x).numbered.drop (w.since i) = _ := published_drop hsince
  show (w.held i q).Sublist ((w.published bus x).numbered.drop (w.since i))
  rw [hdrop]
  exact h.trans (List.sublist_append_left _ _)

/-- The oldest gives way, so the order stays. -/
theorem ordered_putOrDrop (hm : 1 ≤ m) (hq : q.Bounded m) (hsince : w.since i ≤ w.log.length)
    (h : w.Ordered i q) :
    (w.published bus x).Ordered i (q.putOrDrop (x, w.log.length)) := by
  have hdrop : (w.published bus x).numbered.drop (w.since i) = _ := published_drop hsince
  have hall : (w.held i q ++ [(x, w.log.length)]).Sublist
      (w.numbered.drop (w.since i) ++ [(x, w.log.length)]) := h.append_right _
  show (w.taken i ++ (q.putOrDrop (x, w.log.length)).items).Sublist
    ((w.published bus x).numbered.drop (w.since i))
  rw [hdrop]
  rcases AsyncQueue.putOrDrop_cases hm hq (x, w.log.length) with
    ⟨-, hput⟩ | ⟨oldest, rest, hitems, -, hput⟩
  · rw [hput, ← List.append_assoc]
    exact hall
  · -- the oldest goes, the others keep their order
    rw [held, hitems, List.append_assoc] at hall
    rw [hput]
    exact (List.Sublist.append_left (List.sublist_cons_self _ _) _).trans hall

/-- The new item is the newest; what is dropped has a full queue behind it. -/
theorem served_putOrDrop (hm : 1 ≤ m) (hq : q.Bounded m) (hsince : w.since i ≤ w.log.length)
    (h : w.Served m i q) :
    (w.published bus x).Served m i (q.putOrDrop (x, w.log.length)) := by
  have hdrop : (w.published bus x).numbered.drop (w.since i) = _ := published_drop hsince
  have hnumbered : (w.published bus x).numbered = w.numbered ++ [(x, w.log.length)] :=
    numbered_append x
  have hlength : ((w.published bus x).log.length : ℤ) = w.log.length + 1 := by
    simp [published]
  obtain ⟨earlier, hearlier⟩ := h.newest
  -- the queue has room, or its oldest item gives way
  rcases AsyncQueue.putOrDrop_cases hm hq (x, w.log.length) with
    ⟨-, hput⟩ | ⟨oldest, rest, hitems, hfull, hput⟩
  · rw [hput]
    constructor
    · exact ⟨earlier, by rw [hnumbered, ← hearlier, List.append_assoc]⟩
    · intro y hy hmissed
      rw [show (w.published bus x).since i = w.since i from rfl, hdrop] at hy
      have hmissed : y ∉ w.held i q ++ [(x, w.log.length)] := by
        rwa [held, List.append_assoc]
      -- missed before already, and there is one item more to overtake it
      have hold : y ∈ w.numbered.drop (w.since i) := by
        rcases List.mem_append.mp hy with hy | hy
        · exact hy
        · exact absurd (List.mem_append_right _ hy) hmissed
      have := h.overtaken y hold (fun hin => hmissed (List.mem_append_left _ hin))
      omega
  · rw [hput]
    rw [hitems] at hearlier
    constructor
    · refine ⟨earlier ++ [oldest], ?_⟩
      rw [hnumbered, ← hearlier]
      simp
    · intro y hy hmissed
      rw [show (w.published bus x).since i = w.since i from rfl, hdrop] at hy
      by_cases hin : y ∈ w.held i q
      · -- held before and not any more: the oldest, with a full queue behind it
        have holdest : y = oldest := by
          rw [held, hitems, List.mem_append, List.mem_cons] at hin
          rcases hin with hin | hin | hin
          · exact absurd (List.mem_append_left _ hin) hmissed
          · exact hin
          · exact absurd (List.mem_append_right _ (List.mem_append_left _ hin)) hmissed
        have hnumber := number_of_split hearlier
        have hcount : w.log.length = earlier.length + (oldest :: rest).length := by
          have hlen := congrArg List.length hearlier
          rw [numbered, List.length_zipIdx, List.length_append] at hlen
          exact hlen.symm
        rw [hitems] at hfull
        rw [holdest, hnumber]
        omega
      · rcases List.mem_append.mp hy with hy | hy
        · have := h.overtaken y hy hin
          omega
        · exact absurd (List.mem_append_right _ (List.mem_append_right _ hy)) hmissed

theorem publish_queue {b : EventBus (α × ℕ)} {y : α × ℕ} (h : (b.publish y).queues[i]? = some q) :
    ∃ old, b.queues[i]? = some old ∧ q = if i ∈ b.subs then old.putOrDrop y else old := by
  rw [EventBus.publish, List.getElem?_mapIdx] at h
  obtain ⟨old, hold, hq⟩ := Option.map_eq_some_iff.mp h
  exact ⟨old, hold, hq.symm⟩

/-- A publish keeps the invariant for every reader. -/
theorem kept_published (hm : 1 ≤ m) (h : w.Kept m) (hqueues : bus.queues = w.bus.queues)
    (hsubs : bus.subs = w.bus.subs) (hmax : bus.maxsize = w.bus.maxsize) :
    (w.published bus x).Kept m := by
  -- a queue after the publish is one of before, with the item put if it is subscribed
  have hqueue : ∀ i q, (w.published bus x).bus.queues[i]? = some q →
      ∃ old, w.bus.queues[i]? = some old ∧
        q = if i ∈ w.bus.subs then old.putOrDrop (x, w.log.length) else old := by
    intro i q hq
    obtain ⟨old, hold, heq⟩ := publish_queue hq
    exact ⟨old, hqueues ▸ hold, hsubs ▸ heq⟩
  refine ⟨hmax.trans h.maxsize, fun i => ?_, fun i hi => ?_, fun i q hq => ?_, fun i q hq => ?_,
    fun i q hq hi => ?_⟩
  · have := h.since_le i
    simp only [published, List.length_append, List.length_singleton]
    omega
  · have hi : i ∈ w.bus.subs := hsubs ▸ hi
    have hlen : (w.published bus x).bus.queues.length = w.bus.queues.length := by
      rw [published, EventBus.publish, List.length_mapIdx, hqueues]
    rw [hlen]
    exact h.subs_lt i hi
  · obtain ⟨old, hold, rfl⟩ := hqueue i q hq
    by_cases hi : i ∈ w.bus.subs
    · rw [if_pos hi]
      exact AsyncQueue.putOrDrop_bounded hm (h.bounded i old hold) _
    · rw [if_neg hi]
      exact h.bounded i old hold
  · obtain ⟨old, hold, rfl⟩ := hqueue i q hq
    by_cases hi : i ∈ w.bus.subs
    · rw [if_pos hi]
      exact ordered_putOrDrop hm (h.bounded i old hold) (h.since_le i) (h.ordered i old hold)
    · rw [if_neg hi]
      exact ordered_published (h.since_le i) (h.ordered i old hold)
  · obtain ⟨old, hold, rfl⟩ := hqueue i q hq
    have hi : i ∈ w.bus.subs := hsubs ▸ hi
    rw [if_pos hi]
    exact served_putOrDrop hm (h.bounded i old hold) (h.since_le i) (h.served i old hold hi)

end Publish

/-! ## The other steps -/

/-- A new reader starts here with an empty queue. -/
theorem kept_subscribe (hm : 1 ≤ m) (h : w.Kept m) : (w.step .subscribe).Kept m := by
  -- the queue of the new reader comes last, empty
  have hqueue : ∀ (i : ℕ) q, (w.step .subscribe).bus.queues[i]? = some q →
      w.bus.queues[i]? = some q ∧ i ≠ w.bus.queues.length ∨
        i = w.bus.queues.length ∧ q = .new m := by
    intro i q hq
    rw [step, EventBus.subscribe, List.getElem?_append] at hq
    by_cases hi : i < w.bus.queues.length
    · rw [if_pos hi] at hq
      exact .inl ⟨hq, by omega⟩
    · rw [if_neg hi, List.getElem?_singleton] at hq
      by_cases hzero : i - w.bus.queues.length = 0
      · rw [if_pos hzero] at hq
        cases hq
        exact .inr ⟨by omega, by rw [h.maxsize]⟩
      · rw [if_neg hzero] at hq
        cases hq
  -- the other readers keep their start and what they have taken
  have hold : ∀ i, i ≠ w.bus.queues.length →
      (w.step .subscribe).since i = w.since i ∧ (w.step .subscribe).taken i = w.taken i :=
    fun i hi => ⟨Function.update_of_ne hi _ _, Function.update_of_ne hi _ _⟩
  have hnew : (w.step .subscribe).since w.bus.queues.length = w.log.length ∧
      (w.step .subscribe).taken w.bus.queues.length = [] :=
    ⟨Function.update_self _ _ _, Function.update_self _ _ _⟩
  refine ⟨h.maxsize, fun i => ?_, fun i hi => ?_, fun i q hq => ?_, fun i q hq => ?_,
    fun i q hq hi => ?_⟩
  · by_cases hi : i = w.bus.queues.length
    · rw [hi, hnew.1]
      exact Nat.le_refl _
    · rw [(hold i hi).1]
      exact h.since_le i
  · rw [step, EventBus.subscribe, List.length_append, List.length_singleton]
    rcases Finset.mem_insert.mp hi with hi | hi
    · omega
    · have := h.subs_lt i hi
      omega
  · rcases hqueue i q hq with ⟨hq, -⟩ | ⟨-, rfl⟩
    · exact h.bounded i q hq
    · exact AsyncQueue.new_bounded hm
  · rcases hqueue i q hq with ⟨hq, hi⟩ | ⟨rfl, rfl⟩
    · rw [Ordered, held, (hold i hi).1, (hold i hi).2]
      exact h.ordered i q hq
    · rw [Ordered, held, hnew.2]
      exact List.nil_sublist _
  · rcases hqueue i q hq with ⟨hq, hne⟩ | ⟨rfl, rfl⟩
    · have hi : i ∈ w.bus.subs := (Finset.mem_insert.mp hi).resolve_left hne
      -- an old reader: nothing was published, so nothing was missed
      have hserved := h.served i q hq hi
      refine ⟨hserved.newest, ?_⟩
      rw [held, (hold i hne).1, (hold i hne).2]
      exact hserved.overtaken
    · -- nothing has been published since
      refine ⟨List.nil_suffix, ?_⟩
      rw [hnew.1]
      intro x hx
      have hnone : (w.step .subscribe).numbered.drop w.log.length = [] := by
        simp [numbered, step]
      rw [hnone] at hx
      cases hx

/-- A reader that leaves gets no more items; its queue stays as it is. -/
theorem kept_unsubscribe (h : w.Kept m) (i : ℕ) : (w.step (.unsubscribe i)).Kept m :=
  { maxsize := h.maxsize
    since_le := h.since_le
    subs_lt := fun j hj => h.subs_lt j (Finset.mem_of_mem_erase hj)
    bounded := h.bounded
    ordered := h.ordered
    served := fun j q hq hj =>
      have hserved := h.served j q hq (Finset.mem_of_mem_erase hj)
      ⟨hserved.newest, hserved.overtaken⟩ }

/-- What `get` returns is the front of the queue. -/
theorem get_cases {b : EventBus (α × ℕ)} {i : ℕ} {x : α × ℕ} {b' : EventBus (α × ℕ)}
    (h : b.get i = some (x, b')) :
    ∃ q rest, b.queues[i]? = some q ∧ q.items = x :: rest ∧
      b' = { b with queues := b.queues.set i { q with items := rest } } := by
  rw [EventBus.get] at h
  cases hq : b.queues[i]? with
  | none =>
    rw [hq] at h
    cases h
  | some q =>
    rw [hq] at h
    cases hitems : q.items with
    | nil => simp [AsyncQueue.getNowait, hitems, Except.toOption] at h
    | cons y rest =>
      simp only [AsyncQueue.getNowait, hitems, Except.toOption, Option.bind_eq_bind,
        Option.bind_some, Option.pure_def, Option.some.injEq, Prod.mk.injEq] at h
      obtain ⟨rfl, rfl⟩ := h
      exact ⟨q, rest, rfl, hitems, rfl⟩

/-- An item that is taken moves from the queue to what was taken. -/
theorem kept_consume (h : w.Kept m) (i : ℕ) : (w.step (.consume i)).Kept m := by
  rw [step]
  cases hget : w.bus.get i with
  | none => exact h
  | some got =>
    obtain ⟨x, b⟩ := got
    obtain ⟨old, rest, hold, hitems, rfl⟩ := get_cases hget
    obtain ⟨w', hw'⟩ : ∃ w' : Streams α, w' =
        { w with
          bus := { w.bus with queues := w.bus.queues.set i { old with items := rest } }
          taken := Function.update w.taken i (w.taken i ++ [x]) } := ⟨_, rfl⟩
    show Kept m { w with
      bus := { w.bus with queues := w.bus.queues.set i { old with items := rest } }
      taken := Function.update w.taken i (w.taken i ++ [x]) }
    rw [← hw']
    -- what a reader holds in all is the same
    have hqueue : ∀ (j : ℕ) q, w'.bus.queues[j]? = some q →
        ∃ q', w.bus.queues[j]? = some q' ∧ w'.held j q = w.held j q' ∧ q.items <:+ q'.items ∧
          (q'.Bounded m → q.Bounded m) := by
      intro j q hq
      subst hw'
      rw [List.getElem?_set] at hq
      by_cases hij : i = j
      · subst hij
        rw [if_pos rfl] at hq
        by_cases hlen : i < w.bus.queues.length
        · rw [if_pos hlen] at hq
          cases hq
          refine ⟨old, hold, ?_, ?_, fun hb => ⟨hb.1, ?_⟩⟩
          · simp [held, hitems]
          · exact ⟨[x], by rw [hitems]; rfl⟩
          · have hlen := hb.2
            rw [hitems] at hlen
            simp only [List.length_cons] at hlen ⊢
            omega
        · rw [if_neg hlen] at hq
          cases hq
      · rw [if_neg hij] at hq
        refine ⟨q, hq, ?_, List.suffix_rfl, fun hb => hb⟩
        simp [held, Function.update_of_ne (Ne.symm hij)]
    have hlog : w'.log = w.log ∧ w'.since = w.since ∧ w'.bus.subs = w.bus.subs ∧
        w'.bus.maxsize = w.bus.maxsize ∧ w'.bus.queues.length = w.bus.queues.length := by
      subst hw'
      exact ⟨rfl, rfl, rfl, rfl, List.length_set⟩
    obtain ⟨hlog, hsince, hsubs, hmax, hlen⟩ := hlog
    refine ⟨hmax.trans h.maxsize, ?_, ?_, fun j q hq => ?_, fun j q hq => ?_,
      fun j q hq hj => ?_⟩
    · rw [hlog, hsince]
      exact h.since_le
    · rw [hsubs, hlen]
      exact h.subs_lt
    · obtain ⟨q', hq', -, -, hb⟩ := hqueue j q hq
      exact hb (h.bounded j q' hq')
    · obtain ⟨q', hq', hheld, -, -⟩ := hqueue j q hq
      rw [Ordered, hheld, numbered, hlog, hsince]
      exact h.ordered j q' hq'
    · obtain ⟨q', hq', hheld, hsuffix, -⟩ := hqueue j q hq
      have hserved := h.served j q' hq' (hsubs ▸ hj)
      constructor
      · rw [numbered, hlog]
        exact hsuffix.trans hserved.newest
      · rw [numbered, hlog, hsince, hheld]
        exact hserved.overtaken

/-- One step of the bus. -/
theorem kept_step (hm : 1 ≤ m) (h : w.Kept m) (e : BusEvent α) : (w.step e).Kept m := by
  cases e with
  | subscribe => exact kept_subscribe hm h
  | unsubscribe i => exact kept_unsubscribe h i
  | publish x => exact kept_published hm h rfl rfl rfl
  | publishTelemetry deviceId x now =>
    rw [step, EventBus.publishTelemetry]
    by_cases hsoon : now - (Dict.get? w.bus.lastTel deviceId).getD 0 < 1 / 2
    · simp only [if_pos hsoon]
      exact h
    · simp only [if_neg hsoon]
      show (w.published { w.bus with lastTel := Dict.set w.bus.lastTel deviceId now } x).Kept m
      exact kept_published hm h rfl rfl rfl
  | consume i => exact kept_consume h i

/-! ## Runs -/

theorem kept_exec (hm : 1 ≤ m) (es : List (BusEvent α)) : (exec step (new m) es).Kept m :=
  exec_invariant (fun _ e h => kept_step hm h e) (kept_new m)

/-- For every reader after any interleaving: what it took and what waits for it is a
    subsequence of the publishes since its subscription, in their order and each once;
    right after a publish the newest waits; and what it misses was overtaken by
    `maxsize` newer ones. -/
theorem drops_only_oldest (maxsize : ℤ) (hmax : 1 ≤ maxsize) (es : List (BusEvent α)) (i : ℕ)
    (q : AsyncQueue (α × ℕ)) (hq : (exec step (new maxsize) es).bus.queues[i]? = some q) :
    let w := exec step (new maxsize) es
    (w.taken i ++ q.items).Sublist (w.log.zipIdx.drop (w.since i)) ∧
    (i ∈ w.bus.subs →
      (∀ x, ∃ q', (w.step (.publish x)).bus.queues[i]? = some q' ∧
        q'.items.getLast? = some (x, w.log.length)) ∧
      ∀ x ∈ w.log.zipIdx.drop (w.since i), x ∉ w.taken i ++ q.items →
        x.2 + maxsize < w.log.length) := by
  intro w
  have h : w.Kept maxsize := kept_exec hmax es
  refine ⟨h.ordered i q hq, fun hi => ⟨fun x => ?_, (h.served i q hq hi).overtaken⟩⟩
  refine ⟨q.putOrDrop (x, w.log.length), ?_, ?_⟩
  · show (w.bus.publish (x, w.log.length)).queues[i]? = _
    rw [EventBus.publish, List.getElem?_mapIdx, hq, Option.map_some, if_pos hi]
  · exact AsyncQueue.putOrDrop_getLast hmax (h.bounded i q hq) _

/-- Two places, four publishes, the first read before the third: the second is lost. -/
theorem drops_only_oldest_run :
    let es : List (BusEvent Char) :=
      [.publish 'z', .subscribe, .publish 'a', .consume 0, .publish 'b', .publish 'c', .publish 'd']
    let w := exec step (new 2) es
    (w.taken 0 ++ [('c', 3), ('d', 4)]).Sublist (w.log.zipIdx.drop (w.since 0)) ∧
    (0 ∈ w.bus.subs →
      (∀ x, ∃ q', (w.step (.publish x)).bus.queues[0]? = some q' ∧
        q'.items.getLast? = some (x, w.log.length)) ∧
      ∀ x ∈ w.log.zipIdx.drop (w.since 0), x ∉ w.taken 0 ++ [('c', 3), ('d', 4)] →
        x.2 + (2 : ℤ) < w.log.length) :=
  drops_only_oldest 2 (by decide)
    [.publish 'z', .subscribe, .publish 'a', .consume 0, .publish 'b', .publish 'c', .publish 'd'] 0
    ⟨2, [('c', 3), ('d', 4)]⟩ rfl

end Streams

end EcuTelemetry.Backend
