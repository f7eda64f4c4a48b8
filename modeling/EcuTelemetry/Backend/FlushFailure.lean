/-
  EcuTelemetry.Backend.FlushFailure

  `buffer_telemetry` and `flush` of backend/app/db.py on a database that can raise.

  The connection is in manual-transaction mode: what a transaction has inserted is
  stored with COMMIT, an exception leaves the transaction open, and BEGIN in an open
  transaction raises.  `flush` has emptied the buffer before it comes to BEGIN, and
  nothing rolls back: where a statement raises the rows are gone, and so are those of
  every later `flush`.

  `buffered` is a history variable: every row that was buffered.
-/

import EcuTelemetry.Backend.Rollup
import EcuTelemetry.Backend.Protocol
import EcuTelemetry.Lib.Proc

namespace EcuTelemetry.Backend

open Proc

/-! ## The connection -/

/-- The statement of `flush` at which the database raises. -/
inductive Fault
  | atBegin
  /-- `executemany` has inserted some rows -/
  | atInsert (rows : Nat)
  | atCommit
deriving DecidableEq

structure Connection where
  /-- the stored rows of `telemetry` -/
  telemetry : List TelemetryRow := []
  /-- the rows that the open transaction has inserted -/
  transaction : Option (List TelemetryRow) := none
  fault : Option Fault := none

abbrev Sql := Proc PyError Connection

/-- `execute("BEGIN")`. -/
def executeBegin : Sql Unit := do
  let c ← get
  if c.transaction.isSome ∨ c.fault = some .atBegin then raise .sqliteError
  else modify fun c => { c with transaction := some [] }

/-- The transaction inserts rows. -/
def Connection.insert (c : Connection) (rows : List TelemetryRow) : Connection :=
  { c with transaction := c.transaction.map (· ++ rows) }

/-- `executemany("INSERT INTO telemetry ..", rows)`. -/
def executeInsert (rows : List TelemetryRow) : Sql Unit := do
  let c ← get
  match c.fault with
  | some (.atInsert k) => do
    modify fun c => c.insert (rows.take k)
    raise .sqliteError
  | _ => modify fun c => c.insert rows

/-- `execute("COMMIT")`. -/
def executeCommit : Sql Unit := do
  let c ← get
  if c.fault = some .atCommit then raise .sqliteError
  else modify fun c =>
    { c with telemetry := c.telemetry ++ c.transaction.getD [], transaction := none }

/-- What `flush` does under the lock of the connection. -/
def storeRows (rows : List TelemetryRow) : Sql Unit := do
  executeBegin
  executeInsert rows
  executeCommit

/-- Some statement raises. -/
def Connection.Raises (c : Connection) : Prop := c.transaction ≠ none ∨ c.fault ≠ none

theorem storeRows_ok {c : Connection} (h : ¬ c.Raises) (rows : List TelemetryRow) :
    storeRows rows c = (.ok (), { c with telemetry := c.telemetry ++ rows }) := by
  obtain ⟨htransaction, hfault⟩ := not_or.mp h
  obtain ⟨telemetry, transaction, fault⟩ := c
  obtain rfl : transaction = none := not_not.mp htransaction
  obtain rfl : fault = none := not_not.mp hfault
  rfl

/-- Where a statement raises nothing is stored. -/
theorem storeRows_raises {c : Connection} (h : c.Raises) (rows : List TelemetryRow) :
    ∃ c', storeRows rows c = (.error .sqliteError, c') ∧ c'.telemetry = c.telemetry := by
  obtain ⟨telemetry, transaction, fault⟩ := c
  cases transaction with
  | some inserted => exact ⟨_, rfl, rfl⟩
  | none =>
    have hfault : fault ≠ none := h.resolve_left (· rfl)
    cases fault with
    | none => exact absurd rfl hfault
    | some f => cases f <;> exact ⟨_, rfl, rfl⟩

/-! ## The buffer -/

structure FlushStore where
  telBuf : List TelemetryRow := []
  /-- the rows that calls of `flush` have taken and not come to store -/
  taken : List (List TelemetryRow) := []
  conn : Connection := {}
  buffered : List TelemetryRow := []

/-- A step of some thread. -/
inductive FlushEvent
  /-- `buffer_telemetry` -/
  | buffer (row : TelemetryRow)
  /-- `flush` takes the buffer -/
  | take
  /-- `flush` stores what it took, and the database may raise -/
  | store (i : Nat) (fault : Option Fault)

namespace FlushStore

/-- The part of `flush` on the database. -/
def store (s : FlushStore) (rows : List TelemetryRow) (fault : Option Fault) :
    Except PyError Nat × FlushStore :=
  let (r, c) := storeRows rows { s.conn with fault }
  (r.map fun _ => rows.length, { s with conn := c })

/-- `flush`, with no other call in between. -/
def flush (s : FlushStore) (fault : Option Fault) : Except PyError Nat × FlushStore :=
  if s.telBuf = [] then (.ok 0, s) else store { s with telBuf := [] } s.telBuf fault

def step (s : FlushStore) : FlushEvent → FlushStore
  | .buffer row => { s with telBuf := s.telBuf ++ [row], buffered := s.buffered ++ [row] }
  | .take => if s.telBuf = [] then s else { s with telBuf := [], taken := s.taken ++ [s.telBuf] }
  | .store i fault =>
    match s.taken[i]? with
    | some rows => (store { s with taken := s.taken.eraseIdx i } rows fault).2
    | none => s

/-- A `flush` on which the database may raise loses nothing: every row is stored once or
    is in the buffer, and on a database that does not raise the next `flush` stores what
    is in the buffer by then. -/
def NothingLost (s : FlushStore) (fault : Option Fault) : Prop :=
  let s' := (s.flush fault).2
  (s'.conn.telemetry ++ s'.telBuf).Perm (s.conn.telemetry ++ s.telBuf) ∧
  ∀ rows, ∃ n s'', flush { s' with telBuf := s'.telBuf ++ rows } none = (.ok n, s'') ∧
    s''.telBuf = [] ∧ s''.conn.telemetry.Perm (s'.conn.telemetry ++ (s'.telBuf ++ rows))

/-- Every buffered row is stored once, or taken, or in the buffer, and no transaction
    is open. -/
structure Accounted (s : FlushStore) : Prop where
  rows : s.buffered.Perm (s.conn.telemetry ++ s.taken.flatten ++ s.telBuf)
  transaction : s.conn.transaction = none

/-- The database does not raise on the step. -/
def Unfailing (_ : FlushStore) : FlushEvent → Prop
  | .store _ fault => fault = none
  | _ => True

/-! ## One flush -/

theorem flush_empty {s : FlushStore} (h : s.telBuf = []) (fault : Option Fault) :
    s.flush fault = (.ok 0, s) := if_pos h

/-- A flush that meets no failure stores the whole buffer. -/
theorem flush_ok {s : FlushStore} (h : s.conn.transaction = none) :
    ∃ n s', s.flush none = (.ok n, s') ∧ s'.telBuf = [] ∧ s'.conn.transaction = none ∧
      s'.conn.telemetry = s.conn.telemetry ++ s.telBuf := by
  by_cases hempty : s.telBuf = []
  · refine ⟨0, s, flush_empty hempty none, hempty, h, ?_⟩
    rw [hempty, List.append_nil]
  · have hquiet : ¬ Connection.Raises { s.conn with fault := none } :=
      not_or.mpr ⟨not_not.mpr h, not_not.mpr rfl⟩
    rw [flush, if_neg hempty, store, storeRows_ok hquiet]
    exact ⟨_, _, rfl, rfl, h, rfl⟩

/-- The rows of a `flush` that raises are gone. -/
theorem flush_raises {s : FlushStore} {fault : Option Fault} (hrows : s.telBuf ≠ [])
    (h : s.conn.transaction ≠ none ∨ fault ≠ none) :
    (s.flush fault).1 = .error .sqliteError ∧ (s.flush fault).2.telBuf = [] ∧
      (s.flush fault).2.conn.telemetry = s.conn.telemetry := by
  have hraises : Connection.Raises { s.conn with fault } := h
  obtain ⟨c', hstore, htelemetry⟩ := storeRows_raises hraises s.telBuf
  rw [flush, if_neg hrows, store, hstore]
  exact ⟨rfl, rfl, htelemetry⟩

/-- When a flush loses nothing: no open transaction, and no failure where there are rows. -/
theorem NothingLost.iff (s : FlushStore) (fault : Option Fault) :
    s.NothingLost fault ↔ s.conn.transaction = none ∧ (s.telBuf = [] ∨ fault = none) := by
  constructor
  · rintro ⟨hkept, hlater⟩
    -- a `flush` of rows that raises has fewer rows to show than before
    have hquiet : ¬ (s.telBuf ≠ [] ∧ (s.conn.transaction ≠ none ∨ fault ≠ none)) := by
      rintro ⟨hrows, hraises⟩
      obtain ⟨-, hbuf, htelemetry⟩ := flush_raises hrows hraises
      rw [hbuf, htelemetry] at hkept
      have hlength := hkept.length_eq
      rw [List.length_append, List.length_append, List.length_nil] at hlength
      exact hrows (List.length_eq_zero_iff.mp (by omega))
    by_cases hempty : s.telBuf = []
    · refine ⟨?_, .inl hempty⟩
      by_contra hopen
      rw [flush_empty hempty fault] at hlater
      obtain ⟨n, s'', hflush, -, -⟩ := hlater [{ deviceId := "", ts := 0 }]
      obtain ⟨herror, -, -⟩ := @flush_raises
        { s with telBuf := s.telBuf ++ [{ deviceId := "", ts := 0 }] } none
        (List.append_ne_nil_of_right_ne_nil _ (List.cons_ne_nil _ _)) (.inl hopen)
      rw [hflush] at herror
      cases herror
    · have hboth := not_or.mp fun h => hquiet ⟨hempty, h⟩
      exact ⟨not_not.mp hboth.1, .inr (not_not.mp hboth.2)⟩
  · rintro ⟨htransaction, hfault⟩
    -- in both cases the `flush` returns, with everything stored
    obtain ⟨n, s', hflush, hbuf, hopen, htelemetry⟩ : ∃ n s', s.flush fault = (.ok n, s') ∧
        s'.telBuf = [] ∧ s'.conn.transaction = none ∧
        s'.conn.telemetry = s.conn.telemetry ++ s.telBuf := by
      rcases hfault with hempty | rfl
      · exact ⟨0, s, flush_empty hempty fault, hempty, htransaction,
          by rw [hempty, List.append_nil]⟩
      · exact flush_ok htransaction
    rw [NothingLost, hflush]
    refine ⟨by rw [hbuf, htelemetry, List.append_nil], fun rows => ?_⟩
    obtain ⟨n, s'', hlater, hbuf', -, hstored⟩ :=
      @flush_ok { s' with telBuf := s'.telBuf ++ rows } hopen
    exact ⟨n, s'', hlater, hbuf', hstored ▸ List.Perm.refl _⟩

/-! ## Runs without failures -/

/-- A batch taken out and the rest. -/
theorem eraseIdx_flatten_perm {α : Type} {xss : List (List α)} {i : Nat} {xs : List α}
    (h : xss[i]? = some xs) : xss.flatten.Perm (xs ++ (xss.eraseIdx i).flatten) := by
  induction xss generalizing i with
  | nil => cases h
  | cons ys xss ih =>
    cases i with
    | zero =>
      cases h
      exact List.Perm.refl _
    | succ i =>
      rw [List.flatten_cons, List.eraseIdx_cons_succ, List.flatten_cons]
      refine ((ih h).append_left ys).trans ?_
      rw [← List.append_assoc, ← List.append_assoc]
      exact List.perm_append_comm.append_right _

/-- While nothing fails every buffered row is somewhere. -/
theorem Accounted.step {s : FlushStore} (h : s.Accounted) {e : FlushEvent}
    (he : s.Unfailing e) : (s.step e).Accounted := by
  -- a row moves from the buffer to a batch, and from there to the table
  cases e with
  | buffer row =>
    refine ⟨?_, h.transaction⟩
    show (s.buffered ++ [row]).Perm (_ ++ (s.telBuf ++ [row]))
    rw [← List.append_assoc]
    exact h.rows.append_right [row]
  | take =>
    rw [FlushStore.step]
    split
    · exact h
    · refine ⟨h.rows.trans ?_, h.transaction⟩
      show (_ ++ s.taken.flatten ++ s.telBuf).Perm (_ ++ (s.taken ++ [s.telBuf]).flatten ++ [])
      rw [List.flatten_append, List.flatten_singleton, List.append_nil, List.append_assoc]
  | store i fault =>
    rw [FlushStore.step]
    split
    · next rows hrows =>
      -- no statement raises: no failure and no open transaction
      have hquiet : ¬ Connection.Raises { s.conn with fault } :=
        not_or.mpr ⟨not_not.mpr h.transaction, not_not.mpr he⟩
      rw [FlushStore.store, storeRows_ok hquiet]
      refine ⟨h.rows.trans ?_, h.transaction⟩
      show (s.conn.telemetry ++ s.taken.flatten ++ s.telBuf).Perm
        (s.conn.telemetry ++ rows ++ (s.taken.eraseIdx i).flatten ++ s.telBuf)
      rw [List.append_assoc s.conn.telemetry rows]
      exact ((eraseIdx_flatten_perm hrows).append_left _).append_right _
    · exact h

/-- A `flush` loses nothing iff no transaction is open before it and the database raises
    at none of its statements, if it comes to them at all.  Without failures every
    buffered row is accounted for, whatever the order of the steps. -/
theorem flush_loses_nothing_iff (s : FlushStore) (fault : Option Fault) (es : List FlushEvent) :
    (s.NothingLost fault ↔ s.conn.transaction = none ∧ (s.telBuf = [] ∨ fault = none)) ∧
    (AllSteps step Unfailing {} es → (exec step {} es).Accounted) := by
  refine ⟨NothingLost.iff s fault, fun hes => ?_⟩
  exact hes.invariant (fun s e he h => h.step he) ⟨List.Perm.refl _, rfl⟩

/-- With the disk full at COMMIT, the row of the buffer is gone. -/
theorem commit_fault_loses :
    ¬ NothingLost { telBuf := [{ deviceId := "E1", ts := 5 }] } (some .atCommit) := by
  rintro ⟨hkept, -⟩
  exact absurd hkept.length_eq (by decide)

end FlushStore

end EcuTelemetry.Backend
