import Qros.Lib.Machine
import Qros.Lib.Session

/-!
# The repository and its transactions

`ResearchRepository` and `_TransactionContext` of `researchos/storage/repository.py`,
over tables of an arbitrary type `D`.

What SQLite answers is an input of each operation, so an operation may fail wherever
it calls SQLite.  As in the `sqlite3` module, the first statement that changes the
tables opens a transaction, and `commit()` and `rollback()` do nothing unless one is
open.

An operation that acquires a lock which is held waits for ever and answers `none`.
-/

namespace Qros.Storage

open Qros.Lib

structure SqliteError where
  operational : Bool
  message : String
deriving DecidableEq

/-- The exceptions that an operation may raise. -/
inductive Exc where
  | sqlite (error : SqliteError)
  | other (message : String)
deriving DecidableEq

def isIn (needle text : String) : Prop := needle.toList <:+: text.toList

instance (needle text : String) : Decidable (isIn needle text) :=
  inferInstanceAs (Decidable (_ <:+: _))

/-- The errors after which `__exit__` tries again. -/
def SqliteError.Retried (e : SqliteError) : Prop :=
  e.operational = true ∧ (isIn "database is locked" e.message ∨ isIn "cannot commit" e.message)

instance (e : SqliteError) : Decidable e.Retried := inferInstanceAs (Decidable (_ ∧ _))

def maxWriteRetries : Nat := 5

/-! ## The connection -/

/-- `_conn`: `None`, a connection that was closed, or one that is open, with the working
copy of its transaction. -/
inductive Connection (D : Type) where
  | absent
  | stale
  | live (working : Option D)

structure Repository (D : Type) where
  /-- `_lock` is held. -/
  lock : Bool
  closed : Bool
  conn : Connection D
  stored : D

inductive Opening where
  | done
  | connectFails (error : SqliteError)
  | configureFails (error : SqliteError)

structure Failure where
  error : SqliteError
  ended : Bool

/-- What SQLite answers to one turn of the loop of `__exit__`. -/
structure Attempt where
  /-- To the `commit()` or `rollback()` at its start. -/
  first : Option Failure := none
  /-- To the `rollback()` after an error. -/
  undo : Option Failure := none

/-- What SQLite answers to an operation; answers that are missing are successes. -/
structure Answers where
  getConn : Opening := .done
  reconnect : Opening := .done
  cursor : Option SqliteError := none
  statements : List (Option Exc) := []
  attempts : List Attempt := []

namespace Repository

variable {D α : Type}

/-- The session of the connection; without one only what is stored is seen. -/
def session (r : Repository D) : Session D where
  stored := r.stored
  working := match r.conn with
    | .live working => working
    | .absent => none
    | .stale => none

def withSession (r : Repository D) (s : Session D) : Repository D :=
  { r with conn := .live s.working, stored := s.stored }

def connect (r : Repository D) : Opening → Except Exc Unit × Repository D
  | .done => (.ok (), { r with conn := .live none })
  | .connectFails e => (.error (.sqlite e), r)
  -- `_conn` is set before the connection is configured
  | .configureFails e => (.error (.sqlite e), { r with conn := .live none })

def getConn (r : Repository D) (answer : Opening) : Except Exc Unit × Repository D :=
  if r.closed then (.error (.other "ResearchRepository is closed"), r)
  else match r.conn with
    | .absent => r.connect answer
    | .stale => (.ok (), r)
    | .live _ => (.ok (), r)

/-- `_reconnect`, which closes the connection that it replaces. -/
def reconnect (r : Repository D) (answer : Opening) : Except Exc Unit × Repository D :=
  match r.conn with
  | .absent => r.connect answer
  | .stale => r.connect answer
  | .live _ => { r with conn := .stale }.connect answer

def cursor (r : Repository D) (answer : Option SqliteError) : Except Exc Unit × Repository D :=
  match r.conn, answer with
  | .live _, none => (.ok (), r)
  | .live _, some e => (.error (.sqlite e), r)
  | _, _ => (.error (.sqlite ⟨false, "Cannot operate on a closed database."⟩), r)

/-- After an error of `commit()` or `rollback()`. -/
def failed (r : Repository D) (f : Failure) : Repository D :=
  if f.ended then r.withSession r.session.rollback else r

/-- `commit()` or `rollback()`, of which the session after a success is given. -/
def finish (r : Repository D) (ended : Session D) (answer : Option Failure) :
    Except SqliteError Unit × Repository D :=
  if r.session.working.isNone then (.ok (), r)
  else match answer with
    | none => (.ok (), r.withSession ended)
    | some f => (.error f.error, r.failed f)

def commit (r : Repository D) (answer : Option Failure) : Except SqliteError Unit × Repository D :=
  r.finish r.session.commit answer

def rollback (r : Repository D) (answer : Option Failure) :
    Except SqliteError Unit × Repository D :=
  r.finish r.session.rollback answer

/-! ## The transaction context -/

def acquireLock (r : Repository D) : Repository D := { r with lock := true }

def releaseLock (r : Repository D) : Repository D := { r with lock := false }

/-- `__enter__`: the `return` in its loop does not fail, so there is one turn. -/
def enter (r : Repository D) (answers : Answers) : Except Exc Unit × Repository D :=
  match r.acquireLock.getConn answers.getConn with
  | (.ok (), r) => r.cursor answers.cursor
  | (.error (.other message), r) => (.error (.other message), r)
  | (.error (.sqlite _), r) =>
    match r.reconnect answers.reconnect with
    | (.ok (), r) => r.cursor answers.cursor
    | (.error e, r) => (.error e, r)

def exitLoop (raised : Bool) : Nat → List Attempt → Repository D → Except Exc Unit × Repository D
  | 0, _, r => (.error (.sqlite ⟨true, "Could not commit after 5 retries"⟩), r.releaseLock)
  | left + 1, attempts, r =>
    let attempt := attempts.headD {}
    match (if raised then r.rollback attempt.first else r.commit attempt.first) with
    | (.ok (), r) => (.ok (), r.releaseLock)
    | (.error e, r) =>
      if e.Retried then
        match r.rollback attempt.undo with
        | (.error e, r) => (.error (.sqlite e), r.releaseLock)
        | (.ok (), r) => exitLoop raised left attempts.tail r.releaseLock.acquireLock
      else (.error (.sqlite e), r.releaseLock)

/-- `__exit__`, after a block that raised an exception or did not. -/
def exit (r : Repository D) (raised : Bool) (answers : Answers) : Except Exc Unit × Repository D :=
  exitLoop raised maxWriteRetries answers.attempts r

def runBody (r : Repository D) (body : Program D Exc α) (answers : Answers) :
    Except Exc α × Repository D :=
  match body.run answers.statements r.session with
  | (result, session) => (result, r.withSession session)

def transaction (answers : Answers) (body : Program D Exc α) (r : Repository D) :
    Option (Except Exc α) × Repository D :=
  if r.lock then (none, r)
  else match r.enter answers with
    | (.error e, r) => (some (.error e), r)
    | (.ok (), r) =>
      match r.runBody body answers with
      | (.ok a, r) =>
        match r.exit false answers with
        | (.ok (), r) => (some (.ok a), r)
        | (.error e, r) => (some (.error e), r)
      | (.error e, r) =>
        match r.exit true answers with
        | (.ok (), r) => (some (.error e), r)
        | (.error e, r) => (some (.error e), r)

/-! ## Operations without the context -/

/-- `close`, which passes over the errors of SQLite. -/
def close (r : Repository D) : Option (Except Exc Unit) × Repository D :=
  if r.lock then (none, r)
  else (some (.ok ()), { r.acquireLock with conn := .absent, closed := true }.releaseLock)

/-- A cursor on the connection, outside of a transaction context. -/
def openCursor (r : Repository D) (answers : Answers) : Except Exc Unit × Repository D :=
  match r.getConn answers.getConn with
  | (.ok (), r) => r.cursor answers.cursor
  | (.error e, r) => (.error e, r)

/-- The operations that only read, with the query that they run. -/
def query (answers : Answers) (body : Program D Exc α) (r : Repository D) :
    Except Exc α × Repository D :=
  match r.openCursor answers with
  | (.ok (), r) => r.runBody body answers
  | (.error e, r) => (.error e, r)

/-- `delete_object`, with the statement that it runs; its commit is the first attempt. -/
def deleteObject (answers : Answers) (body : Program D Exc α) (r : Repository D) :
    Except Exc α × Repository D :=
  match r.query answers body with
  | (.error e, r) => (.error e, r)
  | (.ok a, r) =>
    match r.commit (answers.attempts.headD {}).first with
    | (.ok (), r) => (.ok a, r)
    | (.error e, r) => (.error (.sqlite e), r)

end Repository

/-! ## Runs -/

/-- A call of an operation, with what SQLite answers to it.  The body of a block, the
query of a read and the statement of `delete_object` are arbitrary. -/
inductive Call (D α : Type) where
  | transaction (answers : Answers) (body : Program D Exc α)
  | query (answers : Answers) (body : Program D Exc α)
  | deleteObject (answers : Answers) (body : Program D Exc α)
  | close

def Call.run {D α : Type} (r : Repository D) :
    Call D α → Option (Except Exc (Option α)) × Repository D
  | .transaction answers body =>
    match r.transaction answers body with
    | (answer, r) => (answer.map (Except.map some), r)
  | .query answers body =>
    match r.query answers body with
    | (answer, r) => (some (answer.map some), r)
  | .deleteObject answers body =>
    match r.deleteObject answers body with
    | (answer, r) => (some (answer.map some), r)
  | .close =>
    match r.close with
    | (answer, r) => (answer.map (Except.map fun _ ↦ none), r)

def Repository.opened {D : Type} (d : D) : Repository D where
  lock := false
  closed := false
  conn := .live none
  stored := d

def repository (D α : Type) (d : D) :
    Machine (Repository D) (Call D α) (Option (Except Exc (Option α))) where
  init := Repository.opened d
  step := fun call r ↦ call.run r

end Qros.Storage
