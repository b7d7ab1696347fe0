import Qros.Storage.Transaction

/-!
# The lock of the repository

`__enter__` acquires the lock and looks the connection up before anything would
release the lock again, so an error of the lookup leaves the lock held for ever.
`Enters` says when the lookup succeeds; from then on every path through `__exit__`
releases the lock.

`lock_released_iff` is exact about the runs in which the lock is free after every
operation: those in which every block that is entered gets its cursor.
-/

namespace Qros.Storage

open Qros.Lib

namespace Repository

variable {D α : Type}

@[simp]
theorem session_withSession (r : Repository D) (s : Session D) :
    (r.withSession s).session = s := rfl

@[simp]
theorem lock_withSession (r : Repository D) (s : Session D) : (r.withSession s).lock = r.lock := rfl

@[simp]
theorem stored_session (r : Repository D) : r.session.stored = r.stored := rfl

@[simp]
theorem session_releaseLock (r : Repository D) : r.releaseLock.session = r.session := rfl

@[simp]
theorem lock_releaseLock (r : Repository D) : r.releaseLock.lock = false := rfl

@[simp]
theorem session_acquireLock (r : Repository D) : r.acquireLock.session = r.session := rfl

/-! ## Entering a block -/

/-- The block gets a cursor: the repository is not closed and has a connection, or gets one
from one of two tries. -/
structure Enters (r : Repository D) (answers : Answers) : Prop where
  not_closed : r.closed = false
  conn : match r.conn with
    | .live _ => True
    | .stale => False
    | .absent => answers.getConn = .done ∨ answers.reconnect = .done
  cursor : answers.cursor = none

/-- Only the connection changes. -/
structure SameTables (r r' : Repository D) : Prop where
  lock : r'.lock = r.lock
  stored : r'.stored = r.stored

theorem SameTables.trans {r r' r'' : Repository D} (h : SameTables r r') (h' : SameTables r' r'') :
    SameTables r r'' :=
  ⟨h'.lock.trans h.lock, h'.stored.trans h.stored⟩

theorem sameTables_connect (r : Repository D) (answer : Opening) :
    SameTables r (r.connect answer).2 := by
  cases answer <;> exact ⟨rfl, rfl⟩

theorem sameTables_getConn (r : Repository D) (answer : Opening) :
    SameTables r (r.getConn answer).2 := by
  unfold getConn
  split
  · exact ⟨rfl, rfl⟩
  · split
    · exact sameTables_connect r answer
    · exact ⟨rfl, rfl⟩
    · exact ⟨rfl, rfl⟩

theorem sameTables_reconnect (r : Repository D) (answer : Opening) :
    SameTables r (r.reconnect answer).2 := by
  unfold reconnect
  split
  · exact sameTables_connect r answer
  · exact sameTables_connect r answer
  · exact ⟨(sameTables_connect _ answer).lock, (sameTables_connect _ answer).stored⟩

theorem cursor_snd (r : Repository D) (answer : Option SqliteError) : (r.cursor answer).2 = r := by
  unfold cursor
  split <;> rfl

theorem sameTables_enter (r : Repository D) (answers : Answers) :
    SameTables r.acquireLock (r.enter answers).2 := by
  have hget := sameTables_getConn r.acquireLock answers.getConn
  unfold enter
  split <;> rename_i r₁ heq <;> rw [heq] at hget
  · rw [cursor_snd]
    exact hget
  · exact hget
  · have hre := sameTables_reconnect r₁ answers.reconnect
    split <;> rename_i r₂ heq' <;> rw [heq'] at hre
    · rw [cursor_snd]
      exact hget.trans hre
    · exact hget.trans hre

variable {answers : Answers} {r : Repository D}

theorem enter_of_enters (h : r.Enters answers) :
    r.enter answers = (.ok (), r.acquireLock.withSession r.session) := by
  obtain ⟨lock, closed, conn, stored⟩ := r
  obtain ⟨hclosed, hconn, hcursor⟩ := h
  obtain rfl : closed = false := hclosed
  unfold enter
  rw [hcursor]
  cases conn with
  | live working => rfl
  | stale => exact absurd hconn not_false
  | absent =>
    -- a connection that opens but cannot be configured is replaced like none
    cases hget : answers.getConn with
    | done => rfl
    | connectFails e =>
      obtain hre : answers.reconnect = .done := by simpa [hget] using hconn
      rw [hre]
      rfl
    | configureFails e =>
      obtain hre : answers.reconnect = .done := by simpa [hget] using hconn
      rw [hre]
      rfl

theorem enter_of_not_enters (h : ¬ r.Enters answers) :
    ∃ e, (r.enter answers).1 = .error e := by
  obtain ⟨lock, closed, conn, stored⟩ := r
  cases closed with
  | true => exact ⟨_, rfl⟩
  | false =>
    unfold enter
    cases hcursor : answers.cursor with
    | some e =>
      cases conn with
      | live working => exact ⟨_, rfl⟩
      | stale => exact ⟨_, rfl⟩
      | absent => cases answers.getConn <;> cases answers.reconnect <;> exact ⟨_, rfl⟩
    | none =>
      cases conn with
      | live working => exact absurd ⟨rfl, trivial, hcursor⟩ h
      | stale => exact ⟨_, rfl⟩
      | absent =>
        cases hget : answers.getConn with
        | done => exact absurd ⟨rfl, .inl hget, hcursor⟩ h
        | connectFails e =>
          cases hre : answers.reconnect with
          | done => exact absurd ⟨rfl, .inr hre, hcursor⟩ h
          | connectFails e => exact ⟨_, rfl⟩
          | configureFails e => exact ⟨_, rfl⟩
        | configureFails e =>
          cases hre : answers.reconnect with
          | done => exact absurd ⟨rfl, .inr hre, hcursor⟩ h
          | connectFails e => exact ⟨_, rfl⟩
          | configureFails e => exact ⟨_, rfl⟩

/-! ## Leaving a block -/

theorem lock_exitLoop (raised : Bool) (left : Nat) (attempts : List Attempt) (r : Repository D) :
    (exitLoop raised left attempts r).2.lock = false := by
  induction left generalizing attempts r with
  | zero => rfl
  | succ left ih =>
    rw [exitLoop]
    split
    · rfl
    · split
      · split
        · rfl
        · exact ih _ _
      · rfl

theorem lock_exit (r : Repository D) (raised : Bool) (answers : Answers) :
    (r.exit raised answers).2.lock = false :=
  lock_exitLoop _ _ _ _

theorem transaction_of_lock (h : r.lock = true) (answers : Answers) (body : Program D Exc α) :
    r.transaction answers body = (none, r) := by
  unfold transaction
  rw [if_pos h]

theorem transaction_of_not_enters (hlock : r.lock = false) (h : ¬ r.Enters answers)
    (body : Program D Exc α) :
    ∃ e, r.transaction answers body = (some (.error e), (r.enter answers).2) := by
  obtain ⟨e, he⟩ := enter_of_not_enters h
  refine ⟨e, ?_⟩
  have henter : r.enter answers = (.error e, (r.enter answers).2) := Prod.ext he rfl
  unfold transaction
  rw [if_neg (hlock ▸ Bool.false_ne_true), henter]

theorem transaction_of_returns (hlock : r.lock = false) (h : r.Enters answers)
    {body : Program D Exc α} {a : α} {s : Session D}
    (hbody : body.run answers.statements r.session = (.ok a, s)) :
    r.transaction answers body =
      (some (((r.acquireLock.withSession s).exit false answers).1.map fun _ ↦ a),
        ((r.acquireLock.withSession s).exit false answers).2) := by
  have hrun : (r.acquireLock.withSession r.session).runBody body answers =
      (.ok a, r.acquireLock.withSession s) := by
    unfold runBody
    rw [session_withSession, hbody]
    rfl
  unfold transaction
  rw [if_neg (hlock ▸ Bool.false_ne_true), enter_of_enters h]
  simp only [hrun]
  split <;> rename_i heq <;> rw [heq] <;> rfl

theorem transaction_of_raises (hlock : r.lock = false) (h : r.Enters answers)
    {body : Program D Exc α} {e : Exc} {s : Session D}
    (hbody : body.run answers.statements r.session = (.error e, s)) :
    (∃ e', (r.transaction answers body).1 = some (.error e')) ∧
      (r.transaction answers body).2 = ((r.acquireLock.withSession s).exit true answers).2 := by
  have hrun : (r.acquireLock.withSession r.session).runBody body answers =
      (.error e, r.acquireLock.withSession s) := by
    unfold runBody
    rw [session_withSession, hbody]
    rfl
  unfold transaction
  rw [if_neg (hlock ▸ Bool.false_ne_true), enter_of_enters h]
  simp only [hrun]
  split <;> rename_i heq <;> rw [heq] <;> exact ⟨⟨_, rfl⟩, rfl⟩

theorem lock_transaction_iff (hlock : r.lock = false) (answers : Answers) (body : Program D Exc α) :
    (r.transaction answers body).2.lock = false ↔ r.Enters answers := by
  constructor
  · intro hfree
    by_contra h
    obtain ⟨e, he⟩ := transaction_of_not_enters hlock h body
    rw [he] at hfree
    have hheld : (r.enter answers).2.lock = true := (sameTables_enter r answers).lock
    exact Bool.false_ne_true (hfree.symm.trans hheld)
  · intro h
    cases hbody : body.run answers.statements r.session with
    | mk result s =>
      cases result with
      | ok a =>
        rw [transaction_of_returns hlock h hbody]
        exact lock_exit _ _ _
      | error e =>
        rw [(transaction_of_raises hlock h hbody).2]
        exact lock_exit _ _ _

/-! ## The other operations -/

theorem lock_close (r : Repository D) : r.close.2.lock = r.lock := by
  unfold close
  cases hlock : r.lock with
  | true => exact hlock
  | false => rfl

theorem sameTables_openCursor (r : Repository D) (answers : Answers) :
    SameTables r (r.openCursor answers).2 := by
  have hget := sameTables_getConn r answers.getConn
  unfold openCursor
  split <;> rename_i r₁ heq <;> rw [heq] at hget
  · rw [cursor_snd]
    exact hget
  · exact hget

theorem lock_query (r : Repository D) (answers : Answers) (body : Program D Exc α) :
    (r.query answers body).2.lock = r.lock := by
  have hopen := (sameTables_openCursor r answers).lock
  unfold query
  split <;> rename_i r₁ heq <;> rw [heq] at hopen
  · exact hopen
  · exact hopen

theorem lock_commit (r : Repository D) (answer : Option Failure) :
    (r.commit answer).2.lock = r.lock := by
  unfold commit finish
  split
  · rfl
  · split
    · rfl
    · unfold failed
      split <;> rfl

theorem lock_deleteObject (r : Repository D) (answers : Answers) (body : Program D Exc α) :
    (r.deleteObject answers body).2.lock = r.lock := by
  have hquery := lock_query r answers body
  unfold deleteObject
  split <;> rename_i r₁ heq <;> rw [heq] at hquery
  · exact hquery
  · have hcommit := lock_commit r₁ (answers.attempts.headD {}).first
    split <;> rename_i r₂ heq' <;> rw [heq'] at hcommit
    · exact hcommit.trans hquery
    · exact hcommit.trans hquery

end Repository

/-! ## Runs -/

/-- A block that the call runs gets its cursor. -/
def Call.Enters {D α : Type} (r : Repository D) : Call D α → Prop
  | .transaction answers _ => r.Enters answers
  | .query _ _ => True
  | .deleteObject _ _ => True
  | .close => True

theorem Call.lock_run_iff {D α : Type} {r : Repository D} (hlock : r.lock = false)
    (call : Call D α) : (call.run r).2.lock = false ↔ call.Enters r := by
  cases call with
  | transaction answers body => exact Repository.lock_transaction_iff hlock answers body
  | query answers body => exact iff_of_true ((Repository.lock_query r answers body).trans hlock) trivial
  | deleteObject answers body =>
    exact iff_of_true ((Repository.lock_deleteObject r answers body).trans hlock) trivial
  | close => exact iff_of_true ((Repository.lock_close r).trans hlock) trivial

/-- The lock is free after every call of a run just when every block that is entered in it
gets its cursor. -/
theorem lock_released_iff {D α : Type} (d : D) (calls : List (Call D α)) :
    (∀ pre, pre <+: calls → ((repository D α d).after pre).lock = false) ↔
      Meets (fun pre call ↦ call.Enters ((repository D α d).after pre)) calls := by
  refine safe_iff_meets (B := fun _ _ ↦ True) (fun _ _ _ ↦ trivial) rfl ?_
  intro pre call _ _ hsafe _
  rw [Machine.after_concat]
  exact Call.lock_run_iff (hsafe pre (List.prefix_refl pre)) call

/-- After `close` a block raises and leaves the lock held, so that the next call waits. -/
theorem lock_held_after_close :
    ¬ ∀ pre, pre <+: [Call.close, .transaction {} (.done ())] →
      ((repository Nat Unit 0).after pre).lock = false := by
  intro h
  cases h _ (List.prefix_refl _)

end Qros.Storage
