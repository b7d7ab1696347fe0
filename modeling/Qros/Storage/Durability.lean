import Qros.Storage.Lock

/-!
# Durability of the blocks

A block that exits without an exception ought to have all its writes stored, and one
that exits with an exception none of them.

The first commit decides.  If it fails with an error after which `__exit__` tries
again, the handler has rolled the transaction back before the second commit, which
then finds no open transaction and succeeds: the block exits without an exception
and its writes are gone.  `atomic_iff` says that nothing else can go wrong, for any
body of the block and any answers of SQLite.
-/

namespace Qros.Storage

open Qros.Lib

/-- The first turn of the loop of `__exit__`. -/
def Answers.firstAttempt (answers : Answers) : Attempt := answers.attempts.headD {}

/-- The commit fails with an error after which the loop goes on, and the transaction is
rolled back. -/
def Attempt.Dropped (attempt : Attempt) : Prop :=
  ∃ f ∈ attempt.first, f.error.Retried ∧ (f.ended = true ∨ attempt.undo = none)

namespace Repository

variable {D α : Type}

/-! ## The end of a transaction -/

variable {r : Repository D} {answers : Answers} {body : Program D Exc α}

theorem finish_of_working_none (h : r.session.working = none) (ended : Session D)
    (answer : Option Failure) : r.finish ended answer = (.ok (), r) := by
  unfold finish
  rw [h]
  rfl

@[simp]
theorem stored_failed (r : Repository D) (f : Failure) : (r.failed f).stored = r.stored := by
  unfold failed
  split <;> rfl

theorem stored_rollback (r : Repository D) (answer : Option Failure) :
    (r.rollback answer).2.stored = r.stored := by
  unfold rollback finish
  split
  · rfl
  · split
    · rfl
    · exact stored_failed r _

theorem rollback_eq_ok {r r' : Repository D} {answer : Option Failure}
    (h : r.rollback answer = (.ok (), r')) :
    r'.session.working = none ∧ r'.stored = r.stored := by
  unfold rollback finish at h
  split at h
  · rename_i hnone
    cases h
    exact ⟨Option.isNone_iff_eq_none.mp hnone, rfl⟩
  · split at h
    · cases h
      exact ⟨rfl, rfl⟩
    · cases h

theorem exitLoop_of_working_none (h : r.session.working = none) (raised : Bool) (left : Nat)
    (attempts : List Attempt) :
    exitLoop raised (left + 1) attempts r = (.ok (), r.releaseLock) := by
  rw [exitLoop]
  cases raised with
  | true =>
    simp only [rollback, finish_of_working_none h, if_true]
  | false =>
    simp only [commit, finish_of_working_none h, Bool.false_eq_true, if_false]

theorem stored_exitLoop_true (left : Nat) (attempts : List Attempt) (r : Repository D) :
    (exitLoop true left attempts r).2.stored = r.stored := by
  induction left generalizing attempts r with
  | zero => rfl
  | succ left ih =>
    rw [exitLoop]
    have hfirst := stored_rollback r (attempts.headD {}).first
    simp only [if_true]
    split <;> rename_i r₁ heq <;> rw [heq] at hfirst
    · exact hfirst
    · split
      · have hundo := stored_rollback r₁ (attempts.headD {}).undo
        split <;> rename_i r₂ heq' <;> rw [heq'] at hundo
        · exact hundo.trans hfirst
        · exact ((ih _ r₂.releaseLock.acquireLock).trans hundo).trans hfirst
      · exact hfirst

theorem exit_of_working_none (h : r.session.working = none) (answers : Answers) :
    r.exit false answers = (.ok (), r.releaseLock) :=
  exitLoop_of_working_none h false 4 answers.attempts

theorem exit_of_commits (h : answers.firstAttempt.first = none) :
    (r.exit false answers).1 = .ok () ∧ (r.exit false answers).2.stored = r.session.current := by
  cases hw : r.session.working with
  | none =>
    rw [exit_of_working_none hw]
    exact ⟨rfl, (Session.current_of_working_none hw).symm⟩
  | some w =>
    have hcommit : r.commit answers.firstAttempt.first = (.ok (), r.withSession r.session.commit) := by
      unfold commit finish
      rw [h, hw]
      rfl
    have hexit : r.exit false answers = (.ok (), (r.withSession r.session.commit).releaseLock) := by
      unfold exit maxWriteRetries
      rw [exitLoop]
      simp only [Bool.false_eq_true, if_false]
      rw [show answers.attempts.headD {} = answers.firstAttempt from rfl, hcommit]
    rw [hexit]
    exact ⟨rfl, rfl⟩

theorem commit_of_fails (hw : r.session.working ≠ none) (f : Failure) :
    r.commit (some f) = (.error f.error, r.failed f) := by
  unfold commit finish
  rw [if_neg fun h ↦ hw (Option.isNone_iff_eq_none.mp h)]

theorem rollback_failed_iff (hw : r.session.working ≠ none) (f : Failure) (undo : Option Failure) :
    ((r.failed f).rollback undo).1 = .ok () ↔ f.ended = true ∨ undo = none := by
  unfold failed
  cases f.ended with
  | true => exact iff_of_true rfl (.inl rfl)
  | false =>
    unfold rollback finish
    rw [if_neg Bool.false_ne_true, if_neg fun h ↦ hw (Option.isNone_iff_eq_none.mp h)]
    cases undo with
    | none => exact iff_of_true rfl (.inr rfl)
    | some u => exact iff_of_false nofun (by rintro (h | h) <;> cases h)

/-- A commit that fails stores nothing, and the block exits without an exception just when its
transaction was dropped. -/
theorem exit_of_fails {f : Failure} (hw : r.session.working ≠ none)
    (h : answers.firstAttempt.first = some f) :
    (r.exit false answers).2.stored = r.stored ∧
      ((r.exit false answers).1 = .ok () ↔ answers.firstAttempt.Dropped) := by
  have hundo := rollback_failed_iff hw f answers.firstAttempt.undo
  have hstored := stored_rollback (r.failed f) answers.firstAttempt.undo
  have hdropped : answers.firstAttempt.Dropped ↔
      f.error.Retried ∧ (f.ended = true ∨ answers.firstAttempt.undo = none) := by
    unfold Attempt.Dropped
    simp [h]
  rw [hdropped, ← hundo]
  unfold exit maxWriteRetries
  rw [exitLoop]
  simp only [Bool.false_eq_true, if_false]
  rw [show answers.attempts.headD {} = answers.firstAttempt from rfl, h, commit_of_fails hw f]
  by_cases hretried : f.error.Retried
  · simp only [if_pos hretried]
    split <;> rename_i r₂ heq <;> rw [heq] at hstored ⊢
    · exact ⟨hstored.trans (stored_failed r f),
        iff_of_false (fun h ↦ by cases h) fun h ↦ by cases h.2⟩
    · have hnone : r₂.releaseLock.acquireLock.session.working = none := (rollback_eq_ok heq).1
      rw [exitLoop_of_working_none hnone]
      exact ⟨hstored.trans (stored_failed r f), iff_of_true rfl ⟨hretried, rfl⟩⟩
  · simp only [if_neg hretried]
    exact ⟨stored_failed r f, iff_of_false (fun h ↦ by cases h) fun h ↦ hretried h.1⟩

/-! ## Blocks -/

/-- The tables as the body of the block leaves them. -/
def written (r : Repository D) (answers : Answers) (body : Program D Exc α) : D :=
  (body.run answers.statements r.session).2.current

/-- If the block exits without an exception then what it changed is stored, and if it exits with
one then nothing is. -/
structure Atomic (r : Repository D) (answers : Answers) (body : Program D Exc α) : Prop where
  returns : ∀ a, (r.transaction answers body).1 = some (.ok a) →
    r.written answers body = r.session.current ∨
      (r.transaction answers body).2.stored = r.written answers body
  raises : ∀ e, (r.transaction answers body).1 = some (.error e) →
    (r.transaction answers body).2.stored = r.stored

/-- The block returns with changes, and its transaction is dropped when it is committed. -/
structure Loses (r : Repository D) (answers : Answers) (body : Program D Exc α) : Prop where
  free : r.lock = false
  enters : r.Enters answers
  returns : ∃ a, (body.run answers.statements r.session).1 = .ok a
  changes : r.written answers body ≠ r.session.current
  not_stored : r.written answers body ≠ r.stored
  dropped : answers.firstAttempt.Dropped

theorem atomic_of_raises {e : Exc} (h : (r.transaction answers body).1 = some (.error e))
    (hstored : (r.transaction answers body).2.stored = r.stored) : r.Atomic answers body where
  returns := by
    intro a ha
    rw [h] at ha
    cases ha
  raises := fun _ _ ↦ hstored

theorem atomic_of_stores {a : α} (h : (r.transaction answers body).1 = some (.ok a))
    (hstored : r.written answers body = r.session.current ∨ (r.transaction answers body).2.stored =
      r.written answers body) :
    r.Atomic answers body where
  returns := fun _ _ ↦ hstored
  raises := by
    intro e he
    rw [h] at he
    cases he

theorem atomic_iff_of_returns {a : α} {s : Session D} (hlock : r.lock = false)
    (henters : r.Enters answers) (hbody : body.run answers.statements r.session = (.ok a, s)) :
    r.Atomic answers body ↔ ¬ r.Loses answers body := by
  have htransaction := transaction_of_returns hlock henters hbody
  have hanswer := congrArg Prod.fst htransaction
  have hafter := congrArg Prod.snd htransaction
  have hwritten : r.written answers body = s.current := by
    unfold written
    rw [hbody]
  have hstored : s.stored = r.stored := by
    have hrun := Program.run_stored body answers.statements r.session
    rwa [hbody] at hrun
  by_cases hw : s.working = none
  · have hexit := exit_of_working_none (r := r.acquireLock.withSession s) hw answers
    have hcurrent : s.current = r.stored := (Session.current_of_working_none hw).trans hstored
    rw [hexit] at hanswer hafter
    refine iff_of_true (atomic_of_stores hanswer (.inr ?_)) fun h ↦ h.not_stored ?_
    · rw [hafter, hwritten, hcurrent]
      exact hstored
    · rw [hwritten, hcurrent]
  · cases hfirst : answers.firstAttempt.first with
    | none =>
      obtain ⟨hok, hcommitted⟩ := exit_of_commits (r := r.acquireLock.withSession s) hfirst
      rw [hok] at hanswer
      refine iff_of_true (atomic_of_stores hanswer (.inr ?_)) ?_
      · rw [hafter, hwritten]
        exact hcommitted
      · rintro ⟨-, -, -, -, -, f, hf, -⟩
        rw [hfirst] at hf
        cases hf
    | some f =>
      obtain ⟨hrolled, hok⟩ := exit_of_fails (r := r.acquireLock.withSession s) hw hfirst
      have hkept : (r.transaction answers body).2.stored = r.stored := by
        rw [hafter, hrolled]
        exact hstored
      by_cases hdropped : answers.firstAttempt.Dropped
      · rw [hok.mpr hdropped] at hanswer
        constructor
        · rintro hatomic ⟨-, -, -, hchanges, hnot, -⟩
          rcases hatomic.returns a hanswer with h | h
          · exact hchanges h
          · exact hnot (h.symm.trans hkept)
        · intro h
          refine atomic_of_stores hanswer ?_
          by_contra hlost
          rw [not_or, hkept] at hlost
          exact h ⟨hlock, henters, ⟨a, congrArg Prod.fst hbody⟩, hlost.1, fun heq ↦ hlost.2 heq.symm,
            hdropped⟩
      · have hraises : ∃ e, (r.transaction answers body).1 = some (.error e) := by
          rw [hanswer]
          cases hexit : ((r.acquireLock.withSession s).exit false answers).1 with
          | ok u => exact absurd (hok.mp hexit) hdropped
          | error e => exact ⟨e, rfl⟩
        obtain ⟨e, he⟩ := hraises
        exact iff_of_true (atomic_of_raises he hkept) fun h ↦ hdropped h.dropped

theorem atomic_iff_not_loses (r : Repository D) (answers : Answers) (body : Program D Exc α) :
    r.Atomic answers body ↔ ¬ r.Loses answers body := by
  cases hlock : r.lock with
  | true =>
    -- a block that waits for the lock does not exit
    have hwaits := transaction_of_lock hlock answers body
    refine iff_of_true ⟨?_, ?_⟩ fun h ↦ Bool.false_ne_true (h.free.symm.trans hlock)
    · intro a ha
      rw [hwaits] at ha
      cases ha
    · intro e he
      rw [hwaits] at he
      cases he
  | false =>
    by_cases henters : r.Enters answers
    · cases hbody : body.run answers.statements r.session with
      | mk result s =>
        cases result with
        | ok a => exact atomic_iff_of_returns hlock henters hbody
        | error e =>
          obtain ⟨⟨e', he'⟩, hsnd⟩ := transaction_of_raises hlock henters hbody
          refine iff_of_true (atomic_of_raises he' ?_) ?_
          · rw [hsnd]
            have hrun := Program.run_stored body answers.statements r.session
            rw [hbody] at hrun
            exact (stored_exitLoop_true _ _ _).trans hrun
          · rintro ⟨-, -, ⟨a, ha⟩, -, -, -⟩
            rw [hbody] at ha
            cases ha
    · obtain ⟨e, he⟩ := transaction_of_not_enters hlock henters body
      refine iff_of_true (atomic_of_raises (congrArg Prod.fst he) ?_) fun h ↦ henters h.enters
      rw [he]
      exact (sameTables_enter r answers).stored

end Repository

/-! ## Runs -/

def Call.Atomic {D α : Type} (r : Repository D) : Call D α → Prop
  | .transaction answers body => r.Atomic answers body
  | .query _ _ => True
  | .deleteObject _ _ => True
  | .close => True

def Call.Loses {D α : Type} (r : Repository D) : Call D α → Prop
  | .transaction answers body => r.Loses answers body
  | .query _ _ => False
  | .deleteObject _ _ => False
  | .close => False

/-- Every block of a run is atomic just when none loses its changes to a commit that fails and
is tried again. -/
theorem blocks_atomic_iff {D α : Type} (d : D) (calls : List (Call D α)) :
    Meets (fun pre call ↦ call.Atomic ((repository D α d).after pre)) calls ↔
      Meets (fun pre call ↦ ¬ call.Loses ((repository D α d).after pre)) calls := by
  refine meets_congr ?_
  intro pre call _ _
  cases call with
  | transaction answers body => exact Repository.atomic_iff_not_loses _ answers body
  | query answers body => exact iff_of_true trivial not_false
  | deleteObject answers body => exact iff_of_true trivial not_false
  | close => exact iff_of_true trivial not_false

def lockedOnce : Answers where
  attempts := [{ first := some ⟨⟨true, "database is locked"⟩, false⟩ }]

/-- The block of `writeOne` sets the tables to `1`. -/
def writeOne : Program Nat Exc Unit := .execute (fun _ ↦ .ok (1, 1)) fun _ ↦ .done ()

/-- The block exits without an exception, and its write is gone. -/
theorem write_lost : ¬ Meets
    (fun pre call ↦ call.Atomic ((repository Nat Unit 0).after pre))
    [Call.transaction lockedOnce writeOne] := by
  intro h
  have hatomic : ((repository Nat Unit 0).after []).Atomic lockedOnce writeOne :=
    h [] _ (List.prefix_refl _)
  rcases hatomic.returns () (by decide +kernel) with hsame | hstored
  · exact absurd hsame (by decide +kernel)
  · exact absurd hstored (by decide +kernel)

end Qros.Storage
