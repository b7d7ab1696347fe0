import Qros.Storage.Durability

/-!
# What a block does to the tables

A block that is committed replaces what is stored by what its body wrote.  Any other
block leaves what is stored as it is; the session then sees what the body wrote if the
transaction stays open, and else what it saw before or what is stored.
-/

namespace Qros.Storage

open Qros.Lib

/-- The commit fails, and its transaction is rolled back. -/
def Attempt.Undoes (attempt : Attempt) : Prop :=
  ∃ f ∈ attempt.first, f.ended = true ∨
    (f.error.Retried ∧ (attempt.undo = none ∨ ∃ u ∈ attempt.undo, u.ended = true))

/-- SQLite fails none of the first `n` statements. -/
def Answers.Executes (answers : Answers) (n : Nat) : Prop :=
  ∀ e ∈ answers.statements.take n, e = none

structure Answers.Stores (answers : Answers) : Prop where
  cursor : answers.cursor = none
  executes : answers.Executes 1
  commits : answers.firstAttempt.first = none

/-- A block of one statement that gets its cursor has an effect. -/
structure Answers.HasEffect (answers : Answers) : Prop where
  cursor : answers.cursor = none
  executes : answers.Executes 1
  kept : ¬ answers.firstAttempt.Undoes

section Statements

variable {D α : Type}

theorem run_execute (answers : Answers) (statement : D → Except Exc (Nat × D))
    (f : Nat → α) {s : Session D} {n : Nat} {t : D}
    (hstatement : statement s.current = .ok (n, t)) :
    (answers.Executes 1 → ∃ a,
      (Program.execute statement fun n ↦ .done (f n)).run answers.statements s =
      (.ok a, ⟨s.stored, some t⟩)) ∧
    (¬ answers.Executes 1 → ∃ e s', (Program.execute statement fun n ↦ .done (f n)).run
      answers.statements s = (.error e, s') ∧ s'.current = s.current) := by
  unfold Answers.Executes
  rw [Program.run]
  cases answers.statements with
  | nil =>
    simp only [Program.answered, hstatement]
    exact ⟨fun _ ↦ ⟨_, rfl⟩, fun h ↦ absurd (fun _ hmem ↦ absurd hmem List.not_mem_nil) h⟩
  | cons answer rest =>
    rw [List.take_succ_cons, List.take_zero, List.forall_mem_singleton]
    cases answer with
    | none =>
      simp only [Program.answered, hstatement]
      exact ⟨fun _ ↦ ⟨_, rfl⟩, fun h ↦ absurd trivial h⟩
    | some e => exact ⟨fun h ↦ (by cases h), fun _ ↦ ⟨e, _, rfl, rfl⟩⟩

theorem run_execute_of_error {statement : D → Except Exc (Nat × D)}
    {next : Nat → Program D Exc α} {answers : List (Option Exc)} {s : Session D} {e : Exc}
    (hstatement : statement s.current = .error e) :
    ∃ e s', (Program.execute statement next).run answers s = (.error e, s') ∧
      s'.current = s.current := by
  rw [Program.run]
  unfold Program.answered
  split <;> rename_i heq
  · exact ⟨_, _, rfl, rfl⟩
  · split at heq
    · cases heq
    · rw [hstatement] at heq
      cases heq

end Statements

namespace Repository

variable {D α : Type}

structure Holds (P : D → Prop) (r : Repository D) : Prop where
  stored : P r.stored
  current : P r.session.current

/-- Nothing is stored, and the session sees what it saw or what is stored. -/
structure Reverts (r r' : Repository D) : Prop where
  stored : r'.stored = r.stored
  current : r'.session.current = r.session.current ∨ r'.session.current = r.stored

theorem Reverts.refl (r : Repository D) : Reverts r r := ⟨rfl, .inl rfl⟩

theorem Reverts.trans {r r' r'' : Repository D} (h : Reverts r r') (h' : Reverts r' r'') :
    Reverts r r'' where
  stored := h'.stored.trans h.stored
  current := by
    rcases h'.current with hcurrent | hcurrent
    · rw [hcurrent]
      exact h.current
    · exact .inr (hcurrent.trans h.stored)

theorem Reverts.releaseLock {r r' : Repository D} (h : Reverts r r') : Reverts r r'.releaseLock :=
  ⟨h.stored, h.current⟩

theorem Reverts.of_lock {r r' : Repository D} {lock : Bool}
    (h : Reverts { r with lock := lock } r') : Reverts r r' :=
  ⟨h.stored, h.current⟩

theorem Reverts.holds {P : D → Prop} {r r' : Repository D} (h : Reverts r r') (hr : r.Holds P) :
    r'.Holds P where
  stored := h.stored ▸ hr.stored
  current := by
    rcases h.current with hcurrent | hcurrent
    · exact hcurrent ▸ hr.current
    · exact hcurrent ▸ hr.stored

theorem reverts_of_working_none {r r' : Repository D} (hstored : r'.stored = r.stored)
    (h : r'.session.working = none) : Reverts r r' :=
  ⟨hstored, .inr ((Session.current_of_working_none h).trans hstored)⟩

/-! ## The connection -/

theorem reverts_connect (r : Repository D) (answer : Opening) : Reverts r (r.connect answer).2 := by
  cases answer with
  | done => exact reverts_of_working_none rfl rfl
  | connectFails e => exact .refl r
  | configureFails e => exact reverts_of_working_none rfl rfl

theorem reverts_getConn (r : Repository D) (answer : Opening) : Reverts r (r.getConn answer).2 := by
  unfold getConn
  split
  · exact .refl r
  · split
    · exact reverts_connect r answer
    · exact .refl r
    · exact .refl r

theorem reverts_reconnect (r : Repository D) (answer : Opening) :
    Reverts r (r.reconnect answer).2 := by
  unfold reconnect
  split
  · exact reverts_connect r answer
  · exact reverts_connect r answer
  · have hstale : Reverts r { r with conn := .stale } := reverts_of_working_none rfl rfl
    exact hstale.trans (reverts_connect _ answer)

theorem reverts_enter (r : Repository D) (answers : Answers) : Reverts r (r.enter answers).2 := by
  have hget : Reverts r (r.acquireLock.getConn answers.getConn).2 :=
    (reverts_getConn r.acquireLock answers.getConn).of_lock
  unfold enter
  split <;> rename_i r₁ heq <;> rw [heq] at hget
  · rw [cursor_snd]
    exact hget
  · exact hget
  · have hre := reverts_reconnect r₁ answers.reconnect
    split <;> rename_i r₂ heq' <;> rw [heq'] at hre
    · rw [cursor_snd]
      exact hget.trans hre
    · exact hget.trans hre

/-! ## The end of a transaction -/

theorem reverts_failed (r : Repository D) (f : Failure) : Reverts r (r.failed f) := by
  unfold failed
  split
  · exact reverts_of_working_none rfl rfl
  · exact .refl r

theorem reverts_rollback (r : Repository D) (answer : Option Failure) :
    Reverts r (r.rollback answer).2 := by
  unfold rollback finish
  split
  · exact .refl r
  · split
    · exact reverts_of_working_none rfl rfl
    · exact reverts_failed r _

theorem reverts_exitLoop_true (left : Nat) (attempts : List Attempt) (r : Repository D) :
    Reverts r (exitLoop true left attempts r).2 := by
  induction left generalizing attempts r with
  | zero => exact (Reverts.refl r).releaseLock
  | succ left ih =>
    rw [exitLoop]
    have hfirst := reverts_rollback r (attempts.headD {}).first
    simp only [if_true]
    split <;> rename_i r₁ heq <;> rw [heq] at hfirst
    · exact hfirst.releaseLock
    · split
      · have hundo := reverts_rollback r₁ (attempts.headD {}).undo
        split <;> rename_i r₂ heq' <;> rw [heq'] at hundo
        · exact (hfirst.trans hundo).releaseLock
        · exact (hfirst.trans hundo).trans (ih _ r₂.releaseLock.acquireLock).of_lock.of_lock
      · exact hfirst.releaseLock

/-- The state after a transaction that is over, with the lock released. -/
def settled (r : Repository D) (d : D) : Repository D :=
  { r with lock := false, conn := .live none, stored := d }

@[simp]
theorem stored_settled (r : Repository D) (d : D) : (r.settled d).stored = d := rfl

@[simp]
theorem current_settled (r : Repository D) (d : D) : (r.settled d).session.current = d := rfl

variable {answers : Answers} {r : Repository D}

theorem exit_eq_of_commits {s : Session D} (h : answers.firstAttempt.first = none) :
    (r.withSession s).exit false answers = (.ok (), r.settled s.current) := by
  obtain ⟨stored, working⟩ := s
  unfold exit maxWriteRetries
  rw [exitLoop]
  simp only [Bool.false_eq_true, if_false]
  rw [show answers.attempts.headD {} = answers.firstAttempt from rfl, h]
  cases working <;> rfl

theorem exit_of_first_fails {f : Failure} (hw : r.session.working ≠ none)
    (h : answers.firstAttempt.first = some f) :
    r.exit false answers =
      if f.error.Retried then
        ((((r.failed f).rollback answers.firstAttempt.undo).1.mapError Exc.sqlite),
          ((r.failed f).rollback answers.firstAttempt.undo).2.releaseLock)
      else (.error (.sqlite f.error), (r.failed f).releaseLock) := by
  unfold exit maxWriteRetries
  rw [exitLoop]
  simp only [Bool.false_eq_true, if_false]
  rw [show answers.attempts.headD {} = answers.firstAttempt from rfl, h, commit_of_fails hw f]
  simp only
  split
  · split <;> rename_i r₂ heq <;> rw [heq]
    · rfl
    · have hnone : r₂.releaseLock.acquireLock.session.working = none := (rollback_eq_ok heq).1
      rw [exitLoop_of_working_none hnone]
      rfl
  · rfl

theorem working_withSession (r : Repository D) (d : D) :
    (r.withSession ⟨r.stored, some d⟩).session.working ≠ none :=
  Option.some_ne_none d

variable {d : D}

theorem exit_of_undoes (h : answers.firstAttempt.Undoes) :
    ((r.withSession ⟨r.stored, some d⟩).exit false answers).2 = r.settled r.stored := by
  obtain ⟨f, hf, h⟩ := h
  rw [exit_of_first_fails (working_withSession r d) hf]
  unfold failed
  rcases h with hended | ⟨hretried, hundo⟩
  · rw [hended]
    split <;> rfl
  · rw [if_pos hretried]
    cases hended : f.ended with
    | true => rfl
    | false =>
      rcases hundo with hundo | ⟨u, hu, hundo⟩
      · rw [hundo]
        rfl
      · obtain ⟨error, ended⟩ := u
        obtain rfl : ended = true := hundo
        rw [show answers.firstAttempt.undo = some ⟨error, true⟩ from hu]
        rfl

theorem exit_of_keeps {f : Failure} (hf : answers.firstAttempt.first = some f)
    (h : ¬ answers.firstAttempt.Undoes) :
    ((r.withSession ⟨r.stored, some d⟩).exit false answers).2 =
      (r.withSession ⟨r.stored, some d⟩).releaseLock := by
  have hended : f.ended = false := by
    by_contra hended
    exact h ⟨f, hf, .inl (by simpa using hended)⟩
  rw [exit_of_first_fails (working_withSession r d) hf]
  unfold failed
  rw [hended]
  simp only [Bool.false_eq_true, if_false]
  split
  · rename_i hretried
    cases hundo : answers.firstAttempt.undo with
    | none => exact absurd ⟨f, hf, .inr ⟨hretried, .inl hundo⟩⟩ h
    | some u =>
      obtain ⟨error, ended⟩ := u
      cases ended with
      | true => exact absurd ⟨f, hf, .inr ⟨hretried, .inr ⟨_, hundo, rfl⟩⟩⟩ h
      | false => rfl
  · rfl

theorem exit_of_dropped (h : answers.firstAttempt.Dropped) :
    (r.withSession ⟨r.stored, some d⟩).exit false answers = (.ok (), r.settled r.stored) := by
  obtain ⟨f, hf, hretried, hundo⟩ := h
  have hanswer : ((r.withSession ⟨r.stored, some d⟩).exit false answers).1 = .ok () :=
    (exit_of_fails (working_withSession r d) hf).2.mpr ⟨f, hf, hretried, hundo⟩
  refine Prod.ext hanswer (exit_of_undoes ⟨f, hf, ?_⟩)
  rcases hundo with hended | hundo
  · exact .inl hended
  · exact .inr ⟨hretried, .inl hundo⟩

/-! ## Blocks -/

/-- The answer is not that of a block that returned. -/
def Fails (answer : Option (Except Exc α)) : Prop := ∀ a, answer ≠ some (.ok a)

theorem reverts_of_not_enters (body : Program D Exc α) (h : r.lock = false → ¬ r.Enters answers) :
    Reverts r (r.transaction answers body).2 ∧ Fails (r.transaction answers body).1 := by
  cases hlock : r.lock with
  | true =>
    rw [transaction_of_lock hlock]
    exact ⟨.refl r, nofun⟩
  | false =>
    obtain ⟨e, he⟩ := transaction_of_not_enters hlock (h hlock) body
    rw [he]
    exact ⟨reverts_enter r answers, nofun⟩

section Entered

variable {r : Repository D} {answers : Answers} (hlock : r.lock = false) (henters : r.Enters answers)
  {body : Program D Exc α} {a : α}

include hlock henters

theorem reverts_of_raises {e : Exc} {s : Session D}
    (hbody : body.run answers.statements r.session = (.error e, s))
    (hcurrent : s.current = r.session.current) :
    Reverts r (r.transaction answers body).2 ∧ Fails (r.transaction answers body).1 := by
  obtain ⟨⟨e', he'⟩, hafter⟩ := transaction_of_raises hlock henters hbody
  have hstored : s.stored = r.stored := by
    have hrun := Program.run_stored body answers.statements r.session
    rwa [hbody] at hrun
  have hstart : Reverts r (r.acquireLock.withSession s) := ⟨hstored, .inl hcurrent⟩
  rw [hafter, he']
  exact ⟨hstart.trans (reverts_exitLoop_true _ _ _), nofun⟩

theorem transaction_of_commits {s : Session D}
    (hbody : body.run answers.statements r.session = (.ok a, s))
    (h : answers.firstAttempt.first = none) :
    r.transaction answers body = (some (.ok a), r.settled s.current) := by
  rw [transaction_of_returns hlock henters hbody, exit_eq_of_commits h]
  rfl

theorem transaction_of_dropped {d : D}
    (hbody : body.run answers.statements r.session = (.ok a, ⟨r.stored, some d⟩))
    (h : answers.firstAttempt.Dropped) :
    r.transaction answers body = (some (.ok a), r.settled r.stored) := by
  rw [transaction_of_returns hlock henters hbody]
  rw [show r.acquireLock.withSession ⟨r.stored, some d⟩ =
    r.acquireLock.withSession ⟨r.acquireLock.stored, some d⟩ from rfl, exit_of_dropped h]
  rfl

theorem transaction_of_undoes {d : D}
    (hbody : body.run answers.statements r.session = (.ok a, ⟨r.stored, some d⟩))
    (h : answers.firstAttempt.Undoes) : (r.transaction answers body).2 = r.settled r.stored := by
  rw [transaction_of_returns hlock henters hbody]
  exact exit_of_undoes (r := r.acquireLock) h

theorem not_returns_of_not_dropped {d : D} {f : Failure}
    (hbody : body.run answers.statements r.session = (.ok a, ⟨r.stored, some d⟩))
    (hf : answers.firstAttempt.first = some f) (h : ¬ answers.firstAttempt.Dropped) :
    Fails (r.transaction answers body).1 := by
  have hexit := (exit_of_fails (working_withSession r.acquireLock d) hf).2.not.mpr h
  intro b hb
  rw [transaction_of_returns hlock henters hbody] at hb
  cases hanswer : ((r.acquireLock.withSession ⟨r.stored, some d⟩).exit false answers).1 with
  | ok u => exact hexit hanswer
  | error e =>
    rw [hanswer] at hb
    cases hb

theorem transaction_of_keeps {d : D} {f : Failure}
    (hbody : body.run answers.statements r.session = (.ok a, ⟨r.stored, some d⟩))
    (hf : answers.firstAttempt.first = some f) (h : ¬ answers.firstAttempt.Undoes) :
    (r.transaction answers body).2 =
      (r.acquireLock.withSession ⟨r.stored, some d⟩).releaseLock := by
  rw [transaction_of_returns hlock henters hbody]
  exact exit_of_keeps (r := r.acquireLock) hf h

end Entered

theorem not_undoes_of_commits {attempt : Attempt} (h : attempt.first = none) :
    ¬ attempt.Undoes := by
  rintro ⟨f, hf, -⟩
  rw [h] at hf
  cases hf

theorem undoes_of_dropped {attempt : Attempt} (h : attempt.Dropped) : attempt.Undoes := by
  obtain ⟨f, hf, hretried, hundo⟩ := h
  refine ⟨f, hf, ?_⟩
  rcases hundo with hended | hundo
  · exact .inl hended
  · exact .inr ⟨hretried, .inl hundo⟩

structure Succeeds (r : Repository D) (answers : Answers) (p : Prop) : Prop where
  free : r.lock = false
  enters : r.Enters answers
  body : p

/-- The ends of a block whose body writes `d` if `p`, and else raises before it writes. -/
inductive Outcome (r : Repository D) (answers : Answers) (p : Prop) (d : D) :
    Option (Except Exc α) × Repository D → Prop
  | commits (a : α) (hsucceeds : r.Succeeds answers p) (hfirst : answers.firstAttempt.first = none) :
      Outcome r answers p d (some (.ok a), r.settled d)
  | dropped (a : α) (hsucceeds : r.Succeeds answers p) (hdropped : answers.firstAttempt.Dropped) :
      Outcome r answers p d (some (.ok a), r.settled r.stored)
  | undone (answer : Option (Except Exc α)) (hsucceeds : r.Succeeds answers p)
      (hundoes : answers.firstAttempt.Undoes) (hdropped : ¬ answers.firstAttempt.Dropped)
      (hfails : Fails answer) : Outcome r answers p d (answer, r.settled r.stored)
  | stays (answer : Option (Except Exc α)) (hsucceeds : r.Succeeds answers p)
      (hfirst : answers.firstAttempt.first ≠ none) (hundoes : ¬ answers.firstAttempt.Undoes)
      (hfails : Fails answer) :
      Outcome r answers p d (answer, (r.acquireLock.withSession ⟨r.stored, some d⟩).releaseLock)
  | reverts (answer : Option (Except Exc α)) (r' : Repository D) (hsucceeds : ¬ r.Succeeds answers p)
      (hreverts : Reverts r r') (hfails : Fails answer) : Outcome r answers p d (answer, r')

theorem outcome_transaction {body : Program D Exc α} {p : Prop}
    (hok : p → ∃ a, body.run answers.statements r.session = (.ok a, ⟨r.stored, some d⟩))
    (herror : ¬ p → ∃ e s, body.run answers.statements r.session = (.error e, s) ∧ s.current =
      r.session.current) :
    r.Outcome answers p d (r.transaction answers body) := by
  by_cases hentered : r.lock = false ∧ r.Enters answers
  · obtain ⟨hlock, henters⟩ := hentered
    by_cases hp : p
    · obtain ⟨a, hbody⟩ := hok hp
      have hsucceeds : r.Succeeds answers p := ⟨hlock, henters, hp⟩
      cases hfirst : answers.firstAttempt.first with
      | none =>
        rw [transaction_of_commits hlock henters hbody hfirst]
        exact .commits a hsucceeds hfirst
      | some f =>
        by_cases hdropped : answers.firstAttempt.Dropped
        · rw [transaction_of_dropped hlock henters hbody hdropped]
          exact .dropped a hsucceeds hdropped
        · have hfails := not_returns_of_not_dropped hlock henters hbody hfirst hdropped
          by_cases hundoes : answers.firstAttempt.Undoes
          · have hafter := transaction_of_undoes hlock henters hbody hundoes
            generalize r.transaction answers body = x at hfails hafter
            obtain ⟨answer, r'⟩ := x
            obtain rfl : r' = _ := hafter
            exact .undone _ hsucceeds hundoes hdropped hfails
          · have hafter := transaction_of_keeps hlock henters hbody hfirst hundoes
            generalize r.transaction answers body = x at hfails hafter
            obtain ⟨answer, r'⟩ := x
            obtain rfl : r' = _ := hafter
            exact .stays _ hsucceeds (by rw [hfirst]; exact Option.some_ne_none f) hundoes hfails
    · obtain ⟨e, s, hbody, hcurrent⟩ := herror hp
      obtain ⟨hreverts, hfails⟩ := reverts_of_raises hlock henters hbody hcurrent
      exact .reverts _ _ (fun h ↦ hp h.body) hreverts hfails
  · obtain ⟨hreverts, hfails⟩ := reverts_of_not_enters body fun hlock henters ↦
      hentered ⟨hlock, henters⟩
    exact .reverts _ _ (fun h ↦ hentered ⟨h.free, h.enters⟩) hreverts hfails

theorem succeeds_settled {p : Prop} (h : r.Succeeds answers p) (t : D) (answers' : Answers)
    (q : Prop) :
    (r.settled t).Succeeds answers' q ↔ answers'.cursor = none ∧ q :=
  ⟨fun h ↦ ⟨h.enters.cursor, h.body⟩,
    fun h' ↦ ⟨rfl, ⟨h.enters.not_closed, trivial, h'.1⟩, h'.2⟩⟩

end Repository

end Qros.Storage
