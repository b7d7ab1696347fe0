import Qros.Lib.Checks
import Qros.Lib.Machine

/-!
# The parallel executor

`ParallelResearchExecutor` of `researchos/orchestration/parallel.py`, as one main
thread and the workers of the executor it has opened.  The main thread goes
through `run` step by step; between any two of its steps the workers may start
and finish branches.  Who moves next, in which order finished futures are handed
out, what a branch returns or raises, and whether the executor can be opened or
takes a branch, is the input of the machine; a move that is not possible does
nothing.

A future is started once at most, and never after it was cancelled: this is what
`concurrent.futures` promises of every executor.  What a branch computes from the
context is not modelled, so neither is the context.
-/

universe u

namespace Qros.Orchestration

open Qros.Lib

/-! ## Plans and results -/

structure ResearchBranch where
  branchId : String
deriving DecidableEq

/-- A wave has branches, and their names are different. -/
structure ResearchWave where
  waveId : String
  branches : List ResearchBranch
  branches_ne_nil : branches ≠ []
  branches_nodup : (branches.map ResearchBranch.branchId).Nodup

def ResearchWave.make (waveId : String) (branches : List ResearchBranch) :
    Except String ResearchWave :=
  if hne : branches = [] then .error "a research wave must contain at least one branch"
  else if hnodup : (branches.map ResearchBranch.branchId).Nodup then
    .ok ⟨waveId, branches, hne, hnodup⟩
  else .error "branch_id values must be unique inside a wave"

/-- The names of the branches of a plan, in declared order. -/
def branchIds (plan : List ResearchWave) : List String :=
  plan.flatMap fun wave ↦ wave.branches.map ResearchBranch.branchId

/-- The checks with which `run` begins. -/
def checkPlan (plan : List ResearchWave) : Except String Unit := do
  require (plan ≠ []) "at least one research wave is required"
  require (plan.map ResearchWave.waveId).Nodup
    "wave_id values must be unique across the research plan"
  require (branchIds plan).Nodup "branch_id values must be unique across the research plan"

/-- `value` is an entry of `values`, so `none` where that was never assigned. -/
structure ParallelBranchResult (V : Type u) where
  branchId : String
  value : Option V

structure ParallelResearchResult (V : Type u) where
  waves : List (List (ParallelBranchResult V))
  waveIds : List String

/-! ## Futures -/

structure PyException where
  typeName : String
  text : String
deriving DecidableEq

/-- How a branch ends. -/
inductive Outcome (V : Type u) where
  | value (v : V)
  | /-- An exception of class `Exception`. -/
    exception (exc : PyException)
  | /-- Any other exception. -/
    baseException (exc : PyException)

inductive FutureState (V : Type u) where
  | pending
  | running
  | finished (outcome : Outcome V)
  | cancelled

def FutureState.cancel {V : Type u} : FutureState V → FutureState V
  | .pending => .cancelled
  | future => future

/-- What `future.result()` returns or raises, once the future is done. -/
def FutureState.result? {V : Type u} : FutureState V → Option (Outcome V)
  | .finished outcome => some outcome
  | .cancelled => some (.exception ⟨"CancelledError", ""⟩)
  | _ => none

/-! ## The run of a plan -/

inductive RunError where
  | valueError (message : String)
  | /-- `ParallelOrchestrationError`, whose text names the wave, the branch and its exception. -/
    waveFailed (waveId branchId : String) (exc : PyException)
  | raised (exc : PyException)

inductive MainPhase (V : Type u) where
  | opening
  | submitting
  | /-- In the loop over `as_completed`, which has not handed out the futures in `waiting`. -/
    observing (values : List (Option V)) (waiting : List Nat)
  | /-- In the loops that cancel the futures of a failed wave. -/
    cancelling (todo : List Nat) (error : RunError)
  | /-- In `finally`, with the exception that is on its way. -/
    shuttingDown (error : Option RunError)
  | returned (result : ParallelResearchResult V)
  | raised (error : RunError)

/-- The waves `ran` are over; the first of `ahead` is the one that `futures` belongs to. -/
structure RunState (V : Type u) where
  ran : List ResearchWave
  ahead : List ResearchWave
  futures : List (FutureState V)
  completed : List (List (ParallelBranchResult V))
  main : MainPhase V

inductive RunInput (V : Type u) where
  | /-- `executor_factory` returns, or raises. -/
    openExecutor (refusal : Option PyException)
  | /-- `executor.submit` returns, or raises. -/
    submit (refusal : Option PyException)
  | /-- `as_completed` hands out a future. -/
    observe (index : Nat)
  | cancel
  | /-- `shutdown` cancels a future that is still in the queue. -/
    drain (index : Nat)
  | /-- `shutdown` has waited for the workers. -/
    join
  | /-- An exception that reaches the main thread from outside. -/
    interrupt (exc : PyException)
  | start (index : Nat)
  | finish (index : Nat) (outcome : Outcome V)

inductive RunEvent (V : Type u) where
  | started (branchId : String)
  | finished (branchId : String) (outcome : Outcome V)

def RunEvent.branchId {V : Type u} : RunEvent V → String
  | .started branchId => branchId
  | .finished branchId _ => branchId

section Steps

variable {V : Type u}

def waveResults (wave : ResearchWave) (values : List (Option V)) : List (ParallelBranchResult V) :=
  List.zipWith (fun branch value ↦ ⟨branch.branchId, value⟩) wave.branches values

def branchIdAt (wave : ResearchWave) (index : Nat) : String :=
  (wave.branches[index]?.map ResearchBranch.branchId).getD ""

/-- The body of the loop over `as_completed`, for a future that is done. -/
def observeOutcome (wave : ResearchWave) (values : List (Option V)) (waiting : List Nat)
    (index : Nat) (s : RunState V) : Outcome V → RunState V
  | .value v =>
    let values := values.set index (some v)
    let waiting := waiting.erase index
    if waiting = [] then
      { s with
        completed := s.completed ++ [waveResults wave values]
        main := .shuttingDown none }
    else { s with main := .observing values waiting }
  | .exception exc =>
    let all := List.range s.futures.length
    { s with main := .cancelling (all.filter (· ≠ index) ++ all)
              (.waveFailed wave.waveId (branchIdAt wave index) exc) }
  | .baseException exc => { s with main := .shuttingDown (some (.raised exc)) }

def afterShutdown (plan : List ResearchWave) (s : RunState V) (wave : ResearchWave)
    (later : List ResearchWave) : Option RunError → RunState V
  | some error => { s with main := .raised error }
  | none =>
    { s with
      ran := s.ran ++ [wave]
      ahead := later
      futures := []
      main := if later = [] then .returned ⟨s.completed, plan.map ResearchWave.waveId⟩
        else .opening }

/-- An exception raised where the main thread is. -/
def interruptMain (error : RunError) : MainPhase V → MainPhase V
  | .opening => .raised error
  | .submitting | .observing _ _ | .cancelling _ _ => .shuttingDown (some error)
  | .shuttingDown _ => .raised error
  | .returned result => .returned result
  | .raised error' => .raised error'

/-- No future is waiting for a worker or has one. -/
def Settled (futures : List (FutureState V)) : Prop :=
  ∀ future ∈ futures, future.result?.isSome

instance (futures : List (FutureState V)) : Decidable (Settled futures) :=
  inferInstanceAs (Decidable (∀ future ∈ futures, future.result?.isSome))

/-- One move while `wave` is the current wave. -/
def stepWave (plan : List ResearchWave) (wave : ResearchWave) (later : List ResearchWave)
    (s : RunState V) : RunInput V → Option (RunEvent V) × RunState V
  | .openExecutor refusal =>
    match s.main, refusal with
    | .opening, none => (none, { s with futures := [], main := .submitting })
    | .opening, some exc => (none, { s with main := .raised (.raised exc) })
    | _, _ => (none, s)
  | .submit refusal =>
    match s.main, refusal with
    | .submitting, none =>
      let futures := s.futures ++ [.pending]
      let main :=
        if futures.length = wave.branches.length then
          MainPhase.observing (List.replicate futures.length none) (List.range futures.length)
        else .submitting
      (none, { s with futures, main })
    | .submitting, some exc => (none, { s with main := .shuttingDown (some (.raised exc)) })
    | _, _ => (none, s)
  | .observe index =>
    match s.main, s.futures[index]?.bind FutureState.result? with
    | .observing values waiting, some outcome =>
      if index ∈ waiting then (none, observeOutcome wave values waiting index s outcome)
      else (none, s)
    | _, _ => (none, s)
  | .cancel =>
    match s.main with
    | .cancelling [] error => (none, { s with main := .shuttingDown (some error) })
    | .cancelling (index :: todo) error =>
      (none, { s with
        futures := s.futures.modify index FutureState.cancel
        main := .cancelling todo error })
    | _ => (none, s)
  | .drain index =>
    match s.main with
    | .shuttingDown _ => (none, { s with futures := s.futures.modify index FutureState.cancel })
    | _ => (none, s)
  | .join =>
    match s.main with
    | .shuttingDown error =>
      if Settled s.futures then (none, afterShutdown plan s wave later error) else (none, s)
    | _ => (none, s)
  | .interrupt exc => (none, { s with main := interruptMain (.raised exc) s.main })
  | .start index =>
    match s.futures[index]? with
    | some .pending =>
      (some (.started (branchIdAt wave index)),
        { s with futures := s.futures.set index .running })
    | _ => (none, s)
  | .finish index outcome =>
    match s.futures[index]? with
    | some .running =>
      (some (.finished (branchIdAt wave index) outcome),
        { s with futures := s.futures.set index (.finished outcome) })
    | _ => (none, s)

/-- One move; without a current wave the run is over. -/
def stepRun (plan : List ResearchWave) (i : RunInput V) (s : RunState V) :
    Option (RunEvent V) × RunState V :=
  match s.ahead with
  | [] => (none, s)
  | wave :: later => stepWave plan wave later s i

def beginRun (plan : List ResearchWave) : RunState V where
  ran := []
  ahead := plan
  futures := []
  completed := []
  main :=
    match checkPlan plan with
    | .ok () => .opening
    | .error message => .raised (.valueError message)

def executor (V : Type u) (plan : List ResearchWave) :
    Machine (RunState V) (RunInput V) (Option (RunEvent V)) where
  init := beginRun plan
  step := stepRun plan

/-- What happened to the branches, in order. -/
def runLog (plan : List ResearchWave) (is : List (RunInput V)) : List (RunEvent V) :=
  ((executor V plan).trace is).filterMap Prod.snd

end Steps

end Qros.Orchestration
