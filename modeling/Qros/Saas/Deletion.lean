import Qros.Saas.Retention

/-!
# Deletions

`execute_deletion` of `researchos/saas/retention.py`, as a system of any number of calls
over one store of deletion operations.  A call passes its gates, records the approval,
moves its operation to `DELETE_ATTEMPTED`, deletes, records the completion and moves the
operation to `COMPLETED`, or to `RECONCILIATION_REQUIRED` when one of these fails.

Between any two steps of a call the others may move, what the call uses may raise, and
the call may crash.  A transition of the store is two steps here, the reading and the
`put`, since the store in memory takes no lock; where it is atomic, these two come
together.

An operation that is in a state may move to that state.  This is how a second call gets
past `DELETE_ATTEMPTED` and deletes again: `deletion_at_most_once` is about the runs in
which no call does.
-/

universe u

namespace Qros.Saas

open Qros.Lib

/-! ## Calls -/

inductive Callback where
  | missing
  | raises
  | answers (ok : Bool)
deriving DecidableEq

/-- The arguments of a call. -/
structure DeletionRequest where
  candidate : DeletionCandidate
  now : DateTime
  policy : Option RetentionPolicy
  approved : Bool
  destructiveDeletionEnabled : Bool
  /-- Whether there is an audit sink. -/
  audit : Bool
  /-- Whether there is a delete operation. -/
  delete : Bool
  dependencyCheck : Callback
  authorize : Callback
  /-- The key of the operation, if there is a store and both parts are given. -/
  operation : Option (Uuid × String)

structure DeletionExecution where
  decision : RetentionDecision
  reason : String
  deleted : Bool
deriving DecidableEq

def retained (reason : String) : DeletionExecution := ⟨.retain, reason, false⟩

/-- The gates in front of the first audit event: how the call ends, or the key of its
operation. -/
def passGates (r : DeletionRequest) :
    Except (Except DeletionFailure DeletionExecution) (Uuid × String) :=
  match evaluateDeletion r.candidate r.now r.policy with
  | .error e => .error (.error (.raised e))
  | .ok (decision, reason) =>
    if decision ≠ .eligible then .error (.ok ⟨decision, reason, false⟩)
    else if !r.destructiveDeletionEnabled then
      .error (.ok (retained "production_destructive_deletion_disabled"))
    else if !r.approved then .error (.ok (retained "approval_required"))
    else
      match r.authorize with
      | .missing => .error (.ok (retained "tenant_authorization_required"))
      | .raises => .error (.error .external)
      | .answers false => .error (.ok (retained "tenant_authorization_denied"))
      | .answers true =>
        match r.dependencyCheck with
        | .missing => .error (.ok (retained "dependency_check_required"))
        | .raises => .error (.error .external)
        | .answers false => .error (.ok (retained "active_dependencies"))
        | .answers true =>
          if !r.audit then .error (.ok (retained "audit_sink_required"))
          else if !r.delete then .error (.ok (retained "delete_operation_required"))
          else
            match r.operation with
            | none => .error (.ok (retained "durable_operation_required"))
            | some key => .ok key

/-- A call that has passed its gates. -/
structure Executing where
  candidate : DeletionCandidate
  key : Uuid × String

/-- Why an operation is moved to `RECONCILIATION_REQUIRED`. -/
inductive Cause where
  | deleteRaised
  | auditRaised
  | completionRaised
deriving DecidableEq

/-- The transitions that a call makes. -/
inductive Purpose where
  | attempt
  | complete
  | reconcile (cause : Cause)
deriving DecidableEq

def Purpose.target : Purpose → DeletionOperationState
  | .attempt => .deleteAttempted
  | .complete => .completed
  | .reconcile _ => .reconciliationRequired

/-- A transition that has read its operation and is about to `put` it. -/
structure Loaded (c : Executing) (purpose : Purpose) where
  updated : DeletionOperation
  key_eq : updated.key = c.key
  state_eq : updated.state = purpose.target

/-- What a call does next. -/
inductive DeletionPhase where
  | idle
  | /-- Next comes the audit event `deletion_approved`. -/
    approving (c : Executing)
  | /-- Next a transition reads its operation. -/
    loading (c : Executing) (purpose : Purpose)
  | /-- Next comes its `put`. -/
    storing (c : Executing) (purpose : Purpose) (loaded : Loaded c purpose)
  | /-- Next comes `delete`. -/
    deleting (c : Executing)
  | /-- Next comes the audit event `deletion_completed`. -/
    auditing (c : Executing)

/-- Whether a step raises, before it has its effect or after. -/
inductive Fault where
  | none
  | before
  | after
deriving DecidableEq

inductive DeletionEvent where
  | moved
  | deleteCalled (key : Uuid × String) (returned : Bool)
  | finished (result : Except DeletionFailure DeletionExecution)
deriving DecidableEq

/-- After a transition. -/
def Purpose.done (c : Executing) : Purpose → DeletionEvent × DeletionPhase
  | .attempt => (.moved, .deleting c)
  | .complete => (.finished (.ok ⟨.eligible, "deletion_completed", true⟩), .idle)
  | .reconcile .deleteRaised => (.finished (.error .external), .idle)
  | .reconcile .auditRaised => (.finished (.ok ⟨.eligible, "reconciliation_required", true⟩), .idle)
  | .reconcile .completionRaised =>
    (.finished (.error (.raised (.runtimeError "durable_completion_state_persist_failed"))), .idle)

/-- After a transition that has raised. -/
def Purpose.failed (c : Executing) (e : DeletionFailure) : Purpose → DeletionEvent × DeletionPhase
  | .attempt => (.finished (.error e), .idle)
  | .complete => (.moved, .loading c (.reconcile .completionRaised))
  | .reconcile .completionRaised =>
    (.finished (.error (.raised (.runtimeError "durable_completion_and_reconciliation_failed"))),
      .idle)
  | .reconcile _ => (.finished (.error e), .idle)

def DeletionPhase.advance (s : DeletionOperationStore) (fault : Fault) :
    DeletionPhase → DeletionOperationStore × DeletionEvent × DeletionPhase
  | .idle => (s, .moved, .idle)
  | .approving c =>
    if fault = .none then (s, .moved, .loading c .attempt)
    else (s, .finished (.error .external), .idle)
  | .loading c purpose =>
    if fault ≠ .none then (s, purpose.failed c .external)
    else
      match h : s.load c.key c.candidate.resourceType c.candidate.resourceId purpose.target with
      | .error e => (s, purpose.failed c (.raised e))
      | .ok updated =>
        (s, .moved, .storing c purpose
          ⟨updated, (DeletionOperationStore.load_eq_ok h).1,
            (DeletionOperationStore.load_eq_ok h).2⟩)
  | .storing c purpose loaded =>
    match fault with
    | .none => (s.put loaded.updated, purpose.done c)
    | .before => (s, purpose.failed c .external)
    | .after => (s.put loaded.updated, purpose.failed c .external)
  | .deleting c =>
    if fault = .none then (s, .deleteCalled c.key true, .auditing c)
    else (s, .deleteCalled c.key false, .loading c (.reconcile .deleteRaised))
  | .auditing c =>
    if fault = .none then (s, .moved, .loading c .complete)
    else (s, .moved, .loading c (.reconcile .auditRaised))

section System

variable (U : Type u) [DecidableEq U]

inductive DeletionMove where
  | begin (u : U) (r : DeletionRequest)
  | advance (u : U) (fault : Fault)
  | crash (u : U)

structure Deletions where
  store : DeletionOperationStore
  phases : U → DeletionPhase

variable {U}

def Deletions.move (sys : Deletions U) : DeletionMove U → DeletionEvent × Deletions U
  | .begin u r =>
    match sys.phases u, passGates r with
    | .idle, .ok key =>
      (.moved, { sys with phases := Function.update sys.phases u (.approving ⟨r.candidate, key⟩) })
    | .idle, .error result => (.finished result, sys)
    | _, _ => (.moved, sys)
  | .advance u fault =>
    let (store, event, phase) := (sys.phases u).advance sys.store fault
    (event, ⟨store, Function.update sys.phases u phase⟩)
  | .crash u => (.moved, { sys with phases := Function.update sys.phases u .idle })

def deletions (store : DeletionOperationStore) (U : Type u) [DecidableEq U] :
    Machine (Deletions U) (DeletionMove U) DeletionEvent where
  init := ⟨store, fun _ ↦ .idle⟩
  step := fun m sys ↦ sys.move m

end System

/-! ## What a step can do -/

/-- The call is about to delete the resource of the operation. -/
def Deletes (key : Uuid × String) : DeletionPhase → Prop
  | .deleting c => c.key = key
  | _ => False

/-- The call has moved the operation to `DELETE_ATTEMPTED`. -/
def PastAttempt (key : Uuid × String) : DeletionPhase → Prop
  | .deleting c => c.key = key
  | .auditing c => c.key = key
  | .loading c purpose => purpose ≠ .attempt ∧ c.key = key
  | .storing c purpose _ => purpose ≠ .attempt ∧ c.key = key
  | _ => False

theorem Deletes.pastAttempt {key : Uuid × String} {phase : DeletionPhase} (h : Deletes key phase) :
    PastAttempt key phase := by
  cases phase with
  | deleting c => exact h
  | _ => exact h.elim

/-- A phase in which nothing is about to be deleted and that claims no more than `phase`. -/
structure Retreats (phase phase' : DeletionPhase) : Prop where
  deletes : ∀ key, ¬ Deletes key phase'
  past : ∀ key, PastAttempt key phase' → PastAttempt key phase

theorem retreats_idle {phase : DeletionPhase} : Retreats phase .idle := ⟨fun _ ↦ id, nofun⟩

/-- The effects of a call's next step. -/
inductive AdvanceEffect (s : DeletionOperationStore) (fault : Fault) (phase : DeletionPhase) :
    DeletionOperationStore × DeletionEvent × DeletionPhase → Prop
  | quiet {event : DeletionEvent} {phase' : DeletionPhase}
      (hevent : ∀ key returned, event ≠ .deleteCalled key returned) (h : Retreats phase phase') :
      AdvanceEffect s fault phase (s, event, phase')
  | stored {c : Executing} {purpose : Purpose} {loaded : Loaded c purpose} {event : DeletionEvent}
      {phase' : DeletionPhase} (hevent : ∀ key returned, event ≠ .deleteCalled key returned)
      (h : Retreats phase phase') :
      AdvanceEffect s fault phase (s.put loaded.updated, event, phase')
  | attempted {c : Executing} {loaded : Loaded c .attempt} (hphase : phase = .storing c .attempt loaded)
      (hfault : fault = .none) :
      AdvanceEffect s fault phase (s.put loaded.updated, .moved, .deleting c)
  | called {c : Executing} {returned : Bool} {phase' : DeletionPhase} (hphase : phase = .deleting c)
      (h : Retreats phase phase') :
      AdvanceEffect s fault phase (s, .deleteCalled c.key returned, phase')

theorem failed_cases (c : Executing) (e : DeletionFailure) (purpose : Purpose) :
    (∀ key returned, (purpose.failed c e).1 ≠ .deleteCalled key returned) ∧
      (∀ key, ¬ Deletes key (purpose.failed c e).2) ∧
        ∀ key, PastAttempt key (purpose.failed c e).2 → purpose ≠ .attempt ∧ c.key = key := by
  cases purpose with
  | attempt => exact ⟨nofun, fun _ ↦ id, fun _ ↦ False.elim⟩
  | complete => exact ⟨nofun, fun _ ↦ id, fun _ h ↦ ⟨nofun, h.2⟩⟩
  | reconcile cause =>
    cases cause with
    | deleteRaised => exact ⟨nofun, fun _ ↦ id, fun _ ↦ False.elim⟩
    | auditRaised => exact ⟨nofun, fun _ ↦ id, fun _ ↦ False.elim⟩
    | completionRaised => exact ⟨nofun, fun _ ↦ id, fun _ ↦ False.elim⟩

theorem advanceEffect (s : DeletionOperationStore) (fault : Fault) (phase : DeletionPhase) :
    AdvanceEffect s fault phase (phase.advance s fault) := by
  cases phase with
  | idle => exact .quiet nofun retreats_idle
  | approving c =>
    simp only [DeletionPhase.advance]
    split
    · exact .quiet nofun ⟨fun _ ↦ id, fun key h ↦ absurd rfl h.1⟩
    · exact .quiet nofun retreats_idle
  | loading c purpose =>
    have hfailed : ∀ e, AdvanceEffect s fault (.loading c purpose) (s, purpose.failed c e) := by
      intro e
      obtain ⟨hevent, hdeletes, hpast⟩ := failed_cases c e purpose
      exact .quiet hevent ⟨hdeletes, hpast⟩
    simp only [DeletionPhase.advance]
    split
    · exact hfailed _
    · split
      · exact hfailed _
      · exact .quiet nofun ⟨fun _ ↦ id, fun key h ↦ h⟩
  | storing c purpose loaded =>
    obtain ⟨hevent, hdeletes, hpast⟩ := failed_cases c .external purpose
    cases fault with
    | before => exact .quiet hevent ⟨hdeletes, hpast⟩
    | after => exact .stored hevent ⟨hdeletes, hpast⟩
    | none =>
      cases purpose with
      | attempt => exact .attempted rfl rfl
      | complete => exact .stored nofun retreats_idle
      | reconcile cause =>
        cases cause with
        | deleteRaised => exact .stored nofun retreats_idle
        | auditRaised => exact .stored nofun retreats_idle
        | completionRaised => exact .stored nofun retreats_idle
  | deleting c =>
    simp only [DeletionPhase.advance]
    split
    · exact .called rfl ⟨fun _ ↦ id, fun key h ↦ h⟩
    · exact .called rfl ⟨fun _ ↦ id, fun key h ↦ h.2⟩
  | auditing c =>
    simp only [DeletionPhase.advance]
    split
    · exact .quiet nofun ⟨fun _ ↦ id, fun key h ↦ h.2⟩
    · exact .quiet nofun ⟨fun _ ↦ id, fun key h ↦ h.2⟩

section Moves

variable {U : Type u} [DecidableEq U]

inductive MoveEffect (sys : Deletions U) (m : DeletionMove U) : DeletionEvent → Deletions U → Prop
  | same {event : DeletionEvent} (hevent : ∀ key returned, event ≠ .deleteCalled key returned) :
      MoveEffect sys m event sys
  | quiet {u : U} {event : DeletionEvent} {phase' : DeletionPhase}
      (hevent : ∀ key returned, event ≠ .deleteCalled key returned)
      (h : Retreats (sys.phases u) phase') :
      MoveEffect sys m event ⟨sys.store, Function.update sys.phases u phase'⟩
  | stored {u : U} {c : Executing} {purpose : Purpose} {loaded : Loaded c purpose}
      {event : DeletionEvent} {phase' : DeletionPhase}
      (hevent : ∀ key returned, event ≠ .deleteCalled key returned)
      (h : Retreats (sys.phases u) phase') :
      MoveEffect sys m event ⟨sys.store.put loaded.updated, Function.update sys.phases u phase'⟩
  | attempted {u : U} {c : Executing} {loaded : Loaded c .attempt} (hm : m = .advance u .none)
      (hphase : sys.phases u = .storing c .attempt loaded) :
      MoveEffect sys m .moved
        ⟨sys.store.put loaded.updated, Function.update sys.phases u (.deleting c)⟩
  | called {u : U} {c : Executing} {returned : Bool} {phase' : DeletionPhase}
      (hphase : sys.phases u = .deleting c) (h : Retreats (sys.phases u) phase') :
      MoveEffect sys m (.deleteCalled c.key returned)
        ⟨sys.store, Function.update sys.phases u phase'⟩

theorem moveEffect (sys : Deletions U) (m : DeletionMove U) :
    MoveEffect sys m (sys.move m).1 (sys.move m).2 := by
  cases m with
  | crash u => exact .quiet nofun retreats_idle
  | begin u r =>
    simp only [Deletions.move]
    split
    · exact .quiet nofun ⟨fun _ ↦ id, fun _ ↦ False.elim⟩
    · exact .same nofun
    · exact .same nofun
  | advance u fault =>
    have heffect := advanceEffect sys.store fault (sys.phases u)
    simp only [Deletions.move]
    generalize (sys.phases u).advance sys.store fault = out at heffect
    cases heffect with
    | quiet hevent h => exact .quiet hevent h
    | stored hevent h => exact .stored hevent h
    | attempted hphase hfault =>
      subst hfault
      exact .attempted rfl hphase
    | called hphase h => exact .called hphase h

/-! ## The state of an operation -/

/-- The operation is in a later state than `APPROVED`. -/
def Advanced (s : DeletionOperationStore) (key : Uuid × String) : Prop :=
  ∃ operation, s.get key = some operation ∧ operation.state ≠ .approved

theorem advanced_put (s : DeletionOperationStore) {c : Executing} {purpose : Purpose}
    (loaded : Loaded c purpose) : Advanced (s.put loaded.updated) c.key := by
  refine ⟨loaded.updated, ?_, ?_⟩
  · rw [← loaded.key_eq]
    exact s.get_put_self loaded.updated
  · rw [loaded.state_eq]
    cases purpose <;> exact nofun

variable {key : Uuid × String} {event : DeletionEvent}
  {events : List (DeletionMove U × DeletionEvent)} {m : DeletionMove U}

theorem Advanced.put {s : DeletionOperationStore} (h : Advanced s key) {c : Executing}
    {purpose : Purpose} (loaded : Loaded c purpose) :
    Advanced (s.put loaded.updated) key := by
  by_cases hkey : c.key = key
  · exact hkey ▸ advanced_put s loaded
  · obtain ⟨operation, hget, hstate⟩ := h
    refine ⟨operation, ?_, hstate⟩
    rwa [s.get_put_of_ne (loaded.key_eq ▸ hkey)]

def DeletionEvent.isCall (key : Uuid × String) : DeletionEvent → Bool
  | .deleteCalled key' _ => decide (key' = key)
  | _ => false

def deleteCalls (key : Uuid × String) (events : List (DeletionMove U × DeletionEvent)) : Nat :=
  events.countP fun e ↦ e.2.isCall key

omit [DecidableEq U] in
theorem deleteCalls_concat (key : Uuid × String) (events : List (DeletionMove U × DeletionEvent))
    (m : DeletionMove U) (event : DeletionEvent) :
    deleteCalls key (events ++ [(m, event)]) = deleteCalls key events +
    (event.isCall key).toNat := by
  unfold deleteCalls
  rw [List.countP_append, List.countP_singleton]
  cases event.isCall key <;> rfl

theorem isCall_eq_false (h : ∀ key returned, event ≠ .deleteCalled key returned) :
    event.isCall key = false := by
  cases event with
  | deleteCalled key' returned => exact absurd rfl (h key' returned)
  | _ => rfl

omit [DecidableEq U] in
theorem deleteCalls_quiet (key : Uuid × String) (events : List (DeletionMove U × DeletionEvent))
    (m : DeletionMove U) (hevent : ∀ key returned, event ≠ .deleteCalled key returned) :
    deleteCalls key (events ++ [(m, event)]) = deleteCalls key events := by
  rw [deleteCalls_concat, isCall_eq_false hevent]
  rfl

section Retreats

variable {phases : U → DeletionPhase} {u v : U} {phase' : DeletionPhase} {key : Uuid × String}

theorem Retreats.past_update (h : Retreats (phases u) phase')
    (hv : PastAttempt key (Function.update phases u phase' v)) : PastAttempt key (phases v) := by
  by_cases huv : v = u
  · subst huv
    rw [Function.update_self] at hv
    exact h.past key hv
  · rwa [Function.update_of_ne huv] at hv

theorem Retreats.deletes_update (h : Retreats (phases u) phase')
    (hv : Deletes key (Function.update phases u phase' v)) : v ≠ u ∧ Deletes key (phases v) := by
  by_cases huv : v = u
  · subst huv
    rw [Function.update_self] at hv
    exact absurd hv (h.deletes key)
  · rw [Function.update_of_ne huv] at hv
    exact ⟨huv, hv⟩

end Retreats

/-- Whoever is past the attempt, or has called `delete`, has left `APPROVED` behind. -/
structure PastApproval (key : Uuid × String) (sys : Deletions U)
    (events : List (DeletionMove U × DeletionEvent)) : Prop where
  past : ∀ u, PastAttempt key (sys.phases u) → Advanced sys.store key
  called : 0 < deleteCalls key events → Advanced sys.store key

theorem PastApproval.move {sys sys' : Deletions U} (h : PastApproval key sys events)
    (heffect : MoveEffect sys m event sys') :
    PastApproval key sys' (events ++ [(m, event)]) := by
  have hquiet : (∀ key returned, event ≠ .deleteCalled key returned) →
      0 < deleteCalls key (events ++ [(m, event)]) → Advanced sys.store key :=
    fun hevent hcalls ↦ h.called (deleteCalls_quiet key events m hevent ▸ hcalls)
  cases heffect with
  | same hevent => exact ⟨h.past, hquiet hevent⟩
  | quiet hevent hretreats => exact ⟨fun v hv ↦ h.past v (hretreats.past_update hv), hquiet hevent⟩
  | stored hevent hretreats =>
    exact ⟨fun v hv ↦ (h.past v (hretreats.past_update hv)).put _,
      fun hcalls ↦ (hquiet hevent hcalls).put _⟩
  | @attempted u c loaded hm hphase =>
    refine ⟨fun v hv ↦ ?_, fun hcalls ↦ (hquiet nofun hcalls).put _⟩
    change PastAttempt key (Function.update sys.phases u (.deleting c) v) at hv
    by_cases huv : v = u
    · subst huv
      have hkey : c.key = key := by rwa [Function.update_self] at hv
      exact hkey ▸ advanced_put sys.store loaded
    · rw [Function.update_of_ne huv] at hv
      exact (h.past v hv).put loaded
  | @called u c returned phase' hphase hretreats =>
    refine ⟨fun v hv ↦ h.past v (hretreats.past_update hv), fun hcalls ↦ ?_⟩
    rw [deleteCalls_concat] at hcalls
    by_cases hkey : c.key = key
    · exact h.past u (by rw [hphase]; exact hkey)
    · refine h.called ?_
      rwa [DeletionEvent.isCall, decide_eq_false hkey] at hcalls

/-! ## At most one deletion -/

/-- A call that gets past its attempt finds the operation `APPROVED` when it stores the new
state. -/
def AttemptsApproved (key : Uuid × String) (sys : Deletions U) (m : DeletionMove U) : Prop :=
  ∀ u c loaded, m = .advance u .none → sys.phases u = .storing c .attempt loaded → c.key = key →
    ∃ operation, sys.store.get key = some operation ∧ operation.state = .approved

/-- The same as a check. -/
def attemptsApproved (key : Uuid × String) (sys : Deletions U) : DeletionMove U → Bool
  | .advance u .none =>
    match sys.phases u with
    | .storing c .attempt _ => decide (c.key ≠ key) ||
        decide ((sys.store.get key).map DeletionOperation.state = some .approved)
    | _ => true
  | _ => true

omit [DecidableEq U] in
theorem attemptsApproved_iff {sys : Deletions U} :
    attemptsApproved key sys m = true ↔ AttemptsApproved key sys m := by
  constructor
  · rintro h u c loaded rfl hphase hkey
    simp only [attemptsApproved, hphase, Bool.or_eq_true, decide_eq_true_iff] at h
    exact Option.map_eq_some_iff.mp (h.resolve_left (not_not.mpr hkey))
  · intro h
    unfold attemptsApproved
    split
    · rename_i u
      split
      · rename_i c loaded hphase
        rw [Bool.or_eq_true, decide_eq_true_iff, decide_eq_true_iff]
        by_cases hkey : c.key = key
        · exact .inr (Option.map_eq_some_iff.mpr (h u c loaded rfl hphase hkey))
        · exact .inl hkey
      · rfl
    · rfl

instance {key : Uuid × String} {sys : Deletions U} {m : DeletionMove U} :
    Decidable (AttemptsApproved key sys m) :=
  decidable_of_iff _ attemptsApproved_iff

/-- `delete` has been called at most once, and is going to be at most once. -/
structure DeletesOnce (key : Uuid × String) (sys : Deletions U)
    (events : List (DeletionMove U × DeletionEvent)) : Prop where
  once : deleteCalls key events ≤ 1
  pending : ∀ u v, Deletes key (sys.phases u) → Deletes key (sys.phases v) → u = v
  exclusive : 0 < deleteCalls key events → ∀ u, ¬ Deletes key (sys.phases u)

theorem DeletesOnce.retreat {sys : Deletions U} {u : U} {phase' : DeletionPhase}
    (h : DeletesOnce key sys events) (hevent : ∀ key returned, event ≠ .deleteCalled key returned)
    (hretreats : Retreats (sys.phases u) phase') (store : DeletionOperationStore) :
    DeletesOnce key ⟨store, Function.update sys.phases u phase'⟩ (events ++ [(m, event)]) := by
  have hquiet := deleteCalls_quiet key events m hevent
  refine ⟨hquiet.symm ▸ h.once, fun v w hv hw ↦ ?_, fun hcalls v hv ↦ ?_⟩
  · exact h.pending v w (hretreats.deletes_update hv).2 (hretreats.deletes_update hw).2
  · exact h.exclusive (hquiet ▸ hcalls) v (hretreats.deletes_update hv).2

theorem DeletesOnce.move {sys sys' : Deletions U} (h : DeletesOnce key sys events)
    (hpast : PastApproval key sys events) (hm : AttemptsApproved key sys m)
    (heffect : MoveEffect sys m event sys') :
    DeletesOnce key sys' (events ++ [(m, event)]) := by
  cases heffect with
  | same hevent =>
    have hcalls := deleteCalls_quiet key events m hevent
    exact ⟨hcalls.symm ▸ h.once, h.pending, hcalls.symm ▸ h.exclusive⟩
  | quiet hevent hretreats => exact h.retreat hevent hretreats _
  | stored hevent hretreats => exact h.retreat hevent hretreats _
  | @attempted u c loaded hmove hphase =>
    have hcalls : deleteCalls key (events ++ [(m, .moved)]) = deleteCalls key events :=
      deleteCalls_quiet key events m nofun
    by_cases hkey : c.key = key
    · -- The operation was `APPROVED`, so nobody else is past the attempt.
      have hnot : ¬ Advanced sys.store key := by
        rintro ⟨operation, hget, hstate⟩
        obtain ⟨operation', hget', hstate'⟩ := hm u c loaded hmove hphase hkey
        cases hget.symm.trans hget'
        exact hstate hstate'
      have hzero : ¬ 0 < deleteCalls key events := fun hpos ↦ hnot (hpast.called hpos)
      have honly : ∀ v, Deletes key (Function.update sys.phases u (.deleting c) v) → v = u := by
        intro v hv
        by_contra huv
        rw [Function.update_of_ne huv] at hv
        exact hnot (hpast.past v hv.pastAttempt)
      refine ⟨hcalls.symm ▸ h.once, fun v w hv hw ↦ (honly v hv).trans (honly w hw).symm, ?_⟩
      exact fun hpos ↦ absurd (hcalls ▸ hpos) hzero
    · have hother : ∀ v, Deletes key (Function.update sys.phases u (.deleting c) v) →
          Deletes key (sys.phases v) := by
        intro v hv
        by_cases huv : v = u
        · subst huv
          rw [Function.update_self] at hv
          exact absurd hv hkey
        · rwa [Function.update_of_ne huv] at hv
      exact ⟨hcalls.symm ▸ h.once, fun v w hv hw ↦ h.pending v w (hother v hv) (hother w hw),
        fun hpos v hv ↦ h.exclusive (hcalls ▸ hpos) v (hother v hv)⟩
  | @called u c returned phase' hphase hretreats =>
    have hcount := deleteCalls_concat key events m (.deleteCalled c.key returned)
    by_cases hkey : c.key = key
    · have hdeletes : Deletes key (sys.phases u) := by
        rw [hphase]
        exact hkey
      have hzero : deleteCalls key events = 0 := by
        by_contra hpos
        exact h.exclusive (Nat.pos_of_ne_zero hpos) u hdeletes
      rw [hzero, DeletionEvent.isCall, decide_eq_true hkey] at hcount
      refine ⟨hcount.le, fun v w hv hw ↦ ?_, fun _ v hv ↦ ?_⟩
      · exact h.pending v w (hretreats.deletes_update hv).2 (hretreats.deletes_update hw).2
      · obtain ⟨hne, hv⟩ := hretreats.deletes_update hv
        exact hne (h.pending v u hv hdeletes)
    · rw [DeletionEvent.isCall, decide_eq_false hkey] at hcount
      refine ⟨hcount.trans_le h.once, fun v w hv hw ↦ ?_, fun hpos v hv ↦ ?_⟩
      · exact h.pending v w (hretreats.deletes_update hv).2 (hretreats.deletes_update hw).2
      · exact h.exclusive (hpos.trans_eq hcount) v (hretreats.deletes_update hv).2

end Moves

/-! ## Runs -/

section

variable (store : DeletionOperationStore) (U : Type u) [DecidableEq U] (key : Uuid × String)

theorem pastApproval_after (is : List (DeletionMove U)) :
    PastApproval key ((deletions store U).after is) ((deletions store U).trace is) := by
  induction is using List.reverseRecOn with
  | nil => exact ⟨fun _ ↦ False.elim, fun h ↦ absurd h (Nat.not_lt_zero 0)⟩
  | append_singleton is m ih =>
    rw [Machine.after_concat, Machine.trace_concat]
    exact ih.move (moveEffect _ m)

/-- Once `delete` has been called, the operation is in a later state than `APPROVED`.  And
in a run in which every call that gets past its attempt has found the operation
`APPROVED`, `delete` is called at most once. -/
theorem deletion_at_most_once (is : List (DeletionMove U)) :
    (0 < deleteCalls key ((deletions store U).trace is) →
      ∃ operation, ((deletions store U).after is).store.get key = some operation ∧
        operation.state ∈ [.deleteAttempted, .completed, .reconciliationRequired]) ∧
      (Meets (fun pre m ↦ AttemptsApproved key ((deletions store U).after pre) m) is →
        deleteCalls key ((deletions store U).trace is) ≤ 1) := by
  constructor
  · intro hcalls
    obtain ⟨operation, hget, hstate⟩ := (pastApproval_after store U key is).called hcalls
    refine ⟨operation, hget, ?_⟩
    cases h : operation.state with
    | approved => exact absurd h hstate
    | deleteAttempted => decide
    | completed => decide
    | reconciliationRequired => decide
  · intro hmeets
    refine (hmeets.induction (I := fun is ↦ DeletesOnce key ((deletions store U).after is)
      ((deletions store U).trace is)) ?_ fun is m _ ih hm ↦ ?_).once
    · exact ⟨Nat.zero_le 1, fun _ _ ↦ False.elim, fun h ↦ absurd h (Nat.not_lt_zero 0)⟩
    · rw [Machine.after_concat, Machine.trace_concat]
      exact ih.move (pastApproval_after store U key is) hm (moveEffect _ m)

end

/-- A call that runs to its end. -/
theorem deletion_at_most_once_completed :
    let operation : DeletionOperation :=
      ⟨⟨1⟩, "op-1", "dataset", "d-1", .approved, by decide +kernel, by decide +kernel,
        by decide +kernel⟩
    let store := (⟨∅, nofun⟩ : DeletionOperationStore).put operation
    let r : DeletionRequest :=
      { candidate := ⟨"dataset", "d-1", 0, 0, false, by decide +kernel, by decide +kernel⟩
        now := 31 * 86400000000, policy := none, approved := true
        destructiveDeletionEnabled := true, audit := true, delete := true
        dependencyCheck := .answers true, authorize := .answers true
        operation := some (⟨1⟩, "op-1") }
    let is : List (DeletionMove Unit) :=
      .begin () r :: List.replicate 7 (.advance () .none)
    Meets (fun pre m ↦ AttemptsApproved (⟨1⟩, "op-1") ((deletions store Unit).after pre) m) is ∧
      deleteCalls (⟨1⟩, "op-1") ((deletions store Unit).trace is) = 1 ∧
      deleteCalls (⟨1⟩, "op-1") ((deletions store Unit).trace is) ≤ 1 := by
  intro operation store r is
  have hmeets : Meets (fun pre m ↦
      AttemptsApproved (⟨1⟩, "op-1") ((deletions store Unit).after pre) m) is := by
    decide +kernel
  exact ⟨hmeets, by decide +kernel, (deletion_at_most_once store Unit (⟨1⟩, "op-1") is).2 hmeets⟩

/-- A call crashes after it has deleted; the next call with the same operation deletes
again. -/
theorem deletion_repeated :
    let operation : DeletionOperation :=
      ⟨⟨1⟩, "op-1", "dataset", "d-1", .approved, by decide +kernel, by decide +kernel,
        by decide +kernel⟩
    let store := (⟨∅, nofun⟩ : DeletionOperationStore).put operation
    let r : DeletionRequest :=
      { candidate := ⟨"dataset", "d-1", 0, 0, false, by decide +kernel, by decide +kernel⟩
        now := 31 * 86400000000, policy := none, approved := true
        destructiveDeletionEnabled := true, audit := true, delete := true
        dependencyCheck := .answers true, authorize := .answers true
        operation := some (⟨1⟩, "op-1") }
    let call : List (DeletionMove Unit) := .begin () r :: List.replicate 4 (.advance () .none)
    ¬ deleteCalls (⟨1⟩, "op-1") ((deletions store Unit).trace (call ++ [.crash ()] ++ call)) ≤ 1 := by
  intro operation store r call
  decide +kernel

end Qros.Saas
