import Qros.Saas.Store

/-!
# Retention

The policy of `researchos/saas/retention.py`, the deletion operations of
`retention_reconciliation.py` and the recovery of `retention_recovery.py`.  An operation
is stored under its workspace and its id, and its state only moves along
`allowedTransitions`, or stays.

The store is in memory, or a table behind the function `transition_retention_deletion_operation`
of the migrations, which is called over a network.  `complete_reconciliation` asks either for a
transition to `COMPLETED` and so accepts whatever state the transitions accept
(`completes_only_reconciled_iff`).

All times are in UTC, so the checks that they carry a time zone have no counterpart.
-/

namespace Qros.Saas

open Qros.Lib

/-! ## Policy -/

inductive RetentionDecision where
  | eligible
  | retain
deriving DecidableEq

structure DeletionCandidate where
  resourceType : String
  resourceId : String
  createdAt : DateTime
  referenceCount : Nat
  legalHold : Bool
  resourceType_ne : isBlank resourceType = false
  resourceId_ne : isBlank resourceId = false

structure RetentionPolicy where
  /-- In microseconds. -/
  minAge : Int
  deletableResourceTypes : List String
  minAge_nonneg : 0 ≤ minAge
  deletable_ne : deletableResourceTypes ≠ []
deriving DecidableEq

namespace RetentionPolicy

def default : RetentionPolicy where
  minAge := 30 * 86400000000
  deletableResourceTypes := ["dataset", "dataset_version", "artifact"]
  minAge_nonneg := by decide
  deletable_ne := by decide

/-- The error is the `OverflowError` of a date after the last one. -/
def evaluate (policy : RetentionPolicy) (candidate : DeletionCandidate) (now : DateTime) :
    Except PyError (RetentionDecision × String) :=
  if candidate.resourceType ∉ policy.deletableResourceTypes then
    .ok (.retain, "resource_type_not_deletable")
  else if candidate.legalHold then .ok (.retain, "legal_hold")
  else if candidate.referenceCount ≠ 0 then .ok (.retain, "active_references")
  else if DateTime.max < candidate.createdAt + policy.minAge then .error .overflowError
  else if now < candidate.createdAt + policy.minAge then .ok (.retain, "retention_window_active")
  else .ok (.eligible, "retention_window_elapsed")

end RetentionPolicy

def evaluateDeletion (candidate : DeletionCandidate) (now : DateTime)
    (policy : Option RetentionPolicy) : Except PyError (RetentionDecision × String) :=
  (policy.getD .default).evaluate candidate now

/-! ## Operations -/

inductive DeletionOperationState where
  | approved
  | deleteAttempted
  | completed
  | reconciliationRequired
deriving DecidableEq

namespace DeletionOperationState

def value : DeletionOperationState → String
  | .approved => "APPROVED"
  | .deleteAttempted => "DELETE_ATTEMPTED"
  | .completed => "COMPLETED"
  | .reconciliationRequired => "RECONCILIATION_REQUIRED"

def allowedTransitions : DeletionOperationState → List DeletionOperationState
  | .approved => [.deleteAttempted, .reconciliationRequired]
  | .deleteAttempted => [.completed, .reconciliationRequired]
  | .completed => []
  | .reconciliationRequired => [.completed]

end DeletionOperationState

structure DeletionOperation where
  workspaceId : Uuid
  operationId : String
  resourceType : String
  resourceId : String
  state : DeletionOperationState
  operationId_ne : isBlank operationId = false
  resourceType_ne : isBlank resourceType = false
  resourceId_ne : isBlank resourceId = false

namespace DeletionOperation

def key (operation : DeletionOperation) : Uuid × String :=
  (operation.workspaceId, operation.operationId)

def transitionTo (operation : DeletionOperation) (state : DeletionOperationState) :
    Except PyError DeletionOperation :=
  if state = operation.state then .ok operation
  else if state ∉ operation.state.allowedTransitions then
    .error (.valueError ("invalid deletion operation transition: " ++ operation.state.value ++
      " -> " ++ state.value))
  else .ok { operation with state := state }

theorem transitionTo_eq_ok {operation updated : DeletionOperation} {state : DeletionOperationState}
    (h : operation.transitionTo state = .ok updated) :
    updated.key = operation.key ∧ updated.state = state := by
  unfold transitionTo at h
  split at h
  · rename_i hstate
    cases h
    exact ⟨rfl, hstate.symm⟩
  · split at h
    · cases h
    · cases h
      exact ⟨rfl, rfl⟩

end DeletionOperation

structure DeletionOperationStore where
  operations : Dict (Uuid × String) DeletionOperation
  keyed : ∀ key operation, operations.get? key = some operation → operation.key = key

namespace DeletionOperationStore

def get (s : DeletionOperationStore) (key : Uuid × String) : Option DeletionOperation :=
  s.operations.get? key

def put (s : DeletionOperationStore) (operation : DeletionOperation) : DeletionOperationStore where
  operations := s.operations.set operation.key operation
  keyed := by
    intro key stored h
    rw [Dict.get?_set] at h
    split at h
    · rename_i hkey
      cases h
      exact hkey
    · exact s.keyed key stored h

/-- `transition` up to its `put`: the operation that it is going to store. -/
def load (s : DeletionOperationStore) (key : Uuid × String) (resourceType resourceId : String)
    (state : DeletionOperationState) : Except PyError DeletionOperation :=
  match s.get key with
  | none => .error (.keyError "retention operation not found")
  | some current =>
    if current.resourceType ≠ resourceType ∨ current.resourceId ≠ resourceId then
      .error (.valueError "retention operation resource identity mismatch")
    else current.transitionTo state

theorem load_eq_ok {s : DeletionOperationStore} {key : Uuid × String}
    {resourceType resourceId : String}
    {state : DeletionOperationState} {updated : DeletionOperation}
    (h : s.load key resourceType resourceId state = .ok updated) :
    updated.key = key ∧ updated.state = state := by
  unfold load at h
  split at h
  · cases h
  · rename_i current hget
    split at h
    · cases h
    · obtain ⟨hkey, hstate⟩ := DeletionOperation.transitionTo_eq_ok h
      exact ⟨hkey.trans (s.keyed key current hget), hstate⟩

@[simp]
theorem get_put_self (s : DeletionOperationStore) (operation : DeletionOperation) :
    (s.put operation).get operation.key = some operation := Dict.get?_set_self _ _ _

theorem get_put_of_ne (s : DeletionOperationStore) {operation : DeletionOperation}
    {key : Uuid × String}
    (h : operation.key ≠ key) : (s.put operation).get key = s.get key := Dict.get?_set_of_ne _ _ h

def transition (s : DeletionOperationStore) (key : Uuid × String) (resourceType resourceId : String)
    (state : DeletionOperationState) : Except PyError DeletionOperation × DeletionOperationStore :=
  match s.load key resourceType resourceId state with
  | .error e => (.error e, s)
  | .ok updated => (.ok updated, s.put updated)

end DeletionOperationStore

/-! ## The table -/

/-- `char_length(trim(value)) = 0`, which trims spaces only. -/
def isTrimmedEmpty (value : String) : Bool := value.toList.all (· = ' ')

/-- The transitions that the function of the table allows. -/
def DeletionOperationState.rowAllows (current state : DeletionOperationState) : Prop :=
  (current = .approved ∧ state ∈ [.deleteAttempted, .reconciliationRequired]) ∨
    (current = .deleteAttempted ∧ state ∈ [.completed, .reconciliationRequired]) ∨
      (current = .reconciliationRequired ∧ state = .completed) ∨ current = state

instance (current state : DeletionOperationState) : Decidable (current.rowAllows state) :=
  inferInstanceAs (Decidable (_ ∨ _))

/-- `transition_retention_deletion_operation`; the error is the exception that it raises. -/
def DeletionOperationStore.transitionRow (s : DeletionOperationStore) (key : Uuid × String)
    (resourceType resourceId : String) (state : DeletionOperationState) :
    Except String DeletionOperation × DeletionOperationStore :=
  if isTrimmedEmpty key.2 then (.error "operation_id is required", s)
  else if isTrimmedEmpty resourceType then (.error "resource_type is required", s)
  else if isTrimmedEmpty resourceId then (.error "resource_id is required", s)
  else
    match s.get key with
    | none => (.error "retention operation not found", s)
    | some current =>
      if current.resourceType ≠ resourceType ∨ current.resourceId ≠ resourceId then
        (.error "retention operation not found", s)
      else if ¬ current.state.rowAllows state then
        (.error "invalid retention operation state transition", s)
      else (.ok { current with state := state }, s.put { current with state := state })

/-! ## Recovery -/

/-- An exception; `external` is any that a callback or the store raises by itself. -/
inductive DeletionFailure where
  | raised (error : PyError)
  | external
deriving DecidableEq

/-- What becomes of a request to the table. -/
inductive Delivery where
  | answered
  | requestLost
  | answerLost
deriving DecidableEq

inductive DeletionBackend where
  /-- `InMemoryDeletionOperationStore`. -/
  | memory
  /-- `SupabaseDeletionOperationStore`. -/
  | supabase (delivery : Delivery)
deriving DecidableEq

namespace DeletionBackend

def Reaches (backend : DeletionBackend) : Prop := backend ≠ .supabase .requestLost

/-- The caller learns what the store has done. -/
def Answers (backend : DeletionBackend) : Prop :=
  backend = .memory ∨ backend = .supabase .answered

def transition (backend : DeletionBackend) (s : DeletionOperationStore) (key : Uuid × String)
    (resourceType resourceId : String) (state : DeletionOperationState) :
    Except DeletionFailure DeletionOperation × DeletionOperationStore :=
  match backend with
  | .memory =>
    let (result, s) := s.transition key resourceType resourceId state
    (result.mapError .raised, s)
  | .supabase delivery =>
    let (result, s') := s.transitionRow key resourceType resourceId state
    match delivery with
    | .answered => (result.mapError fun _ ↦ .external, s')
    | .requestLost => (.error .external, s)
    | .answerLost => (.error .external, s')

end DeletionBackend

def completeReconciliation (backend : DeletionBackend) (s : DeletionOperationStore)
    (key : Uuid × String) (resourceType resourceId : String) :
    Except DeletionFailure DeletionOperation × DeletionOperationStore :=
  backend.transition s key resourceType resourceId .completed

/-- What either store does when it is asked for a transition to `COMPLETED`. -/
inductive CompletionEffect (s : DeletionOperationStore) (key : Uuid × String)
    (resourceType resourceId : String) {ε : Type} :
    Except ε DeletionOperation × DeletionOperationStore → Prop
  | refused {e : ε}
      (h : ∀ op, s.get key = some op → op.resourceType = resourceType →
        op.resourceId = resourceId → op.state = .approved) :
      CompletionEffect s key resourceType resourceId (.error e, s)
  | completed {op : DeletionOperation} (hget : s.get key = some op)
      (htype : op.resourceType = resourceType) (hid : op.resourceId = resourceId)
      (hstate : op.state ≠ .approved) :
      CompletionEffect s key resourceType resourceId
        (.ok { op with state := .completed }, s.put { op with state := .completed })

theorem DeletionOperation.completed_eq {op : DeletionOperation} (h : op.state = .completed) :
    { op with state := .completed } = op := by
  cases op
  cases h
  rfl

theorem transition_effect (s : DeletionOperationStore) (key : Uuid × String)
    (resourceType resourceId : String) :
    CompletionEffect s key resourceType resourceId
      (s.transition key resourceType resourceId .completed) := by
  unfold DeletionOperationStore.transition DeletionOperationStore.load
  cases hget : s.get key with
  | none => exact .refused fun op h ↦ by rw [hget] at h; cases h
  | some op =>
    dsimp only
    split_ifs with hmatch
    · refine .refused fun op' h htype hid ↦ ?_
      obtain rfl := Option.some.inj (hget.symm.trans h)
      exact absurd hmatch (by simp [htype, hid])
    · rw [not_or, not_not, not_not] at hmatch
      unfold DeletionOperation.transitionTo
      cases hstate : op.state with
      | approved =>
        refine .refused fun op' h _ _ ↦ ?_
        obtain rfl := Option.some.inj (hget.symm.trans h)
        exact hstate
      | deleteAttempted => exact .completed hget hmatch.1 hmatch.2 (by rw [hstate]; decide)
      | reconciliationRequired =>
        exact .completed hget hmatch.1 hmatch.2 (by rw [hstate]; decide)
      | completed =>
        have heffect := CompletionEffect.completed (ε := PyError) hget hmatch.1 hmatch.2
          (by rw [hstate]; decide)
        rw [DeletionOperation.completed_eq hstate] at heffect
        exact heffect

theorem isTrimmedEmpty_eq_false {value : String} (h : isBlank value = false) :
    isTrimmedEmpty value = false := by
  rw [isBlank, List.all_eq_false] at h
  rw [isTrimmedEmpty, List.all_eq_false]
  obtain ⟨c, hc, hspace⟩ := h
  refine ⟨c, hc, fun heq ↦ hspace ?_⟩
  rw [of_decide_eq_true heq]
  decide

theorem transitionRow_effect (s : DeletionOperationStore) (key : Uuid × String)
    (resourceType resourceId : String) :
    CompletionEffect s key resourceType resourceId
      (s.transitionRow key resourceType resourceId .completed) := by
  unfold DeletionOperationStore.transitionRow
  split_ifs with hop htype hid
  · refine .refused fun op h _ _ ↦ ?_
    have := isTrimmedEmpty_eq_false op.operationId_ne
    rw [← s.keyed key op h] at hop
    exact absurd hop (by rw [DeletionOperation.key, this]; decide)
  · refine .refused fun op _ h _ ↦ ?_
    rw [← h, isTrimmedEmpty_eq_false op.resourceType_ne] at htype
    cases htype
  · refine .refused fun op _ _ h ↦ ?_
    rw [← h, isTrimmedEmpty_eq_false op.resourceId_ne] at hid
    cases hid
  · cases hget : s.get key with
    | none => exact .refused fun op h ↦ by rw [hget] at h; cases h
    | some op =>
      dsimp only
      split_ifs with hmatch hallows
      · refine .refused fun op' h htype hid ↦ ?_
        obtain rfl := Option.some.inj (hget.symm.trans h)
        exact absurd hmatch (by simp [htype, hid])
      · rw [not_or, not_not, not_not] at hmatch
        refine .completed hget hmatch.1 hmatch.2 fun hstate ↦ ?_
        rw [hstate] at hallows
        exact absurd hallows (by decide)
      · refine .refused fun op' h _ _ ↦ ?_
        obtain rfl := Option.some.inj (hget.symm.trans h)
        cases hstate : op.state with
        | approved => rfl
        | _ => exact absurd (by rw [hstate]; decide) hallows

/-- How a call of `complete_reconciliation` ends: it fails and writes nothing, or it moves the
operation to `COMPLETED`, and answers unless the answer is lost. -/
theorem completeReconciliation_cases (backend : DeletionBackend) (s : DeletionOperationStore)
    (key : Uuid × String) (resourceType resourceId : String) :
    (((∀ op, s.get key = some op → op.resourceType = resourceType →
          op.resourceId = resourceId → op.state = .approved) ∨ ¬ backend.Reaches) ∧
        ∃ e, completeReconciliation backend s key resourceType resourceId = (.error e, s)) ∨
      ∃ op, s.get key = some op ∧ op.resourceType = resourceType ∧ op.resourceId = resourceId ∧
        op.state ≠ .approved ∧ backend.Reaches ∧
          (completeReconciliation backend s key resourceType resourceId).2 =
            s.put { op with state := .completed } ∧
          ((∃ e, (completeReconciliation backend s key resourceType resourceId).1 = .error e) ↔
            ¬ backend.Answers) := by
  unfold completeReconciliation DeletionBackend.transition DeletionBackend.Reaches
    DeletionBackend.Answers
  cases backend with
  | memory =>
    have heffect := transition_effect s key resourceType resourceId
    generalize s.transition key resourceType resourceId .completed = outcome at heffect ⊢
    cases heffect with
    | refused h => exact .inl ⟨.inl h, _, rfl⟩
    | completed hget htype hid hstate =>
      refine .inr ⟨_, hget, htype, hid, hstate, by decide, rfl, iff_of_false ?_ (by decide)⟩
      rintro ⟨e, he⟩
      cases he
  | supabase delivery =>
    have heffect := transitionRow_effect s key resourceType resourceId
    generalize s.transitionRow key resourceType resourceId .completed = outcome at heffect ⊢
    cases delivery with
    | requestLost => exact .inl ⟨.inr (by decide), _, rfl⟩
    | answered =>
      cases heffect with
      | refused h => exact .inl ⟨.inl h, _, rfl⟩
      | completed hget htype hid hstate =>
        refine .inr ⟨_, hget, htype, hid, hstate, by decide, rfl, iff_of_false ?_ (by decide)⟩
        rintro ⟨e, he⟩
        cases he
    | answerLost =>
      cases heffect with
      | refused h => exact .inl ⟨.inl h, _, rfl⟩
      | completed hget htype hid hstate =>
        exact .inr ⟨_, hget, htype, hid, hstate, by decide, rfl,
          iff_of_true ⟨_, rfl⟩ (by decide)⟩

/-- The operation is completed only if it waits to be reconciled, and in every other state
the call fails and leaves it as it is. -/
structure CompletesOnlyReconciled (s : DeletionOperationStore) (key : Uuid × String)
    (outcome : Except DeletionFailure DeletionOperation × DeletionOperationStore) : Prop where
  completes : ∀ op op', s.get key = some op → outcome.2.get key = some op' →
    op.state ≠ .completed → op'.state = .completed → op.state = .reconciliationRequired
  others : ∀ op, s.get key = some op → op.state ≠ .reconciliationRequired →
    (∃ e, outcome.1 = .error e) ∧ outcome.2.get key = some op

/-- The call meets its contract just when it does not reach an operation that is still being
deleted, and is not told of one that has been completed before. -/
theorem completes_only_reconciled_iff (backend : DeletionBackend) (s : DeletionOperationStore)
    (key : Uuid × String) (resourceType resourceId : String) :
    CompletesOnlyReconciled s key (completeReconciliation backend s key resourceType resourceId) ↔
      ∀ op, s.get key = some op → op.resourceType = resourceType → op.resourceId = resourceId →
        (op.state = .deleteAttempted → ¬ backend.Reaches) ∧
          (op.state = .completed → ¬ backend.Answers) := by
  rcases completeReconciliation_cases backend s key resourceType resourceId with
    ⟨hrefused, e, heq⟩ | ⟨op, hget, htype, hid, hstate, hreaches, hstore, hanswers⟩
  · have hkept : CompletesOnlyReconciled s key
        (completeReconciliation backend s key resourceType resourceId) := by
      rw [heq]
      refine ⟨fun op op' h h' hne hstate ↦ ?_, fun op h _ ↦ ⟨⟨e, rfl⟩, h⟩⟩
      obtain rfl := Option.some.inj (h.symm.trans h')
      exact absurd hstate hne
    refine iff_of_true hkept fun op h htype hid ↦ ?_
    rcases hrefused with hrefused | hlost
    · rw [hrefused op h htype hid]
      exact ⟨fun h ↦ (by cases h), fun h ↦ (by cases h)⟩
    · refine ⟨fun _ ↦ hlost, fun _ hanswers ↦ hlost ?_⟩
      rcases hanswers with rfl | rfl
      · exact fun h ↦ (by cases h)
      · exact fun h ↦ (by cases h)
  · have hput : (s.put { op with state := .completed }).get key =
        some { op with state := .completed } := by
      rw [← s.keyed key op hget]
      exact s.get_put_self { op with state := .completed }
    constructor
    · rintro ⟨hcompletes, hothers⟩ op' h' - -
      obtain rfl := Option.some.inj (hget.symm.trans h')
      constructor
      · intro hattempted
        have := hcompletes op _ hget (by rw [hstore, hput]) (by rw [hattempted]; decide) rfl
        rw [hattempted] at this
        cases this
      · intro hcompleted
        exact hanswers.mp (hothers op hget (by rw [hcompleted]; decide)).1
    · intro h
      obtain ⟨hattempted, hcompleted⟩ := h op hget htype hid
      have hcases : op.state = .reconciliationRequired ∨ op.state = .completed := by
        cases hop : op.state with
        | approved => exact absurd hop hstate
        | deleteAttempted => exact absurd hreaches (hattempted hop)
        | reconciliationRequired => exact .inl rfl
        | completed => exact .inr rfl
      refine ⟨fun op' _ h' _ hne _ ↦ ?_, fun op' h' hne ↦ ?_⟩
      · obtain rfl := Option.some.inj (hget.symm.trans h')
        exact hcases.resolve_right hne
      · obtain rfl := Option.some.inj (hget.symm.trans h')
        have hdone := hcases.resolve_left hne
        refine ⟨hanswers.mpr (hcompleted hdone), ?_⟩
        rw [hstore, hput, DeletionOperation.completed_eq hdone]

/-- An operation whose deletion has been attempted, and whose outcome is not known. -/
def attemptedOperation : DeletionOperation where
  workspaceId := ⟨1⟩
  operationId := "delete-artifact-1"
  resourceType := "artifact"
  resourceId := "artifact-1"
  state := .deleteAttempted
  operationId_ne := by decide
  resourceType_ne := by decide
  resourceId_ne := by decide

/-- It is completed without having been flagged for reconciliation. -/
theorem attempted_completed :
    let s : DeletionOperationStore :=
      DeletionOperationStore.put ⟨∅, fun key op h ↦ (by cases h)⟩ attemptedOperation
    ¬ CompletesOnlyReconciled s attemptedOperation.key
      (completeReconciliation .memory s attemptedOperation.key "artifact" "artifact-1") := by
  rintro s ⟨hcompletes, -⟩
  have := hcompletes attemptedOperation { attemptedOperation with state := .completed }
    (by rfl) (by rfl) (by decide) rfl
  cases this

end Qros.Saas
