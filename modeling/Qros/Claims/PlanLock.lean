import Qros.Claims.Claim
import Qros.Storage.LoadedAudit

/-!
# Plan locks

`ResearchPlan` of `researchos/claims/claim.py`, and the operations of `ResearchClaim` on a claim with
its plan.  Times are kept as their `isoformat()`.
-/

namespace Qros.Claims

open Qros.Lib Qros.Python Qros.Storage

/-! ## Plans -/

structure PlanFields where
  hypothesis : String
  sampleDefinition : String
  features : List String
  labels : List String
  trainValidationTest : String
  exclusions : List String
  costsSlippage : String
  statisticalTests : List String
  metrics : List String
  stoppingRules : List String
  multipleTestingPolicy : String
  replicationPolicy : String
deriving DecidableEq

def PlanFields.required (plan : PlanFields) : List (String × String) := [
  ("hypothesis", plan.hypothesis),
  ("sample_definition", plan.sampleDefinition),
  ("train_validation_test", plan.trainValidationTest),
  ("costs_slippage", plan.costsSlippage),
  ("multiple_testing_policy", plan.multipleTestingPolicy),
  ("replication_policy", plan.replicationPolicy)]

def PlanFields.postInit (plan : PlanFields) : Except Exc Unit := do
  plan.required.forM fun e ↦
    require (strip e.2 ≠ "") (.other ("ResearchPlan." ++ e.1 ++ " is required"))
  require (plan.features ≠ []) (.other "ResearchPlan.features must not be empty")
  require (plan.metrics ≠ []) (.other "ResearchPlan.metrics must not be empty")

/-- `ResearchPlan`: a frozen object that has passed `__post_init__`. -/
structure ResearchPlan extends PlanFields where
  checked : toPlanFields.postInit = .ok ()
deriving DecidableEq

namespace ResearchPlan

/-- The constructor. -/
def ofFields (fields : PlanFields) : Except Exc ResearchPlan :=
  match h : fields.postInit with
  | .ok () => .ok ⟨fields, h⟩
  | .error e => .error e

/-- `to_dict`. -/
def toJson (F : Type) (plan : ResearchPlan) : Json F :=
  let strings (xs : List String) : Json F := .list (xs.map .str)
  .dict [
    ("hypothesis", .str plan.hypothesis),
    ("sample_definition", .str plan.sampleDefinition),
    ("features", strings plan.features),
    ("labels", strings plan.labels),
    ("train_validation_test", .str plan.trainValidationTest),
    ("exclusions", strings plan.exclusions),
    ("costs_slippage", .str plan.costsSlippage),
    ("statistical_tests", strings plan.statisticalTests),
    ("metrics", strings plan.metrics),
    ("stopping_rules", strings plan.stoppingRules),
    ("multiple_testing_policy", .str plan.multipleTestingPolicy),
    ("replication_policy", .str plan.replicationPolicy)]

section Hash

variable (F : Type) [FloatText F]

/-- `canonical` of `content_hash`. -/
def canonical (plan : ResearchPlan) : List Char := (plan.toJson F).sortKeys.text .default

def contentHash [Hashlib] (plan : ResearchPlan) : String := (sha256 (plan.canonical F)).text

end Hash

theorem ofFields_toPlanFields (plan : ResearchPlan) : ofFields plan.toPlanFields = .ok plan := by
  obtain ⟨fields, hchecked⟩ := plan
  unfold ofFields
  split
  · rfl
  · rename_i e herror
    exact absurd (hchecked.symm.trans herror) (by simp)

theorem sortKeys_toJson {F : Type} (plan : ResearchPlan) : (plan.toJson F).sortKeys = .dict [
    ("costs_slippage", .str plan.costsSlippage),
    ("exclusions", .list (plan.exclusions.map .str)),
    ("features", .list (plan.features.map .str)),
    ("hypothesis", .str plan.hypothesis),
    ("labels", .list (plan.labels.map .str)),
    ("metrics", .list (plan.metrics.map .str)),
    ("multiple_testing_policy", .str plan.multipleTestingPolicy),
    ("replication_policy", .str plan.replicationPolicy),
    ("sample_definition", .str plan.sampleDefinition),
    ("statistical_tests", .list (plan.statisticalTests.map .str)),
    ("stopping_rules", .list (plan.stoppingRules.map .str)),
    ("train_validation_test", .str plan.trainValidationTest)] := by
  show Json.dict (sortEntries (Json.sortValues _)) = _
  simp only [Json.sortValues_eq_map, List.map_cons, List.map_nil]
  simp [sortEntries, List.insertionSort, List.orderedInsert, Json.sortKeys, Json.sortItems_eq_map]

theorem canonical_injective {F : Type} [FloatText F] [LawfulFloatText F] :
    Function.Injective (canonical F) := by
  intro plan plan' h
  have hreads (plan : ResearchPlan) : (plan.toJson F).sortKeys.ReadsBack := by
    rw [sortKeys_toJson]
    refine Json.readsBack_dict ?_ ?_
    · simp
    · simp only [List.forall_mem_cons, Json.readsBack_str, Json.readsBack_strings, true_and]
      exact fun _ he ↦ absurd he List.not_mem_nil
  have hjson := Json.ReadsBack.eq_of_text_eq Separators.plain_default (hreads plan) (hreads plan') h
  rw [sortKeys_toJson, sortKeys_toJson] at hjson
  have hstrings : Function.Injective (List.map (Json.str (F := F))) :=
    List.map_injective_iff.mpr fun _ _ ↦ Json.str.inj
  obtain ⟨⟨⟩, _⟩ := plan
  obtain ⟨⟨⟩, _⟩ := plan'
  simp only [Json.dict.injEq, Json.list.injEq, Json.str.injEq, List.cons.injEq, Prod.mk.injEq,
    true_and, and_true, hstrings.eq_iff] at hjson
  simp only [mk.injEq, PlanFields.mk.injEq]
  tauto

/-- The entries of `to_dict()`; `none` for one that is missing. -/
structure Dict where
  hypothesis : String
  sampleDefinition : String
  features : Option (List String) := none
  labels : Option (List String) := none
  trainValidationTest : String
  exclusions : Option (List String) := none
  costsSlippage : String
  statisticalTests : Option (List String) := none
  metrics : Option (List String) := none
  stoppingRules : Option (List String) := none
  multipleTestingPolicy : String
  replicationPolicy : String

def toDict (plan : ResearchPlan) : Dict where
  hypothesis := plan.hypothesis
  sampleDefinition := plan.sampleDefinition
  features := plan.features
  labels := plan.labels
  trainValidationTest := plan.trainValidationTest
  exclusions := plan.exclusions
  costsSlippage := plan.costsSlippage
  statisticalTests := plan.statisticalTests
  metrics := plan.metrics
  stoppingRules := plan.stoppingRules
  multipleTestingPolicy := plan.multipleTestingPolicy
  replicationPolicy := plan.replicationPolicy

def fromDict (data : Dict) : Except Exc ResearchPlan :=
  ofFields {
    hypothesis := data.hypothesis
    sampleDefinition := data.sampleDefinition
    features := data.features.getD []
    labels := data.labels.getD []
    trainValidationTest := data.trainValidationTest
    exclusions := data.exclusions.getD []
    costsSlippage := data.costsSlippage
    statisticalTests := data.statisticalTests.getD []
    metrics := data.metrics.getD []
    stoppingRules := data.stoppingRules.getD []
    multipleTestingPolicy := data.multipleTestingPolicy
    replicationPolicy := data.replicationPolicy }

theorem fromDict_toDict (plan : ResearchPlan) : fromDict plan.toDict = .ok plan :=
  ofFields_toPlanFields plan

end ResearchPlan

/-! ## Claims with their plan -/

def ResearchClaimType.ofValue (value : String) : Except Exc ResearchClaimType :=
  found ([.empirical, .causal, .predictive, .descriptive, .robustness].find? fun t ↦ t.value = value)
    (.other (value ++ " is not a valid ResearchClaimType"))

def EvidenceState.ofValue (value : String) : Except Exc EvidenceState :=
  found ([.untested, .tested, .inconclusive, .contradicted, .candidate, .robustness, .replication,
    .supported, .rejected].find? fun s ↦ s.value = value)
    (.other (value ++ " is not a valid EvidenceState"))

theorem ResearchClaimType.ofValue_value (t : ResearchClaimType) : ofValue t.value = .ok t := by
  cases t <;> rfl

theorem EvidenceState.ofValue_value (s : EvidenceState) : ofValue s.value = .ok s := by
  cases s <;> rfl

structure PlannedClaim extends ResearchClaim where
  researchPlan : Option ResearchPlan
  planLockActive : Bool

/-- A value for one of `_SEMANTIC_FIELDS`. -/
inductive Assignment where
  | statement (value : String)
  | claimType (value : ResearchClaimType)
  | targetPopulation (value : String)
  | instrument (value : String)
  | horizon (value : String)
  | timestampPolicy (value : String)
  | economicRationale (value : String)
  | falsificationConditions (value : List String)
  | primaryMetrics (value : List String)
  | minimumEvidenceRequirements (value : List String)
  | creator (value : String)
  | workspaceId (value : String)
  | researchId (value : Option String)
  | version (value : Int)
  | parentClaimId (value : Option String)
  | researchPlan (value : Option ResearchPlan)
  | planHash (value : Option String)

def Assignment.name : Assignment → String
  | .statement _ => "statement"
  | .claimType _ => "claim_type"
  | .targetPopulation _ => "target_population"
  | .instrument _ => "instrument"
  | .horizon _ => "horizon"
  | .timestampPolicy _ => "timestamp_policy"
  | .economicRationale _ => "economic_rationale"
  | .falsificationConditions _ => "falsification_conditions"
  | .primaryMetrics _ => "primary_metrics"
  | .minimumEvidenceRequirements _ => "minimum_evidence_requirements"
  | .creator _ => "creator"
  | .workspaceId _ => "workspace_id"
  | .researchId _ => "research_id"
  | .version _ => "version"
  | .parentClaimId _ => "parent_claim_id"
  | .researchPlan _ => "research_plan"
  | .planHash _ => "plan_hash"

/-- `object.__setattr__`. -/
def Assignment.apply (claim : PlannedClaim) : Assignment → PlannedClaim
  | .statement value => { claim with statement := value }
  | .claimType value => { claim with claimType := value }
  | .targetPopulation value => { claim with targetPopulation := value }
  | .instrument value => { claim with instrument := value }
  | .horizon value => { claim with horizon := value }
  | .timestampPolicy value => { claim with timestampPolicy := value }
  | .economicRationale value => { claim with economicRationale := value }
  | .falsificationConditions value => { claim with falsificationConditions := value }
  | .primaryMetrics value => { claim with primaryMetrics := value }
  | .minimumEvidenceRequirements value => { claim with minimumEvidenceRequirements := value }
  | .creator value => { claim with creator := value }
  | .workspaceId value => { claim with workspaceId := value }
  | .researchId value => { claim with researchId := value }
  | .version value => { claim with version := value }
  | .parentClaimId value => { claim with parentClaimId := value }
  | .researchPlan value => { claim with researchPlan := value }
  | .planHash value => { claim with planHash := value }

/-- The entries of `to_dict()` that `from_dict` reads; `none` for one that is missing. -/
structure ClaimDict where
  id : String
  ontologyTags : Option (List String) := none
  statement : String
  claimType : Option String := none
  targetPopulation : Option String := none
  instrument : Option String := none
  horizon : Option String := none
  timestampPolicy : Option String := none
  economicRationale : Option String := none
  falsificationConditions : Option (List String) := none
  primaryMetrics : Option (List String) := none
  minimumEvidenceRequirements : Option (List String) := none
  creator : Option String := none
  workspaceId : Option String := none
  researchId : Option String := none
  version : Option Int := none
  parentClaimId : Option String := none
  evidenceState : Option String := none
  researchPlan : Option ResearchPlan.Dict := none
  planLockedAt : Option String := none
  planHash : Option String := none
  experimentIds : Option (List String) := none
  evidenceHashes : Option (List String) := none

namespace PlannedClaim

/-- The arguments of the constructor; `id` is the one given or generated. -/
structure Args where
  statement : String
  claimType : String := "empirical"
  targetPopulation : String := ""
  instrument : String := ""
  horizon : String := ""
  timestampPolicy : String := ""
  economicRationale : String := ""
  falsificationConditions : List String := []
  primaryMetrics : List String := []
  minimumEvidenceRequirements : List String := []
  creator : String := ""
  workspaceId : String := ""
  researchId : Option String := none
  ontologyTags : List String := []
  id : String
  version : Int := 1
  parentClaimId : Option String := none

/-- The constructor. -/
def new (args : Args) : Except Exc PlannedClaim := do
  require (strip args.statement ≠ "") (.other "ResearchClaim.statement is required")
  require (1 ≤ args.version) (.other "ResearchClaim.version must be >= 1")
  require (¬ (args.version = 1 ∧ args.parentClaimId ≠ none))
    (.other "version 1 cannot have parent_claim_id")
  require (¬ (1 < args.version ∧ args.parentClaimId.getD "" = ""))
    (.other "version > 1 requires parent_claim_id")
  let claimType ← ResearchClaimType.ofValue args.claimType
  return {
    id := args.id
    statement := strip args.statement
    claimType := claimType
    targetPopulation := strip args.targetPopulation
    instrument := strip args.instrument
    horizon := strip args.horizon
    timestampPolicy := strip args.timestampPolicy
    economicRationale := strip args.economicRationale
    falsificationConditions := args.falsificationConditions
    primaryMetrics := args.primaryMetrics
    minimumEvidenceRequirements := args.minimumEvidenceRequirements
    creator := strip args.creator
    workspaceId := strip args.workspaceId
    researchId := args.researchId
    version := args.version
    parentClaimId := args.parentClaimId
    evidenceState := .untested
    planLockedAt := none
    planHash := none
    experimentIds := []
    evidenceHashes := []
    ontologyTags := args.ontologyTags
    researchPlan := none
    planLockActive := false }

variable (claim : PlannedClaim)

/-- `__setattr__` of a semantic field. -/
def setattr (assignment : Assignment) : Except Exc PlannedClaim := do
  require (claim.planLockActive = false) (.other ("ResearchClaim." ++ assignment.name ++
    " is immutable after plan lock; fork a new claim version"))
  return assignment.apply claim

def lockPlan (F : Type) [FloatText F] [Hashlib] (now : Utc) (plan : ResearchPlan) :
    Except Exc (String × PlannedClaim) := do
  if claim.IsPlanLocked then
    require (claim.planHash = some (plan.contentHash F))
      (.other "Research plan is already locked and cannot be replaced")
    return (plan.contentHash F, claim)
  else
    let planned ← claim.setattr (.researchPlan plan)
    let hashed ← planned.setattr (.planHash (plan.contentHash F))
    let lockedAt := String.ofList (Datetime.isoChars ⟨now, some 0⟩)
    return (plan.contentHash F, { hashed with planLockedAt := lockedAt, planLockActive := true })

def addExperiment (experimentId : String) : Except Exc PlannedClaim := do
  require (strip experimentId ≠ "") (.other "experiment_id is required")
  if experimentId ∉ claim.experimentIds then
    return { claim with experimentIds := claim.experimentIds ++ [experimentId] }
  else
    return claim

def addEvidence (evidenceHash : String) : Except Exc PlannedClaim := do
  return { claim with toResearchClaim := ← claim.toResearchClaim.addEvidence evidenceHash }

def setEvidenceState (state : String) : Except Exc PlannedClaim := do
  return { claim with evidenceState := ← EvidenceState.ofValue state }

def clone : PlannedClaim := claim

def toDict : ClaimDict where
  id := claim.id
  ontologyTags := claim.ontologyTags
  statement := claim.statement
  claimType := claim.claimType.value
  targetPopulation := claim.targetPopulation
  instrument := claim.instrument
  horizon := claim.horizon
  timestampPolicy := claim.timestampPolicy
  economicRationale := claim.economicRationale
  falsificationConditions := claim.falsificationConditions
  primaryMetrics := claim.primaryMetrics
  minimumEvidenceRequirements := claim.minimumEvidenceRequirements
  creator := claim.creator
  workspaceId := claim.workspaceId
  researchId := claim.researchId
  version := claim.version
  parentClaimId := claim.parentClaimId
  evidenceState := claim.evidenceState.value
  researchPlan := claim.researchPlan.map ResearchPlan.toDict
  planLockedAt := claim.planLockedAt
  planHash := claim.planHash
  experimentIds := claim.experimentIds
  evidenceHashes := claim.evidenceHashes

def parseLockedAt : Option String → Except Exc (Option String)
  | none => .ok none
  | some lockedAt => do
    if lockedAt = "" then return none
    else
      let t ← found (parseTimestamp lockedAt) (.other "Invalid isoformat string")
      return some (String.ofList t.isoChars)

def fromDict (data : ClaimDict) : Except Exc PlannedClaim := do
  let claimType ← ResearchClaimType.ofValue (data.claimType.getD ResearchClaimType.empirical.value)
  let evidenceState ← EvidenceState.ofValue (data.evidenceState.getD EvidenceState.untested.value)
  let researchPlan ← data.researchPlan.mapM ResearchPlan.fromDict
  let planLockedAt ← parseLockedAt data.planLockedAt
  return {
    id := data.id
    statement := data.statement
    claimType := claimType
    targetPopulation := data.targetPopulation.getD ""
    instrument := data.instrument.getD ""
    horizon := data.horizon.getD ""
    timestampPolicy := data.timestampPolicy.getD ""
    economicRationale := data.economicRationale.getD ""
    falsificationConditions := data.falsificationConditions.getD []
    primaryMetrics := data.primaryMetrics.getD []
    minimumEvidenceRequirements := data.minimumEvidenceRequirements.getD []
    creator := data.creator.getD ""
    workspaceId := data.workspaceId.getD ""
    researchId := data.researchId
    version := data.version.getD 1
    parentClaimId := data.parentClaimId
    evidenceState := evidenceState
    planLockedAt := planLockedAt
    planHash := data.planHash
    experimentIds := data.experimentIds.getD []
    evidenceHashes := data.evidenceHashes.getD []
    ontologyTags := data.ontologyTags.getD []
    researchPlan := researchPlan
    planLockActive := planLockedAt.isSome }

end PlannedClaim

inductive ClaimOperation where
  | assign (assignment : Assignment)
  | lockPlan (now : Utc) (plan : ResearchPlan)
  | addExperiment (experimentId : String)
  | addEvidence (evidenceHash : String)
  | setEvidenceState (state : String)
  | clone
  | reload

section Operations

variable (F : Type) [FloatText F] [Hashlib]

/-- What an operation returns, and the claim that it leaves or makes. -/
def ClaimOperation.run (claim : PlannedClaim) :
    ClaimOperation → Except Exc (Option String × PlannedClaim)
  | .assign assignment => (claim.setattr assignment).map (none, ·)
  | .lockPlan now plan => (claim.lockPlan F now plan).map fun r ↦ (some r.1, r.2)
  | .addExperiment experimentId => (claim.addExperiment experimentId).map (none, ·)
  | .addEvidence evidenceHash => (claim.addEvidence evidenceHash).map (none, ·)
  | .setEvidenceState state => (claim.setEvidenceState state).map (none, ·)
  | .clone => .ok (none, claim.clone)
  | .reload => (PlannedClaim.fromDict claim.toDict).map (none, ·)

/-- A claim under the operations; one that raises leaves it as it is. -/
def plannedClaim (start : PlannedClaim) :
    Machine PlannedClaim ClaimOperation (Except Exc (Option String)) where
  init := start
  step operation claim :=
    match operation.run F claim with
    | .ok (value, claim') => (.ok value, claim')
    | .error e => (.error e, claim)

end Operations

/-! ## Locked claims -/

namespace PlannedClaim

/-- The time is the text of one in UTC. -/
def Timed (lockedAt : String) : Prop :=
  ∃ now : Utc, lockedAt = String.ofList (Datetime.isoChars ⟨now, some 0⟩)

def withoutEvidence (claim : PlannedClaim) : PlannedClaim :=
  { claim with evidenceState := .untested, experimentIds := [], evidenceHashes := [] }

variable {claim claim' : PlannedClaim}

theorem withoutEvidence_addExperiment {experimentId : String}
    (h : claim.addExperiment experimentId = .ok claim') :
    claim'.withoutEvidence = claim.withoutEvidence := by
  obtain ⟨_, -, h⟩ := bind_eq_ok.mp h
  split at h
  · cases h
    rfl
  · cases h
    rfl

theorem withoutEvidence_addEvidence {evidenceHash : String}
    (h : claim.addEvidence evidenceHash = .ok claim') :
    claim'.withoutEvidence = claim.withoutEvidence := by
  obtain ⟨added, hadded, h⟩ := bind_eq_ok.mp h
  obtain ⟨_, -, hadded⟩ := bind_eq_ok.mp hadded
  cases h
  split at hadded
  · cases hadded
    rfl
  · cases hadded
    rfl

theorem withoutEvidence_setEvidenceState {state : String}
    (h : claim.setEvidenceState state = .ok claim') :
    claim'.withoutEvidence = claim.withoutEvidence := by
  obtain ⟨_, -, h⟩ := bind_eq_ok.mp h
  cases h
  rfl

theorem parseLockedAt_of_timed {lockedAt : Option String} (h : ∀ s ∈ lockedAt, Timed s) :
    parseLockedAt lockedAt = .ok lockedAt := by
  cases lockedAt with
  | none => rfl
  | some s =>
    obtain ⟨now, rfl⟩ := h s rfl
    have hday : (⟨now, some 0⟩ : Datetime).OffsetInDay := by
      intro o ho
      obtain rfl : (0 : Int) = o := Option.some.inj ho
      decide
    unfold parseLockedAt
    dsimp only
    rw [if_neg (isoChars_ne_nil _), parseTimestamp_isoChars rfl hday]
    rfl

section Locks

variable (F : Type) [FloatText F] [Hashlib]

def locked (claim : PlannedClaim) (now : Utc) (plan : ResearchPlan) : PlannedClaim :=
  { claim with
    researchPlan := plan
    planHash := plan.contentHash F
    planLockedAt := String.ofList (Datetime.isoChars ⟨now, some 0⟩)
    planLockActive := true }

/-- What an operation that does not raise makes of a claim. -/
inductive Changes (claim : PlannedClaim) : PlannedClaim → Prop where
  | evidence {claim' : PlannedClaim} (h : claim'.withoutEvidence = claim.withoutEvidence) :
    Changes claim claim'
  | assign (hopen : ¬ claim.IsPlanLocked) (assignment : Assignment) :
    Changes claim (assignment.apply claim)
  | lock (hopen : ¬ claim.IsPlanLocked) (now : Utc) (plan : ResearchPlan) :
    Changes claim (claim.locked F now plan)

structure Consistent (claim : PlannedClaim) : Prop where
  active : claim.planLockActive = claim.planLockedAt.isSome
  timed : ∀ lockedAt ∈ claim.planLockedAt, Timed lockedAt
  hashed : claim.IsPlanLocked → ∃ plan, claim.researchPlan = some plan ∧
    claim.planHash = some (plan.contentHash F)

variable {F}

theorem Consistent.of_withoutEvidence (h : claim.Consistent F)
    (hsame : claim'.withoutEvidence = claim.withoutEvidence) : claim'.Consistent F := by
  have hfield {α : Type} (f : PlannedClaim → α) :
      f claim'.withoutEvidence = f claim.withoutEvidence := congrArg f hsame
  have hactive : claim'.planLockActive = claim.planLockActive := hfield planLockActive
  have hlockedAt : claim'.planLockedAt = claim.planLockedAt := hfield fun c ↦ c.planLockedAt
  have hplan : claim'.researchPlan = claim.researchPlan := hfield researchPlan
  have hhash : claim'.planHash = claim.planHash := hfield fun c ↦ c.planHash
  constructor
  · rw [hactive, hlockedAt]
    exact h.active
  · rw [hlockedAt]
    exact h.timed
  · unfold ResearchClaim.IsPlanLocked
    rw [hlockedAt, hplan, hhash]
    exact h.hashed

/-- **A stored claim** is loaded as it was. -/
theorem Consistent.fromDict_toDict (h : claim.Consistent F) :
    fromDict claim.toDict = .ok claim := by
  have hplan : (claim.researchPlan.map ResearchPlan.toDict).mapM ResearchPlan.fromDict =
      .ok claim.researchPlan := by
    cases claim.researchPlan with
    | none => rfl
    | some plan =>
      change ResearchPlan.fromDict plan.toDict >>= _ = _
      rw [ResearchPlan.fromDict_toDict]
      rfl
  have hlockedAt := parseLockedAt_of_timed h.timed
  have hactive := h.active
  unfold fromDict toDict
  simp only [Option.getD_some, ResearchClaimType.ofValue_value, EvidenceState.ofValue_value, hplan,
    hlockedAt]
  change Except.ok { claim with planLockActive := claim.planLockedAt.isSome } = _
  rw [← hactive]

theorem Consistent.setattr_eq_ok (h : claim.Consistent F) {assignment : Assignment} :
    claim.setattr assignment = .ok claim' ↔
      ¬ claim.IsPlanLocked ∧ claim' = assignment.apply claim := by
  unfold setattr
  rw [bind_eq_ok]
  have hactive : claim.planLockActive = false ↔ ¬ claim.IsPlanLocked := by
    unfold ResearchClaim.IsPlanLocked
    rw [h.active, Option.isSome_eq_false_iff, Option.isNone_iff_eq_none, ne_eq, not_not]
  constructor
  · rintro ⟨_, hrequire, hok⟩
    exact ⟨hactive.mp (require_eq_ok.mp hrequire), (Except.ok.inj hok).symm⟩
  · rintro ⟨hopen, rfl⟩
    exact ⟨(), require_eq_ok.mpr (hactive.mpr hopen), rfl⟩

theorem Consistent.lockPlan_eq_ok (h : claim.Consistent F) {now : Utc} {plan : ResearchPlan}
    {hash : String} (hlock : claim.lockPlan F now plan = .ok (hash, claim')) :
    hash = plan.contentHash F ∧
      (claim.IsPlanLocked ∧ claim.planHash = some hash ∧ claim' = claim ∨
        ¬ claim.IsPlanLocked ∧ claim' = claim.locked F now plan) := by
  unfold lockPlan at hlock
  split at hlock
  · rename_i hlocked
    obtain ⟨_, hrequire, hok⟩ := bind_eq_ok.mp hlock
    obtain ⟨rfl, rfl⟩ := Prod.mk.inj (Except.ok.inj hok)
    exact ⟨rfl, .inl ⟨hlocked, require_eq_ok.mp hrequire, rfl⟩⟩
  · rename_i hopen
    obtain ⟨planned, hplanned, hlock⟩ := bind_eq_ok.mp hlock
    obtain ⟨hashed, hhashed, hok⟩ := bind_eq_ok.mp hlock
    obtain ⟨-, rfl⟩ := h.setattr_eq_ok.mp hplanned
    obtain ⟨_, -, hhashed⟩ := bind_eq_ok.mp hhashed
    cases hhashed
    obtain ⟨rfl, rfl⟩ := Prod.mk.inj (Except.ok.inj hok)
    exact ⟨rfl, .inr ⟨hopen, rfl⟩⟩

/-- **Steps**: an operation only changes the evidence, or the claim is open and gets a field or its
lock. -/
theorem Consistent.changes (h : claim.Consistent F) {operation : ClaimOperation}
    {value : Option String} (hrun : operation.run F claim = .ok (value, claim')) :
    claim.Changes F claim' := by
  cases operation with
  | assign assignment =>
    obtain ⟨assigned, hassigned, heq⟩ := map_eq_ok.mp hrun
    obtain ⟨-, rfl⟩ := Prod.mk.inj heq
    obtain ⟨hopen, rfl⟩ := h.setattr_eq_ok.mp hassigned
    exact .assign hopen assignment
  | lockPlan now plan =>
    obtain ⟨⟨hash, locked⟩, hlocked, heq⟩ := map_eq_ok.mp hrun
    obtain ⟨-, rfl⟩ := Prod.mk.inj heq
    obtain ⟨-, ⟨-, -, rfl⟩ | ⟨hopen, rfl⟩⟩ := h.lockPlan_eq_ok hlocked
    · exact .evidence rfl
    · exact .lock hopen now plan
  | addExperiment experimentId =>
    obtain ⟨added, hadded, heq⟩ := map_eq_ok.mp hrun
    obtain ⟨-, rfl⟩ := Prod.mk.inj heq
    exact .evidence (withoutEvidence_addExperiment hadded)
  | addEvidence evidenceHash =>
    obtain ⟨added, hadded, heq⟩ := map_eq_ok.mp hrun
    obtain ⟨-, rfl⟩ := Prod.mk.inj heq
    exact .evidence (withoutEvidence_addEvidence hadded)
  | setEvidenceState state =>
    obtain ⟨set, hset, heq⟩ := map_eq_ok.mp hrun
    obtain ⟨-, rfl⟩ := Prod.mk.inj heq
    exact .evidence (withoutEvidence_setEvidenceState hset)
  | clone =>
    obtain ⟨-, rfl⟩ := Prod.mk.inj (Except.ok.inj hrun)
    exact .evidence rfl
  | reload =>
    obtain ⟨loaded, hloaded, heq⟩ := map_eq_ok.mp hrun
    obtain ⟨-, rfl⟩ := Prod.mk.inj heq
    obtain rfl := Except.ok.inj (hloaded.symm.trans h.fromDict_toDict)
    exact .evidence rfl

theorem Consistent.of_changes (h : claim.Consistent F) (hchanges : claim.Changes F claim') :
    claim'.Consistent F := by
  cases hchanges with
  | evidence hsame => exact h.of_withoutEvidence hsame
  | assign hopen assignment =>
    have hlock : (assignment.apply claim).planLockActive = claim.planLockActive ∧
        (assignment.apply claim).planLockedAt = claim.planLockedAt := by
      cases assignment <;> exact ⟨rfl, rfl⟩
    obtain ⟨hactive, hlockedAt⟩ := hlock
    constructor
    · rw [hactive, hlockedAt]
      exact h.active
    · rw [hlockedAt]
      exact h.timed
    · unfold ResearchClaim.IsPlanLocked
      rw [hlockedAt]
      exact fun hlocked ↦ absurd hlocked hopen
  | lock hopen now plan =>
    refine ⟨rfl, ?_, fun _ ↦ ⟨plan, rfl, rfl⟩⟩
    intro lockedAt hlockedAt
    obtain rfl := Option.some.inj hlockedAt
    exact ⟨now, rfl⟩

theorem Consistent.refuses_assignment (h : claim.Consistent F) (hlocked : claim.IsPlanLocked)
    (assignment : Assignment) : claim.setattr assignment = .error (.other ("ResearchClaim." ++
      assignment.name ++ " is immutable after plan lock; fork a new claim version")) := by
  have hactive : ¬ claim.planLockActive = false := by
    rw [h.active, Option.isSome_eq_false_iff, Option.isNone_iff_eq_none]
    exact hlocked
  unfold setattr
  rw [require, if_neg hactive]
  rfl

theorem Consistent.refuses_plan (h : claim.Consistent F) (hlocked : claim.IsPlanLocked)
    {stored plan : ResearchPlan} (hstored : claim.researchPlan = some stored)
    (hne : plan.contentHash F ≠ stored.contentHash F) (now : Utc) :
    claim.lockPlan F now plan =
      .error (.other "Research plan is already locked and cannot be replaced") := by
  obtain ⟨stored', hstored', hhash⟩ := h.hashed hlocked
  obtain rfl := Option.some.inj (hstored.symm.trans hstored')
  have hother : ¬ claim.planHash = some (plan.contentHash F) := by
    rw [hhash]
    exact fun heq ↦ hne (Option.some.inj heq).symm
  unfold lockPlan
  rw [if_pos hlocked, require, if_neg hother]
  rfl

end Locks

end PlannedClaim

/-! ## Runs -/

section

open PlannedClaim

variable {F : Type} [FloatText F] [Hashlib] {start : PlannedClaim}

variable {claim : PlannedClaim}

theorem changes_step (h : claim.Consistent F) (operation : ClaimOperation) :
    claim.Changes F ((plannedClaim F start).step operation claim).2 := by
  unfold plannedClaim
  dsimp only
  split
  · rename_i hrun
    exact h.changes hrun
  · exact .evidence rfl

theorem step_of_error {operation : ClaimOperation} {e : Exc}
    (h : operation.run F claim = .error e) :
    (plannedClaim F start).step operation claim = (.error e, claim) := by
  unfold plannedClaim
  dsimp only
  rw [h]

theorem consistent_after (hstart : start.Consistent F) (operations : List ClaimOperation) :
    ((plannedClaim F start).after operations).Consistent F :=
  (plannedClaim F start).after_stable (fun claim ↦ claim.Consistent F)
    (fun operation _ h ↦ h.of_changes (changes_step h operation))
    (List.nil_prefix (l := operations)) hstart

theorem consistent_new {args : Args} (h : PlannedClaim.new args = .ok start) :
    start.Consistent F := by
  obtain ⟨_, -, h⟩ := bind_eq_ok.mp h
  obtain ⟨_, -, h⟩ := bind_eq_ok.mp h
  obtain ⟨_, -, h⟩ := bind_eq_ok.mp h
  obtain ⟨_, -, h⟩ := bind_eq_ok.mp h
  obtain ⟨claimType, -, h⟩ := bind_eq_ok.mp h
  obtain rfl := Except.ok.inj h
  exact ⟨rfl, fun _ hlockedAt ↦ absurd hlockedAt (Option.not_mem_none _),
    fun hlocked ↦ absurd rfl hlocked⟩

omit [Hashlib] in
theorem isPlanLocked_congr {claim claim' : PlannedClaim}
    (h : claim'.withoutEvidence = claim.withoutEvidence) :
    claim'.IsPlanLocked ↔ claim.IsPlanLocked := by
  change claim'.withoutEvidence.planLockedAt ≠ none ↔ claim.withoutEvidence.planLockedAt ≠ none
  rw [h]

theorem withoutEvidence_after (hstart : start.Consistent F)
    {before operations : List ClaimOperation}
    (hbefore : before <+: operations)
    (hlocked : ((plannedClaim F start).after before).IsPlanLocked) :
    ((plannedClaim F start).after operations).withoutEvidence =
      ((plannedClaim F start).after before).withoutEvidence := by
  refine ((plannedClaim F start).after_stable (fun claim ↦ claim.Consistent F ∧
    claim.withoutEvidence = ((plannedClaim F start).after before).withoutEvidence) ?_ hbefore
      ⟨consistent_after hstart before, rfl⟩).2
  rintro operation claim ⟨h, hsame⟩
  have hopen : ¬ ¬ claim.IsPlanLocked := not_not_intro ((isPlanLocked_congr hsame).mpr hlocked)
  have hchanges : claim.Changes F ((plannedClaim F start).step operation claim).2 :=
    changes_step h operation
  refine ⟨h.of_changes hchanges, ?_⟩
  generalize ((plannedClaim F start).step operation claim).2 = claim' at hchanges ⊢
  cases hchanges with
  | evidence hstep => exact hstep.trans hsame
  | assign h => exact absurd h hopen
  | lock h => exact absurd h hopen

theorem isPlanLocked_of_step (h : claim.Consistent F) {now : Utc} {plan : ResearchPlan}
    {value : Option String}
    (hlock : ((plannedClaim F start).step (.lockPlan now plan) claim).1 = .ok value) :
    ((plannedClaim F start).step (.lockPlan now plan) claim).2.IsPlanLocked ∧
      ((plannedClaim F start).step (.lockPlan now plan) claim).2.planHash =
        some (plan.contentHash F) := by
  unfold plannedClaim at hlock ⊢
  dsimp only at hlock ⊢
  split at hlock
  · rename_i claim' hrun
    obtain ⟨⟨hash, locked⟩, hlocked, heq⟩ := map_eq_ok.mp hrun
    obtain ⟨-, rfl⟩ := Prod.mk.inj heq
    obtain ⟨rfl, ⟨hlocked, hhash, rfl⟩ | ⟨-, rfl⟩⟩ := h.lockPlan_eq_ok hlocked
    · exact ⟨hlocked, hhash⟩
    · exact ⟨Option.some_ne_none _, rfl⟩
  · cases hlock

/-- A claim after a successful lock, that is `locked`, and more operations. -/
structure KeepsPlan (F : Type) [FloatText F] [Hashlib] (start locked claim : PlannedClaim)
    (plan : ResearchPlan) : Prop where
  isLocked : claim.IsPlanLocked
  kept : claim.withoutEvidence = locked.withoutEvidence
  planHash : claim.planHash = some (plan.contentHash F)
  stored : ∃ stored, claim.researchPlan = some stored ∧
    stored.contentHash F = plan.contentHash F
  assignment : ∀ assignment, ∃ e,
    (plannedClaim F start).step (.assign assignment) claim = (.error e, claim)
  otherPlan : ∀ stored ∈ claim.researchPlan, ∀ now other, other ≠ stored →
    (sha256 (other.canonical F) = sha256 (stored.canonical F) →
      other.canonical F = stored.canonical F) → ∃ e,
        (plannedClaim F start).step (.lockPlan now other) claim = (.error e, claim)

variable [LawfulFloatText F]

theorem keepsPlan_after (hstart : start.Consistent F) {before later : List ClaimOperation}
    {now : Utc}
    {plan : ResearchPlan} {value : Option String}
    (hlock : ((plannedClaim F start).step (.lockPlan now plan)
      ((plannedClaim F start).after before)).1 = .ok value) :
    KeepsPlan F start ((plannedClaim F start).after (before ++ [.lockPlan now plan]))
      ((plannedClaim F start).after (before ++ .lockPlan now plan :: later)) plan := by
  obtain ⟨hlocked, hhash⟩ := isPlanLocked_of_step (consistent_after hstart before) hlock
  rw [← Machine.after_concat] at hlocked hhash
  have hfirst : before ++ [.lockPlan now plan] <+: before ++ .lockPlan now plan :: later :=
    ⟨later, by simp⟩
  have hkept := withoutEvidence_after hstart hfirst hlocked
  have h := consistent_after hstart (before ++ .lockPlan now plan :: later)
  generalize (plannedClaim F start).after (before ++ .lockPlan now plan :: later) = claim at hkept h ⊢
  have hclaim : claim.IsPlanLocked := (isPlanLocked_congr hkept).mpr hlocked
  have hplanHash : claim.planHash = some (plan.contentHash F) := by
    have hsame : claim.withoutEvidence.planHash = _ :=
      congrArg (fun c : PlannedClaim ↦ c.planHash) hkept
    exact hsame.trans hhash
  refine ⟨hclaim, hkept, hplanHash, ?_, ?_, ?_⟩
  · obtain ⟨stored, hstored, hstoredHash⟩ := h.hashed hclaim
    exact ⟨stored, hstored, Option.some.inj (hstoredHash.symm.trans hplanHash)⟩
  · intro assignment
    have hrefused := h.refuses_assignment hclaim assignment
    exact ⟨_, step_of_error (congrArg (Except.map (none, ·)) hrefused)⟩
  · intro stored hstored now' other hother hsha
    have hne : other.contentHash F ≠ stored.contentHash F := fun heq ↦
      hother (ResearchPlan.canonical_injective (hsha (HexDigest.text_injective heq)))
    have hrefused := h.refuses_plan hclaim hstored hne now'
    exact ⟨_, step_of_error (congrArg
      (Except.map fun r : String × PlannedClaim ↦ (some r.1, r.2)) hrefused)⟩

/-- **Plan locks.**  At every point of every run a stored claim is loaded as it was; and from a
successful lock on only the evidence changes, and other plans and assignments are refused. -/
theorem locked_plan_kept {args : Args} (hnew : PlannedClaim.new args = .ok start)
    (operations : List ClaimOperation) :
    PlannedClaim.fromDict ((plannedClaim F start).after operations).toDict =
        .ok ((plannedClaim F start).after operations) ∧
      ∀ before now plan later value, operations = before ++ .lockPlan now plan :: later →
        ((plannedClaim F start).step (.lockPlan now plan)
          ((plannedClaim F start).after before)).1 = .ok value →
        KeepsPlan F start ((plannedClaim F start).after (before ++ [.lockPlan now plan]))
          ((plannedClaim F start).after operations) plan := by
  have hstart : start.Consistent F := consistent_new hnew
  refine ⟨(consistent_after hstart operations).fromDict_toDict, ?_⟩
  rintro before now plan later value rfl hlock
  exact keepsPlan_after hstart hlock

end

/-- A plan with one feature and one metric. -/
def momentumPlan : ResearchPlan where
  hypothesis := "momentum"
  sampleDefinition := "2020"
  features := ["return"]
  labels := []
  trainValidationTest := "60/20/20"
  exclusions := []
  costsSlippage := "none"
  statisticalTests := []
  metrics := ["sharpe"]
  stoppingRules := []
  multipleTestingPolicy := "none"
  replicationPolicy := "none"
  checked := by decide

/-- The claim that the constructor makes of a statement and an id. -/
def momentumClaim : PlannedClaim where
  id := "c1"
  statement := "momentum pays"
  claimType := .empirical
  targetPopulation := ""
  instrument := ""
  horizon := ""
  timestampPolicy := ""
  economicRationale := ""
  falsificationConditions := []
  primaryMetrics := []
  minimumEvidenceRequirements := []
  creator := ""
  workspaceId := ""
  researchId := none
  version := 1
  parentClaimId := none
  evidenceState := .untested
  planLockedAt := none
  planHash := none
  experimentIds := []
  evidenceHashes := []
  ontologyTags := []
  researchPlan := none
  planLockActive := false

theorem new_momentumClaim :
    PlannedClaim.new { statement := "momentum pays", id := "c1" } = .ok momentumClaim := rfl

theorem locked_plan_kept_sample :
    PlannedClaim.fromDict ((@plannedClaim Tenths _ approvalHash momentumClaim).after
        [.lockPlan newYear.clock momentumPlan, .clone]).toDict =
        .ok ((@plannedClaim Tenths _ approvalHash momentumClaim).after
          [.lockPlan newYear.clock momentumPlan, .clone]) ∧
      ∀ before now plan later value,
        [.lockPlan newYear.clock momentumPlan, .clone] = before ++ .lockPlan now plan :: later →
        ((@plannedClaim Tenths _ approvalHash momentumClaim).step (.lockPlan now plan)
          ((@plannedClaim Tenths _ approvalHash momentumClaim).after before)).1 = .ok value →
        @KeepsPlan Tenths _ approvalHash momentumClaim
          ((@plannedClaim Tenths _ approvalHash momentumClaim).after
            (before ++ [.lockPlan now plan]))
          ((@plannedClaim Tenths _ approvalHash momentumClaim).after
            [.lockPlan newYear.clock momentumPlan, .clone]) plan :=
  @locked_plan_kept Tenths _ approvalHash momentumClaim _ _ new_momentumClaim
    [.lockPlan newYear.clock momentumPlan, .clone]

end Qros.Claims
