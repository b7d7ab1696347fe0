import Qros.Pipeline.Records

/-!
# The operations of the pipeline

`pipeline/pipeline.py` over `MemoryRepository`.  The repository is a dictionary, and an
object fetched from it is the stored object itself: an assignment to one of its
attributes is visible in the repository at once.  So the model saves an object again
after each change that an exception could still follow.

All operations but `start_research` run through one sequence: the checks of the
`ReferenceValidator`, the constructor, a first save, the links to the research, and the
audit entry.  `Creation` is that sequence, and each operation is its own checks, object,
link and action.

What a call takes from outside is its reading of the clock and the text that `to_json`
makes of an object, or the exception it raises.  The text is only kept, in
`after_state`.
-/

namespace Qros.Pipeline

open Qros.Lib

variable {F T V : Type} [Zero F] [One F]

variable (F T V) in
/-- `MemoryRepository`, by its `_store`. -/
abbrev Repository := Dict String (Obj F T V)

variable (F T V) in
/-- What a call of an operation is answered by the clock and by `to_json`. -/
structure Call where
  now : T
  toJson : Obj F T V → Except PyError String

/-! ## Constructors -/

section

variable (host : Host F T V) (now : T)

def observation (a : ObservationArgs T V) : Record F T V where
  base := .new now (host.generateId
    (seedOf [a.source, host.isoformat a.timestamp, host.strValue a.value])) a.ontologyTags
  content := .observation a

def evidence (a : EvidenceArgs F T) : Record F T V where
  base := .entered now (host.generateId
    (seedOf ["Evidence", a.observationId, a.hypothesisId, a.interpretation])) a.ontologyTags
    .validated "Evidence quality and confidence computed"
  content := .evidence a

def interpretation (a : InterpretationArgs F) : Record F T V where
  base := .entered now (host.generateId
    (seedOf ["Interpretation", a.ruleApplied, a.conclusion, a.context])) a.ontologyTags
    .validated "Interpretation created from evidence"
  content := .interpretation a

def narrative (a : NarrativeArgs F) : Record F T V where
  base := .new now (host.generateId (seedOf ["Narrative", a.researchId, a.thesis])) a.ontologyTags
  content := .narrative a

section Checked

variable [LT F] [LE F] [DecidableLT F] [DecidableLE F]

def outOfUnit (x : F) : Bool := !(decide (0 ≤ x) && decide (x ≤ 1))

def hypothesis (a : HypothesisArgs F) : Except PyError (Record F T V) :=
  match [("evidence_strength", a.evidenceStrength), ("coherence", a.coherence),
    ("plausibility", a.plausibility), ("falsifiability", a.falsifiability)].find?
      (fun factor ↦ outOfUnit factor.2) with
  | some (name, value) =>
    .error (.valueError (name ++ " must be between 0.0 and 1.0, got " ++ host.strFloat value))
  | none => .ok
      { base := .new now (host.generateId (seedOf ["Hypothesis", a.researchId, a.type, a.statement,
          a.narrativeId, host.strList (a.evidenceIds.mergeSort fun x y ↦ decide (x ≤ y))]))
          a.ontologyTags
        content := .hypothesis a }

def scenario (a : ScenarioArgs F V) : Except PyError (Record F T V) :=
  if a.probability < 0 ∨ 1 < a.probability then
    .error (.valueError "Scenario probability must be between 0.0 and 1.0")
  else .ok
    { base := .new now (host.generateId (seedOf ["Scenario", a.hypothesisId, a.type, a.label]))
        a.ontologyTags
      content := .scenario a }

def confidence (a : ConfidenceArgs F) : Except PyError (Record F T V) :=
  if [a.evidenceStrength, a.coherence, a.historicalPrecedent, a.modelUncertainty, a.recency].any
      outOfUnit then
    .error (.valueError "Confidence factors must be between 0.0 and 1.0")
  else .ok
    { base := .new now (host.generateId (seedOf ["Confidence", a.targetId, a.targetType]))
        a.ontologyTags
      content := .confidence a }

end Checked

def contradiction (a : ContradictionArgs V) : Except PyError (Record F T V) :=
  if a.description = "" then
    .error (.valueError "Contradiction description cannot be empty")
  else .ok
    { base := .new now (host.generateId
        (seedOf ["Contradiction", a.researchId, a.type, a.description, "None", "None"]))
        a.ontologyTags
      content := .contradiction a }

def researchReport (a : ReportArgs) : Record F T V where
  base := .entered now (host.generateId (seedOf ["ResearchReport", a.researchId, a.title]))
    a.ontologyTags .draft "Research report created"
  content := .researchReport a

def validation (a : ValidationArgs F V) : Record F T V where
  base := .entered now (host.generateId
    (seedOf ["Validation", a.researchId, a.researchReportId, a.timeHorizon])) a.ontologyTags
    .inProgress "Validation initiated"
  content := .validation a

def failureAnalysis (a : FailureArgs V) : Record F T V where
  base := .entered now (host.generateId (seedOf ["FailureAnalysis", a.validationId, a.researchId]))
    a.ontologyTags .initiated "Failure analysis initiated"
  content := .failureAnalysis a

def knowledge (a : KnowledgeArgs F) : Record F T V where
  base := .entered now (host.generateId
    (seedOf ["Knowledge", a.type, a.subject, a.predicate, a.object])) a.ontologyTags
    .validated "Knowledge validated from evidence"
  content := .knowledge a

def lesson (a : LessonArgs F) : Record F T V where
  base := .entered now (host.generateId (seedOf ["Lesson", a.type, a.description])) a.ontologyTags
    .validated "Lesson extracted from validation"
  content := .lesson a

def cognitiveAssessment (a : CognitiveArgs F) : Record F T V where
  base := .entered now (host.generateId
    (seedOf ["CognitiveAssessment", a.traderId, a.researchId])) a.ontologyTags
    .initiated "Cognitive assessment initiated"
  content := .cognitiveAssessment a

def reasoningChain (a : ReasoningChainArgs F V) : Record F T V where
  base := .entered now (host.generateId (seedOf ["ReasoningChain", a.researchId])) a.ontologyTags
    .created "Reasoning chain created"
  content := .reasoningChain a

def auditEntry (a : AuditArgs) : Record F T V where
  base := .entered now (host.generateId
    (seedOf ["AuditEntry", a.actor, a.action, a.objectId, a.objectType])) []
    .created ("Audit entry created: " ++ a.action ++ " on " ++ a.objectType ++ ":" ++ a.objectId)
  content := .auditEntry a

def newResearch (a : ResearchArgs) : Research T where
  base := .entered now (host.generateId (seedOf ["Research", a.question, a.timeHorizon, a.asset]))
    a.ontologyTags .inProgress "Research initiated"
  question := a.question
  timestamp := now
  timeHorizon := a.timeHorizon
  asset := a.asset
  methodologyVersion := a.methodologyVersion
  status := "In Progress"
  observationIds := []
  evidenceRegistryId := none
  hypothesisSetId := none
  scenarioSetId := none
  confidenceReportId := none
  contradictionReportId := none
  reportId := none
  completedAt := none
  validatedAt := none

def researchCycle (researchId : String) : ResearchCycle T where
  base := .entered now (host.generateId (seedOf ["ResearchCycle", researchId])) [] .started
    "Research cycle started"
  researchId := researchId
  startTime := now
  stages := []

/-- The five sets, by their class. -/
def newCollection (kind : CollectionKind) (researchId : String) : Collection F T V where
  base := .new now (host.generateId (seedOf [kind.name, researchId])) []
  kind := kind
  researchId := researchId

end

/-! ## The reference validator -/

def exists' (repo : Repository F T V) (objId : String) : Bool :=
  !decide (objId = "") && (repo.get? objId).isSome

def requireExists (repo : Repository F T V) (objId label : String) : Except PyError Unit :=
  if objId = "" then
    .error (.valueError (label ++ " ID is empty — cannot validate reference"))
  else if (repo.get? objId).isNone then
    .error (.valueError (label ++ " with ID '" ++ objId ++ "' not found in repository — " ++
      "create it before referencing it"))
  else .ok ()

def requireAllExist (host : Host F T V) (repo : Repository F T V) (ids : List String)
    (label : String) : Except PyError Unit :=
  let missing := ids.filter fun id ↦ !exists' repo id
  if missing.isEmpty then .ok ()
  else .error (.valueError (toString missing.length ++ " " ++ label ++
    "(s) not found in repository: " ++ host.strList missing))

/-! ## Programs over the repository -/

variable (F T V) in
/-- A computation on the repository.  What it has changed stays when it raises. -/
abbrev Program (α : Type) := ExceptT PyError (StateM (Repository F T V)) α

/-- A program on a repository: what it returns or raises, and the repository then. -/
def exec {α : Type} (m : Program F T V α) (repo : Repository F T V) :
    Except PyError α × Repository F T V := m.run.run repo

def ofExcept {α : Type} : Except PyError α → Program F T V α
  | .ok a => pure a
  | .error e => throw e

def save (o : Obj F T V) : Program F T V Unit := modify fun repo ↦ repo.set o.id o

def requireResearch (researchId : String) : Program F T V (Research T) := do
  match (← get).get? researchId with
  | some (.research r) => return r
  | _ => throw (.valueError ("Expected Research for '" ++ researchId ++ "'"))

def requireCollection (kind : CollectionKind) (objectId : String) :
    Program F T V (Collection F T V) := do
  match (← get).get? objectId with
  | some (.collection c) =>
    if c.kind = kind then return c
    else throw (.valueError ("Expected " ++ kind.name ++ " for '" ++ objectId ++ "'"))
  | _ => throw (.valueError ("Expected " ++ kind.name ++ " for '" ++ objectId ++ "'"))

section Operations

variable (host : Host F T V) (call : Call F T V)

def linkedSet (kind : CollectionKind) (research : Research T) (researchId : String) :
    Program F T V (Research T × Collection F T V) :=
  match research.link kind with
  | some id =>
    if id = "" then fresh
    else do return (research, ← requireCollection kind id)
  | none => fresh
where
  fresh : Program F T V (Research T × Collection F T V) := do
    let set := newCollection host call.now kind researchId
    save (.collection set)
    return (research.setLink kind set.base.id, set)

/-- Puts a record into the set of its kind that the research links to. -/
def addMember (kind : CollectionKind) (researchId : String) (r : Record F T V) :
    Program F T V Unit := do
  let research ← requireResearch researchId
  let (research, set) ← linkedSet host call kind research researchId
  save (.collection (set.add r))
  save (.research research)

/-- `research.complete()` and `research.validate()`: the attributes are assigned before
the lifecycle is asked for the transition. -/
def enterStage (research : Research T) (stage : LifecycleStage) (reason : String) :
    Program F T V Unit := do
  save (.research research)
  let lifecycle ← ofExcept (research.base.lifecycle.transition call.now stage reason)
  save (.research { research with base := { research.base with lifecycle } })

/-- What happens to the research between the first save and the audit entry. -/
inductive Link where
  | none
  | observation (researchId : String)
  | member (kind : CollectionKind) (researchId : String)
  /-- The empty string stands for `None`. -/
  | memberIfGiven (kind : CollectionKind) (researchId : String)
  | report (researchId : String)
  | validation (researchId : String)

def Link.run (r : Record F T V) : Link → Program F T V Unit
  | .none => pure ()
  | .observation researchId => do
      let research ← requireResearch researchId
      save (.research { research with observationIds := research.observationIds ++ [r.base.id] })
  | .member kind researchId => addMember host call kind researchId r
  | .memberIfGiven kind researchId => do
      if researchId = "" then return ()
      ofExcept (requireExists (← get) researchId "Research")
      addMember host call kind researchId r
  | .report researchId => do
      let research ← requireResearch researchId
      enterStage call
        { research with
          reportId := some r.base.id, status := "Complete", completedAt := some call.now }
        .complete "Research completed"
  | .validation researchId => do
      let research ← requireResearch researchId
      enterStage call { research with status := "Validated", validatedAt := some call.now }
        .archived "Research validated and archived"

/-- The entry that an operation leaves about its object. -/
def auditOf (action : String) (o : Obj F T V) (afterState : String) : Record F T V :=
  auditEntry host call.now
    { actor := "pipeline"
      action := action
      objectId := o.id
      objectType := o.cls.name
      beforeState := ""
      afterState := afterState }

def audit (action : String) (o : Obj F T V) : Program F T V Unit := do
  let afterState ← ofExcept (call.toJson o)
  save (.record (auditOf host call action o afterState))

end Operations

variable (F T V) in
/-- What is an operation's own, of the sequence they share. -/
structure Creation where
  checks : Repository F T V → Except PyError Unit
  object : Except PyError (Record F T V)
  link : Link
  action : String

/-- The body that the operations share. -/
def Creation.run (host : Host F T V) (call : Call F T V) (c : Creation F T V) :
    Program F T V (Record F T V) := do
  ofExcept (c.checks (← get))
  let object ← ofExcept c.object
  save (.record object)
  c.link.run host call object
  audit host call c.action (.record object)
  return object

/-! ## The operations -/

section

variable (host : Host F T V) (now : T)

def addObservation (researchId : String) (a : ObservationArgs T V) : Creation F T V where
  checks := fun repo ↦ requireExists repo researchId "Research"
  object := .ok (observation host now a)
  link := .observation researchId
  action := "OBSERVATION_ADDED"

def createEvidence (a : EvidenceArgs F T) (researchId : String) : Creation F T V where
  checks := fun repo ↦ do
    requireExists repo a.observationId "Observation"
    requireExists repo a.hypothesisId "Hypothesis"
  object := .ok (evidence host now a)
  link := .memberIfGiven .evidenceRegistry researchId
  action := "EVIDENCE_CREATED"

def createInterpretation (a : InterpretationArgs F) : Creation F T V where
  checks := fun repo ↦ requireAllExist host repo a.evidenceIds "Evidence"
  object := .ok (interpretation host now a)
  link := .none
  action := "INTERPRETATION_CREATED"

def createNarrative (a : NarrativeArgs F) : Creation F T V where
  checks := fun repo ↦ requireExists repo a.researchId "Research"
  object := .ok (narrative host now a)
  link := .none
  action := "NARRATIVE_CREATED"

section Checked

variable [LT F] [LE F] [DecidableLT F] [DecidableLE F]

def createHypothesis (a : HypothesisArgs F) : Creation F T V where
  checks := fun repo ↦ do
    requireExists repo a.researchId "Research"
    if a.narrativeId = "" then pure () else requireExists repo a.narrativeId "Narrative"
  object := hypothesis host now a
  link := .member .hypothesisSet a.researchId
  action := "HYPOTHESIS_CREATED"

def createScenario (researchId : String) (a : ScenarioArgs F V) : Creation F T V where
  checks := fun repo ↦ do
    requireExists repo researchId "Research"
    requireExists repo a.hypothesisId "Hypothesis"
  object := scenario host now a
  link := .member .scenarioSet researchId
  action := "SCENARIO_CREATED"

def registerConfidence (a : ConfidenceArgs F) (researchId : String) : Creation F T V where
  checks := fun repo ↦ requireExists repo a.targetId a.targetType
  object := confidence host now a
  link := .memberIfGiven .confidenceReport researchId
  action := "CONFIDENCE_REGISTERED"

end Checked

def detectContradiction (a : ContradictionArgs V) : Creation F T V where
  checks := fun repo ↦ do
    requireExists repo a.researchId "Research"
    (a.sides.flatMap fun side ↦ side.evidence.getD []).forM fun id ↦
      requireExists repo id "Evidence"
  object := contradiction host now a
  link := .member .contradictionReport a.researchId
  action := "CONTRADICTION_DETECTED"

def generateReport (a : ReportArgs) : Creation F T V where
  checks := fun repo ↦ requireExists repo a.researchId "Research"
  object := .ok (researchReport host now a)
  link := .report a.researchId
  action := "REPORT_GENERATED"

def validateResearch (a : ValidationArgs F V) : Creation F T V where
  checks := fun repo ↦ do
    requireExists repo a.researchId "Research"
    requireExists repo a.researchReportId "ResearchReport"
  object := .ok (validation host now a)
  link := .validation a.researchId
  action := "VALIDATION_CREATED"

def createFailureAnalysis (a : FailureArgs V) : Creation F T V where
  checks := fun repo ↦ do
    requireExists repo a.validationId "Validation"
    requireExists repo a.researchId "Research"
  object := .ok (failureAnalysis host now a)
  link := .none
  action := "FAILURE_ANALYSIS_CREATED"

def extractKnowledge (a : KnowledgeArgs F) : Creation F T V where
  checks := fun repo ↦ a.sourceReferences.forM fun ref ↦ requireExists repo ref "Research"
  object := .ok (knowledge host now a)
  link := .none
  action := "KNOWLEDGE_CREATED"

def extractLesson (a : LessonArgs F) : Creation F T V where
  checks := fun _ ↦ .ok ()
  object := .ok (lesson host now a)
  link := .none
  action := "LESSON_EXTRACTED"

def assessCognitive (a : CognitiveArgs F) : Creation F T V where
  checks := fun repo ↦
    if a.researchId = "" then .ok () else requireExists repo a.researchId "Research"
  object := .ok (cognitiveAssessment host now a)
  link := .none
  action := "COGNITIVE_ASSESSED"

def recordReasoningChain (a : ReasoningChainArgs F V) : Creation F T V where
  checks := fun repo ↦ requireExists repo a.researchId "Research"
  object := .ok (reasoningChain host now a)
  link := .none
  action := "REASONING_CHAIN_RECORDED"

end

def startResearch (host : Host F T V) (call : Call F T V) (a : ResearchArgs) :
    Program F T V (Research T) := do
  let research := newResearch host call.now a
  save (.research research)
  let cycle := researchCycle host call.now research.base.id
  save (.cycle cycle)
  audit host call "RESEARCH_STARTED" (.research research)
  save (.cycle (cycle.addStage
    ⟨"start_research", 0, "Complete", [("research_id", research.base.id)]⟩))
  return research

section Calls

variable (F T V) in
inductive Operation where
  | startResearch (a : ResearchArgs)
  | addObservation (researchId : String) (a : ObservationArgs T V)
  | createEvidence (a : EvidenceArgs F T) (researchId : String)
  | createInterpretation (a : InterpretationArgs F)
  | createNarrative (a : NarrativeArgs F)
  | createHypothesis (a : HypothesisArgs F)
  | createScenario (researchId : String) (a : ScenarioArgs F V)
  | registerConfidence (a : ConfidenceArgs F) (researchId : String)
  | detectContradiction (a : ContradictionArgs V)
  | generateReport (a : ReportArgs)
  | validateResearch (a : ValidationArgs F V)
  | createFailureAnalysis (a : FailureArgs V)
  | extractKnowledge (a : KnowledgeArgs F)
  | extractLesson (a : LessonArgs F)
  | assessCognitive (a : CognitiveArgs F)
  | recordReasoningChain (a : ReasoningChainArgs F V)

variable [LT F] [LE F] [DecidableLT F] [DecidableLE F] (host : Host F T V)

def Operation.creation (now : T) : Operation F T V → ResearchArgs ⊕ Creation F T V
  | .startResearch a => .inl a
  | .addObservation researchId a => .inr (Pipeline.addObservation host now researchId a)
  | .createEvidence a researchId => .inr (Pipeline.createEvidence host now a researchId)
  | .createInterpretation a => .inr (Pipeline.createInterpretation host now a)
  | .createNarrative a => .inr (Pipeline.createNarrative host now a)
  | .createHypothesis a => .inr (Pipeline.createHypothesis host now a)
  | .createScenario researchId a => .inr (Pipeline.createScenario host now researchId a)
  | .registerConfidence a researchId => .inr (Pipeline.registerConfidence host now a researchId)
  | .detectContradiction a => .inr (Pipeline.detectContradiction host now a)
  | .generateReport a => .inr (Pipeline.generateReport host now a)
  | .validateResearch a => .inr (Pipeline.validateResearch host now a)
  | .createFailureAnalysis a => .inr (Pipeline.createFailureAnalysis host now a)
  | .extractKnowledge a => .inr (Pipeline.extractKnowledge host now a)
  | .extractLesson a => .inr (Pipeline.extractLesson host now a)
  | .assessCognitive a => .inr (Pipeline.assessCognitive host now a)
  | .recordReasoningChain a => .inr (Pipeline.recordReasoningChain host now a)

/-- Runs an operation; it returns the object it has created. -/
def Operation.run (call : Call F T V) (op : Operation F T V) : Program F T V (Obj F T V) :=
  match op.creation host call.now with
  | .inl a => do return .research (← Pipeline.startResearch host call a)
  | .inr c => do return .record (← c.run host call)

end Calls

end Qros.Pipeline
