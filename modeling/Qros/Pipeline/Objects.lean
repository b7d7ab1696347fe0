import Qros.Lib.Dict

/-!
# Research objects

The objects that the research pipeline creates: `core/base_object.py`,
`core/lifecycle.py` and `objects/*.py`.

An object is its base part and the arguments of its constructor, which the
constructors keep as attributes.  `F` is `float`, `T` is `datetime` and `V` is
`Any`.  An argument that is a list or `None` is a list here: every constructor
replaces `None` by an empty list.
-/

namespace Qros.Pipeline

inductive PyError where
  | valueError (message : String)
  | runtimeError (message : String)
  /-- Anything else that a call outside the pipeline raises. -/
  | other (message : String)
deriving DecidableEq

/-- What the classes take from the standard library: `str(uuid5(NAMESPACE_DNS, seed))`,
`datetime.isoformat`, and `str` and `repr` of values. -/
structure Host (F T V : Type) where
  generateId : String → String
  isoformat : T → String
  strFloat : F → String
  strValue : V → String
  repr : String → String

def Host.strList {F T V : Type} (host : Host F T V) (xs : List String) : String :=
  "[" ++ String.intercalate ", " (xs.map host.repr) ++ "]"

/-- The parts of a seed, as the f-strings of the constructors join them. -/
def seedOf (parts : List String) : String := String.intercalate "|" parts

/-! ## Lifecycle -/

/-- The stages that the constructors and the pipeline use. -/
inductive LifecycleStage where
  | created
  | validated
  | inProgress
  | complete
  | finalized
  | archived
  | draft
  | initiated
  | started
deriving DecidableEq

def LifecycleStage.value : LifecycleStage → String
  | .created => "Created"
  | .validated => "Validated"
  | .inProgress => "In Progress"
  | .complete => "Complete"
  | .finalized => "Finalized"
  | .archived => "Archived"
  | .draft => "Draft"
  | .initiated => "Initiated"
  | .started => "Started"

structure LifecycleTransition (T : Type) where
  stage : LifecycleStage
  timestamp : T
  reason : Option String
deriving DecidableEq

/-- `transitions` is the list without its last element, `current` is
`transitions[-1]`. -/
structure Lifecycle (T : Type) where
  earlier : List (LifecycleTransition T)
  current : LifecycleTransition T
deriving DecidableEq

namespace Lifecycle

variable {T : Type}

def new (now : T) : Lifecycle T := ⟨[], ⟨.created, now, some "Object created"⟩⟩

/-- The new transition at the end of the list. -/
def append (l : Lifecycle T) (now : T) (stage : LifecycleStage) (reason : String) : Lifecycle T :=
  ⟨l.earlier ++ [l.current], ⟨stage, now, some reason⟩⟩

def transition (l : Lifecycle T) (now : T) (stage : LifecycleStage) (reason : String) :
    Except PyError (Lifecycle T) :=
  if l.current.stage = .finalized ∨ l.current.stage = .archived then
    .error (.runtimeError ("Cannot transition from terminal stage " ++ l.current.stage.value))
  else .ok (l.append now stage reason)

end Lifecycle

structure BaseObject (T : Type) where
  id : String
  createdAt : T
  ontologyTags : List String
  lifecycle : Lifecycle T
deriving DecidableEq

def BaseObject.new {T : Type} (now : T) (id : String) (ontologyTags : List String) : BaseObject T :=
  ⟨id, now, ontologyTags, .new now⟩

/-- `BaseObject.__init__` and the transition that ends a constructor. -/
def BaseObject.entered {T : Type} (now : T) (id : String) (ontologyTags : List String)
    (stage : LifecycleStage) (reason : String) : BaseObject T :=
  ⟨id, now, ontologyTags, (Lifecycle.new now).append now stage reason⟩

/-! ## Arguments -/

structure ObservationArgs (T V : Type) where
  source : String
  timestamp : T
  value : V
  unit : String := ""
  frequency : String := ""
  geography : String := ""
  assetClass : String := ""
  qualityFlags : List String := []
  retrievalMethod : String := ""
  ontologyTags : List String := []

section Floats

variable (F : Type) [Zero F] [One F]

structure EvidenceArgs (T : Type) where
  observationId : String
  hypothesisId : String
  interpretation : String
  direction : String := "Neutral"
  sourceReliability : F := 1
  recency : F := 1
  relevance : F := 1
  consensus : F := 1
  structuralImportance : F := 1
  qualityFactor : F := 1
  uncertainty : F := 0
  tier : String := "Primary"
  observationTimestamp : Option T := none
  dependencies : List String := []
  conflicts : List String := []
  ontologyTags : List String := []

structure InterpretationArgs where
  evidenceIds : List String
  ruleApplied : String
  context : String
  conclusion : String
  confidence : F := 0
  supportingEvidence : List String := []
  contradictingEvidence : List String := []
  alternatives : List String := []
  unknowns : List String := []
  ontologyTags : List String := []

structure NarrativeArgs where
  researchId : String
  thesis : String
  primaryDriver : String := ""
  supportingDrivers : List String := []
  interpretations : List String := []
  evidenceStrength : F := 0
  coherenceScore : F := 0
  plausibilityScore : F := 0
  invalidationConditions : List String := []
  catalysts : List String := []
  confidence : F := 0
  ontologyTags : List String := []

structure HypothesisArgs where
  researchId : String
  type : String
  statement : String
  narrativeId : String := ""
  evidenceIds : List String := []
  evidenceStrength : F := 0
  coherence : F := 0
  plausibility : F := 0
  falsifiability : F := 0
  confidence : F := 0
  validIf : List String := []
  invalidIf : List String := []
  monitoringConditions : List String := []
  ontologyTags : List String := []

structure ScenarioArgs (V : Type) where
  hypothesisId : String
  type : String := "Base"
  label : String := "Scenario A"
  thesis : String := ""
  probability : F := 0
  calibratedProbability : Option F := none
  confidenceInterval : Option (List (String × V)) := none
  expectedReturn : F := 0
  returnRange : Option (List (String × V)) := none
  volatility : F := 0
  regime : String := ""
  assumptions : List String := []
  dependencies : List String := []
  validIf : List String := []
  invalidIf : List String := []
  supportingEvidence : List String := []
  contradictingEvidence : List String := []
  milestones : List String := []
  constructionTrace : String := ""
  ontologyTags : List String := []

structure ConfidenceArgs where
  targetId : String
  targetType : String
  evidenceStrength : F := 0
  coherence : F := 0
  historicalPrecedent : F := 0
  modelUncertainty : F := 0
  recency : F := 0
  penalties : List String := []
  boosters : List String := []
  ontologyTags : List String := []

structure ValidationArgs (V : Type) where
  researchId : String
  researchReportId : String
  timeHorizon : String := ""
  overallStatus : String := "In Progress"
  qualityScore : F := 0
  scenarioResults : List (List (String × V)) := []
  targetResults : List (List (String × V)) := []
  validationTrace : String := ""
  ontologyTags : List String := []

structure KnowledgeArgs where
  type : String
  subject : String
  predicate : String
  object : String
  confidence : F := 0
  evidenceCount : Int := 0
  sourceReferences : List String := []
  knowledgeTrace : String := ""
  ontologyTags : List String := []

structure LessonArgs where
  type : String
  description : String
  recommendation : String := ""
  severity : F := 0
  frequency : Int := 0
  affectedArticles : List String := []
  supportingEvidence : List String := []
  lessonTrace : String := ""
  ontologyTags : List String := []

structure CognitiveArgs where
  traderId : String
  researchId : String := ""
  knowledgeScore : F := 0
  reasoningScore : F := 0
  biasProfile : List String := []
  disciplineScore : F := 0
  reflectionScore : F := 0
  learningProgress : F := 0
  overallScore : F := 0
  feedback : List String := []
  recommendations : List String := []
  assessmentTrace : String := ""
  ontologyTags : List String := []

structure ReasoningChainArgs (V : Type) where
  researchId : String
  steps : List (List (String × V)) := []
  inputs : List String := []
  outputs : List String := []
  rulesApplied : List String := []
  evidenceUsed : List String := []
  confidence : F := 0
  trace : String := ""
  ontologyTags : List String := []

end Floats

/-- One of the `sides` of a contradiction: its `"evidence"` entry and the other ones. -/
structure Side (V : Type) where
  evidence : Option (List String)
  others : List (String × V) := []

structure ContradictionArgs (V : Type) where
  researchId : String
  type : String
  description : String
  sides : List (Side V) := []
  ontologyTags : List String := []

structure ReportArgs where
  researchId : String
  title : String := ""
  executiveSummary : String := ""
  researchQuestion : String := ""
  hypotheses : String := ""
  evidenceSummary : String := ""
  analyses : String := ""
  narrative : String := ""
  scenarios : String := ""
  confidence : String := ""
  contradictions : String := ""
  riskFactors : List String := []
  invalidationConditions : List String := []
  knownUnknowns : List String := []
  openQuestions : List String := []
  methodologyVersion : String := "1.0.0"
  format : String := "Markdown"
  ontologyTags : List String := []

structure FailureArgs (V : Type) where
  validationId : String
  researchId : String
  failures : List (List (String × V)) := []
  rootCauses : List String := []
  severityScores : List (List (String × V)) := []
  improvementAreas : List String := []
  failureTrace : String := ""
  ontologyTags : List String := []

structure AuditArgs where
  actor : String
  action : String
  objectId : String
  objectType : String
  beforeState : String
  afterState : String

structure ResearchArgs where
  question : String
  timeHorizon : String := "Daily"
  asset : String := ""
  methodologyVersion : String := "1.0.0"
  ontologyTags : List String := []

end Qros.Pipeline
