import Qros.Lib.TypedStore
import Qros.Pipeline.Objects

/-!
# Stored objects

A record is an object of one of the classes that the pipeline never changes after it
has created it: its base part and its arguments.  The others are `Research`, the
`ResearchCycle` and the five sets that a research links to, which are one
`Collection` here.

The constructors follow, each with its checks and the seed of its id.
`Obj.references` lists what an object refers to, by the class its constructor or its
documentation gives the field.
-/

namespace Qros.Pipeline

open Qros.Lib

inductive CollectionKind where
  | evidenceRegistry
  | hypothesisSet
  | scenarioSet
  | confidenceReport
  | contradictionReport
deriving DecidableEq

/-- `cls.__name__`, for the classes that the pipeline stores. -/
inductive Cls where
  | research
  | researchCycle
  | observation
  | evidence
  | interpretation
  | narrative
  | hypothesis
  | scenario
  | confidence
  | contradiction
  | researchReport
  | validation
  | failureAnalysis
  | knowledge
  | lesson
  | cognitiveAssessment
  | reasoningChain
  | auditEntry
  | collection (kind : CollectionKind)
deriving DecidableEq

namespace CollectionKind

def name : CollectionKind → String
  | .evidenceRegistry => "EvidenceRegistry"
  | .hypothesisSet => "HypothesisSet"
  | .scenarioSet => "ScenarioSet"
  | .confidenceReport => "ConfidenceReport"
  | .contradictionReport => "ContradictionReport"

def member : CollectionKind → Cls
  | .evidenceRegistry => .evidence
  | .hypothesisSet => .hypothesis
  | .scenarioSet => .scenario
  | .confidenceReport => .confidence
  | .contradictionReport => .contradiction

end CollectionKind

namespace Cls

def name : Cls → String
  | .research => "Research"
  | .researchCycle => "ResearchCycle"
  | .observation => "Observation"
  | .evidence => "Evidence"
  | .interpretation => "Interpretation"
  | .narrative => "Narrative"
  | .hypothesis => "Hypothesis"
  | .scenario => "Scenario"
  | .confidence => "Confidence"
  | .contradiction => "Contradiction"
  | .researchReport => "ResearchReport"
  | .validation => "Validation"
  | .failureAnalysis => "FailureAnalysis"
  | .knowledge => "Knowledge"
  | .lesson => "Lesson"
  | .cognitiveAssessment => "CognitiveAssessment"
  | .reasoningChain => "ReasoningChain"
  | .auditEntry => "AuditEntry"
  | .collection kind => kind.name

def all : List Cls :=
  [research, researchCycle, observation, evidence, interpretation, narrative, hypothesis, scenario,
    confidence, contradiction, researchReport, validation, failureAnalysis, knowledge, lesson,
    cognitiveAssessment, reasoningChain, auditEntry, collection .evidenceRegistry,
    collection .hypothesisSet, collection .scenarioSet, collection .confidenceReport,
    collection .contradictionReport]

/-- The class of a name, where there is one. -/
def ofName (s : String) : Option Cls := all.find? fun c ↦ c.name = s

/-- The classes that objects refer to by an id given from outside. -/
def referable : Cls → Bool
  | .research | .observation | .hypothesis | .evidence | .narrative | .researchReport
  | .validation => true
  | _ => false

theorem ofName_name (c : Cls) : ofName c.name = some c := by
  cases c with
  | collection kind => cases kind <;> rfl
  | _ => rfl

end Cls

section Types

variable (F T V : Type) [Zero F] [One F]

inductive Content where
  | observation (a : ObservationArgs T V)
  | evidence (a : EvidenceArgs F T)
  | interpretation (a : InterpretationArgs F)
  | narrative (a : NarrativeArgs F)
  | hypothesis (a : HypothesisArgs F)
  | scenario (a : ScenarioArgs F V)
  | confidence (a : ConfidenceArgs F)
  | contradiction (a : ContradictionArgs V)
  | researchReport (a : ReportArgs)
  | validation (a : ValidationArgs F V)
  | failureAnalysis (a : FailureArgs V)
  | knowledge (a : KnowledgeArgs F)
  | lesson (a : LessonArgs F)
  | cognitiveAssessment (a : CognitiveArgs F)
  | reasoningChain (a : ReasoningChainArgs F V)
  | auditEntry (a : AuditArgs)

structure Record where
  base : BaseObject T
  content : Content F T V

/-- A set of records.  Its member list holds the objects themselves, `memberIds` is the
list of ids that its class keeps beside them. -/
structure Collection where
  base : BaseObject T
  kind : CollectionKind
  researchId : String
  members : List (Record F T V) := []
  memberIds : List String := []

end Types

structure Research (T : Type) where
  base : BaseObject T
  question : String
  timestamp : T
  timeHorizon : String
  asset : String
  methodologyVersion : String
  status : String
  observationIds : List String
  evidenceRegistryId : Option String
  hypothesisSetId : Option String
  scenarioSetId : Option String
  confidenceReportId : Option String
  contradictionReportId : Option String
  reportId : Option String
  completedAt : Option T
  validatedAt : Option T

structure CycleStage where
  name : String
  durationSeconds : Nat
  status : String
  metrics : List (String × String)
deriving DecidableEq

structure ResearchCycle (T : Type) where
  base : BaseObject T
  researchId : String
  startTime : T
  stages : List CycleStage

/-- `add_stage`, less the sum of the durations. -/
def ResearchCycle.addStage {T : Type} (c : ResearchCycle T) (stage : CycleStage) :
    ResearchCycle T := { c with stages := c.stages ++ [stage] }

namespace Research

variable {T : Type}

def link (r : Research T) : CollectionKind → Option String
  | .evidenceRegistry => r.evidenceRegistryId
  | .hypothesisSet => r.hypothesisSetId
  | .scenarioSet => r.scenarioSetId
  | .confidenceReport => r.confidenceReportId
  | .contradictionReport => r.contradictionReportId

def setLink (r : Research T) (kind : CollectionKind) (id : String) : Research T :=
  match kind with
  | .evidenceRegistry => { r with evidenceRegistryId := some id }
  | .hypothesisSet => { r with hypothesisSetId := some id }
  | .scenarioSet => { r with scenarioSetId := some id }
  | .confidenceReport => { r with confidenceReportId := some id }
  | .contradictionReport => { r with contradictionReportId := some id }

theorem link_setLink (r : Research T) (kind kind' : CollectionKind) (id : String) :
    (r.setLink kind id).link kind' = if kind = kind' then some id else r.link kind' := by
  cases kind <;> cases kind' <;> rfl

@[simp] theorem base_setLink (r : Research T) (kind : CollectionKind) (id : String) :
    (r.setLink kind id).base = r.base := by
  cases kind <;> rfl

@[simp] theorem observationIds_setLink (r : Research T) (kind : CollectionKind) (id : String) :
    (r.setLink kind id).observationIds = r.observationIds := by
  cases kind <;> rfl

@[simp] theorem reportId_setLink (r : Research T) (kind : CollectionKind) (id : String) :
    (r.setLink kind id).reportId = r.reportId := by
  cases kind <;> rfl

end Research

section Objects

variable {F T V : Type} [Zero F] [One F]

namespace Content

def cls : Content F T V → Cls
  | .observation _ => .observation
  | .evidence _ => .evidence
  | .interpretation _ => .interpretation
  | .narrative _ => .narrative
  | .hypothesis _ => .hypothesis
  | .scenario _ => .scenario
  | .confidence _ => .confidence
  | .contradiction _ => .contradiction
  | .researchReport _ => .researchReport
  | .validation _ => .validation
  | .failureAnalysis _ => .failureAnalysis
  | .knowledge _ => .knowledge
  | .lesson _ => .lesson
  | .cognitiveAssessment _ => .cognitiveAssessment
  | .reasoningChain _ => .reasoningChain
  | .auditEntry _ => .auditEntry

/-- References to objects of one class. -/
def refsTo (c : Cls) (ids : List String) : List (Cls × String) := ids.map fun id ↦ (c, id)

/-- A reference that the empty string stands for having none of. -/
def refIfGiven (c : Cls) (id : String) : List (Cls × String) := if id = "" then [] else [(c, id)]

/-- What a record refers to, of the classes that are `referable`. -/
def references : Content F T V → List (Cls × String)
  | .observation _ => []
  | .evidence a => (.observation, a.observationId) :: (.hypothesis, a.hypothesisId) ::
      refsTo .evidence (a.dependencies ++ a.conflicts)
  | .interpretation a =>
    refsTo .evidence (a.evidenceIds ++ a.supportingEvidence ++ a.contradictingEvidence)
  | .narrative a => [(.research, a.researchId)]
  | .hypothesis a => (.research, a.researchId) ::
      (refIfGiven .narrative a.narrativeId ++ refsTo .evidence a.evidenceIds)
  | .scenario a => (.hypothesis, a.hypothesisId) ::
      refsTo .evidence (a.supportingEvidence ++ a.contradictingEvidence)
  | .confidence a =>
    (((Cls.ofName a.targetType).filter Cls.referable).map fun c ↦ (c, a.targetId)).toList
  | .contradiction a => (.research, a.researchId) ::
      refsTo .evidence (a.sides.flatMap fun s ↦ s.evidence.getD [])
  | .researchReport a => [(.research, a.researchId)]
  | .validation a => [(.research, a.researchId), (.researchReport, a.researchReportId)]
  | .failureAnalysis a => [(.validation, a.validationId), (.research, a.researchId)]
  | .knowledge a => refsTo .research a.sourceReferences
  | .lesson a => refsTo .evidence a.supportingEvidence
  | .cognitiveAssessment a => refIfGiven .research a.researchId
  | .reasoningChain a => (.research, a.researchId) :: refsTo .evidence a.evidenceUsed
  | .auditEntry a => ((Cls.ofName a.objectType).map fun c ↦ (c, a.objectId)).toList

end Content

namespace Collection

/-- `add_evidence` appends the id, the methods of the other sets append it unless it is
there. -/
def add (c : Collection F T V) (r : Record F T V) : Collection F T V :=
  { c with
    members := c.members ++ [r]
    memberIds := if c.kind = .evidenceRegistry ∨ r.base.id ∉ c.memberIds then
      c.memberIds ++ [r.base.id] else c.memberIds }

theorem mem_memberIds_add {c : Collection F T V} {r : Record F T V} {id : String} :
    id ∈ (c.add r).memberIds ↔ id ∈ c.memberIds ∨ id = r.base.id := by
  unfold add
  dsimp only
  split
  · rw [List.mem_append, List.mem_singleton]
  · rename_i h
    push Not at h
    refine ⟨.inl, fun h' ↦ ?_⟩
    rcases h' with h' | rfl
    · exact h'
    · exact h.2

end Collection

variable (F T V) in
/-- What the repository stores. -/
inductive Obj where
  | record (r : Record F T V)
  | research (r : Research T)
  | cycle (c : ResearchCycle T)
  | collection (c : Collection F T V)

namespace Obj

def base : Obj F T V → BaseObject T
  | .record r => r.base
  | .research r => r.base
  | .cycle c => c.base
  | .collection c => c.base

def id (o : Obj F T V) : String := o.base.id

def cls : Obj F T V → Cls
  | .record r => r.content.cls
  | .research _ => .research
  | .cycle _ => .researchCycle
  | .collection c => .collection c.kind

def references : Obj F T V → List (Cls × String)
  | .record r => r.content.references
  | .research r => Content.refsTo .observation r.observationIds ++
      ([CollectionKind.evidenceRegistry, .hypothesisSet, .scenarioSet, .confidenceReport,
        .contradictionReport].flatMap fun kind ↦
          ((r.link kind).map fun id ↦ (Cls.collection kind, id)).toList) ++
      (r.reportId.map fun id ↦ (Cls.researchReport, id)).toList
  | .cycle c => [(.research, c.researchId)]
  | .collection c => (.research, c.researchId) :: Content.refsTo c.kind.member c.memberIds

end Obj

variable (F T V) in
/-- Classes and references of stored objects. -/
def schema : TypedStore.Schema String (Obj F T V) Cls := ⟨Obj.cls, Obj.references⟩

theorem mem_references_research {r : Research T} {ref : Cls × String} :
    ref ∈ (Obj.research r : Obj F T V).references ↔
      (ref.1 = .observation ∧ ref.2 ∈ r.observationIds) ∨
      (∃ kind, ref.1 = .collection kind ∧ r.link kind = some ref.2) ∨
      (ref.1 = .researchReport ∧ r.reportId = some ref.2) := by
  obtain ⟨c, id⟩ := ref
  simp only [Obj.references, Content.refsTo, List.mem_append, List.mem_map, Prod.mk.injEq,
    List.mem_flatMap, Option.mem_toList, Option.map_eq_some_iff, or_assoc]
  refine or_congr ?_ (or_congr ?_ ?_)
  · constructor
    · rintro ⟨_, hid, rfl, rfl⟩
      exact ⟨rfl, hid⟩
    · rintro ⟨rfl, hid⟩
      exact ⟨id, hid, rfl, rfl⟩
  · constructor
    · rintro ⟨kind, -, _, hlink, rfl, rfl⟩
      exact ⟨kind, rfl, hlink⟩
    · rintro ⟨kind, rfl, hlink⟩
      exact ⟨kind, by cases kind <;> simp, id, hlink, rfl, rfl⟩
  · constructor
    · rintro ⟨_, hid, rfl, rfl⟩
      exact ⟨rfl, hid⟩
    · rintro ⟨rfl, hid⟩
      exact ⟨id, hid, rfl, rfl⟩

end Objects

end Qros.Pipeline
