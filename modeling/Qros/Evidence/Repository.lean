import Mathlib.Data.String.Basic
import Qros.Lib.Dict
import Qros.Lib.Machine

/-!
# The evidence repository

`EvidenceRepository` of `researchos/evidence/repository.py`, over the tables
`evidence`, `lineage` and `objects`.  The tables with a primary key are
dictionaries; `json.loads` returns what `json.dumps` was given, so a column that
holds JSON holds the value.  `==` on payloads is Python's, and nothing is assumed
of it: no payload with a `nan` equals the one that is read back.

A call runs in a transaction, so one that raises leaves the tables as they were.
The time at which an edge was stored is left out, and so is the check of
`verify_evidence` that the relation of an edge is known, which is its type here.
-/

/-!
## Evidence envelopes

`EvidenceEnvelope` of `researchos/evidence/envelope.py`.  A payload is a value of
an arbitrary type `P`, for the JSON values that `_validate_payload` lets pass.

`sha256` is the digest of the canonical JSON of a dictionary; nothing is assumed
of it.
-/

namespace Qros.Evidence

inductive ArtifactType where
  | dataset | feature | quoteSnapshot | experiment | run | result | validation | finding | model
deriving DecidableEq

inductive LineageRelation where
  | feeds | executes | produces | validates | derives | trains | contradicts | replicates
deriving DecidableEq

def ArtifactType.name : ArtifactType → String
  | .dataset => "Dataset"
  | .feature => "Feature"
  | .quoteSnapshot => "QuoteSnapshot"
  | .experiment => "Experiment"
  | .run => "Run"
  | .result => "Result"
  | .validation => "Validation"
  | .finding => "Finding"
  | .model => "Model"

def LineageRelation.ofName? : String → Option LineageRelation
  | "feeds" => some .feeds
  | "executes" => some .executes
  | "produces" => some .produces
  | "validates" => some .validates
  | "derives" => some .derives
  | "trains" => some .trains
  | "contradicts" => some .contradicts
  | "replicates" => some .replicates
  | _ => none

/-! ## Hashes -/

structure HashContent (P : Type) where
  scheme : String
  artifactType : String
  version : String
  payload : P
  parentHashes : Option (List String)
deriving DecidableEq

/-- `_sha256`. -/
class Sha256 (P : Type) where
  sha256 : HashContent P → String

export Sha256 (sha256)

def hashSchemeVersion : String := "2"

def sorted (xs : List String) : List String := xs.insertionSort (· ≤ ·)

section Hashes

variable {P : Type} [Sha256 P]

def computeArtifactHash (artifactType : ArtifactType) (version : String) (payload : P) : String :=
  sha256 ⟨hashSchemeVersion, artifactType.name, version, payload, none⟩

def computeLineageHash (artifactType : ArtifactType) (version : String) (payload : P)
    (parentHashes : List String) : String :=
  sha256 ⟨hashSchemeVersion, artifactType.name, version, payload, some (sorted parentHashes)⟩

end Hashes

/-! ## Envelopes -/

structure EvidenceEnvelope (P : Type) where
  artifactType : ArtifactType
  artifactHash : String
  payload : P
  version : String
  createdAt : String
  parentHashes : List String
  lineageHash : String
  artifactHash_ne : artifactHash ≠ ""
  parents_sorted : parentHashes.Pairwise (· ≤ ·)

section Envelopes

variable {P : Type}

theorem pairwise_sorted (xs : List String) : (sorted xs).Pairwise (· ≤ ·) :=
  List.pairwise_insertionSort _ xs

def EvidenceEnvelope.make (artifactType : ArtifactType) (artifactHash : String) (payload : P)
    (version createdAt : String) (parentHashes : List String) (lineageHash : String) :
    Except String (EvidenceEnvelope P) :=
  if h : artifactHash = "" then .error "artifact_hash is required"
  else .ok ⟨artifactType, artifactHash, payload, version, createdAt, sorted parentHashes, lineageHash,
    h, pairwise_sorted parentHashes⟩

variable [Sha256 P]

/-- `EvidenceEnvelope.verify`: an envelope without a lineage hash passes. -/
def EvidenceEnvelope.verify (e : EvidenceEnvelope P) : Bool :=
  if e.lineageHash = "" then true
  else decide (e.lineageHash =
    computeLineageHash e.artifactType e.version e.payload e.parentHashes)

def buildEnvelope (artifactType : ArtifactType) (payload : P) (version createdAt : String)
    (parentHashes : List String) (artifactHash : Option String) :
    Except String (EvidenceEnvelope P) :=
  EvidenceEnvelope.make artifactType
    (artifactHash.getD (computeArtifactHash artifactType version payload)) payload version createdAt
    parentHashes (computeLineageHash artifactType version payload parentHashes)

structure EvidenceEnvelope.Genuine (e : EvidenceEnvelope P) : Prop where
  artifact : e.artifactHash = computeArtifactHash e.artifactType e.version e.payload
  lineage : e.lineageHash = computeLineageHash e.artifactType e.version e.payload e.parentHashes

theorem sorted_sorted (xs : List String) : sorted (sorted xs) = sorted xs :=
  (pairwise_sorted xs).insertionSort_eq

theorem genuine_of_buildEnvelope {artifactType : ArtifactType} {payload : P}
    {version createdAt : String} {parentHashes : List String} {e : EvidenceEnvelope P}
    (h : buildEnvelope artifactType payload version createdAt parentHashes none = .ok e) :
    e.Genuine := by
  unfold buildEnvelope EvidenceEnvelope.make at h
  split at h
  · cases h
  · cases h
    refine ⟨rfl, ?_⟩
    simp only [computeLineageHash, sorted_sorted]

end Envelopes

end Qros.Evidence

namespace Qros.Evidence

open Qros.Lib

/-! ## Tables -/

structure EvidenceRow (P : Type) where
  artifactType : ArtifactType
  version : String
  createdAt : String
  payload : P
  parentHashes : List String
  lineageHash : String

structure LineageEdge where
  parentHash : String
  childHash : String
  relation : LineageRelation
deriving DecidableEq

structure ObjectRow (P : Type) where
  objectType : String
  data : Option (EvidenceEnvelope P)

structure EvidenceStore (P : Type) where
  evidence : Dict String (EvidenceRow P)
  lineage : List LineageEdge
  objects : Dict String (ObjectRow P)

def defaultRelation : ArtifactType → LineageRelation
  | .feature => .feeds
  | .experiment => .feeds
  | .run => .executes
  | .result => .produces
  | .validation => .validates
  | .finding => .derives
  | .model => .trains
  | .dataset => .feeds
  | .quoteSnapshot => .feeds

/-- The relations that an edge to an artifact of the type may have. -/
def allowedRelations (artifactType : ArtifactType) : List LineageRelation :=
  [defaultRelation artifactType, .contradicts, .replicates]

section Operations

variable {P : Type}

def EvidenceEnvelope.row (e : EvidenceEnvelope P) : EvidenceRow P where
  artifactType := e.artifactType
  version := e.version
  createdAt := e.createdAt
  payload := e.payload
  parentHashes := e.parentHashes
  lineageHash := e.lineageHash

def EvidenceRow.envelope (row : EvidenceRow P) (artifactHash : String) (h : artifactHash ≠ "") :
    EvidenceEnvelope P where
  artifactType := row.artifactType
  artifactHash := artifactHash
  payload := row.payload
  version := row.version
  createdAt := row.createdAt
  parentHashes := sorted row.parentHashes
  lineageHash := row.lineageHash
  artifactHash_ne := h
  parents_sorted := pairwise_sorted row.parentHashes

def insertEdge (lineage : List LineageEdge) (edge : LineageEdge) : List LineageEdge :=
  if edge ∈ lineage then lineage else lineage ++ [edge]

/-- `"SELECT 1 FROM evidence WHERE artifact_hash = ?"` finds a row. -/
def EvidenceStore.Has (s : EvidenceStore P) (artifactHash : String) : Prop :=
  (s.evidence.get? artifactHash).isSome = true

instance (s : EvidenceStore P) (artifactHash : String) : Decidable (s.Has artifactHash) :=
  inferInstanceAs (Decidable (_ = true))

/-- The loop over the parents of an envelope that is appended. -/
def requireParents (s : EvidenceStore P) (artifactHash : String) : List String → Except String Unit
  | [] => .ok ()
  | parent :: parents => do
    require (s.Has parent) ("Cannot append artifact " ++ artifactHash ++ ": parent evidence " ++
      parent ++ " does not exist")
    requireParents s artifactHash parents

variable [BEq P]

/-- The row has the content of the envelope, the time of its creation apart. -/
def EvidenceRow.Matches (row : EvidenceRow P) (e : EvidenceEnvelope P) : Prop :=
  row.artifactType = e.artifactType ∧ row.version = e.version ∧ (row.payload == e.payload) = true ∧
    row.parentHashes = e.parentHashes ∧ row.lineageHash = e.lineageHash

instance (row : EvidenceRow P) (e : EvidenceEnvelope P) : Decidable (row.Matches e) :=
  inferInstanceAs (Decidable (_ ∧ _))

/-- Two envelopes have equal dictionaries. -/
def EvidenceEnvelope.SameDict (e e' : EvidenceEnvelope P) : Prop :=
  e.artifactType = e'.artifactType ∧ e.artifactHash = e'.artifactHash ∧ e.version = e'.version ∧
    e.createdAt = e'.createdAt ∧ (e.payload == e'.payload) = true ∧
    e.parentHashes = e'.parentHashes ∧ e.lineageHash = e'.lineageHash

instance (e e' : EvidenceEnvelope P) : Decidable (e.SameDict e') :=
  inferInstanceAs (Decidable (_ ∧ _))

def ObjectRow.Mirrors (row : ObjectRow P) (e : EvidenceEnvelope P) : Prop :=
  row.objectType = "EvidenceEnvelope" ∧ ∃ e' ∈ row.data, e'.SameDict e

instance (row : ObjectRow P) (e : EvidenceEnvelope P) : Decidable (row.Mirrors e) :=
  inferInstanceAs (Decidable (_ ∧ ∃ e' ∈ row.data, e'.SameDict e))

def insertEvidenceMirror (objects : Dict String (ObjectRow P)) (e : EvidenceEnvelope P) :
    Except String (Dict String (ObjectRow P)) :=
  match objects.get? e.artifactHash with
  | some existing => do
    require (existing.Mirrors e)
      ("Object id " ++ e.artifactHash ++ " already exists with conflicting content")
    return objects
  | none => .ok (objects.set e.artifactHash ⟨"EvidenceEnvelope", some e⟩)

variable [Sha256 P]

def appendArtifact (s : EvidenceStore P) (e : EvidenceEnvelope P) :
    Except String (EvidenceEnvelope P × EvidenceStore P) := do
  require (e.verify = true)
    ("EvidenceEnvelope lineage_hash mismatch for artifact " ++ e.artifactHash)
  match s.evidence.get? e.artifactHash with
  | some existing =>
    require (existing.Matches e)
      ("Evidence artifact " ++ e.artifactHash ++ " is immutable and cannot be overwritten")
    return (existing.envelope e.artifactHash e.artifactHash_ne, s)
  | none =>
    requireParents s e.artifactHash e.parentHashes
    let objects ← insertEvidenceMirror s.objects e
    return (e, {
      evidence := s.evidence.set e.artifactHash e.row
      lineage := e.parentHashes.foldl
        (fun lineage parent ↦
          insertEdge lineage ⟨parent, e.artifactHash, defaultRelation e.artifactType⟩) s.lineage
      objects })

def addLineageEdge (s : EvidenceStore P) (parentHash childHash relation : String) :
    Except String (EvidenceStore P) := do
  let relation ← found (LineageRelation.ofName? relation) ("Unknown lineage relation '" ++ relation ++
    "'. Expected one of ('feeds', 'executes', 'produces', 'validates', 'derives', 'trains', " ++
    "'contradicts', 'replicates').")
  require (s.Has parentHash)
    ("Cannot add lineage edge: parent evidence " ++ parentHash ++ " does not exist")
  require (s.Has childHash)
    ("Cannot add lineage edge: child evidence " ++ childHash ++ " does not exist")
  return { s with lineage := insertEdge s.lineage ⟨parentHash, childHash, relation⟩ }

/-! ## Verification -/

def rowVerifies (s : EvidenceStore P) (artifactHash : String) (row : EvidenceRow P) : Bool :=
  computeArtifactHash row.artifactType row.version row.payload = artifactHash &&
    computeLineageHash row.artifactType row.version row.payload row.parentHashes = row.lineageHash &&
    row.parentHashes.all fun parent ↦ decide (s.Has parent)

/-- The loops of `verify_evidence` over the edges. -/
def edgeVerifies (s : EvidenceStore P) (edge : LineageEdge) : Bool :=
  decide (s.Has edge.parentHash) && decide (s.Has edge.childHash) &&
    match s.evidence.get? edge.childHash with
    | none => false
    | some child =>
      decide (edge.parentHash ∈ child.parentHashes) &&
        decide (edge.relation ∈ allowedRelations child.artifactType)

/-- The last loop of `verify_evidence`. -/
def parentsDeclared (s : EvidenceStore P) (artifactHash : String) (row : EvidenceRow P) : Bool :=
  row.parentHashes.all fun parent ↦
    (allowedRelations row.artifactType).any fun relation ↦
      decide (⟨parent, artifactHash, relation⟩ ∈ s.lineage)

def verifyEvidence (s : EvidenceStore P) : Bool :=
  (s.evidence.entries.all fun entry ↦ rowVerifies s entry.1 entry.2) &&
    s.lineage.all (edgeVerifies s) &&
    s.evidence.entries.all fun entry ↦ parentsDeclared s entry.1 entry.2

/-! ## Calls -/

inductive EvidenceCall (P : Type) where
  | appendArtifact (envelope : EvidenceEnvelope P)
  | addLineageEdge (parentHash childHash relation : String)

def EvidenceCall.run (s : EvidenceStore P) :
    EvidenceCall P → Except String (Option (EvidenceEnvelope P) × EvidenceStore P)
  | .appendArtifact e => do
    let (stored, s) ← Evidence.appendArtifact s e
    return (some stored, s)
  | .addLineageEdge parentHash childHash relation => do
    let s ← Evidence.addLineageEdge s parentHash childHash relation
    return (none, s)

/-- A repository over a store with nothing but the other objects in it. -/
def evidenceRepository (objects : Dict String (ObjectRow P)) :
    Machine (EvidenceStore P) (EvidenceCall P) (Except String (Option (EvidenceEnvelope P))) where
  init := ⟨∅, [], objects⟩
  step := fun call s ↦
    match call.run s with
    | .ok (answer, s') => (.ok answer, s')
    | .error message => (.error message, s)

end Operations

end Qros.Evidence
