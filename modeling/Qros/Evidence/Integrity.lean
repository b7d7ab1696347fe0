import Qros.Evidence.Repository

/-!
# The integrity of the evidence store

What each call does to the store is said once: `appendArtifact` inserts an
envelope under `Inserts` and changes nothing otherwise, `addLineageEdge` inserts
an edge under `Links`.  `verifyEvidence_iff` spells out what `verify_evidence`
checks.

A store that verifies need not do so after the next call: an envelope is inserted
without a look at its artifact hash and may have no lineage hash, and an edge is
inserted whether the child declares its parent or not.  `verified_iff` is exact
about the runs in which every store verifies.
-/

set_option linter.unusedSectionVars false

namespace Qros.Evidence

open Qros.Lib

variable {P : Type} [BEq P] [Sha256 P]

/-! ## What a call does -/

/-- The envelope is new, and `append_artifact` takes it. -/
structure Inserts (s : EvidenceStore P) (e : EvidenceEnvelope P) : Prop where
  verifies : e.verify = true
  fresh : s.evidence.get? e.artifactHash = none
  parents : ∀ parent ∈ e.parentHashes, s.Has parent
  mirror : ∀ row ∈ s.objects.get? e.artifactHash, row.Mirrors e

/-- The arguments name a relation and two artifacts of the store. -/
structure Links (s : EvidenceStore P) (parentHash childHash name : String)
    (relation : LineageRelation) : Prop where
  known : LineageRelation.ofName? name = some relation
  parent : s.Has parentHash
  child : s.Has childHash

def insertEdges (lineage : List LineageEdge) (e : EvidenceEnvelope P) : List LineageEdge :=
  e.parentHashes.foldl
    (fun lineage parent ↦
      insertEdge lineage ⟨parent, e.artifactHash, defaultRelation e.artifactType⟩) lineage

def mirrored (objects : Dict String (ObjectRow P)) (e : EvidenceEnvelope P) :
    Dict String (ObjectRow P) :=
  match objects.get? e.artifactHash with
  | some _ => objects
  | none => objects.set e.artifactHash ⟨"EvidenceEnvelope", some e⟩

def EvidenceStore.inserted (s : EvidenceStore P) (e : EvidenceEnvelope P) : EvidenceStore P where
  evidence := s.evidence.set e.artifactHash e.row
  lineage := insertEdges s.lineage e
  objects := mirrored s.objects e

variable {artifactHash : String} {s : EvidenceStore P} {e : EvidenceEnvelope P}

theorem requireParents_eq_ok {parents : List String} {u : Unit} :
    requireParents s artifactHash parents = .ok u ↔ ∀ parent ∈ parents, s.Has parent := by
  induction parents with
  | nil => exact iff_of_true rfl nofun
  | cons parent parents ih =>
    rw [requireParents, bind_eq_ok, List.forall_mem_cons, ← ih]
    constructor
    · rintro ⟨_, hparent, h⟩
      exact ⟨require_eq_ok.mp hparent, h⟩
    · rintro ⟨hparent, h⟩
      exact ⟨(), require_eq_ok.mpr hparent, h⟩

theorem insertEvidenceMirror_eq_ok {objects objects' : Dict String (ObjectRow P)} :
    insertEvidenceMirror objects e = .ok objects' ↔
      (∀ row ∈ objects.get? e.artifactHash, row.Mirrors e) ∧ mirrored objects e = objects' := by
  unfold insertEvidenceMirror mirrored
  cases objects.get? e.artifactHash with
  | none =>
    exact ⟨fun h ↦ ⟨nofun, Except.ok.inj h⟩, fun h ↦ congrArg Except.ok h.2⟩
  | some row =>
    rw [bind_eq_ok]
    constructor
    · rintro ⟨_, hrow, h⟩
      refine ⟨fun row' hrow' ↦ ?_, Except.ok.inj h⟩
      cases hrow'
      exact require_eq_ok.mp hrow
    · rintro ⟨hrow, h⟩
      exact ⟨(), require_eq_ok.mpr (hrow row rfl), congrArg Except.ok h⟩

theorem appendArtifact_of_inserts (h : Inserts s e) :
    appendArtifact s e = .ok (e, s.inserted e) := by
  unfold appendArtifact
  refine bind_eq_ok.mpr ⟨(), require_eq_ok.mpr h.verifies, ?_⟩
  rw [h.fresh]
  refine bind_eq_ok.mpr ⟨(), requireParents_eq_ok.mpr h.parents, ?_⟩
  exact bind_eq_ok.mpr ⟨_, insertEvidenceMirror_eq_ok.mpr ⟨h.mirror, rfl⟩, rfl⟩

theorem appendArtifact_of_not_inserts {s s' : EvidenceStore P} {e stored : EvidenceEnvelope P}
    (h : appendArtifact s e = .ok (stored, s')) (hnot : ¬ Inserts s e) : s' = s := by
  unfold appendArtifact at h
  obtain ⟨_, hverifies, h⟩ := bind_eq_ok.mp h
  split at h
  · obtain ⟨_, _, h⟩ := bind_eq_ok.mp h
    exact (Prod.ext_iff.mp (Except.ok.inj h)).2.symm
  · rename_i hfresh
    obtain ⟨_, hparents, h⟩ := bind_eq_ok.mp h
    obtain ⟨_, hmirror, h⟩ := bind_eq_ok.mp h
    exact absurd ⟨require_eq_ok.mp hverifies, hfresh, requireParents_eq_ok.mp hparents,
      (insertEvidenceMirror_eq_ok.mp hmirror).1⟩ hnot

theorem addLineageEdge_eq_ok {s s' : EvidenceStore P} {parentHash childHash name : String} :
    addLineageEdge s parentHash childHash name = .ok s' ↔
      ∃ relation, Links s parentHash childHash name relation ∧
        s' = { s with lineage := insertEdge s.lineage ⟨parentHash, childHash, relation⟩ } := by
  unfold addLineageEdge
  rw [bind_eq_ok]
  constructor
  · rintro ⟨relation, hknown, h⟩
    obtain ⟨_, hparent, h⟩ := bind_eq_ok.mp h
    obtain ⟨_, hchild, h⟩ := bind_eq_ok.mp h
    exact ⟨relation, ⟨found_eq_ok.mp hknown, require_eq_ok.mp hparent, require_eq_ok.mp hchild⟩,
      (Except.ok.inj h).symm⟩
  · rintro ⟨relation, h, rfl⟩
    refine ⟨relation, found_eq_ok.mpr h.known, bind_eq_ok.mpr ⟨(), require_eq_ok.mpr h.parent, ?_⟩⟩
    exact bind_eq_ok.mpr ⟨(), require_eq_ok.mpr h.child, rfl⟩

def EvidenceCall.after (s : EvidenceStore P) (call : EvidenceCall P) : EvidenceStore P :=
  match call.run s with
  | .ok (_, s') => s'
  | .error _ => s

theorem after_concat (objects : Dict String (ObjectRow P)) (calls : List (EvidenceCall P))
    (call : EvidenceCall P) : (evidenceRepository objects).after (calls ++ [call]) =
      call.after ((evidenceRepository objects).after calls) := by
  rw [Machine.after_concat]
  show (match call.run ((evidenceRepository objects).after calls) with
    | .ok (answer, s') => (Except.ok answer, s')
    | .error message => (Except.error message, (evidenceRepository objects).after calls)).2 = _
  unfold EvidenceCall.after
  cases call.run ((evidenceRepository objects).after calls) with
  | ok r => rfl
  | error message => rfl

section After

variable {s : EvidenceStore P} {e : EvidenceEnvelope P} {parentHash childHash name : String}

theorem after_append_of_inserts (h : Inserts s e) :
    (EvidenceCall.appendArtifact e).after s = s.inserted e := by
  rw [EvidenceCall.after, EvidenceCall.run, appendArtifact_of_inserts h]
  rfl

theorem after_append_of_not_inserts (h : ¬ Inserts s e) :
    (EvidenceCall.appendArtifact e).after s = s := by
  rw [EvidenceCall.after, EvidenceCall.run]
  cases hrun : appendArtifact s e with
  | ok r => exact appendArtifact_of_not_inserts hrun h
  | error message => rfl

theorem after_addEdge_of_links {relation : LineageRelation}
    (h : Links s parentHash childHash name relation) :
    (EvidenceCall.addLineageEdge parentHash childHash name).after s =
      { s with lineage := insertEdge s.lineage ⟨parentHash, childHash, relation⟩ } := by
  rw [EvidenceCall.after, EvidenceCall.run, addLineageEdge_eq_ok.mpr ⟨relation, h, rfl⟩]
  rfl

theorem after_addEdge_of_not_links
    (h : ∀ relation, ¬ Links s parentHash childHash name relation) :
    (EvidenceCall.addLineageEdge parentHash childHash name).after s = s := by
  rw [EvidenceCall.after, EvidenceCall.run]
  cases hrun : addLineageEdge s parentHash childHash name with
  | ok s' =>
    obtain ⟨relation, hlinks, _⟩ := addLineageEdge_eq_ok.mp hrun
    exact (h relation hlinks).elim
  | error message => rfl

end After

theorem mem_insertEdge {lineage : List LineageEdge} {edge edge' : LineageEdge} :
    edge ∈ insertEdge lineage edge' ↔ edge ∈ lineage ∨ edge = edge' := by
  unfold insertEdge
  split
  · rename_i hmem
    exact ⟨.inl, fun h ↦ h.elim id fun heq ↦ heq ▸ hmem⟩
  · rw [List.mem_append, List.mem_singleton]

variable {edge : LineageEdge} {row : EvidenceRow P}

theorem mem_insertEdges {lineage : List LineageEdge} :
    edge ∈ insertEdges lineage e ↔ edge ∈ lineage ∨
      ∃ parent ∈ e.parentHashes,
        edge = ⟨parent, e.artifactHash, defaultRelation e.artifactType⟩ := by
  unfold insertEdges
  induction e.parentHashes generalizing lineage with
  | nil => simp
  | cons parent parents ih =>
    rw [List.foldl_cons, ih, mem_insertEdge, or_assoc]
    simp only [List.mem_cons, exists_eq_or_imp]

/-! ## Lookups after an insertion -/

namespace Inserts

variable {s : EvidenceStore P} {e : EvidenceEnvelope P}

theorem get?_inserted (s : EvidenceStore P) (e : EvidenceEnvelope P) (artifactHash : String) :
    (s.inserted e).evidence.get? artifactHash =
      if e.artifactHash = artifactHash then some e.row else s.evidence.get? artifactHash :=
  Dict.get?_set _ _ _ _

theorem ne_of_has (h : Inserts s e) {artifactHash : String} (hhas : s.Has artifactHash) :
    e.artifactHash ≠ artifactHash := by
  rintro rfl
  unfold EvidenceStore.Has at hhas
  rw [h.fresh] at hhas
  cases hhas

theorem get?_of_has (h : Inserts s e) {artifactHash : String} (hhas : s.Has artifactHash) :
    (s.inserted e).evidence.get? artifactHash = s.evidence.get? artifactHash := by
  rw [get?_inserted, if_neg (h.ne_of_has hhas)]

theorem row_cases {artifactHash : String} {row : EvidenceRow P}
    (hget : (s.inserted e).evidence.get? artifactHash = some row) :
    (artifactHash = e.artifactHash ∧ row = e.row) ∨ s.evidence.get? artifactHash = some row := by
  rw [get?_inserted] at hget
  split at hget
  · rename_i heq
    exact .inl ⟨heq.symm, (Option.some.inj hget).symm⟩
  · exact .inr hget

theorem has_of_has (h : Inserts s e) {artifactHash : String} (hhas : s.Has artifactHash) :
    (s.inserted e).Has artifactHash := by
  unfold EvidenceStore.Has
  rw [h.get?_of_has hhas]
  exact hhas

theorem has_self (s : EvidenceStore P) (e : EvidenceEnvelope P) :
    (s.inserted e).Has e.artifactHash := by
  unfold EvidenceStore.Has
  rw [get?_inserted, if_pos rfl]
  rfl

end Inserts

theorem EvidenceStore.has_of_get? (h : s.evidence.get? artifactHash = some row) :
    s.Has artifactHash := by
  rw [EvidenceStore.Has, h]
  rfl

/-! ## What is verified -/

/-- The child declares the parent, and the relation is one that it may have. -/
def Declares (s : EvidenceStore P) (edge : LineageEdge) : Prop :=
  ∃ child, s.evidence.get? edge.childHash = some child ∧ edge.parentHash ∈ child.parentHashes ∧
    edge.relation ∈ allowedRelations child.artifactType

structure Verified (s : EvidenceStore P) : Prop where
  artifact : ∀ artifactHash row, s.evidence.get? artifactHash = some row →
    computeArtifactHash row.artifactType row.version row.payload = artifactHash
  lineageHash : ∀ artifactHash row, s.evidence.get? artifactHash = some row →
    computeLineageHash row.artifactType row.version row.payload row.parentHashes = row.lineageHash
  parents : ∀ artifactHash row, s.evidence.get? artifactHash = some row →
    ∀ parent ∈ row.parentHashes, s.Has parent
  edges : ∀ edge ∈ s.lineage, s.Has edge.parentHash ∧ Declares s edge
  declared : ∀ artifactHash row, s.evidence.get? artifactHash = some row →
    ∀ parent ∈ row.parentHashes, ∃ relation ∈ allowedRelations row.artifactType,
      ⟨parent, artifactHash, relation⟩ ∈ s.lineage

theorem Inserts.declares (h : Inserts s e) (hdeclares : Declares s edge) :
    Declares (s.inserted e) edge := by
  obtain ⟨child, hchild, hrest⟩ := hdeclares
  exact ⟨child, by rw [h.get?_of_has (EvidenceStore.has_of_get? hchild), hchild], hrest⟩

theorem rowVerifies_iff :
    rowVerifies s artifactHash row = true ↔
      computeArtifactHash row.artifactType row.version row.payload = artifactHash ∧
        computeLineageHash row.artifactType row.version row.payload row.parentHashes =
          row.lineageHash ∧ ∀ parent ∈ row.parentHashes, s.Has parent := by
  simp [rowVerifies, and_assoc]

theorem edgeVerifies_iff :
    edgeVerifies s edge = true ↔ s.Has edge.parentHash ∧ Declares s edge := by
  simp only [edgeVerifies, Declares, Bool.and_eq_true, decide_eq_true_eq]
  cases hchild : s.evidence.get? edge.childHash with
  | none => simp
  | some child => simp [EvidenceStore.has_of_get? hchild]

theorem parentsDeclared_iff :
    parentsDeclared s artifactHash row = true ↔
      ∀ parent ∈ row.parentHashes, ∃ relation ∈ allowedRelations row.artifactType,
        ⟨parent, artifactHash, relation⟩ ∈ s.lineage := by
  simp [parentsDeclared]

theorem all_entries_iff {d : Dict String (EvidenceRow P)} {p : String → EvidenceRow P → Bool} :
    (d.entries.all fun entry ↦ p entry.1 entry.2) = true ↔
      ∀ artifactHash row, d.get? artifactHash = some row → p artifactHash row = true := by
  rw [List.all_eq_true]
  constructor
  · intro h artifactHash row hget
    exact h (artifactHash, row) (Dict.mem_entries.mpr hget)
  · rintro h ⟨artifactHash, row⟩ hmem
    exact h artifactHash row (Dict.mem_entries.mp hmem)

theorem verifyEvidence_iff : verifyEvidence s = true ↔ Verified s := by
  rw [verifyEvidence, Bool.and_eq_true, Bool.and_eq_true, all_entries_iff, all_entries_iff,
    List.all_eq_true]
  simp only [rowVerifies_iff, edgeVerifies_iff, parentsDeclared_iff]
  constructor
  · rintro ⟨⟨hrows, hedges⟩, hdeclared⟩
    exact ⟨fun h row hget ↦ (hrows h row hget).1, fun h row hget ↦ (hrows h row hget).2.1,
      fun h row hget ↦ (hrows h row hget).2.2, hedges, hdeclared⟩
  · rintro ⟨hartifact, hlineage, hparents, hedges, hdeclared⟩
    exact ⟨⟨fun h row hget ↦ ⟨hartifact h row hget, hlineage h row hget, hparents h row hget⟩,
      hedges⟩, hdeclared⟩

/-! ## Calls that keep a store verified -/

section

variable {s : EvidenceStore P} {e : EvidenceEnvelope P}

theorem verified_inserted_iff (hs : Verified s) (h : Inserts s e) :
    Verified (s.inserted e) ↔ e.Genuine := by
  have hself : (s.inserted e).evidence.get? e.artifactHash = some e.row := by
    rw [Inserts.get?_inserted, if_pos rfl]
  constructor
  · intro hv
    exact ⟨(hv.artifact _ _ hself).symm, (hv.lineageHash _ _ hself).symm⟩
  · rintro ⟨hartifact, hlineage⟩
    constructor
    · intro artifactHash row hget
      rcases Inserts.row_cases hget with ⟨rfl, rfl⟩ | hget
      · exact hartifact.symm
      · exact hs.artifact _ _ hget
    · intro artifactHash row hget
      rcases Inserts.row_cases hget with ⟨rfl, rfl⟩ | hget
      · exact hlineage.symm
      · exact hs.lineageHash _ _ hget
    · intro artifactHash row hget parent hparent
      rcases Inserts.row_cases hget with ⟨rfl, rfl⟩ | hget
      · exact h.has_of_has (h.parents parent hparent)
      · exact h.has_of_has (hs.parents _ _ hget parent hparent)
    · intro edge hedge
      rcases mem_insertEdges.mp hedge with hedge | ⟨parent, hparent, rfl⟩
      · obtain ⟨hhas, hdecl⟩ := hs.edges edge hedge
        exact ⟨h.has_of_has hhas, h.declares hdecl⟩
      · exact ⟨h.has_of_has (h.parents parent hparent), e.row, hself, hparent, List.mem_cons_self⟩
    · intro artifactHash row hget parent hparent
      rcases Inserts.row_cases hget with ⟨rfl, rfl⟩ | hget
      · exact ⟨_, List.mem_cons_self, mem_insertEdges.mpr (.inr ⟨parent, hparent, rfl⟩)⟩
      · obtain ⟨relation, hallowed, hmem⟩ := hs.declared _ _ hget parent hparent
        exact ⟨relation, hallowed, mem_insertEdges.mpr (.inl hmem)⟩

theorem verified_insertEdge_iff (hs : Verified s) {edge : LineageEdge}
    (hparent : s.Has edge.parentHash) :
    Verified { s with lineage := insertEdge s.lineage edge } ↔ Declares s edge := by
  constructor
  · intro hv
    exact (hv.edges edge (mem_insertEdge.mpr (.inr rfl))).2
  · intro hdeclares
    refine ⟨hs.artifact, hs.lineageHash, hs.parents, ?_, ?_⟩
    · intro edge' hedge
      rcases mem_insertEdge.mp hedge with hedge | rfl
      · exact hs.edges edge' hedge
      · exact ⟨hparent, hdeclares⟩
    · intro artifactHash row hget parent hmem
      obtain ⟨relation, hallowed, hedge⟩ := hs.declared _ _ hget parent hmem
      exact ⟨relation, hallowed, mem_insertEdge.mpr (.inl hedge)⟩

end

/-! ## Every run -/

def IntegrityKept (s : EvidenceStore P) : EvidenceCall P → Prop
  | .appendArtifact e => Inserts s e → e.Genuine
  | .addLineageEdge parentHash childHash name =>
    ∀ relation, Links s parentHash childHash name relation →
      Declares s ⟨parentHash, childHash, relation⟩

theorem verified_after_iff (hs : Verified s) (call : EvidenceCall P) :
    Verified (call.after s) ↔ IntegrityKept s call := by
  cases call with
  | appendArtifact e =>
    by_cases h : Inserts s e
    · rw [after_append_of_inserts h, verified_inserted_iff hs h]
      exact ⟨fun hg _ ↦ hg, fun hk ↦ hk h⟩
    · rw [after_append_of_not_inserts h]
      exact iff_of_true hs fun hi ↦ absurd hi h
  | addLineageEdge parentHash childHash name =>
    by_cases h : ∃ relation, Links s parentHash childHash name relation
    · obtain ⟨relation, h⟩ := h
      rw [after_addEdge_of_links h, verified_insertEdge_iff hs h.parent]
      constructor
      · intro hdeclares relation' h'
        obtain rfl : relation = relation' := Option.some.inj (h.known.symm.trans h'.known)
        exact hdeclares
      · intro hk
        exact hk relation h
    · rw [after_addEdge_of_not_links fun relation hl ↦ h ⟨relation, hl⟩]
      exact iff_of_true hs fun relation hl ↦ absurd ⟨relation, hl⟩ h

/-- Every store of a run verifies just when every call keeps the integrity. -/
theorem verified_iff (objects : Dict String (ObjectRow P)) (calls : List (EvidenceCall P)) :
    (∀ pre, pre <+: calls → verifyEvidence ((evidenceRepository objects).after pre) = true) ↔
      Meets (fun pre call ↦ IntegrityKept ((evidenceRepository objects).after pre) call) calls := by
  refine safe_iff_meets (B := fun _ _ ↦ True) (fun _ _ _ ↦ trivial) rfl ?_
  intro is call _ _ hsafe _
  rw [verifyEvidence_iff, after_concat]
  exact verified_after_iff (verifyEvidence_iff.mp (hsafe is (List.prefix_refl is))) call

/-! ## Stores that do not verify -/

/-- The digests of the contents of two artifacts with the payloads `true` and `false`. -/
instance : Sha256 Bool where
  sha256 content :=
    if content = ⟨"2", "Dataset", "", true, none⟩ then
      "442e05da705b6265127906e8f460e40635212db7c6866cad659823d8ab876d43"
    else if content = ⟨"2", "Dataset", "", true, some []⟩ then
      "de97dc1f2f7a4524ade4976f19e3a227ba2fe0b754b26c6609beb536d85897ea"
    else if content = ⟨"2", "Feature", "", false, none⟩ then
      "35adf2a06808ab097260a99d28462827ef8dc067684c988d14c24bae5320b784"
    else if content = ⟨"2", "Feature", "", false, some []⟩ then
      "87c7c1a6fdbc0b798fc58e364c3b26693ffeda27563ed9ec6d28e5547ed7eea0"
    else ""

def sampleDataset : EvidenceEnvelope Bool where
  artifactType := .dataset
  artifactHash := "442e05da705b6265127906e8f460e40635212db7c6866cad659823d8ab876d43"
  payload := true
  version := ""
  createdAt := ""
  parentHashes := []
  lineageHash := "de97dc1f2f7a4524ade4976f19e3a227ba2fe0b754b26c6609beb536d85897ea"
  artifactHash_ne := by decide
  parents_sorted := List.Pairwise.nil

def sampleFeature : EvidenceEnvelope Bool where
  artifactType := .feature
  artifactHash := "35adf2a06808ab097260a99d28462827ef8dc067684c988d14c24bae5320b784"
  payload := false
  version := ""
  createdAt := ""
  parentHashes := []
  lineageHash := "87c7c1a6fdbc0b798fc58e364c3b26693ffeda27563ed9ec6d28e5547ed7eea0"
  artifactHash_ne := by decide
  parents_sorted := List.Pairwise.nil

/-- `EvidenceEnvelope("Dataset", "abc", True)`, without a lineage hash. -/
def sampleUnhashed : EvidenceEnvelope Bool where
  artifactType := .dataset
  artifactHash := "abc"
  payload := true
  version := ""
  createdAt := ""
  parentHashes := []
  lineageHash := ""
  artifactHash_ne := by decide
  parents_sorted := List.Pairwise.nil

/-- An envelope with a hash of its own is stored, and so is an edge that the child does not declare. -/
theorem unverified_stores :
    verifyEvidence ((evidenceRepository (P := Bool) ∅).after [.appendArtifact sampleUnhashed]) =
    false ∧
      verifyEvidence ((evidenceRepository (P := Bool) ∅).after
        [.appendArtifact sampleDataset, .appendArtifact sampleFeature]) = true ∧
      verifyEvidence ((evidenceRepository (P := Bool) ∅).after
        [.appendArtifact sampleDataset, .appendArtifact sampleFeature,
          .addLineageEdge sampleDataset.artifactHash sampleFeature.artifactHash "feeds"]) = false := by
  refine ⟨by decide +kernel, by decide +kernel, by decide +kernel⟩

end Qros.Evidence
