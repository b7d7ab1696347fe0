import Mathlib.Data.Prod.Lex
import Qros.Evidence.Integrity
import Qros.Lib.Graph

/-!
# Lineage queries

`LineageQueryEngine` of `researchos/evidence/lineage.py`: the ancestors and descendants of an artifact,
a shortest path between two, and the explanation of one.
-/

/-!
## Cycles in the lineage

An envelope that is appended is new, so nothing descends from it, and the edges
to it close no cycle.  An edge that is added later may: `addLineageEdge` asks only
that both ends are stored.  `acyclic_iff` is exact about the runs in which the
lineage has no cycle at any time.
-/

set_option linter.unusedSectionVars false

namespace Qros.Evidence

open Qros.Lib
open Relation

variable {P : Type} [BEq P] [Sha256 P]

/-- The lineage, whatever the relation of its edges. -/
def Parent (s : EvidenceStore P) (parentHash childHash : String) : Prop :=
  ∃ relation, ⟨parentHash, childHash, relation⟩ ∈ s.lineage

/-- Edges join stored artifacts. -/
def Closed (s : EvidenceStore P) : Prop :=
  ∀ parentHash childHash, Parent s parentHash childHash → s.Has parentHash ∧ s.Has childHash

section Steps

variable {s : EvidenceStore P} {e : EvidenceEnvelope P}

theorem parent_inserted_iff {x y : String} : Parent (s.inserted e) x y ↔
    Parent s x y ∨ (x ∈ e.parentHashes ∧ y = e.artifactHash) := by
  constructor
  · rintro ⟨relation, hedge⟩
    rcases mem_insertEdges.mp hedge with hedge | ⟨parent, hparent, heq⟩
    · exact .inl ⟨relation, hedge⟩
    · obtain ⟨rfl, rfl, rfl⟩ := LineageEdge.mk.inj heq
      exact .inr ⟨hparent, rfl⟩
  · rintro (⟨relation, hedge⟩ | ⟨hparent, rfl⟩)
    · exact ⟨relation, mem_insertEdges.mpr (.inl hedge)⟩
    · exact ⟨_, mem_insertEdges.mpr (.inr ⟨x, hparent, rfl⟩)⟩

theorem parent_insertEdge_iff {parentHash childHash : String} {relation : LineageRelation}
    {x y : String} :
    Parent { s with lineage := insertEdge s.lineage ⟨parentHash, childHash, relation⟩ } x y ↔
      AddEdge (Parent s) parentHash childHash x y := by
  constructor
  · rintro ⟨relation', hedge⟩
    rcases mem_insertEdge.mp hedge with hedge | heq
    · exact .inl ⟨relation', hedge⟩
    · obtain ⟨rfl, rfl, rfl⟩ := LineageEdge.mk.inj heq
      exact .inr ⟨rfl, rfl⟩
  · rintro (⟨relation', hedge⟩ | ⟨rfl, rfl⟩)
    · exact ⟨relation', mem_insertEdge.mpr (.inl hedge)⟩
    · exact ⟨relation, mem_insertEdge.mpr (.inr rfl)⟩

theorem Closed.inserted (hs : Closed s) (h : Inserts s e) : Closed (s.inserted e) := by
  intro x y hxy
  rcases parent_inserted_iff.mp hxy with hxy | ⟨hx, rfl⟩
  · exact ⟨h.has_of_has (hs x y hxy).1, h.has_of_has (hs x y hxy).2⟩
  · exact ⟨h.has_of_has (h.parents x hx), Inserts.has_self s e⟩

theorem Closed.after (hs : Closed s) (call : EvidenceCall P) : Closed (call.after s) := by
  cases call with
  | appendArtifact e =>
    by_cases h : Inserts s e
    · rw [after_append_of_inserts h]
      exact hs.inserted h
    · rwa [after_append_of_not_inserts h]
  | addLineageEdge parentHash childHash name =>
    by_cases h : ∃ relation, Links s parentHash childHash name relation
    · obtain ⟨relation, h⟩ := h
      rw [after_addEdge_of_links h]
      intro x y hxy
      rcases parent_insertEdge_iff.mp hxy with hxy | ⟨rfl, rfl⟩
      · exact hs x y hxy
      · exact ⟨h.parent, h.child⟩
    · rwa [after_addEdge_of_not_links fun relation hl ↦ h ⟨relation, hl⟩]

theorem acyclic_inserted (hs : Closed s) (h : Inserts s e) (hacyclic : Acyclic (Parent s)) :
    Acyclic (Parent (s.inserted e)) := by
  refine hacyclic.addSink (n := e.artifactHash) (fun x y hxy ↦ ?_) (fun y hy ↦ ?_)
  · exact (parent_inserted_iff.mp hxy).imp_right And.right
  · rcases parent_inserted_iff.mp hy with hy | ⟨hself, _⟩
    · exact h.ne_of_has (hs _ _ hy).1 rfl
    · exact h.ne_of_has (h.parents _ hself) rfl

end Steps

/-! ## Every run -/

/-- An edge that is inserted closes no path. -/
def DagKept (s : EvidenceStore P) : EvidenceCall P → Prop
  | .appendArtifact _ => True
  | .addLineageEdge parentHash childHash name =>
    ∀ relation, Links s parentHash childHash name relation →
      ¬ ReflTransGen (Parent s) childHash parentHash

theorem acyclic_after_iff {s : EvidenceStore P} (hclosed : Closed s) (hs : Acyclic (Parent s))
    (call : EvidenceCall P) : Acyclic (Parent (call.after s)) ↔ DagKept s call := by
  cases call with
  | appendArtifact e =>
    refine iff_of_true ?_ trivial
    by_cases h : Inserts s e
    · rw [after_append_of_inserts h]
      exact acyclic_inserted hclosed h hs
    · rwa [after_append_of_not_inserts h]
  | addLineageEdge parentHash childHash name =>
    by_cases h : ∃ relation, Links s parentHash childHash name relation
    · obtain ⟨relation, h⟩ := h
      rw [after_addEdge_of_links h, acyclic_congr fun x y ↦ parent_insertEdge_iff,
        acyclic_addEdge_iff]
      constructor
      · rintro ⟨_, hpath⟩ _ _
        exact hpath
      · intro hk
        exact ⟨hs, hk relation h⟩
    · rw [after_addEdge_of_not_links fun relation hl ↦ h ⟨relation, hl⟩]
      exact iff_of_true hs fun relation hl ↦ absurd ⟨relation, hl⟩ h

theorem closed_run (objects : Dict String (ObjectRow P)) (calls : List (EvidenceCall P)) :
    Closed ((evidenceRepository objects).after calls) := by
  induction calls using List.reverseRecOn with
  | nil =>
    rintro x y ⟨relation, hedge⟩
    cases hedge
  | append_singleton calls call ih =>
    rw [after_concat]
    exact ih.after call

/-- The lineage of a run never has a cycle just when no edge that is added closes a path. -/
theorem acyclic_iff (objects : Dict String (ObjectRow P)) (calls : List (EvidenceCall P)) :
    (∀ pre, pre <+: calls → Acyclic (Parent ((evidenceRepository objects).after pre))) ↔
      Meets (fun pre call ↦ DagKept ((evidenceRepository objects).after pre) call) calls := by
  refine safe_iff_meets (B := fun _ _ ↦ True) (fun _ _ _ ↦ trivial) ?_ ?_
  · intro x hx
    obtain ⟨y, ⟨relation, hedge⟩, _⟩ := TransGen.head'_iff.mp hx
    cases hedge
  · intro is call _ _ hsafe _
    rw [after_concat]
    exact acyclic_after_iff (closed_run objects is) (hsafe is (List.prefix_refl is)) call

/-- Two artifacts, and an edge in either direction. -/
def sampleCycle : List (EvidenceCall Bool) :=
  [.appendArtifact sampleDataset, .appendArtifact sampleFeature,
    .addLineageEdge sampleDataset.artifactHash sampleFeature.artifactHash "feeds",
    .addLineageEdge sampleFeature.artifactHash sampleDataset.artifactHash "feeds"]

/-- Two artifacts become each other's ancestors. -/
theorem lineage_cycle : ¬ Acyclic (Parent ((evidenceRepository ∅).after sampleCycle)) := by
  have hdown : Parent ((evidenceRepository ∅).after sampleCycle) sampleDataset.artifactHash
      sampleFeature.artifactHash := ⟨.feeds, by decide +kernel⟩
  have hup : Parent ((evidenceRepository ∅).after sampleCycle) sampleFeature.artifactHash
      sampleDataset.artifactHash := ⟨.feeds, by decide +kernel⟩
  intro h
  exact h _ (.tail (.single hdown) hup)

end Qros.Evidence

namespace Qros.Evidence

open Qros.Lib
open Relation

variable {P : Type}

/-! ## Queries -/

def getArtifact (s : EvidenceStore P) (artifactHash : String) : Option (EvidenceEnvelope P) :=
  if h : artifactHash = "" then none
  else (s.evidence.get? artifactHash).map fun row ↦ row.envelope artifactHash h

/-- `SELECT DISTINCT parent_hash FROM lineage WHERE child_hash = ? ORDER BY parent_hash`. -/
def getParents (s : EvidenceStore P) (artifactHash : String) : List String :=
  sorted ((s.lineage.filter fun edge ↦ edge.childHash = artifactHash).map
    LineageEdge.parentHash).dedup

/-- `SELECT DISTINCT child_hash FROM lineage WHERE parent_hash = ? ORDER BY child_hash`. -/
def getChildren (s : EvidenceStore P) (artifactHash : String) : List String :=
  sorted ((s.lineage.filter fun edge ↦ edge.parentHash = artifactHash).map
    LineageEdge.childHash).dedup

def parentsOf (s : EvidenceStore P) (artifactHash : String) : List String :=
  sorted (getParents s artifactHash)

def childrenOf (s : EvidenceStore P) (artifactHash : String) : List String :=
  sorted (getChildren s artifactHash)

/-- The ends of the edges. -/
def endpoints (s : EvidenceStore P) : Finset String :=
  (s.lineage.flatMap fun edge ↦ [edge.parentHash, edge.childHash]).toFinset

theorem mem_sorted {xs : List String} {x : String} : x ∈ sorted xs ↔ x ∈ xs :=
  (List.perm_insertionSort _ xs).mem_iff

variable {s : EvidenceStore P}

variable {x y : String}

theorem mem_parentsOf :
    y ∈ parentsOf s x ↔ Parent s y x := by
  unfold parentsOf getParents
  rw [mem_sorted, mem_sorted, List.mem_dedup, List.mem_map]
  constructor
  · rintro ⟨⟨parentHash, childHash, relation⟩, hedge, rfl⟩
    obtain ⟨hstored, hchild⟩ := List.mem_filter.mp hedge
    obtain rfl := of_decide_eq_true hchild
    exact ⟨relation, hstored⟩
  · rintro ⟨relation, hedge⟩
    exact ⟨⟨y, x, relation⟩, List.mem_filter.mpr ⟨hedge, decide_eq_true rfl⟩, rfl⟩

theorem mem_childrenOf :
    y ∈ childrenOf s x ↔ Parent s x y := by
  unfold childrenOf getChildren
  rw [mem_sorted, mem_sorted, List.mem_dedup, List.mem_map]
  constructor
  · rintro ⟨⟨parentHash, childHash, relation⟩, hedge, rfl⟩
    obtain ⟨hstored, hparent⟩ := List.mem_filter.mp hedge
    obtain rfl := of_decide_eq_true hparent
    exact ⟨relation, hstored⟩
  · rintro ⟨relation, hedge⟩
    exact ⟨⟨x, y, relation⟩, List.mem_filter.mpr ⟨hedge, decide_eq_true rfl⟩, rfl⟩

theorem mem_endpoints (h : Parent s x y) :
    x ∈ endpoints s ∧ y ∈ endpoints s := by
  obtain ⟨relation, hedge⟩ := h
  constructor <;>
    exact List.mem_toFinset.mpr (List.mem_flatMap.mpr ⟨_, hedge, by simp⟩)

/-- The relation of parents and children, in either direction. -/
def Joined (s : EvidenceStore P) (x y : String) : Prop := Parent s x y ∨ Parent s y x

/-- A way to go on from the artifacts that satisfy `here`. -/
def lineageGraph (s : EvidenceStore P) (here : String → Bool) (near : String → List String)
    (hnear : ∀ x y, y ∈ near x → Joined s x y) : FiniteGraph String where
  next := fun x ↦ if here x = true then near x else []
  nodes := endpoints s
  mem_nodes := by
    intro x y hy
    split at hy
    · rcases hnear x y hy with h | h
      · exact mem_endpoints h
      · exact (mem_endpoints h).symm
    · cases hy

/-- The loop of `ancestors` and of `descendants`, over what is `near`. -/
def collect (s : EvidenceStore P) (near : String → List String)
    (hnear : ∀ x y, y ∈ near x → Joined s x y) (queue : List String) : List (EvidenceEnvelope P) :=
  let stored (x : String) : Bool := (getArtifact s x).isSome
  let visited := (lineageGraph s stored near hnear).sweep (fun _ _ ↦ true) queue []
  (sorted (visited.filter stored)).filterMap (getArtifact s)

theorem joined_of_mem_parentsOf (x y : String) (h : y ∈ parentsOf s x) :
    Joined s x y := .inr (mem_parentsOf.mp h)

theorem joined_of_mem_childrenOf (x y : String) (h : y ∈ childrenOf s x) :
    Joined s x y := .inl (mem_childrenOf.mp h)

def ancestors (s : EvidenceStore P) (artifactHash : String) : List (EvidenceEnvelope P) :=
  if (getArtifact s artifactHash).isNone = true then []
  else collect s (parentsOf s) joined_of_mem_parentsOf (parentsOf s artifactHash)

def descendants (s : EvidenceStore P) (artifactHash : String) : List (EvidenceEnvelope P) :=
  if (getArtifact s artifactHash).isNone = true then []
  else collect s (childrenOf s) joined_of_mem_childrenOf (childrenOf s artifactHash)

theorem mem_near_iff :
    y ∈ parentsOf s x ++ childrenOf s x ↔ Joined s x y := by
  rw [List.mem_append, mem_parentsOf, mem_childrenOf]
  exact or_comm

theorem joined_of_mem_near (x y : String) (h : y ∈ parentsOf s x ++ childrenOf s x) :
    Joined s x y := mem_near_iff.mp h

/-- `path`; the loop back to `parentHash` ends within `fuel` steps. -/
def path (fuel : Nat) (s : EvidenceStore P) (parentHash childHash : String) : Option (List String) :=
  let near (x : String) : List String := parentsOf s x ++ childrenOf s x
  if (getArtifact s parentHash).isNone = true ∨ (getArtifact s childHash).isNone = true then some []
  else if parentHash = childHash then some [parentHash]
  else
    let visitedSeed := (lineageGraph s (fun _ ↦ true) near joined_of_mem_near).sweep
      (fun visited n ↦ decide (n ∉ visited)) [parentHash, childHash] []
    -- `adj` lists what is near the artifacts of the first loop
    let adj := lineageGraph s (fun x ↦ decide (x ∈ visitedSeed)) near joined_of_mem_near
    adj.shortestWalk fuel parentHash childHash

def chainOrder : List String := ["Dataset", "Experiment", "Run", "Result", "Validation"]

/-- The key of the order; `idxOf` is the length of the list for a type that is not in it. -/
def sortKey (e : EvidenceEnvelope P) : ℕ ×ₗ String :=
  toLex (chainOrder.idxOf e.artifactType.name, e.artifactHash)

def orderedLineage (s : EvidenceStore P) (artifactHash : String) : List (EvidenceEnvelope P) :=
  let found := (ancestors s artifactHash).foldl (fun d a ↦ d.set a.artifactHash a)
    (∅ : Dict String (EvidenceEnvelope P))
  let all := match getArtifact s artifactHash with
    | some e => found.set artifactHash e
    | none => found
  all.values.insertionSort fun e e' ↦ sortKey e ≤ sortKey e'

def lineagePathHashes (s : EvidenceStore P) (artifactHash : String) : List String :=
  (orderedLineage s artifactHash).map EvidenceEnvelope.artifactHash

structure LineageNode (P : Type) where
  artifact : EvidenceEnvelope P
  artifactHash : String
  artifactType : ArtifactType
  verified : Bool

structure LineageExplanation (P : Type) where
  artifact : EvidenceEnvelope P
  artifactType : ArtifactType
  parents : List (LineageNode P)
  children : List (LineageNode P)
  lineagePath : List String

section Explain

variable [Sha256 P]

def LineageNode.fromEnvelope (envelope : EvidenceEnvelope P) : LineageNode P where
  artifact := envelope
  artifactHash := envelope.artifactHash
  artifactType := envelope.artifactType
  verified := envelope.verify

def explain (s : EvidenceStore P) (artifactHash : String) : Option (LineageExplanation P) :=
  (getArtifact s artifactHash).map fun env ↦ {
    artifact := env
    artifactType := env.artifactType
    parents := ((parentsOf s artifactHash).filterMap (getArtifact s)).map LineageNode.fromEnvelope
    children := ((childrenOf s artifactHash).filterMap (getArtifact s)).map LineageNode.fromEnvelope
    lineagePath := lineagePathHashes s artifactHash }

end Explain

/-! ## Stored artifacts -/

section

variable {s : EvidenceStore P} {a b x : String}

variable {e : EvidenceEnvelope P}

theorem artifactHash_of_getArtifact (h : getArtifact s x = some e) :
    e.artifactHash = x := by
  unfold getArtifact at h
  split at h
  · cases h
  · obtain ⟨row, -, rfl⟩ := Option.map_eq_some_iff.mp h
    rfl

/-- No artifact has an empty hash. -/
def Named (s : EvidenceStore P) : Prop := ¬ s.Has ""

theorem isSome_getArtifact (hs : Named s) : (getArtifact s x).isSome = true ↔ s.Has x := by
  unfold getArtifact
  split
  · rename_i hx
    subst hx
    exact iff_of_false Bool.false_ne_true hs
  · rw [Option.isSome_map]
    rfl

theorem mem_filterMap_getArtifact {xs : List String} :
    e ∈ xs.filterMap (getArtifact s) ↔ e.artifactHash ∈ xs ∧ getArtifact s e.artifactHash =
    some e := by
  rw [List.mem_filterMap]
  constructor
  · rintro ⟨x, hx, he⟩
    obtain rfl := artifactHash_of_getArtifact he
    exact ⟨hx, he⟩
  · rintro ⟨hx, he⟩
    exact ⟨e.artifactHash, hx, he⟩

theorem map_artifactHash_filterMap {xs : List String}
    (h : ∀ x ∈ xs, (getArtifact s x).isSome = true) :
    (xs.filterMap (getArtifact s)).map EvidenceEnvelope.artifactHash = xs := by
  induction xs with
  | nil => rfl
  | cons x xs ih =>
    obtain ⟨hx, hxs⟩ := List.forall_mem_cons.mp h
    obtain ⟨e, he⟩ := Option.isSome_iff_exists.mp hx
    rw [List.filterMap_cons_some he, List.map_cons, ih hxs, artifactHash_of_getArtifact he]

/-- Edges join artifacts that are found. -/
def Found (s : EvidenceStore P) : Prop :=
  ∀ x y, Joined s x y → (getArtifact s x).isSome = true

theorem found_of_closed (hs : Named s) (hclosed : Closed s) : Found s := by
  intro x y h
  rw [isSome_getArtifact hs]
  rcases h with h | h
  · exact (hclosed x y h).1
  · exact (hclosed y x h).2

variable {near : String → List String} {hnear : ∀ x y, y ∈ near x → Joined s x y}

theorem adj_lineageGraph {here : String → Bool} {y : String} :
    (lineageGraph s here near hnear).Adj x y ↔ here x = true ∧ y ∈ near x := by
  unfold FiniteGraph.Adj lineageGraph
  dsimp only
  split
  · rename_i h
    exact (and_iff_right h).symm
  · rename_i h
    exact iff_of_false List.not_mem_nil fun hand ↦ h hand.1

theorem not_isNone (h : (getArtifact s a).isSome = true) : ¬ (getArtifact s a).isNone = true := by
  rw [Option.isNone_iff_eq_none, ← ne_eq, Option.ne_none_iff_isSome]
  exact h

theorem mem_collect (hfound : Found s) :
    e ∈ collect s near hnear (near a) ↔
      getArtifact s e.artifactHash = some e ∧ TransGen (fun x y ↦ y ∈ near x) a e.artifactHash := by
  have hadj : (lineageGraph s (fun x ↦ (getArtifact s x).isSome) near hnear).Adj =
      fun x y ↦ y ∈ near x := by
    funext x y
    exact propext (adj_lineageGraph.trans (and_iff_right_of_imp fun h ↦ hfound x y (hnear x y h)))
  unfold collect
  dsimp only
  rw [mem_filterMap_getArtifact, mem_sorted, List.mem_filter,
    FiniteGraph.mem_sweep fun _ _ _ ↦ rfl, hadj, TransGen.head'_iff]
  constructor
  · rintro ⟨⟨hreached, -⟩, he⟩
    exact ⟨he, hreached⟩
  · rintro ⟨he, hreached⟩
    exact ⟨⟨hreached, he ▸ rfl⟩, he⟩

theorem nodup_collect {queue : List String} :
    ((collect s near hnear queue).map EvidenceEnvelope.artifactHash).Nodup := by
  unfold collect
  dsimp only
  rw [map_artifactHash_filterMap fun x hx ↦ (List.mem_filter.mp (mem_sorted.mp hx)).2]
  refine (List.perm_insertionSort _ _).nodup_iff.mpr (List.Nodup.filter _ ?_)
  exact FiniteGraph.nodup_sweep List.nodup_nil

theorem mem_ancestors (hfound : Found s) (ha : (getArtifact s a).isSome = true) :
    e ∈ ancestors s a ↔
      getArtifact s e.artifactHash = some e ∧ TransGen (Parent s) e.artifactHash a := by
  unfold ancestors
  rw [if_neg (not_isNone ha), mem_collect hfound]
  simp only [mem_parentsOf]
  exact and_congr_right fun _ ↦ transGen_swap

theorem mem_descendants (hfound : Found s) (ha : (getArtifact s a).isSome = true) :
    e ∈ descendants s a ↔
      getArtifact s e.artifactHash = some e ∧ TransGen (Parent s) a e.artifactHash := by
  unfold descendants
  rw [if_neg (not_isNone ha), mem_collect hfound]
  simp only [mem_childrenOf]

theorem nodup_ancestors : ((ancestors s a).map EvidenceEnvelope.artifactHash).Nodup := by
  unfold ancestors
  split
  · exact List.nodup_nil
  · exact nodup_collect

theorem nodup_descendants : ((descendants s a).map EvidenceEnvelope.artifactHash).Nodup := by
  unfold descendants
  split
  · exact List.nodup_nil
  · exact nodup_collect

theorem getArtifact_isSome_of_transGen (hfound : Found s) (h : TransGen (Parent s) a b) :
    (getArtifact s a).isSome = true ∧ (getArtifact s b).isSome = true := by
  obtain ⟨x, hx, -⟩ := TransGen.head'_iff.mp h
  obtain ⟨y, -, hy⟩ := TransGen.tail'_iff.mp h
  exact ⟨hfound a x (.inl hx), hfound b y (.inr hy)⟩

theorem hash_mem_ancestors (hfound : Found s) (ha : (getArtifact s a).isSome = true) :
    b ∈ (ancestors s a).map EvidenceEnvelope.artifactHash ↔ TransGen (Parent s) b a := by
  rw [List.mem_map]
  constructor
  · rintro ⟨e, he, rfl⟩
    exact ((mem_ancestors hfound ha).mp he).2
  · intro h
    obtain ⟨e, he⟩ := Option.isSome_iff_exists.mp (getArtifact_isSome_of_transGen hfound h).1
    obtain rfl := artifactHash_of_getArtifact he
    exact ⟨e, (mem_ancestors hfound ha).mpr ⟨he, h⟩, rfl⟩

theorem hash_mem_descendants (hfound : Found s) (ha : (getArtifact s a).isSome = true) :
    b ∈ (descendants s a).map EvidenceEnvelope.artifactHash ↔ TransGen (Parent s) a b := by
  rw [List.mem_map]
  constructor
  · rintro ⟨e, he, rfl⟩
    exact ((mem_descendants hfound ha).mp he).2
  · intro h
    obtain ⟨e, he⟩ := Option.isSome_iff_exists.mp (getArtifact_isSome_of_transGen hfound h).2
    obtain rfl := artifactHash_of_getArtifact he
    exact ⟨e, (mem_descendants hfound ha).mpr ⟨he, h⟩, rfl⟩

/-! ## Paths -/

theorem isWalk_seeded {visitedSeed : List String}
    (hseed : ∀ x, ReflTransGen (Joined s) a x → x ∈ visitedSeed) {walk : List String} :
    IsWalk (lineageGraph s (fun x ↦ decide (x ∈ visitedSeed)) _ joined_of_mem_near).Adj a b walk ↔
      IsWalk (Joined s) a b walk := by
  constructor
  · intro h
    exact h.congr fun x y _ hadj ↦ joined_of_mem_near x y (adj_lineageGraph.mp hadj).2
  · intro h
    exact h.congr fun x y hx hjoined ↦
      adj_lineageGraph.mpr ⟨decide_eq_true (hseed x hx), mem_near_iff.mpr hjoined⟩

theorem exists_path (ha : (getArtifact s a).isSome = true) (hb : (getArtifact s b).isSome = true) :
    ∃ walk, (∃ n, ∀ fuel, n ≤ fuel → path fuel s a b = some walk) ∧
      (walk = [] ↔ ¬ ReflTransGen (Joined s) a b) ∧
      (walk ≠ [] → IsWalk (Joined s) a b walk ∧
        ∀ other, IsWalk (Joined s) a b other → walk.length ≤ other.length) := by
  have hsome : ¬ ((getArtifact s a).isNone = true ∨ (getArtifact s b).isNone = true) := by
    exact fun h ↦ h.elim (not_isNone ha) (not_isNone hb)
  unfold path
  simp only [if_neg hsome]
  by_cases hab : a = b
  · subst hab
    refine ⟨[a], ⟨0, fun _ _ ↦ if_pos rfl⟩, ?_, fun _ ↦ ⟨isWalk_singleton _ a, ?_⟩⟩
    · exact iff_of_false (List.cons_ne_nil a []) fun h ↦ h .refl
    · intro other hother
      exact List.length_pos_of_mem (List.mem_of_mem_head? hother.head)
  · generalize hvisited : (lineageGraph s _ _ joined_of_mem_near).sweep _ [a, b] [] = visitedSeed
    have hseed (x : String) (hx : ReflTransGen (Joined s) a x) : x ∈ visitedSeed := by
      rw [← hvisited, FiniteGraph.mem_sweep fun visited n hn ↦ decide_eq_true hn]
      refine ⟨a, List.mem_cons_self, ReflTransGen.mono (fun x y hxy ↦ ?_) _ _ hx⟩
      exact adj_lineageGraph.mpr ⟨rfl, mem_near_iff.mpr hxy⟩
    obtain ⟨walk, hfuel, hnil, hshortest⟩ := (lineageGraph s (fun x ↦ decide (x ∈ visitedSeed)) _
      joined_of_mem_near).exists_shortestWalk a b
    simp only [isWalk_seeded hseed] at hshortest
    refine ⟨walk, ?_, ?_, hshortest⟩
    · obtain ⟨n, hn⟩ := hfuel
      exact ⟨n, fun fuel hle ↦ (if_neg hab).trans (hn fuel hle)⟩
    · rw [hnil, ← exists_isWalk_iff, ← exists_isWalk_iff]
      exact not_congr (exists_congr fun walk ↦ isWalk_seeded hseed)

/-! ## Explanations -/

theorem sortKey_inj {e e' : EvidenceEnvelope P} (h : sortKey e = sortKey e') :
    e.artifactHash = e'.artifactHash :=
  congrArg (fun k ↦ (ofLex k).2) h

theorem get?_foldl_set {es : List (EvidenceEnvelope P)}
    (hes : ∀ e ∈ es, getArtifact s e.artifactHash = some e) (x : String) :
    (es.foldl (fun d a ↦ d.set a.artifactHash a) (∅ : Dict String (EvidenceEnvelope P))).get? x =
      if x ∈ es.map EvidenceEnvelope.artifactHash then getArtifact s x else none := by
  induction es using List.reverseRecOn with
  | nil => rfl
  | append_singleton es e ih =>
    rw [List.foldl_append, List.foldl_cons, List.foldl_nil, Dict.get?_set,
      ih fun e he ↦ hes e (List.mem_append_left _ he), List.map_append, List.map_cons, List.map_nil]
    by_cases hx : e.artifactHash = x
    · subst hx
      have hmem : e.artifactHash ∈
          es.map EvidenceEnvelope.artifactHash ++ [e.artifactHash] := by simp
      rw [if_pos rfl, if_pos hmem, hes e (by simp)]
    · have hmem : x ∈ es.map EvidenceEnvelope.artifactHash ++ [e.artifactHash] ↔
          x ∈ es.map EvidenceEnvelope.artifactHash := by
        rw [List.mem_append, List.mem_singleton]
        exact or_iff_left fun h ↦ hx h.symm
      rw [if_neg hx]
      simp only [hmem]

theorem ordered_lineage (hfound : Found s) (ha : (getArtifact s a).isSome = true) :
    (∀ e, e ∈ orderedLineage s a ↔
      getArtifact s e.artifactHash = some e ∧ ReflTransGen (Parent s) e.artifactHash a) ∧
    (orderedLineage s a).Pairwise fun e e' ↦ sortKey e < sortKey e' := by
  obtain ⟨env, henv⟩ := Option.isSome_iff_exists.mp ha
  unfold orderedLineage
  rw [henv]
  dsimp only
  generalize hall : Dict.set _ a env = all
  have hget (x : String) : all.get? x =
      if x = a ∨ x ∈ (ancestors s a).map EvidenceEnvelope.artifactHash then getArtifact s x
      else none := by
    rw [← hall, Dict.get?_set, get?_foldl_set fun e he ↦ ((mem_ancestors hfound ha).mp he).1]
    by_cases hx : a = x
    · subst hx
      rw [if_pos rfl, if_pos (.inl rfl), henv]
    · rw [if_neg hx]
      simp only [show ¬ x = a from fun h ↦ hx h.symm, false_or]
  have hkey (x : String) (e : EvidenceEnvelope P) (h : all.get? x = some e) : e.artifactHash = x := by
    rw [hget] at h
    split at h
    · exact artifactHash_of_getArtifact h
    · cases h
  have hperm := List.perm_insertionSort (fun e e' ↦ sortKey e ≤ sortKey e') all.values
  constructor
  · intro e
    rw [hperm.mem_iff, Dict.mem_values]
    constructor
    · rintro ⟨x, hx⟩
      obtain rfl := hkey x e hx
      rw [hget] at hx
      split at hx
      · rename_i hlisted
        refine ⟨hx, hlisted.elim (fun h ↦ h ▸ .refl) fun h ↦ ?_⟩
        exact ((hash_mem_ancestors hfound ha).mp h).to_reflTransGen
      · cases hx
    · rintro ⟨he, hpath⟩
      refine ⟨e.artifactHash, ?_⟩
      rw [hget, if_pos, he]
      rcases reflTransGen_iff_eq_or_transGen.mp hpath with h | h
      · exact .inl h.symm
      · exact .inr ((hash_mem_ancestors hfound ha).mpr h)
  · have : Std.Total fun e e' : EvidenceEnvelope P ↦ sortKey e ≤ sortKey e' :=
      ⟨fun e e' ↦ le_total (sortKey e) (sortKey e')⟩
    have : IsTrans (EvidenceEnvelope P) fun e e' ↦ sortKey e ≤ sortKey e' := ⟨fun _ _ _ ↦ le_trans⟩
    have hhashes : all.values.map EvidenceEnvelope.artifactHash = all.keys := by
      unfold Dict.values Dict.keys
      rw [List.map_map]
      exact List.map_congr_left fun entry hentry ↦ hkey entry.1 entry.2 (Dict.mem_entries.mp hentry)
    have hnodup : (all.values.map EvidenceEnvelope.artifactHash).Nodup := hhashes ▸ all.nodup
    have hsorted := List.pairwise_insertionSort (fun e e' ↦ sortKey e ≤ sortKey e') all.values
    have hne := List.pairwise_map.mp ((hperm.map _).nodup_iff.mpr hnodup)
    exact (hsorted.and hne).imp fun h ↦ lt_of_le_of_ne h.1 fun heq ↦ h.2 (sortKey_inj heq)

/-- The list has the artifact and its ancestors, each once and after its parents, and the artifact
comes last. -/
structure DerivationOrder (s : EvidenceStore P) (a : String) (hashes : List String) : Prop where
  nodup : hashes.Nodup
  mem : ∀ x, x ∈ hashes ↔ ReflTransGen (Parent s) x a
  after : ∀ x y, Parent s x y → y ∈ hashes → [x, y].Sublist hashes
  last : hashes.getLast? = some a

/-- Among the artifact and its ancestors, every parent has a smaller key than its child. -/
def KeysIncrease (s : EvidenceStore P) (a : String) : Prop :=
  ∀ e e', getArtifact s e.artifactHash = some e → getArtifact s e'.artifactHash = some e' →
    Parent s e.artifactHash e'.artifactHash → ReflTransGen (Parent s) e'.artifactHash a →
      sortKey e < sortKey e'

theorem hash_mem_lineagePathHashes (hfound : Found s) (ha : (getArtifact s a).isSome = true) :
    x ∈ lineagePathHashes s a ↔ ReflTransGen (Parent s) x a := by
  obtain ⟨hmem, -⟩ := ordered_lineage hfound ha
  unfold lineagePathHashes
  rw [List.mem_map]
  constructor
  · rintro ⟨e, he, rfl⟩
    exact ((hmem e).mp he).2
  · intro h
    have hx : (getArtifact s x).isSome = true := by
      rcases reflTransGen_iff_eq_or_transGen.mp h with rfl | h
      · exact ha
      · exact (getArtifact_isSome_of_transGen hfound h).1
    obtain ⟨e, he⟩ := Option.isSome_iff_exists.mp hx
    obtain rfl := artifactHash_of_getArtifact he
    exact ⟨e, (hmem e).mpr ⟨he, h⟩, rfl⟩

theorem nodup_lineagePathHashes (hfound : Found s) (ha : (getArtifact s a).isSome = true) :
    (lineagePathHashes s a).Nodup := by
  obtain ⟨hmem, hsorted⟩ := ordered_lineage hfound ha
  refine List.Nodup.map_on (fun e he e' he' heq ↦ ?_) (hsorted.imp fun hlt heq ↦ (heq ▸ hlt).ne rfl)
  exact Option.some.inj (((hmem e).mp he).1.symm.trans (heq ▸ ((hmem e').mp he').1))

theorem derivationOrder_iff (hfound : Found s) (ha : (getArtifact s a).isSome = true) :
    DerivationOrder s a (lineagePathHashes s a) ↔ KeysIncrease s a := by
  obtain ⟨hmem, hsorted⟩ := ordered_lineage hfound ha
  constructor
  · intro h e e' he he' hparent hpath
    have hpair := h.after _ _ hparent ((h.mem _).mpr hpath)
    obtain ⟨es, hsub, hes⟩ := List.sublist_map_iff.mp hpair
    obtain ⟨f, rest, rfl, hf, hrest⟩ := List.map_eq_cons_iff.mp hes.symm
    obtain ⟨f', rest', rfl, hf', hnil⟩ := List.map_eq_cons_iff.mp hrest
    obtain rfl := List.map_eq_nil_iff.mp hnil
    -- what is listed under a hash is the artifact that is stored under it
    have hsame {g g' : EvidenceEnvelope P} (hg : g ∈ orderedLineage s a)
        (hg' : getArtifact s g'.artifactHash = some g') (heq : g.artifactHash = g'.artifactHash) :
        g = g' := Option.some.inj (((hmem g).mp hg).1.symm.trans (heq ▸ hg'))
    obtain rfl := hsame (hsub.subset List.mem_cons_self) he hf
    obtain rfl := hsame (hsub.subset (List.mem_cons_of_mem _ List.mem_cons_self)) he' hf'
    exact List.rel_of_pairwise_cons (hsorted.sublist hsub) List.mem_cons_self
  · intro h
    have hlt {x y : String} (hparent : Parent s x y) (hpath : ReflTransGen (Parent s) y a) :
        ∃ e ∈ orderedLineage s a, ∃ e' ∈ orderedLineage s a,
          e.artifactHash = x ∧ e'.artifactHash = y ∧ sortKey e < sortKey e' := by
      obtain ⟨e, he⟩ := Option.isSome_iff_exists.mp (hfound x y (.inl hparent))
      obtain ⟨e', he'⟩ := Option.isSome_iff_exists.mp (hfound y x (.inr hparent))
      obtain rfl := artifactHash_of_getArtifact he
      obtain rfl := artifactHash_of_getArtifact he'
      exact ⟨e, (hmem e).mpr ⟨he, .head hparent hpath⟩, e', (hmem e').mpr ⟨he', hpath⟩, rfl, rfl,
        h e e' he he' hparent hpath⟩
    refine ⟨nodup_lineagePathHashes hfound ha, fun x ↦ hash_mem_lineagePathHashes hfound ha, ?_, ?_⟩
    · intro x y hparent hy
      have hpath := (hash_mem_lineagePathHashes hfound ha).mp hy
      obtain ⟨e, he, e', he', rfl, rfl, hkey⟩ := hlt hparent hpath
      exact (pair_sublist_of_pairwise hsorted he he' (fun heq ↦ (heq ▸ hkey).ne rfl)
        hkey.asymm).map _
    · unfold lineagePathHashes
      rw [List.getLast?_map]
      cases hlast : (orderedLineage s a).getLast? with
      | none =>
        obtain ⟨e, he⟩ := Option.isSome_iff_exists.mp ha
        obtain rfl := artifactHash_of_getArtifact he
        rw [List.getLast?_eq_none_iff] at hlast
        have hnil : e ∈ orderedLineage s e.artifactHash := (hmem e).mpr ⟨he, .refl⟩
        rw [hlast] at hnil
        cases hnil
      | some e =>
        -- the last one has no child in the list, which would come after it
        obtain ⟨he, hpath⟩ := (hmem e).mp (List.mem_of_getLast? hlast)
        rcases reflTransGen_iff_eq_or_transGen.mp hpath with heq | hpath
        · exact congrArg some heq.symm
        · obtain ⟨y, hparent, hrest⟩ := TransGen.head'_iff.mp hpath
          obtain ⟨f, hf, f', hf', hhash, rfl, hkey⟩ := hlt hparent hrest
          have hfe : f = e :=
            Option.some.inj (((hmem f).mp hf).1.symm.trans (hhash.symm ▸ he))
          subst hfe
          rcases eq_or_rel_of_getLast? hsorted hlast hf' with rfl | hafter
          · exact absurd hkey (lt_irrefl _)
          · exact absurd hafter hkey.asymm

end

/-! ## Every run -/

section

variable [BEq P] [Sha256 P]

theorem named_run (objects : Dict String (ObjectRow P)) (calls : List (EvidenceCall P)) :
    Named ((evidenceRepository objects).after calls) := by
  induction calls using List.reverseRecOn with
  | nil => exact Bool.false_ne_true
  | append_singleton calls call ih =>
    rw [after_concat]
    cases call with
    | appendArtifact e =>
      by_cases h : Inserts ((evidenceRepository objects).after calls) e
      · rw [after_append_of_inserts h]
        unfold Named EvidenceStore.Has
        rw [Inserts.get?_inserted, if_neg e.artifactHash_ne]
        exact ih
      · rwa [after_append_of_not_inserts h]
    | addLineageEdge parentHash childHash name =>
      by_cases h : ∃ relation, Links ((evidenceRepository objects).after calls) parentHash
          childHash name relation
      · obtain ⟨relation, h⟩ := h
        rw [after_addEdge_of_links h]
        exact ih
      · rwa [after_addEdge_of_not_links fun relation hl ↦ h ⟨relation, hl⟩]

theorem found_run (objects : Dict String (ObjectRow P)) (calls : List (EvidenceCall P)) :
    Found ((evidenceRepository objects).after calls) :=
  found_of_closed (named_run objects calls) (closed_run objects calls)

structure QueriesExact (s : EvidenceStore P) (a b : String) : Prop where
  up : ∀ e, e ∈ ancestors s a ↔
    getArtifact s e.artifactHash = some e ∧ TransGen (Parent s) e.artifactHash a
  nodup_up : ((ancestors s a).map EvidenceEnvelope.artifactHash).Nodup
  down : ∀ e, e ∈ descendants s a ↔
    getArtifact s e.artifactHash = some e ∧ TransGen (Parent s) a e.artifactHash
  nodup_down : ((descendants s a).map EvidenceEnvelope.artifactHash).Nodup
  dual : b ∈ (ancestors s a).map EvidenceEnvelope.artifactHash ↔
    a ∈ (descendants s b).map EvidenceEnvelope.artifactHash
  shortest : ∃ walk, (∃ n, ∀ fuel, n ≤ fuel → path fuel s a b = some walk) ∧
    (walk = [] ↔ ¬ ReflTransGen (Joined s) a b) ∧
    (walk ≠ [] → IsWalk (Joined s) a b walk ∧
      ∀ other, IsWalk (Joined s) a b other → walk.length ≤ other.length)

/-- **Lineage queries** are exact in the stores of all runs, with cycles or without. -/
theorem lineage_queries_exact (objects : Dict String (ObjectRow P)) (calls : List (EvidenceCall P))
    {a b : String} (ha : ((evidenceRepository objects).after calls).Has a)
    (hb : ((evidenceRepository objects).after calls).Has b) :
    QueriesExact ((evidenceRepository objects).after calls) a b := by
  have hfound := found_run objects calls
  rw [← isSome_getArtifact (named_run objects calls)] at ha hb
  exact ⟨fun e ↦ mem_ancestors hfound ha, nodup_ancestors, fun e ↦ mem_descendants hfound ha,
    nodup_descendants, (hash_mem_ancestors hfound ha).trans (hash_mem_descendants hfound hb).symm,
    exists_path ha hb⟩

/-- **The lineage path** of an explanation is a derivation order just when the keys increase along the
lineage. -/
theorem explain_order_iff (objects : Dict String (ObjectRow P)) (calls : List (EvidenceCall P))
    {a : String} (ha : ((evidenceRepository objects).after calls).Has a) :
    ∃ explanation, explain ((evidenceRepository objects).after calls) a = some explanation ∧
      (DerivationOrder ((evidenceRepository objects).after calls) a explanation.lineagePath ↔
        KeysIncrease ((evidenceRepository objects).after calls) a) := by
  have hfound := found_run objects calls
  rw [← isSome_getArtifact (named_run objects calls)] at ha
  have hiff := derivationOrder_iff hfound ha
  obtain ⟨env, henv⟩ := Option.isSome_iff_exists.mp ha
  exact ⟨_, congrArg (Option.map _) henv, hiff⟩

end

/-- Two artifacts that are each other's ancestors. -/
theorem lineage_queries_exact_sample :
    QueriesExact ((evidenceRepository ∅).after sampleCycle) sampleDataset.artifactHash
      sampleFeature.artifactHash :=
  lineage_queries_exact ∅ sampleCycle (by decide +kernel) (by decide +kernel)

theorem explain_order_iff_sample :
    ∃ explanation, explain ((evidenceRepository ∅).after sampleCycle) sampleDataset.artifactHash =
        some explanation ∧
      (DerivationOrder ((evidenceRepository ∅).after sampleCycle) sampleDataset.artifactHash
        explanation.lineagePath ↔
          KeysIncrease ((evidenceRepository ∅).after sampleCycle) sampleDataset.artifactHash) :=
  explain_order_iff ∅ sampleCycle (by decide +kernel)

/-! ## A feature that feeds an experiment -/

theorem featureHash_ne : "f1" ≠ "" := by decide

theorem experimentHash_ne : "e1" ≠ "" := by decide

theorem noParents_sorted : ([] : List String).Pairwise (· ≤ ·) := .nil

theorem oneParent_sorted : ["f1"].Pairwise (· ≤ ·) := List.pairwise_singleton _ _

/-- `EvidenceEnvelope("Feature", "f1", True)`, without a lineage hash. -/
def feedingFeature : EvidenceEnvelope Bool where
  artifactType := .feature
  artifactHash := "f1"
  payload := true
  version := ""
  createdAt := ""
  parentHashes := []
  lineageHash := ""
  artifactHash_ne := featureHash_ne
  parents_sorted := noParents_sorted

/-- `EvidenceEnvelope("Experiment", "e1", True)` with the feature as its parent. -/
def fedExperiment : EvidenceEnvelope Bool where
  artifactType := .experiment
  artifactHash := "e1"
  payload := true
  version := ""
  createdAt := ""
  parentHashes := ["f1"]
  lineageHash := ""
  artifactHash_ne := experimentHash_ne
  parents_sorted := oneParent_sorted

def fedStore : EvidenceStore Bool :=
  (evidenceRepository ∅).after [.appendArtifact feedingFeature, .appendArtifact fedExperiment]

theorem parent_fedStore : Parent fedStore "f1" "e1" := ⟨.feeds, by decide +kernel⟩

theorem getArtifact_feature : getArtifact fedStore "f1" = some feedingFeature := rfl

theorem getArtifact_experiment : getArtifact fedStore "e1" = some fedExperiment := rfl

/-- The lineage has no cycle, but the feature is listed after the experiment that it feeds. -/
theorem feature_listed_last : Acyclic (Parent fedStore) ∧
    (∃ explanation, explain fedStore "e1" = some explanation ∧
      ¬ DerivationOrder fedStore "e1" explanation.lineagePath) := by
  constructor
  · have hempty : Acyclic (Parent ((evidenceRepository (P := Bool) ∅).after [])) := by
      intro x hx
      obtain ⟨y, ⟨relation, hedge⟩, -⟩ := TransGen.head'_iff.mp hx
      cases hedge
    have hfeature := (acyclic_after_iff (closed_run ∅ []) hempty
      (.appendArtifact feedingFeature)).mpr trivial
    rw [← after_concat] at hfeature
    have hexperiment := (acyclic_after_iff (closed_run ∅ [.appendArtifact feedingFeature]) hfeature
      (.appendArtifact fedExperiment)).mpr trivial
    rw [← after_concat] at hexperiment
    exact hexperiment
  · refine ⟨_, congrArg (Option.map _) getArtifact_experiment, fun h ↦ ?_⟩
    have hfound : Found fedStore := found_run ∅ _
    have hincrease := (derivationOrder_iff hfound (congrArg Option.isSome getArtifact_experiment)).mp h
    have hlt := hincrease feedingFeature fedExperiment getArtifact_feature getArtifact_experiment
      parent_fedStore .refl
    exact absurd hlt (by decide)

end Qros.Evidence
