import Qros.Claims.Claim
import Qros.Storage.Effects

/-!
# The evidence graph and the projections of claims

A store agrees if every claim in it has a projection with the same evidence hashes, and no
projection is without its claim.  The lemmas say when a store still agrees after a claim is
written, a projection, or both.
-/

/-!
## The claim evidence graph

`attach` and `get` of `ResearchClaimEvidenceGraph`, over the table `objects` and the hashes
of the table `evidence`.  `json.loads` returns what `json.dumps` was given, so the row of an
object holds the object, and a claim that is loaded is the claim that was stored.

The two saves of `attach` are blocks of the repository, of which SQLite may fail any
statement, commit or rollback; it may also fail each query for an artifact.
-/

namespace Qros.Claims

open Qros.Lib Qros.Python Qros.Storage

/-- The data of a row of `objects`. -/
inductive StoredObject where
  | claim (claim : ResearchClaim)
  | graph (graph : ClaimEvidenceGraph)
  | other (objectType : String)
deriving DecidableEq

structure ClaimTables where
  objects : Dict String StoredObject
  /-- The hashes of the artifacts in `evidence`. -/
  evidence : List String

def graphId (claimId : String) : String := "claim-evidence:" ++ claimId

namespace ClaimTables

/-- `INSERT OR REPLACE INTO objects`. -/
def put (t : ClaimTables) (id : String) (obj : StoredObject) : ClaimTables :=
  { t with objects := t.objects.set id obj }

def claim? (t : ClaimTables) (claimId : String) : Option ResearchClaim :=
  match t.objects.get? claimId with
  | some (.claim claim) => some claim
  | _ => none

/-- The stored projection, which `get` returns. -/
def graph? (t : ClaimTables) (claimId : String) : Option ClaimEvidenceGraph :=
  match t.objects.get? (graphId claimId) with
  | some (.graph graph) => some graph
  | _ => none

end ClaimTables

/-- The tables after artifacts with these hashes were stored, each with its object. -/
def ClaimTables.ofEvidence (evidence : List String) : ClaimTables where
  objects := evidence.foldl (fun objects h ↦ objects.set h (.other "EvidenceEnvelope")) ∅
  evidence := evidence

def saveObjectBlock (id : String) (obj : StoredObject) : Program ClaimTables Exc Unit :=
  .execute (fun t ↦ .ok (1, t.put id obj)) fun _ ↦ .done ()

/-- The loop over the artifacts, with what SQLite answers to the query for each. -/
def requireArtifacts (evidence : List String) : List (Option Exc) → List String → Except Exc Unit
  | _, [] => .ok ()
  | answers, evidenceHash :: hashes => do
    match answers.headD none with
    | some e => throw e
    | none =>
      require (evidenceHash ∈ evidence)
        (.other ("Evidence artifact " ++ evidenceHash ++ " does not exist"))
      requireArtifacts evidence answers.tail hashes

/-- `tuple(sorted(set(evidence_hashes)))`. -/
def normalized (evidenceHashes : List String) : List String := sortStrings evidenceHashes.dedup

/-- A save, and what follows if it returns. -/
def andThen {α : Type} (saved : Option (Except Exc Unit) × Repository ClaimTables)
    (next : Repository ClaimTables → Option (Except Exc α) × Repository ClaimTables) :
    Option (Except Exc α) × Repository ClaimTables :=
  match saved with
  | (some (.ok ()), r) => next r
  | (some (.error e), r) => (some (.error e), r)
  | (none, r) => (none, r)

section Attach

variable (F : Type) [FloatText F] [Hashlib]

/-- The claim and the projection that `attach` saves. -/
def prepare (t : ClaimTables) (claim : ResearchClaim) (evidenceHashes : List String)
    (lookups : List (Option Exc)) : Except Exc (ResearchClaim × ClaimEvidenceGraph) := do
  require claim.IsPlanLocked
    (.other "ResearchClaim plan must be locked before evidence can be attached")
  require (claim.planHash.getD "" ≠ "") (.other "ResearchClaim has no plan_hash")
  requireArtifacts t.evidence lookups (normalized evidenceHashes)
  let claimCopy ← (normalized evidenceHashes).foldlM ResearchClaim.addEvidence claim
  return (claimCopy, {
    claimId := claimCopy.id
    claimHash := claimCopy.claimHash F
    planHash := claimCopy.planHash.getD ""
    evidenceHashes := normalized evidenceHashes })

/-- `attach`, with what SQLite answers to its two saves.  The checks between them, that the clone
has a plan hash, are those that were passed before. -/
def attach (r : Repository ClaimTables) (claim : ResearchClaim) (evidenceHashes : List String)
    (lookups : List (Option Exc)) (answers answers' : Answers) :
    Option (Except Exc ClaimEvidenceGraph) × Repository ClaimTables :=
  match prepare F r.session.current claim evidenceHashes lookups with
  | .error e => (some (.error e), r)
  | .ok (claimCopy, graph) =>
    andThen (r.transaction answers (saveObjectBlock claimCopy.id (.claim claimCopy))) fun r ↦
      andThen (r.transaction answers' (saveObjectBlock (graphId graph.claimId) (.graph graph))) fun r ↦
        (some (.ok graph), r)

end Attach

structure AttachCall where
  claim : ResearchClaim
  evidenceHashes : List String
  lookups : List (Option Exc) := []
  answers : Answers := {}
  answers' : Answers := {}

/-- The graph over a repository in which artifacts with these hashes are stored. -/
def claimEvidenceGraph (F : Type) [FloatText F] [Hashlib]
    (evidence : List String) :
    Machine (Repository ClaimTables) AttachCall (Option (Except Exc ClaimEvidenceGraph)) where
  init := .opened (.ofEvidence evidence)
  step call r := attach F r call.claim call.evidenceHashes call.lookups call.answers call.answers'

end Qros.Claims

namespace Qros.Claims

open Qros.Lib Qros.Python Qros.Storage

/-! ## Agreement -/

theorem graphId_injective : Function.Injective graphId := by
  intro id id' h
  have hlist := congrArg String.toList h
  unfold graphId at hlist
  rw [String.toList_append, String.toList_append] at hlist
  exact String.toList_inj.mp (List.append_cancel_left hlist)

theorem length_graphId (id : String) : (graphId id).length = 15 + id.length := by
  unfold graphId
  rw [String.length_append]
  rfl

theorem graphId_ne (id : String) : graphId id ≠ id := by
  intro h
  have hlength := congrArg String.length h
  rw [length_graphId] at hlength
  omega

theorem graphId_graphId_ne (id : String) : graphId (graphId id) ≠ id := by
  intro h
  have hlength := congrArg String.length h
  rw [length_graphId, length_graphId] at hlength
  omega

namespace ClaimTables

/-- The evidence of the stored claim. -/
def claimHashes (t : ClaimTables) (claimId : String) : Option (Finset String) :=
  (t.claim? claimId).map fun claim ↦ claim.evidenceHashes.toFinset

/-- The evidence of the stored projection. -/
def graphHashes (t : ClaimTables) (claimId : String) : Option (Finset String) :=
  (t.graph? claimId).map fun graph ↦ graph.evidenceHashes.toFinset

/-- Every stored claim has the evidence of its stored projection. -/
def Agrees (t : ClaimTables) : Prop := ∀ claimId, t.claimHashes claimId = t.graphHashes claimId

/-- No hash of a claim or of a projection is gone. -/
def Grown (t t' : ClaimTables) : Prop :=
  ∀ claimId, (∀ s ∈ t.claimHashes claimId, ∃ s' ∈ t'.claimHashes claimId, s ⊆ s') ∧
    ∀ s ∈ t.graphHashes claimId, ∃ s' ∈ t'.graphHashes claimId, s ⊆ s'

variable {t t' : ClaimTables} {id : String} {claim : ResearchClaim} {graph : ClaimEvidenceGraph}

theorem claimHashes_put_claim (claimId : String) : (t.put id (.claim claim)).claimHashes claimId =
    if id = claimId then some claim.evidenceHashes.toFinset else t.claimHashes claimId := by
  unfold claimHashes claim? put
  rw [Dict.get?_set]
  by_cases hid : id = claimId
  · rw [if_pos hid, if_pos hid]
    rfl
  · rw [if_neg hid, if_neg hid]

theorem graphHashes_put_claim (claimId : String) : (t.put id (.claim claim)).graphHashes claimId =
    if id = graphId claimId then none else t.graphHashes claimId := by
  unfold graphHashes graph? put
  rw [Dict.get?_set]
  by_cases hid : id = graphId claimId
  · rw [if_pos hid, if_pos hid]
    rfl
  · rw [if_neg hid, if_neg hid]

theorem claimHashes_put_graph (claimId : String) : (t.put id (.graph graph)).claimHashes claimId =
    if id = claimId then none else t.claimHashes claimId := by
  unfold claimHashes claim? put
  rw [Dict.get?_set]
  by_cases hid : id = claimId
  · rw [if_pos hid, if_pos hid]
    rfl
  · rw [if_neg hid, if_neg hid]

theorem graphHashes_put_graph (claimId : String) : (t.put id (.graph graph)).graphHashes claimId =
    if id = graphId claimId then some graph.evidenceHashes.toFinset else t.graphHashes claimId := by
  unfold graphHashes graph? put
  rw [Dict.get?_set]
  by_cases hid : id = graphId claimId
  · rw [if_pos hid, if_pos hid]
    rfl
  · rw [if_neg hid, if_neg hid]

theorem graphHashes_of_claimHashes {s : Finset String} (h : t.claimHashes (graphId id) = some s) :
    t.graphHashes id = none := by
  unfold claimHashes claim? at h
  unfold graphHashes graph?
  cases hget : t.objects.get? (graphId id) with
  | none => rfl
  | some obj =>
    cases obj with
    | claim claim => rfl
    | graph graph =>
      rw [hget] at h
      cases h
    | other objectType => rfl

theorem agrees_ofEvidence (evidence : List String) : (ofEvidence evidence).Agrees := by
  have hother : ∀ id, ∀ obj ∈ (ofEvidence evidence).objects.get? id, ∃ type, obj = .other type := by
    intro id
    unfold ofEvidence
    dsimp only
    induction evidence using List.reverseRecOn with
    | nil => exact fun obj h ↦ absurd h (Option.not_mem_none obj)
    | append_singleton evidence h ih =>
      rw [List.foldl_append]
      intro obj hobj
      rw [List.foldl_cons, List.foldl_nil, Option.mem_def, Dict.get?_set] at hobj
      split at hobj
      · exact ⟨_, (Option.some.inj hobj).symm⟩
      · exact ih obj hobj
  intro id
  unfold claimHashes claim? graphHashes graph?
  cases hclaim : (ofEvidence evidence).objects.get? id with
  | none =>
    cases hgraph : (ofEvidence evidence).objects.get? (graphId id) with
    | none => rfl
    | some obj =>
      obtain ⟨type, rfl⟩ := hother _ _ hgraph
      rfl
  | some obj =>
    obtain ⟨type, rfl⟩ := hother _ _ hclaim
    cases hgraph : (ofEvidence evidence).objects.get? (graphId id) with
    | none => rfl
    | some obj =>
      obtain ⟨type, rfl⟩ := hother _ _ hgraph
      rfl

/-! ### One write and both -/

theorem agrees_put_claim (h : t.Agrees) :
    (t.put claim.id (.claim claim)).Agrees ↔
      t.claimHashes claim.id = some claim.evidenceHashes.toFinset := by
  unfold Agrees
  simp only [claimHashes_put_claim, graphHashes_put_claim]
  constructor
  · intro h'
    have hid := h' claim.id
    rw [if_pos rfl, if_neg (graphId_ne claim.id).symm] at hid
    rw [h, hid]
  · intro hsame id
    by_cases hid : claim.id = id
    · subst hid
      rw [if_pos rfl, if_neg (graphId_ne _).symm, ← h, hsame]
    · rw [if_neg hid]
      split
      · rename_i hgraph
        rw [h, graphHashes_of_claimHashes (hgraph ▸ hsame)]
      · exact h id

theorem agrees_put_graph (h : t.Agrees) {claimId : String} :
    (t.put (graphId claimId) (.graph graph)).Agrees ↔
      t.claimHashes claimId = some graph.evidenceHashes.toFinset := by
  unfold Agrees
  simp only [claimHashes_put_graph, graphHashes_put_graph]
  constructor
  · intro h'
    have hid := h' claimId
    rwa [if_neg (graphId_ne claimId), if_pos rfl] at hid
  · intro hsame id
    by_cases hid : claimId = id
    · subst hid
      rw [if_neg (graphId_ne _), if_pos rfl, hsame]
    · rw [if_neg fun heq : graphId claimId = graphId id ↦ hid (graphId_injective heq)]
      split
      · rename_i hgraph
        have hnone : t.claimHashes id = none := by
          cases hclaim : t.claimHashes id with
          | none => rfl
          | some s =>
            rw [← hgraph] at hclaim
            have := graphHashes_of_claimHashes hclaim
            rw [← h, hsame] at this
            cases this
        rw [← h, hnone]
      · exact h id

/-- The rows of a claim with this id replace no row of another claim. -/
structure Apart (t : ClaimTables) (claimId : String) : Prop where
  claim : ∀ id, claimId = graphId id → t.graphHashes id = none
  graph : t.claimHashes (graphId claimId) = none

theorem apart_of_claimHashes (h : t.Agrees) {s : Finset String} (hs : t.claimHashes id = some s) :
    t.Apart id where
  claim id' heq := graphHashes_of_claimHashes (heq ▸ hs)
  graph := by
    cases hgraph : t.claimHashes (graphId id) with
    | none => rfl
    | some s' =>
      have := graphHashes_of_claimHashes hgraph
      rw [← h, hs] at this
      cases this

theorem agrees_put_both (h : t.Agrees) :
    ((t.put claim.id (.claim claim)).put (graphId claim.id) (.graph graph)).Agrees ↔
      claim.evidenceHashes.toFinset = graph.evidenceHashes.toFinset ∧ t.Apart claim.id := by
  unfold Agrees
  simp only [claimHashes_put_graph, graphHashes_put_graph, claimHashes_put_claim,
    graphHashes_put_claim]
  constructor
  · intro h'
    refine ⟨?_, fun id heq ↦ ?_, ?_⟩
    · have hid := h' claim.id
      rw [if_neg (graphId_ne claim.id), if_pos rfl, if_pos rfl] at hid
      exact Option.some.inj hid
    · have hid := h' id
      rw [heq, if_neg (graphId_graphId_ne id), if_neg (graphId_ne id),
        if_neg fun hgraph ↦ graphId_ne id (graphId_injective hgraph), if_pos rfl] at hid
      rw [← h, hid]
    · have hid := h' (graphId claim.id)
      rw [if_pos rfl, if_neg fun hgraph ↦ graphId_ne claim.id (graphId_injective hgraph).symm,
        if_neg (graphId_graphId_ne claim.id).symm] at hid
      rw [h, ← hid]
  · rintro ⟨hhashes, hapart⟩ id
    by_cases hid : claim.id = id
    · subst hid
      rw [if_neg (graphId_ne _), if_pos rfl, if_pos rfl, hhashes]
    · rw [if_neg hid, if_neg fun hgraph : graphId claim.id = graphId id ↦ hid (graphId_injective hgraph)]
      by_cases hgraph : graphId claim.id = id
      · subst hgraph
        rw [if_pos rfl, if_neg (graphId_graphId_ne _).symm, ← h, hapart.graph]
      · rw [if_neg hgraph]
        by_cases hclaim : claim.id = graphId id
        · rw [if_pos hclaim, h, hapart.claim id hclaim]
        · rw [if_neg hclaim, h]

theorem claimHashes_put_claim_of_same
    (h : t.claimHashes claim.id = some claim.evidenceHashes.toFinset)
    (id : String) : (t.put claim.id (.claim claim)).claimHashes id = t.claimHashes id := by
  rw [claimHashes_put_claim]
  by_cases hid : claim.id = id
  · rw [if_pos hid, ← hid, h]
  · rw [if_neg hid]

theorem claimHashes_put_graph_of_none {claimId : String}
    (h : t.claimHashes (graphId claimId) = none)
    (id : String) : (t.put (graphId claimId) (.graph graph)).claimHashes id = t.claimHashes id := by
  rw [claimHashes_put_graph]
  by_cases hid : graphId claimId = id
  · rw [if_pos hid, ← hid, h]
  · rw [if_neg hid]

/-! ### What is not removed -/

theorem grown_iff (h : t.Agrees) (h' : t'.Agrees) :
    t.Grown t' ↔ ∀ id, ∀ s ∈ t.claimHashes id, ∃ s' ∈ t'.claimHashes id, s ⊆ s' := by
  constructor
  · exact fun hgrown id ↦ (hgrown id).1
  · intro hgrown id
    refine ⟨hgrown id, ?_⟩
    rw [← h, ← h']
    exact hgrown id

theorem grown_of_claimHashes_eq (h : t.Agrees) (h' : t'.Agrees)
    (heq : ∀ id, t.claimHashes id = t'.claimHashes id) : t.Grown t' := by
  rw [grown_iff h h']
  intro id s hs
  exact ⟨s, heq id ▸ hs, Finset.Subset.refl s⟩

theorem Grown.of_claimHashes_eq {u : ClaimTables} (hgrown : t.Grown u) (h : t.Agrees)
    (h' : t'.Agrees)
    (heq : ∀ id, t'.claimHashes id = t.claimHashes id) : t'.Grown u := by
  intro id
  rw [← h', heq]
  refine ⟨(hgrown id).1, ?_⟩
  rw [h]
  exact (hgrown id).2

theorem grown_put_both (h : t.Agrees)
    (h' : ((t.put claim.id (.claim claim)).put (graphId claim.id) (.graph graph)).Agrees) :
    t.Grown ((t.put claim.id (.claim claim)).put (graphId claim.id) (.graph graph)) ↔
      ∀ s ∈ t.claimHashes claim.id, s ⊆ claim.evidenceHashes.toFinset := by
  have hapart := ((agrees_put_both h).mp h').2
  rw [grown_iff h h']
  simp only [claimHashes_put_graph, claimHashes_put_claim]
  constructor
  · intro hgrown s hs
    obtain ⟨s', hs', hsub⟩ := hgrown claim.id s hs
    rw [if_neg (graphId_ne claim.id), if_pos rfl] at hs'
    rwa [Option.some.inj hs']
  · intro hsub id s hs
    have hne : graphId claim.id ≠ id := by
      rintro rfl
      rw [hapart.graph] at hs
      cases hs
    rw [if_neg hne]
    by_cases hid : claim.id = id
    · subst hid
      rw [if_pos rfl]
      exact ⟨_, rfl, hsub s hs⟩
    · rw [if_neg hid]
      exact ⟨s, hs, Finset.Subset.refl s⟩

end ClaimTables

end Qros.Claims
