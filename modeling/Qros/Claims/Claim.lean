import Mathlib.Data.Finset.Basic
import Mathlib.Data.Finset.Lattice.Lemmas
import Qros.Storage.AuditLog

/-!
# Research claims

`ResearchClaim` of `researchos/claims/claim.py` and `ClaimEvidenceGraph` of
`researchos/claims/evidence_graph.py`.  The plan of a claim is left out, but for its hash
and the time at which it was locked.  Digests are those of `Hashlib`.
-/

namespace Qros.Claims

open Qros.Lib Qros.Python Qros.Storage

inductive ResearchClaimType where
  | empirical
  | causal
  | predictive
  | descriptive
  | robustness
deriving DecidableEq

inductive EvidenceState where
  | untested
  | tested
  | inconclusive
  | contradicted
  | candidate
  | robustness
  | replication
  | supported
  | rejected
deriving DecidableEq

def ResearchClaimType.value : ResearchClaimType → String
  | .empirical => "empirical"
  | .causal => "causal"
  | .predictive => "predictive"
  | .descriptive => "descriptive"
  | .robustness => "robustness"

def EvidenceState.value : EvidenceState → String
  | .untested => "UNTESTED"
  | .tested => "TESTED"
  | .inconclusive => "INCONCLUSIVE"
  | .contradicted => "CONTRADICTED"
  | .candidate => "CANDIDATE"
  | .robustness => "ROBUSTNESS"
  | .replication => "REPLICATION"
  | .supported => "SUPPORTED"
  | .rejected => "REJECTED"

structure ResearchClaim where
  id : String
  statement : String
  claimType : ResearchClaimType
  targetPopulation : String
  instrument : String
  horizon : String
  timestampPolicy : String
  economicRationale : String
  falsificationConditions : List String
  primaryMetrics : List String
  minimumEvidenceRequirements : List String
  creator : String
  workspaceId : String
  researchId : Option String
  version : Int
  parentClaimId : Option String
  evidenceState : EvidenceState
  planLockedAt : Option String
  planHash : Option String
  experimentIds : List String
  evidenceHashes : List String
  ontologyTags : List String
deriving DecidableEq

structure ClaimEvidenceGraph where
  claimId : String
  claimHash : String
  planHash : String
  evidenceHashes : List String
deriving DecidableEq

namespace ResearchClaim

def IsPlanLocked (claim : ResearchClaim) : Prop := claim.planLockedAt ≠ none

instance (claim : ResearchClaim) : Decidable claim.IsPlanLocked := inferInstanceAs (Decidable (_ ≠ _))

def addEvidence (claim : ResearchClaim) (evidenceHash : String) : Except Exc ResearchClaim := do
  require (strip evidenceHash ≠ "") (.other "evidence_hash is required")
  if evidenceHash ∉ claim.evidenceHashes then
    return { claim with evidenceHashes := claim.evidenceHashes ++ [evidenceHash] }
  else
    return claim

section Hash

variable (F : Type) [FloatText F] [Hashlib]

def toHashableDict (claim : ResearchClaim) : Json F :=
  let strings (xs : List String) : Json F := .list ((sortStrings xs).map .str)
  .dict [
    ("statement", .str claim.statement),
    ("claim_type", .str claim.claimType.value),
    ("target_population", .str claim.targetPopulation),
    ("instrument", .str claim.instrument),
    ("horizon", .str claim.horizon),
    ("timestamp_policy", .str claim.timestampPolicy),
    ("economic_rationale", .str claim.economicRationale),
    ("falsification_conditions", strings claim.falsificationConditions),
    ("primary_metrics", strings claim.primaryMetrics),
    ("minimum_evidence_requirements", strings claim.minimumEvidenceRequirements),
    ("creator", .str claim.creator),
    ("workspace_id", .str claim.workspaceId),
    ("research_id", .str (claim.researchId.getD "")),
    ("version", .int claim.version),
    ("parent_claim_id", .str (claim.parentClaimId.getD "")),
    ("plan_hash", .str (claim.planHash.getD "")),
    ("experiment_ids", strings claim.experimentIds),
    ("evidence_hashes", strings claim.evidenceHashes),
    ("evidence_state", .str claim.evidenceState.value),
    ("ontology_tags", strings claim.ontologyTags)]

def claimHash (claim : ResearchClaim) : String :=
  (deterministicHash F (claim.toHashableDict F)).text

end Hash

/-! ## Evidence -/

variable {claim claim' : ResearchClaim} {hashes : List String}

theorem addEvidence_eq_ok {evidenceHash : String}
    (h : claim.addEvidence evidenceHash = .ok claim') :
    claim'.id = claim.id ∧
      claim'.evidenceHashes.toFinset = insert evidenceHash claim.evidenceHashes.toFinset := by
  unfold addEvidence at h
  obtain ⟨-, -, h⟩ := bind_eq_ok.mp h
  split at h
  · cases h
    refine ⟨rfl, ?_⟩
    ext x
    simp
  · rename_i hmem
    cases h
    refine ⟨rfl, (Finset.insert_eq_of_mem ?_).symm⟩
    exact List.mem_toFinset.mpr (not_not.mp hmem)

theorem foldlM_addEvidence_eq_ok (h : hashes.foldlM addEvidence claim = .ok claim') :
    claim'.id = claim.id ∧
      claim'.evidenceHashes.toFinset = claim.evidenceHashes.toFinset ∪ hashes.toFinset := by
  induction hashes generalizing claim with
  | nil =>
    cases h
    exact ⟨rfl, (Finset.union_empty _).symm⟩
  | cons evidenceHash hashes ih =>
    rw [List.foldlM_cons] at h
    obtain ⟨added, hadded, h⟩ := bind_eq_ok.mp h
    obtain ⟨hid, hevidence⟩ := addEvidence_eq_ok hadded
    obtain ⟨hid', hevidence'⟩ := ih h
    refine ⟨hid'.trans hid, ?_⟩
    rw [hevidence', hevidence, List.toFinset_cons, Finset.insert_union, Finset.union_insert]

theorem exists_foldlM_addEvidence (h : ∀ x ∈ hashes, strip x ≠ "") (claim : ResearchClaim) :
    ∃ claim', hashes.foldlM addEvidence claim = .ok claim' := by
  induction hashes generalizing claim with
  | nil => exact ⟨claim, rfl⟩
  | cons x hashes ih =>
    rw [List.forall_mem_cons] at h
    obtain ⟨added, hadded⟩ : ∃ added, claim.addEvidence x = .ok added := by
      unfold addEvidence
      rw [require, if_pos h.1]
      split
      · exact ⟨_, rfl⟩
      · exact ⟨_, rfl⟩
    obtain ⟨claim', hclaim'⟩ := ih h.2 added
    refine ⟨claim', ?_⟩
    rw [List.foldlM_cons, hadded]
    exact hclaim'

theorem forall_of_foldlM_addEvidence (h : hashes.foldlM addEvidence claim = .ok claim') :
    ∀ x ∈ hashes, strip x ≠ "" := by
  induction hashes generalizing claim with
  | nil => exact List.forall_mem_nil _
  | cons x hashes ih =>
    rw [List.foldlM_cons] at h
    obtain ⟨added, hadded, h⟩ := bind_eq_ok.mp h
    unfold addEvidence at hadded
    obtain ⟨_, hstrip, -⟩ := bind_eq_ok.mp hadded
    exact List.forall_mem_cons.mpr ⟨require_eq_ok.mp hstrip, ih h⟩

end ResearchClaim

end Qros.Claims
