import Mathlib.Data.Multiset.Basic
import Qros.Python.Value
import Qros.Saas.Contracts

/-!
# Manifests

`researchos/saas/provenance.py`: the texts whose SHA-256 digests identify a result and its artifacts.
-/

namespace Qros.Saas

open Qros.Lib Qros.Lib.KeySort Qros.Python List

variable {F : Type}

def ResultStatus.value : ResultStatus → String
  | .succeeded => "SUCCEEDED"
  | .failed => "FAILED"

theorem ResultStatus.value_injective : Function.Injective value := by
  intro s s' h
  cases s <;> cases s' <;> first | rfl | exact absurd h (by decide)

theorem Sha256.hex_injective : Function.Injective Sha256.hex := by
  rintro ⟨hex, hlength, hdigits⟩ ⟨hex', hlength', hdigits'⟩ h
  obtain rfl : hex = hex' := h
  rfl

/-! ## Artifacts -/

namespace ResearchArtifact

/-- The entry of a manifest. -/
def identity (F : Type) (artifact : ResearchArtifact) : Json F := .dict [
  ("artifact_id", .str artifact.artifactId),
  ("kind", .str artifact.kind),
  ("content_sha256", .str artifact.contentSha256.hex)]

theorem sortKeys_identity (artifact : ResearchArtifact) : (artifact.identity F).sortKeys = .dict [
    ("artifact_id", .str artifact.artifactId),
    ("content_sha256", .str artifact.contentSha256.hex),
    ("kind", .str artifact.kind)] := by
  show Json.dict (sortEntries (Json.sortValues _)) = _
  simp only [Json.sortValues_eq_map, map_cons, map_nil]
  simp [sortEntries, List.insertionSort, List.orderedInsert, Json.sortKeys]

theorem sortKey_injective : Function.Injective sortKey := by
  rintro ⟨id, kind, sha, hid, hkind⟩ ⟨id', kind', sha', hid', hkind'⟩ h
  simp only [sortKey, EmbeddingLike.apply_eq_iff_eq, Prod.mk.injEq] at h
  obtain ⟨rfl, rfl, hsha⟩ := h
  obtain rfl := Sha256.hex_injective hsha
  rfl

theorem sortKeys_identity_injective :
    Function.Injective fun artifact : ResearchArtifact ↦ (artifact.identity F).sortKeys := by
  intro a b h
  apply sortKey_injective
  simp only [sortKeys_identity, Json.dict.injEq, Json.str.injEq, List.cons.injEq, Prod.mk.injEq,
    true_and, and_true] at h
  obtain ⟨hid, hsha, hkind⟩ := h
  rw [sortKey, sortKey, hid, hsha, hkind]

end ResearchArtifact

/-- The artifacts in the order of a manifest. -/
def sortedArtifacts (artifacts : List ResearchArtifact) : List ResearchArtifact :=
  stableSortBy ResearchArtifact.sortKey artifacts

theorem sortedArtifacts_eq_iff {artifacts artifacts' : List ResearchArtifact} :
    sortedArtifacts artifacts = sortedArtifacts artifacts' ↔
      (artifacts : Multiset ResearchArtifact) = artifacts' := by
  rw [Multiset.coe_eq_coe]
  constructor
  · intro h
    have hperm : artifacts.Perm (sortedArtifacts artifacts) := (stableSortBy_perm _ _).symm
    rw [h] at hperm
    exact hperm.trans (stableSortBy_perm _ _)
  · intro h
    have hsorted : (sortedArtifacts artifacts).Perm (sortedArtifacts artifacts') :=
      ((stableSortBy_perm _ _).trans h).trans (stableSortBy_perm _ _).symm
    refine hsorted.eq_of_pairwise ?_ (stableSortBy_sorted _ _) (stableSortBy_sorted _ _)
    intro a b _ _ hab hba
    exact ResearchArtifact.sortKey_injective (le_antisymm hab hba)

/-- The list of the artifacts in a manifest, its entries with sorted keys. -/
def artifactList (F : Type) (artifacts : List ResearchArtifact) : Json F :=
  .list (artifacts.map fun artifact ↦ (artifact.identity F).sortKeys)

theorem sortKeys_list_identity (artifacts : List ResearchArtifact) :
    (Json.list (artifacts.map fun artifact ↦ artifact.identity F)).sortKeys =
      artifactList F artifacts := by
  rw [Json.sortKeys, Json.sortItems_eq_map, map_map]
  rfl

theorem artifactList_inj {artifacts artifacts' : List ResearchArtifact} :
    artifactList F artifacts = artifactList F artifacts' ↔ artifacts = artifacts' := by
  rw [artifactList, artifactList, Json.list.injEq]
  exact (map_injective_iff.mpr ResearchArtifact.sortKeys_identity_injective).eq_iff

theorem readsBack_artifactList [FloatText F] (artifacts : List ResearchArtifact) :
    (artifactList F artifacts).ReadsBack := by
  refine Json.readsBack_list fun j hj ↦ ?_
  obtain ⟨artifact, -, rfl⟩ := mem_map.mp hj
  rw [ResearchArtifact.sortKeys_identity]
  refine Json.readsBack_dict ?_ ?_
  · simp
  · simp

/-! ## Results -/

def ManifestPayload.toJson (F : Type) (payload : ManifestPayload) : Json F := .dict [
  ("status", .str payload.status.value),
  ("source_dataset_sha256", .str payload.sourceDatasetSha256.hex),
  ("artifacts", .list (payload.artifacts.map fun artifact ↦ artifact.identity F)),
  ("failures", .list (payload.failures.map .str))]

/-- `encoded` of `manifest_sha256`: the text that is hashed. -/
def manifestText (F : Type) [FloatText F] (result : ResearchResult) : List Char :=
  ((manifestPayload result).toJson F).sortKeys.text .compact

theorem ManifestPayload.sortKeys_toJson (payload : ManifestPayload) :
    (payload.toJson F).sortKeys = .dict [
      ("artifacts", artifactList F payload.artifacts),
      ("failures", .list (payload.failures.map .str)),
      ("source_dataset_sha256", .str payload.sourceDatasetSha256.hex),
      ("status", .str payload.status.value)] := by
  rw [← sortKeys_list_identity]
  show Json.dict (sortEntries (Json.sortValues _)) = _
  simp only [Json.sortValues_eq_map, map_cons, map_nil]
  simp [sortEntries, List.insertionSort, List.orderedInsert, Json.sortKeys, Json.sortItems_eq_map]

theorem ManifestPayload.text_injective [FloatText F] [LawfulFloatText F] :
    Function.Injective fun payload :
    ManifestPayload ↦ (payload.toJson F).sortKeys.text .compact := by
  intro payload payload' h
  have hreads (payload : ManifestPayload) : (payload.toJson F).sortKeys.ReadsBack := by
    rw [sortKeys_toJson]
    refine Json.readsBack_dict ?_ ?_
    · simp
    · simp only [forall_mem_cons, Json.readsBack_str, Json.readsBack_strings, true_and]
      exact ⟨readsBack_artifactList _, fun _ he ↦ absurd he not_mem_nil⟩
  have hjson := (hreads payload).eq_of_text_eq Separators.plain_compact (hreads payload') h
  have hstrings : Function.Injective (List.map (Json.str (F := F))) :=
    map_injective_iff.mpr fun _ _ ↦ Json.str.inj
  simp only [sortKeys_toJson, Json.dict.injEq, Json.list.injEq, Json.str.injEq, List.cons.injEq,
    Prod.mk.injEq, true_and, and_true, artifactList_inj, hstrings.eq_iff, Sha256.hex_injective.eq_iff,
    ResultStatus.value_injective.eq_iff] at hjson
  obtain ⟨hartifacts, hfailures, hsource, hstatus⟩ := hjson
  obtain ⟨_, _, _, _⟩ := payload
  rw [mk.injEq]
  exact ⟨hstatus, hsource, hartifacts, hfailures⟩

/-- **Two results have one manifest text exactly when they agree up to the order of their
artifacts.** -/
theorem manifestText_eq_iff [FloatText F] [LawfulFloatText F] (result result' : ResearchResult) :
    manifestText F result = manifestText F result' ↔
      result.status = result'.status ∧
        result.sourceDatasetSha256 = result'.sourceDatasetSha256 ∧
          result.failures = result'.failures ∧
            (result.artifacts : Multiset ResearchArtifact) = result'.artifacts := by
  unfold manifestText
  rw [ManifestPayload.text_injective.eq_iff (a := manifestPayload result), manifestPayload,
    manifestPayload, ManifestPayload.mk.injEq, ← sortedArtifacts_eq_iff]
  unfold sortedArtifacts
  tauto

theorem manifestText_eq_iff_sample :
    let digest : Sha256 :=
      ⟨"ca978112ca1bbdcafac231b39a23dc4da786eff8147c4e72b9807785afee48bb", by decide +kernel,
        by decide +kernel⟩
    let trades : ResearchArtifact := ⟨"trades", "table", digest, by decide, by decide⟩
    let equity : ResearchArtifact := ⟨"equity", "curve", digest, by decide, by decide⟩
    manifestText Tenths ⟨.succeeded, digest, [trades, equity], [], fun _ ↦ rfl⟩ =
      manifestText Tenths ⟨.succeeded, digest, [equity, trades], [], fun _ ↦ rfl⟩ :=
  (manifestText_eq_iff _ _).mpr ⟨rfl, rfl, rfl, Multiset.coe_eq_coe.mpr (List.Perm.swap _ _ _)⟩

/-! ## Artifacts without a result -/

def artifactManifestPayload (F : Type) (artifacts : List ResearchArtifact) : Except String (Json F) := do
  let identities := sortedArtifacts artifacts
  require (identities.map ResearchArtifact.artifactId).Nodup
    "artifact_id must be unique within a manifest"
  return .dict [
    ("schema", .str "research-artifact-manifest.v1"),
    ("artifacts", .list (identities.map fun artifact ↦ artifact.identity F))]

def artifactManifestText (F : Type) [FloatText F] (artifacts : List ResearchArtifact) :
    Except String (List Char) := do
  return (← artifactManifestPayload F artifacts).sortKeys.text .compact

theorem artifactManifestText_eq_ok [FloatText F] {artifacts : List ResearchArtifact}
    {text : List Char} : artifactManifestText F artifacts = .ok text ↔
      (artifacts.map ResearchArtifact.artifactId).Nodup ∧
        (Json.dict [("artifacts", artifactList F (sortedArtifacts artifacts)),
          ("schema", .str "research-artifact-manifest.v1")]).text .compact = text := by
  have hids : ((sortedArtifacts artifacts).map ResearchArtifact.artifactId).Nodup ↔
      (artifacts.map ResearchArtifact.artifactId).Nodup :=
    ((stableSortBy_perm _ artifacts).map _).nodup_iff
  have hsort : (Json.dict [("schema", .str "research-artifact-manifest.v1"),
      ("artifacts", .list ((sortedArtifacts artifacts).map fun a ↦ a.identity F))]).sortKeys =
        .dict [("artifacts", artifactList F (sortedArtifacts artifacts)),
          ("schema", .str "research-artifact-manifest.v1")] := by
    rw [← sortKeys_list_identity]
    show Json.dict (sortEntries (Json.sortValues _)) = _
    simp only [Json.sortValues_eq_map, map_cons, map_nil]
    simp [sortEntries, List.insertionSort, List.orderedInsert, Json.sortKeys]
  unfold artifactManifestText artifactManifestPayload
  constructor
  · intro h
    obtain ⟨payload, hpayload, htext⟩ := bind_eq_ok.mp h
    obtain ⟨_, hunique, hdict⟩ := bind_eq_ok.mp hpayload
    obtain rfl := Except.ok.inj hdict
    rw [hsort] at htext
    exact ⟨hids.mp (of_require hunique), Except.ok.inj htext⟩
  · rintro ⟨hunique, rfl⟩
    have hrequire : require ((sortedArtifacts artifacts).map ResearchArtifact.artifactId).Nodup
        "artifact_id must be unique within a manifest" = .ok () :=
      require_eq_ok.mpr (hids.mpr hunique)
    simp only [hrequire, ← hsort]
    rfl

/-- **An artifact manifest identifies its artifacts.**  It exists if their ids are different. -/
theorem artifactManifestText_eq_ok_iff [FloatText F] [LawfulFloatText F]
    (artifacts artifacts' : List ResearchArtifact) :
    (∃ text, artifactManifestText F artifacts = .ok text ∧
        artifactManifestText F artifacts' = .ok text) ↔
      (artifacts.map ResearchArtifact.artifactId).Nodup ∧
        (artifacts : Multiset ResearchArtifact) = artifacts' := by
  simp only [artifactManifestText_eq_ok]
  constructor
  · rintro ⟨text, ⟨hunique, htext⟩, -, htext'⟩
    have hreads (artifacts : List ResearchArtifact) :
        (Json.dict [("artifacts", artifactList F (sortedArtifacts artifacts)),
          ("schema", .str "research-artifact-manifest.v1")]).ReadsBack := by
      refine Json.readsBack_dict (by simp) ?_
      simp only [forall_mem_cons, Json.readsBack_str, true_and]
      exact ⟨readsBack_artifactList _, fun _ he ↦ absurd he not_mem_nil⟩
    have hjson := (hreads artifacts).eq_of_text_eq Separators.plain_compact (hreads artifacts')
      (htext.trans htext'.symm)
    simp only [Json.dict.injEq, List.cons.injEq, Prod.mk.injEq, true_and, and_true,
      artifactList_inj] at hjson
    exact ⟨hunique, sortedArtifacts_eq_iff.mp hjson⟩
  · rintro ⟨hunique, hartifacts⟩
    refine ⟨_, ⟨hunique, rfl⟩, ?_, ?_⟩
    · exact ((Multiset.coe_eq_coe.mp hartifacts).map _).nodup_iff.mp hunique
    · rw [sortedArtifacts_eq_iff.mpr hartifacts]

end Qros.Saas
