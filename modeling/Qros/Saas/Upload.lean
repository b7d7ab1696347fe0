import Qros.Lib.Machine
import Qros.Saas.Datasets

/-!
# Dataset uploads

`upload_dataset`, `upload_dataset_version` and `persist_version` of
`researchos/saas/api.py`, as a system of any number of uploads over one store of rows
and one store of objects.  An upload stages its bytes, looks for the object, puts it
if it is missing, inserts its rows, and on a failure deletes its dataset and removes
the object if it has put it.

Between any two steps of an upload the others may move, a store may raise, and the
upload may crash.  Which of these happens is the input of the machine `uploads`; a
move that its upload is not ready for does nothing.

Objects are shared by uploads of the same bytes, and the one that has put an object
removes it without asking who else has come to use it: `uploads_consistent_iff`.
-/

universe u

namespace Qros.Saas

open Qros.Lib

/-! ## Staging -/

def validateDatasetName (name : String) : Option String :=
  let normalized := strip name
  if 1 ≤ name.length ∧ name.length ≤ 256 ∧ normalized ≠ "" ∧ '/' ∉ normalized.toList ∧
      '\\' ∉ normalized.toList ∧ ¬ ['.', '.'] <:+: normalized.toList then
    some normalized
  else none

variable (sha : Bytes → Sha256)

/-- An upload that knows its storage path; `newDataset` is the dataset that it creates. -/
structure Staged where
  workspaceId : Uuid
  userId : Uuid
  datasetId : Uuid
  newDataset : Option Dataset
  file : Bytes
  versionNo : Nat
  storagePath : String
  path_eq : storagePathFor workspaceId (sha file) versionNo = some storagePath

variable {sha}

def Staged.version (s : Staged sha) (id : Uuid) : DatasetVersion where
  id := id
  datasetId := s.datasetId
  versionNo := s.versionNo
  contentSha256 := sha s.file
  storagePath := s.storagePath
  byteSize := s.file.length
  createdBy := s.userId

variable (sha) in
/-- The upload with its path, unless the file is too large for the plan. -/
def stage (tenant : TenantContext) (datasetId : Uuid) (newDataset : Option Dataset) (file : Bytes)
    (versionNo : Nat) : Option (Staged sha) :=
  match streamSha256 sha file tenant.plan.usagePolicy.maxDatasetBytes with
  | .error _ => none
  | .ok (_, size) =>
    if tenant.plan.usagePolicy.allowsDataset size then
      match h : storagePathFor tenant.workspaceId (sha file) versionNo with
      | none => none
      | some path =>
        some ⟨tenant.workspaceId, tenant.userId, datasetId, newDataset, file, versionNo, path, h⟩
    else none

/-! ## The limit of the plan -/

/-- The size check of the two upload paths, over what `file.read` returns. -/
def checkSize (digest : Bytes → Sha256) (policy : UsagePolicy) (chunks : List Bytes) :
    Except DatasetError (Sha256 × Nat) :=
  match streamChunks digest policy.maxDatasetBytes [] chunks with
  | .error e => .error e
  | .ok (hash, size) =>
    if policy.allowsDataset size then .ok (hash, size)
    else .error (.valueError "dataset exceeds plan upload limit")

theorem allowsDataset_iff {policy : UsagePolicy} {size : Nat} :
    policy.allowsDataset size = true ↔
      policy.maxDatasetBytes = 0 ∨ (size : Int) ≤ policy.maxDatasetBytes := by
  unfold UsagePolicy.allowsDataset
  simp

/-- The path accepts what is within the limit twice: as a limit of its own, and as the policy
reads it. -/
theorem checkSize_eq_ok_iff {digest : Bytes → Sha256} {policy : UsagePolicy}
    {chunks : List Bytes} :
    (∃ result, checkSize digest policy chunks = .ok result) ↔
      (contentOf chunks = [] ∨ ((contentOf chunks).length : Int) ≤ policy.maxDatasetBytes) ∧
        policy.allowsDataset (contentOf chunks).length = true := by
  unfold checkSize
  rw [streamChunks_eq, streamSha256]
  by_cases hover : contentOf chunks ≠ [] ∧ policy.maxDatasetBytes < (contentOf chunks).length
  · rw [if_pos hover]
    refine iff_of_false ?_ fun h ↦ h.1.elim hover.1 (not_le.mpr hover.2)
    rintro ⟨result, h⟩
    cases h
  · rw [if_neg hover]
    have hwithin : contentOf chunks = [] ∨
        ((contentOf chunks).length : Int) ≤ policy.maxDatasetBytes := by
      by_contra h
      rw [not_or, not_le] at h
      exact hover h
    rw [and_iff_right hwithin]
    dsimp only
    split_ifs with hallows
    · exact iff_of_true ⟨_, rfl⟩ hallows
    · refine iff_of_false ?_ hallows
      rintro ⟨result, h⟩
      cases h

/-- The path and the policy agree on a file just when the plan has a limit or there is
nothing to upload: `stream_sha256` does not know that a limit of zero is none. -/
theorem checkSize_agrees_iff (digest : Bytes → Sha256) (policy : UsagePolicy)
    (chunks : List Bytes) :
    ((∃ result, checkSize digest policy chunks = .ok result) ↔
        policy.allowsDataset (contentOf chunks).length = true) ↔
      policy.maxDatasetBytes ≠ 0 ∨ contentOf chunks = [] := by
  rw [checkSize_eq_ok_iff, and_iff_right_iff_imp, allowsDataset_iff]
  constructor
  · intro h
    by_cases hzero : policy.maxDatasetBytes = 0
    · rcases h (.inl hzero) with hempty | hle
      · exact .inr hempty
      · rw [hzero] at hle
        exact .inr (List.eq_nil_of_length_eq_zero (by omega))
    · exact .inl hzero
  · rintro (hne | hempty) hallows
    · exact .inr (hallows.resolve_left hne)
    · exact .inl hempty

/-- The plan without a limit refuses a file of one byte, which its policy allows. -/
theorem unlimited_plan_refuses :
    ¬ ∀ (digest : Bytes → Sha256) (chunks : List Bytes),
      (∃ result, checkSize digest Plan.enterprise.usagePolicy chunks = .ok result) ↔
        Plan.enterprise.usagePolicy.allowsDataset (contentOf chunks).length = true := by
  intro h
  have hallows : Plan.enterprise.usagePolicy.allowsDataset (contentOf [[7]]).length = true := by
    decide
  let digest : Bytes → Sha256 := fun _ ↦
    ⟨"ba7816bf8f01cfea414140de5dae2223b00361a396177a9cb410ff61f20015ad", by decide +kernel,
      by decide +kernel⟩
  obtain ⟨result, hresult⟩ := (h digest [[7]]).mpr hallows
  cases hresult

/-! ## Moves -/

inductive UploadPhase (sha : Bytes → Sha256) where
  | idle
  | /-- The dataset of a new version has been found. -/
    opened (tenant : TenantContext) (datasetId : Uuid) (file : Bytes)
  | staged (s : Staged sha)
  | /-- `exists` has answered no. -/
    missing (s : Staged sha)
  | /-- The object is there; next comes `create_dataset`. -/
    stored (s : Staged sha) (created : Bool)
  | /-- Next comes `create_version`. -/
    inserting (s : Staged sha) (created : Bool)
  | /-- An insertion has raised; next comes `delete_dataset`. -/
    failed (s : Staged sha) (created : Bool)
  | /-- Next comes `remove`. -/
    removing (s : Staged sha)

/-- The insertions of an upload begin. -/
def UploadPhase.afterStored (s : Staged sha) (created : Bool) : UploadPhase sha :=
  if s.newDataset.isSome then .stored s created else .inserting s created

def UploadPhase.afterDelete (s : Staged sha) (created : Bool) : UploadPhase sha :=
  if created then .removing s else .idle

/-- The rollback of an upload begins. -/
def UploadPhase.afterFailure (s : Staged sha) (created : Bool) : UploadPhase sha :=
  if s.newDataset.isSome then .failed s created else .afterDelete s created

/-- One move of the system; `U` names the uploads.  With `fails` the store raises an
exception of its own. -/
inductive UploadMove (U : Type u) where
  | uploadDataset (u : U) (tenant : TenantContext) (id : Uuid) (name : String)
      (createdAt : DateTime) (file : Bytes)
  | uploadVersion (u : U) (tenant : TenantContext) (datasetId : Uuid) (file : Bytes)
  | stage (u : U)
  | lookup (u : U)
  | put (u : U) (fails : Bool)
  | createDataset (u : U) (fails : Bool)
  | createVersion (u : U) (id : Uuid) (fails : Bool)
  | deleteDataset (u : U) (fails : Bool)
  | remove (u : U) (fails : Bool)
  | crash (u : U)

structure Uploads (sha : Bytes → Sha256) (U : Type u) where
  store : DatasetStore
  storage : DatasetStorage
  phase : U → UploadPhase sha

variable {U : Type u} [DecidableEq U]

def Uploads.goto (sys : Uploads sha U) (u : U) (phase : UploadPhase sha) : Uploads sha U :=
  { sys with phase := Function.update sys.phase u phase }

def openDataset (entitlements : Dict Uuid Entitlement) (store : DatasetStore)
    (tenant : TenantContext) (id : Uuid) (name : String) (createdAt : DateTime) : Option Dataset :=
  match validateDatasetName name with
  | none => none
  | some name =>
    let entitlement := entitlementOf entitlements tenant.workspaceId tenant.plan
    if 0 < entitlement.maxDatasets ∧
        entitlement.maxDatasets ≤ store.countDatasets tenant.workspaceId then none
    else some ⟨id, tenant.workspaceId, name, tenant.userId, createdAt⟩

/-- A new version, unless one of the dataset has the same content. -/
def stageVersion (store : DatasetStore) (tenant : TenantContext) (datasetId : Uuid) (file : Bytes) :
    Option (Staged sha) :=
  let existing := store.listVersions tenant.workspaceId datasetId
  if existing.any fun v ↦ decide (v.contentSha256 = sha file) then none
  else
    stage sha tenant datasetId none file ((existing.map DatasetVersion.versionNo).foldl max 0 + 1)

def Uploads.move (entitlements : Dict Uuid Entitlement) (sys : Uploads sha U) :
    UploadMove U → Uploads sha U
  | .uploadDataset u tenant id name createdAt file =>
    match sys.phase u, openDataset entitlements sys.store tenant id name createdAt with
    | .idle, some dataset =>
      match stage sha tenant id (some dataset) file 1 with
      | some s => sys.goto u (.staged s)
      | none => sys
    | _, _ => sys
  | .uploadVersion u tenant datasetId file =>
    match sys.phase u, sys.store.getDataset tenant.workspaceId datasetId with
    | .idle, some _ => sys.goto u (.opened tenant datasetId file)
    | _, _ => sys
  | .stage u =>
    match sys.phase u with
    | .opened tenant datasetId file =>
      match stageVersion sys.store tenant datasetId file with
      | some s => sys.goto u (.staged s)
      | none => sys.goto u .idle
    | _ => sys
  | .lookup u =>
    match sys.phase u with
    | .staged s =>
      if (sys.storage.get? s.storagePath).isSome then sys.goto u (.afterStored s false)
      else sys.goto u (.missing s)
    | _ => sys
  | .put u fails =>
    match sys.phase u with
    | .missing s =>
      if fails then sys.goto u .idle
      else
        match sys.storage.put s.storagePath s.file with
        | (.error _, _) => sys.goto u .idle
        | (.ok (), storage) => { sys with storage := storage }.goto u (.afterStored s true)
    | _ => sys
  | .createDataset u fails =>
    match sys.phase u with
    | .stored s created =>
      match s.newDataset, fails with
      | some dataset, false =>
        match sys.store.createDataset s.workspaceId dataset with
        | (.error _, _) => sys.goto u (.afterFailure s created)
        | (.ok _, store) => { sys with store := store }.goto u (.inserting s created)
      | _, _ => sys.goto u (.afterFailure s created)
    | _ => sys
  | .createVersion u id fails =>
    match sys.phase u with
    | .inserting s created =>
      if fails then sys.goto u (.afterFailure s created)
      else
        match sys.store.createVersion s.workspaceId (s.version id) with
        | (.error _, _) => sys.goto u (.afterFailure s created)
        | (.ok _, store) => { sys with store := store }.goto u .idle
    | _ => sys
  | .deleteDataset u fails =>
    match sys.phase u with
    | .failed s created =>
      -- The object is removed also when this raises.
      if fails then sys.goto u (.afterDelete s created)
      else
        { sys with
          store := (sys.store.deleteDataset s.workspaceId s.datasetId).2 }.goto u
            (.afterDelete s created)
    | _ => sys
  | .remove u fails =>
    match sys.phase u with
    | .removing s =>
      if fails then sys.goto u .idle
      else { sys with storage := sys.storage.pop s.storagePath }.goto u .idle
    | _ => sys
  | .crash u => sys.goto u .idle

variable (sha) in
def uploads (entitlements : Dict Uuid Entitlement) (U : Type u) [DecidableEq U] :
    Machine (Uploads sha U) (UploadMove U) Unit where
  init := ⟨.empty, ∅, fun _ ↦ .idle⟩
  step := fun m sys ↦ ((), sys.move entitlements m)

/-! ## Consistency -/

/-- The path of every version holds an object with the digest of the version. -/
def Consistent (sys : Uploads sha U) : Prop :=
  ∀ id version, sys.store.versions.get? id = some version →
    ∃ object, sys.storage.get? version.storagePath = some object ∧
      sha object = version.contentSha256

def KeepsObjects (sys : Uploads sha U) : UploadMove U → Prop
  | .remove u false =>
    match sys.phase u with
    | .removing s => ∀ version ∈ sys.store.versions.values, version.storagePath ≠ s.storagePath
    | _ => True
  | .createVersion u id false =>
    match sys.phase u with
    | .inserting s _ => sys.store.CanInsert s.workspaceId (s.version id) →
        (sys.storage.get? s.storagePath).isSome = true
    | _ => True
  | _ => True

/-! ## What a move does -/

inductive UploadEffect (sys : Uploads sha U) (m : UploadMove U) (sys' : Uploads sha U) : Prop where
  | quiet (keeps : KeepsObjects sys m) (versions : sys'.store.versions = sys.store.versions)
      (storage : sys'.storage = sys.storage)
  | put (s : Staged sha) (keeps : KeepsObjects sys m) (missing : sys.storage.get? s.storagePath = none)
      (versions : sys'.store.versions = sys.store.versions)
      (storage : sys'.storage = sys.storage.set s.storagePath s.file)
  | insert (s : Staged sha) (id : Uuid)
      (keeps : KeepsObjects sys m ↔ (sys.storage.get? s.storagePath).isSome = true)
      (versions : sys'.store.versions = sys.store.versions.set id (s.version id))
      (storage : sys'.storage = sys.storage)
  | remove (s : Staged sha)
      (keeps : KeepsObjects sys m ↔
        ∀ version ∈ sys.store.versions.values, version.storagePath ≠ s.storagePath)
      (versions : sys'.store.versions = sys.store.versions)
      (storage : sys'.storage = sys.storage.pop s.storagePath)

theorem put_cases (storage : DatasetStorage) (path : String) (file : Bytes) :
    (∃ e, storage.put path file = (.error e, storage)) ∨
      storage.get? path = none ∧ storage.put path file = (.ok (), storage.set path file) := by
  unfold DatasetStorage.put
  split
  · exact .inl ⟨_, rfl⟩
  · rename_i h
    exact .inr ⟨Option.not_isSome_iff_eq_none.mp h, rfl⟩

theorem uploadEffect (entitlements : Dict Uuid Entitlement) (sys : Uploads sha U)
    (m : UploadMove U) : UploadEffect sys m (sys.move entitlements m) := by
  cases m with
  | uploadDataset u tenant id name createdAt file =>
    rw [Uploads.move]
    split
    · split <;> exact .quiet trivial rfl rfl
    · exact .quiet trivial rfl rfl
  | uploadVersion u tenant datasetId file =>
    rw [Uploads.move]
    split <;> exact .quiet trivial rfl rfl
  | stage u =>
    rw [Uploads.move]
    split
    · split <;> exact .quiet trivial rfl rfl
    · exact .quiet trivial rfl rfl
  | lookup u =>
    rw [Uploads.move]
    split
    · split <;> exact .quiet trivial rfl rfl
    · exact .quiet trivial rfl rfl
  | put u fails =>
    rw [Uploads.move]
    split
    · rename_i s _
      split
      · exact .quiet trivial rfl rfl
      · rcases put_cases sys.storage s.storagePath s.file with ⟨e, hput⟩ | ⟨hmissing, hput⟩
        · rw [hput]
          exact .quiet trivial rfl rfl
        · rw [hput]
          exact .put s trivial hmissing rfl rfl
    · exact .quiet trivial rfl rfl
  | createDataset u fails =>
    rw [Uploads.move]
    split
    · rename_i s created _
      cases hdataset : s.newDataset with
      | none => exact .quiet trivial rfl rfl
      | some dataset =>
        cases fails with
        | true => exact .quiet trivial rfl rfl
        | false =>
          have hversions := sys.store.createDataset_versions s.workspaceId dataset
          rcases hcreate : sys.store.createDataset s.workspaceId dataset with ⟨e | d, store⟩
          · simp only [hcreate]
            exact .quiet trivial rfl rfl
          · rw [hcreate] at hversions
            simp only [hcreate]
            exact .quiet trivial hversions rfl
    · exact .quiet trivial rfl rfl
  | createVersion u id fails =>
    rw [Uploads.move]
    cases hphase : sys.phase u with
    | inserting s created =>
      cases fails with
      | true => exact .quiet trivial rfl rfl
      | false =>
        have hkeeps : KeepsObjects sys (.createVersion u id false) ↔
            (sys.store.CanInsert s.workspaceId (s.version id) →
              (sys.storage.get? s.storagePath).isSome = true) := by
          rw [KeepsObjects, hphase]
        have hcanonical : storagePathFor s.workspaceId (s.version id).contentSha256
            (s.version id).versionNo = some (s.version id).storagePath := s.path_eq
        rcases sys.store.createVersion_of_canonical hcanonical with
          ⟨hcan, hcreate⟩ | ⟨hcan, e, hcreate⟩
        · simp only [hcreate, Bool.false_eq_true, if_false]
          exact .insert s id (hkeeps.trans (forall_prop_of_true hcan)) rfl rfl
        · simp only [hcreate, Bool.false_eq_true, if_false]
          exact .quiet (hkeeps.mpr fun h ↦ absurd h hcan) rfl rfl
    | _ =>
      cases fails with
      | true => exact .quiet trivial rfl rfl
      | false => exact .quiet (by simp [KeepsObjects, hphase]) rfl rfl
  | deleteDataset u fails =>
    rw [Uploads.move]
    split
    · split
      · exact .quiet trivial rfl rfl
      · exact .quiet trivial (sys.store.deleteDataset_versions _ _) rfl
    · exact .quiet trivial rfl rfl
  | remove u fails =>
    rw [Uploads.move]
    cases hphase : sys.phase u with
    | removing s =>
      cases fails with
      | true => exact .quiet trivial rfl rfl
      | false =>
        have hkeeps : KeepsObjects sys (.remove u false) ↔
            ∀ version ∈ sys.store.versions.values, version.storagePath ≠ s.storagePath := by
          rw [KeepsObjects, hphase]
        exact .remove s hkeeps rfl rfl
    | _ =>
      cases fails with
      | true => exact .quiet trivial rfl rfl
      | false => exact .quiet (by simp [KeepsObjects, hphase]) rfl rfl
  | crash u => exact .quiet trivial rfl rfl

/-! ## The invariant -/

/-- Every object is stored under a path with its digest. -/
def ObjectsNamed (sys : Uploads sha U) : Prop :=
  ∀ path object, sys.storage.get? path = some object →
    ∃ workspaceId versionNo, storagePathFor workspaceId (sha object) versionNo = some path

omit [DecidableEq U] in
theorem UploadEffect.objectsNamed {sys sys' : Uploads sha U} {m : UploadMove U}
    (h : UploadEffect sys m sys') (hnamed : ObjectsNamed sys) : ObjectsNamed sys' := by
  intro path object hget
  cases h with
  | quiet keeps versions storage =>
    rw [storage] at hget
    exact hnamed path object hget
  | put s keeps missing versions storage =>
    rw [storage, Dict.get?_set] at hget
    split at hget
    · rename_i hpath
      cases hget
      exact ⟨s.workspaceId, s.versionNo, hpath ▸ s.path_eq⟩
    · exact hnamed path object hget
  | insert s id keeps versions storage =>
    rw [storage] at hget
    exact hnamed path object hget
  | remove s keeps versions storage =>
    rw [storage, Dict.get?_pop] at hget
    split at hget
    · cases hget
    · exact hnamed path object hget

omit [DecidableEq U] in
theorem UploadEffect.consistent_iff {sys sys' : Uploads sha U} {m : UploadMove U}
    (h : UploadEffect sys m sys') (hnamed : ObjectsNamed sys) (hsys : Consistent sys) :
    Consistent sys' ↔ KeepsObjects sys m := by
  cases h with
  | quiet keeps versions storage =>
    refine iff_of_true ?_ keeps
    intro id version hget
    rw [versions] at hget
    rw [storage]
    exact hsys id version hget
  | put s keeps missing versions storage =>
    refine iff_of_true ?_ keeps
    intro id version hget
    rw [versions] at hget
    obtain ⟨object, hobject, hsha⟩ := hsys id version hget
    refine ⟨object, ?_, hsha⟩
    rw [storage, Dict.get?_set_of_ne]
    · exact hobject
    · -- There is no object at the path of the new one.
      rintro hpath
      rw [← hpath, missing] at hobject
      cases hobject
  | insert s id keeps versions storage =>
    rw [keeps]
    constructor
    · intro hsys'
      obtain ⟨object, hobject, -⟩ := hsys' id (s.version id) (by rw [versions, Dict.get?_set_self])
      rw [storage] at hobject
      exact Option.isSome_iff_exists.mpr ⟨object, hobject⟩
    · intro hpresent id' version hget
      rw [versions, Dict.get?_set] at hget
      rw [storage]
      split at hget
      · cases hget
        obtain ⟨object, hobject⟩ := Option.isSome_iff_exists.mp hpresent
        obtain ⟨workspaceId, versionNo, hpath⟩ := hnamed _ object hobject
        exact ⟨object, hobject, storagePathFor_digest hpath s.path_eq⟩
      · exact hsys id' version hget
  | remove s keeps versions storage =>
    rw [keeps]
    constructor
    · intro hsys' version hversion hpath
      obtain ⟨id, hget⟩ := Dict.mem_values.mp hversion
      obtain ⟨object, hobject, -⟩ := hsys' id version (by rw [versions, hget])
      rw [storage, hpath, Dict.get?_pop_self] at hobject
      cases hobject
    · intro hunused id version hget
      rw [versions] at hget
      obtain ⟨object, hobject, hsha⟩ := hsys id version hget
      refine ⟨object, ?_, hsha⟩
      have hpath := hunused version (Dict.mem_values.mpr ⟨id, hget⟩)
      rw [storage, Dict.get?_pop_of_ne _ (Ne.symm hpath)]
      exact hobject

theorem objectsNamed_after (entitlements : Dict Uuid Entitlement) (is : List (UploadMove U)) :
    ObjectsNamed ((uploads sha entitlements U).after is) := by
  induction is using List.reverseRecOn with
  | nil =>
    intro path object hget
    cases hget
  | append_singleton is m ih =>
    rw [Machine.after_concat]
    exact (uploadEffect entitlements _ m).objectsNamed ih

/-! ## Exactness -/

variable (sha) in
/-- Throughout a run every version has its object, just when removals find no version of
their path and versions are inserted while their object is there. -/
theorem uploads_consistent_iff (entitlements : Dict Uuid Entitlement) (U : Type u)
    [DecidableEq U] (is : List (UploadMove U)) :
    (∀ pre, pre <+: is → Consistent ((uploads sha entitlements U).after pre)) ↔
      Meets (fun pre m ↦ KeepsObjects ((uploads sha entitlements U).after pre) m) is := by
  refine safe_iff_meets (B := fun _ _ ↦ True) (fun _ _ _ ↦ trivial) ?_ ?_
  · intro id version hget
    cases hget
  · intro is m _ _ hsafe _
    rw [Machine.after_concat]
    exact (uploadEffect entitlements _ m).consistent_iff (objectsNamed_after entitlements is)
      (hsafe is (List.prefix_refl is))

omit [DecidableEq U] in
theorem not_consistent_of_missing {sys : Uploads sha U} (id : Uuid)
    (h : ((sys.store.versions.get? id).any fun version ↦
      (sys.storage.get? version.storagePath).isNone) = true) : ¬ Consistent sys := by
  intro hsys
  cases hget : sys.store.versions.get? id with
  | none =>
    rw [hget] at h
    cases h
  | some version =>
    obtain ⟨object, hobject, -⟩ := hsys id version hget
    rw [hget, Option.any_some, hobject] at h
    cases h

theorem digestA_length :
    "ca978112ca1bbdcafac231b39a23dc4da786eff8147c4e72b9807785afee48bb".length = 64 := by
  decide +kernel

theorem digestA_digits :
    "ca978112ca1bbdcafac231b39a23dc4da786eff8147c4e72b9807785afee48bb".toList.all isHexDigit =
      true := by
  decide +kernel

/-- Two uploads of the same new version: the second finds the object of the first and
inserts the version, and the rollback of the first removes the object. -/
theorem uploads_remove_shared_object :
    let digestA : Sha256 :=
      ⟨"ca978112ca1bbdcafac231b39a23dc4da786eff8147c4e72b9807785afee48bb", digestA_length,
        digestA_digits⟩
    let digestB : Sha256 :=
      ⟨"3e23e8160039594a33894f6564e1b1348bbd7a0088d42c4acb73eeaed59c009d", by decide +kernel,
        by decide +kernel⟩
    let sha : Bytes → Sha256 := fun file ↦ if file = [97] then digestA else digestB
    let tenant : TenantContext := ⟨⟨1⟩, ⟨2⟩, .pro, .owner⟩
    let moves : List (UploadMove Nat) :=
      [.uploadDataset 0 tenant ⟨10⟩ "prices" 0 [97], .lookup 0, .put 0 false,
        .createDataset 0 false, .createVersion 0 ⟨20⟩ false,
        .uploadVersion 1 tenant ⟨10⟩ [98], .stage 1, .uploadVersion 2 tenant ⟨10⟩ [98], .stage 2,
        .lookup 1, .put 1 false, .lookup 2, .createVersion 2 ⟨22⟩ false,
        .createVersion 1 ⟨21⟩ false, .remove 1 false]
    ¬ Consistent ((uploads sha ∅ Nat).after moves) := by
  intro digestA digestB sha tenant moves
  exact not_consistent_of_missing ⟨22⟩ (by decide +kernel)

end Qros.Saas
