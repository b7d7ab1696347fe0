import Qros.Saas.Contracts

/-!
# Datasets, their versions and their objects

`InMemoryDatasetStore` and `InMemoryDatasetStorage` of `researchos/saas/datasets.py`.
The rows of a version and the bytes of its content are in different stores; the
storage path, which contains the digest of the content, connects them
(`storagePathFor_digest`).

The digest of bytes is a parameter.
-/

namespace Qros.Saas

open Qros.Lib Qros.Lib.KeySort List

/-! ## Identifiers as text -/

def hexDigit (n : Nat) : Char :=
  if n < 10 then Char.ofNat (48 + n) else Char.ofNat (87 + n)

def Uuid.hex (u : Uuid) : List Char :=
  (List.range 32).map fun i ↦ hexDigit (u.int.toNat / 16 ^ (31 - i) % 16)

def Uuid.str (u : Uuid) : List Char :=
  u.hex.take 8 ++ '-' :: (u.hex.drop 8).take 4 ++ '-' :: (u.hex.drop 12).take 4 ++
    '-' :: (u.hex.drop 16).take 4 ++ '-' :: u.hex.drop 20

theorem Uuid.length_hex (u : Uuid) : u.hex.length = 32 := by
  rw [Uuid.hex, length_map, length_range]

theorem Uuid.length_str (u : Uuid) : u.str.length = 36 := by
  simp [Uuid.str, Uuid.length_hex]

/-! ## Records -/

structure Dataset where
  id : Uuid
  workspaceId : Uuid
  name : String
  createdBy : Uuid
  createdAt : DateTime
deriving DecidableEq

structure DatasetVersion where
  id : Uuid
  datasetId : Uuid
  versionNo : Nat
  contentSha256 : Sha256
  storagePath : String
  byteSize : Nat
  createdBy : Uuid
deriving DecidableEq

/-- `storage_path_for`, which raises unless the version number is positive. -/
def storagePathFor (workspaceId : Uuid) (digest : Sha256) (versionNo : Nat) : Option String :=
  if versionNo < 1 then none
  else some (String.ofList ("tenant/".toList ++ workspaceId.str ++ "/datasets/".toList ++
    digest.hex.toList ++ '/' :: (toString versionNo).toList ++ ['/']))

theorem storagePathFor_eq_some {workspaceId : Uuid} {digest : Sha256} {versionNo : Nat}
    {path : String} (h : storagePathFor workspaceId digest versionNo = some path) :
    path.toList = "tenant/".toList ++ workspaceId.str ++ "/datasets/".toList ++
      digest.hex.toList ++ '/' :: (toString versionNo).toList ++ ['/'] := by
  unfold storagePathFor at h
  split at h
  · cases h
  · rw [← Option.some.inj h, String.toList_ofList]

theorem storagePathFor_digest {workspaceId workspaceId' : Uuid} {digest digest' : Sha256}
    {versionNo versionNo' : Nat} {path : String}
    (h : storagePathFor workspaceId digest versionNo = some path)
    (h' : storagePathFor workspaceId' digest' versionNo' = some path) : digest = digest' := by
  have heq := (storagePathFor_eq_some h).symm.trans (storagePathFor_eq_some h')
  have hlength : digest.hex.toList.length = digest'.hex.toList.length :=
    digest.length_eq.trans digest'.length_eq.symm
  simp only [append_assoc] at heq
  obtain ⟨-, heq⟩ := append_inj heq rfl
  obtain ⟨-, heq⟩ := append_inj heq ((Uuid.length_str _).trans (Uuid.length_str _).symm)
  obtain ⟨-, heq⟩ := append_inj heq rfl
  have hhex := (append_inj heq hlength).1
  cases digest
  cases digest'
  rw [String.toList_inj] at hhex
  cases hhex
  rfl

/-! ## The store of rows -/

structure DatasetStore where
  datasets : Dict Uuid Dataset
  versions : Dict Uuid DatasetVersion

/-- An exception of the dataset stores; `external` is any that is not raised by the code
here. -/
inductive DatasetError where
  | valueError (message : String)
  | keyError (message : String)
  | external
deriving DecidableEq

namespace DatasetStore

def empty : DatasetStore := ⟨∅, ∅⟩

def getDataset (s : DatasetStore) (workspaceId datasetId : Uuid) : Option Dataset :=
  (s.datasets.get? datasetId).filter fun dataset ↦ decide (dataset.workspaceId = workspaceId)

def createDataset (s : DatasetStore) (workspaceId : Uuid) (dataset : Dataset) :
    Except DatasetError Dataset × DatasetStore :=
  if dataset.workspaceId ≠ workspaceId then
    (.error (.valueError "dataset workspace does not match tenant"), s)
  else if (s.datasets.get? dataset.id).isSome then
    (.error (.valueError "dataset already exists"), s)
  else (.ok dataset, { s with datasets := s.datasets.set dataset.id dataset })

def deleteDataset (s : DatasetStore) (workspaceId datasetId : Uuid) :
    Except DatasetError Unit × DatasetStore :=
  match s.getDataset workspaceId datasetId with
  | none => (.ok (), s)
  | some _ =>
    if s.versions.values.any fun v ↦ decide (v.datasetId = datasetId) then
      (.error (.valueError "cannot delete dataset with versions"), s)
    else (.ok (), { s with datasets := s.datasets.pop datasetId })

def createVersion (s : DatasetStore) (workspaceId : Uuid) (version : DatasetVersion) :
    Except DatasetError DatasetVersion × DatasetStore :=
  match storagePathFor workspaceId version.contentSha256 version.versionNo with
  | none => (.error (.valueError "version_no must be positive"), s)
  | some path =>
    if version.storagePath ≠ path then
      (.error (.valueError
        "dataset storage path does not match canonical content-addressed path"), s)
    else if (s.versions.get? version.id).isSome then
      (.error (.valueError "dataset version already exists"), s)
    else if (s.getDataset workspaceId version.datasetId).isNone then
      (.error (.keyError "dataset not found for workspace"), s)
    else if s.versions.values.any fun v ↦
        decide (v.datasetId = version.datasetId) && decide (v.versionNo = version.versionNo) then
      (.error (.valueError "dataset version number already exists"), s)
    else (.ok version, { s with versions := s.versions.set version.id version })

theorem createDataset_versions (s : DatasetStore) (workspaceId : Uuid) (dataset : Dataset) :
    (s.createDataset workspaceId dataset).2.versions = s.versions := by
  unfold createDataset
  split
  · rfl
  · split <;> rfl

theorem deleteDataset_versions (s : DatasetStore) (workspaceId datasetId : Uuid) :
    (s.deleteDataset workspaceId datasetId).2.versions = s.versions := by
  unfold deleteDataset
  split
  · rfl
  · split <;> rfl

def getVersion (s : DatasetStore) (workspaceId versionId : Uuid) : Option DatasetVersion :=
  (s.versions.get? versionId).filter fun version ↦
    (s.getDataset workspaceId version.datasetId).isSome

def listVersions (s : DatasetStore) (workspaceId datasetId : Uuid) : List DatasetVersion :=
  if (s.getDataset workspaceId datasetId).isNone then []
  else stableSortBy DatasetVersion.versionNo
    (s.versions.values.filter fun v ↦ decide (v.datasetId = datasetId))

def countDatasets (s : DatasetStore) (workspaceId : Uuid) : Nat :=
  s.datasets.values.countP fun dataset ↦ decide (dataset.workspaceId = workspaceId)

/-- The checks of `create_version` on the store, for a version whose path is canonical. -/
def CanInsert (s : DatasetStore) (workspaceId : Uuid) (version : DatasetVersion) : Prop :=
  s.versions.get? version.id = none ∧ (s.getDataset workspaceId version.datasetId).isSome = true ∧
    ∀ v ∈ s.versions.values, v.datasetId = version.datasetId → v.versionNo ≠ version.versionNo

theorem createVersion_of_canonical (s : DatasetStore) {workspaceId : Uuid}
    {version : DatasetVersion}
    (h : storagePathFor workspaceId version.contentSha256 version.versionNo =
      some version.storagePath) :
    (CanInsert s workspaceId version ∧ s.createVersion workspaceId version =
        (.ok version, { s with versions := s.versions.set version.id version })) ∨
      (¬ CanInsert s workspaceId version ∧
        ∃ e, s.createVersion workspaceId version = (.error e, s)) := by
  unfold createVersion CanInsert
  rw [h]
  dsimp only
  rw [if_neg (not_not_intro rfl)]
  split
  · rename_i hid
    refine .inr ⟨fun hcan ↦ ?_, _, rfl⟩
    rw [hcan.1] at hid
    cases hid
  · rename_i hid
    split
    · rename_i hdataset
      refine .inr ⟨fun hcan ↦ ?_, _, rfl⟩
      rw [Option.isNone_iff_eq_none.mp hdataset] at hcan
      cases hcan.2.1
    · rename_i hdataset
      split
      · rename_i hno
        refine .inr ⟨fun hcan ↦ ?_, _, rfl⟩
        obtain ⟨v, hv, hsame⟩ := any_eq_true.mp hno
        rw [Bool.and_eq_true, decide_eq_true_eq, decide_eq_true_eq] at hsame
        exact hcan.2.2 v hv hsame.1 hsame.2
      · rename_i hno
        refine .inl ⟨⟨Option.not_isSome_iff_eq_none.mp hid,
          by simpa [Option.isSome_iff_ne_none] using hdataset, fun v hv hds hsame ↦ hno ?_⟩, rfl⟩
        exact any_eq_true.mpr ⟨v, hv, by simp [hds, hsame]⟩

end DatasetStore

/-! ## The store of objects -/

abbrev Bytes := List UInt8

/-- The objects, by storage path. -/
abbrev DatasetStorage := Dict String Bytes

def DatasetStorage.put (storage : DatasetStorage) (path : String) (file : Bytes) :
    Except DatasetError Unit × DatasetStorage :=
  if (storage.get? path).isSome then
    (.error (.valueError "storage object already exists"), storage)
  else (.ok (), storage.set path file)

/-- The loop of `stream_sha256` over what `file.read` returns, with `digest` for `sha256`; an
empty read is the end of the file. -/
def streamChunks (digest : Bytes → Sha256) (maxBytes : Int) (content : Bytes) :
    List Bytes → Except DatasetError (Sha256 × Nat)
  | [] => .ok (digest content, content.length)
  | chunk :: chunks =>
    if chunk = [] then .ok (digest content, content.length)
    else if maxBytes < (content ++ chunk).length then
      .error (.valueError "dataset exceeds plan upload limit")
    else streamChunks digest maxBytes (content ++ chunk) chunks

/-- What is read before the end of the file. -/
def contentOf (chunks : List Bytes) : Bytes := (chunks.takeWhile (· ≠ [])).flatten

/-- `stream_sha256`, for a file as a whole: the limit is looked at after each read, so not at
all if there is nothing to read. -/
def streamSha256 (digest : Bytes → Sha256) (file : Bytes) (maxBytes : Int) :
    Except DatasetError (Sha256 × Nat) :=
  if file ≠ [] ∧ maxBytes < file.length then
    .error (.valueError "dataset exceeds plan upload limit")
  else .ok (digest file, file.length)

theorem contentOf_cons {chunk : Bytes} (h : chunk ≠ []) (chunks : List Bytes) :
    contentOf (chunk :: chunks) = chunk ++ contentOf chunks := by
  rw [contentOf, takeWhile_cons_of_pos (by simpa using h), flatten_cons]
  rfl

theorem streamChunks_of_le {digest : Bytes → Sha256} {maxBytes : Int} {content : Bytes}
    (h : content ≠ [] → ¬ maxBytes < content.length) (chunks : List Bytes) :
    streamChunks digest maxBytes content chunks =
      streamSha256 digest (content ++ contentOf chunks) maxBytes := by
  have hend : .ok (digest content, content.length) = streamSha256 digest (content ++ []) maxBytes := by
    rw [append_nil]
    exact (if_neg fun hover ↦ h hover.1 hover.2).symm
  induction chunks generalizing content with
  | nil => exact hend
  | cons chunk chunks ih =>
    rw [streamChunks]
    by_cases hchunk : chunk = []
    · rw [if_pos hchunk, hchunk]
      exact hend
    · rw [if_neg hchunk, contentOf_cons hchunk, ← append_assoc]
      split_ifs with hover
      · refine (if_pos ⟨?_, hover.trans_le ?_⟩).symm
        · simp [hchunk]
        · have hlen : (content ++ chunk ++ contentOf chunks).length =
              (content ++ chunk).length + (contentOf chunks).length := length_append
          omega
      · refine ih (fun _ ↦ hover) ?_
        rw [append_nil]
        exact (if_neg fun hboth ↦ hover hboth.2).symm

theorem streamChunks_eq (digest : Bytes → Sha256) (maxBytes : Int) (chunks : List Bytes) :
    streamChunks digest maxBytes [] chunks = streamSha256 digest (contentOf chunks) maxBytes :=
  streamChunks_of_le (fun h ↦ absurd rfl h) chunks

end Qros.Saas
