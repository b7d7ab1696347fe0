import Qros.DataEngine.Dataset
import Qros.DataEngine.Records

/-!
# Frozen datasets

The state of `HistoricalDataset` of `data_engine/dataset.py`, its hashes with the caches of
`BaseObject.hash`, and `verify_dataset_integrity` of `data_engine/hashing.py`.

The flag, the status and the hashes are kept apart.  A reload makes the flag from the status,
so `mark_failed` thaws a frozen dataset; and a hash that was served once is served from then
on, so no change of a record is seen.
-/

namespace Qros.DataEngine.Frozen

open Qros.Lib Qros.Lib.KeySort Qros.Python Qros.DataEngine.Records List

/-! ## Source -/

structure DataRecord (F : Type) where
  fields : Fields F
  cachedHash : Option String

structure HistoricalDataset (F : Type) where
  base : BaseObject
  symbol : String
  timeframe : String
  dataType : String
  records : List (DataRecord F)
  source : String
  quality : DataQuality
  status : DatasetStatus
  version : String
  tags : List String
  datasetHash : String
  datasetContentHash : String
  frozen : Bool

structure DatasetDict (F : Type) where
  base : BaseDict
  symbol : Option String
  timeframe : Option String
  dataType : Option String
  source : Option String
  quality : Option String
  status : Option String
  recordCount : Option Int
  datasetHash : Option String
  datasetContentHash : Option String
  version : Option String
  tags : Option (List String)
  records : Option (List (RecordDict F))

section Source

variable {F : Type} [Zero F] [FloatText F] [LT F] [DecidableLT F] [RoundTen F] [Hashlib]

namespace DataRecord

def hash (r : DataRecord F) : String := r.cachedHash.getD r.fields.computeHash

/-- The record after its `hash` was read. -/
def served (r : DataRecord F) : DataRecord F := { r with cachedHash := some r.hash }

end DataRecord

namespace HistoricalDataset

/-- The content of `_compute_hash` and of `compute_dataset_hash`. -/
def content (d : HistoricalDataset F) : Json F :=
  let strings (xs : List String) : Json F := .list ((sortStrings xs).map .str)
  .dict [
    ("symbol", .str d.symbol),
    ("timeframe", .str d.timeframe),
    ("data_type", .str d.dataType),
    ("source", .str d.source),
    ("record_count", .int d.records.length),
    ("record_hashes", strings (d.records.map DataRecord.hash)),
    ("version", .str d.version),
    ("tags", strings d.tags),
    ("ontology_tags", strings d.base.ontologyTags)]

def computeDatasetHash (d : HistoricalDataset F) : String :=
  (Storage.deterministicHash F d.content).text

/-- The hash of the records alone. -/
def computeContentHash (d : HistoricalDataset F) : String :=
  (Storage.deterministicHash F (.dict [("record_hashes",
    .list ((sortStrings (d.records.map DataRecord.hash)).map .str))])).text

def verifyDatasetIntegrity (d : HistoricalDataset F) : Bool :=
  decide (d.computeDatasetHash = d.datasetHash)

def computeHash (d : HistoricalDataset F) : HistoricalDataset F :=
  { d with
    records := d.records.map DataRecord.served
    datasetHash := d.computeDatasetHash
    datasetContentHash := d.computeContentHash }

/-- The constructor at the time `now`, where `generateId` is `generate_id`. -/
def new (generateId : String → String) (now : Utc) (symbol timeframe dataType : String)
    (records : List (DataRecord F)) (source : String) (quality : DataQuality) (version : String)
    (tags ontologyTags : List String) (id : Option String) : HistoricalDataset F where
  base := .new now
    (id.getD (generateId ("HistoricalDataset|" ++ symbol ++ "|" ++ timeframe ++ "|" ++ source)))
    ontologyTags ("HistoricalDataset created: " ++ symbol ++ " " ++ timeframe)
  symbol := symbol
  timeframe := timeframe
  dataType := dataType
  records := records
  source := source
  quality := quality
  status := .pending
  version := version
  tags := tags
  datasetHash := ""
  datasetContentHash := ""
  frozen := false

/-- `add_record`; a step gives the exception that it raises, if any. -/
def addRecord (record : DataRecord F) (d : HistoricalDataset F) :
    Option String × HistoricalDataset F :=
  if d.frozen then
    (some "Dataset is immutable after mark_ready(); add_record() is not allowed.", d)
  else (none, { d with records := d.records ++ [record] }.computeHash)

def addRecords (records : List (DataRecord F)) (d : HistoricalDataset F) :
    Option String × HistoricalDataset F :=
  if d.frozen then
    (some "Dataset is immutable after mark_ready(); add_records() is not allowed.", d)
  else (none, { d with records := d.records ++ records }.computeHash)

def sort (d : HistoricalDataset F) : HistoricalDataset F :=
  { d with records := stableSortBy (fun r ↦ r.fields.timestamp) d.records }

/-- `self.lifecycle.transition(stage, reason)`, the last thing that a mark does. -/
def enter (now : Utc) (stage : LifecycleStage) (reason : String) (d : HistoricalDataset F) :
    Option String × HistoricalDataset F :=
  match d.base.lifecycle.transition now stage reason with
  | .error e => (some e, d)
  | .ok lifecycle => (none, { d with base := { d.base with lifecycle } })

def markReady (now : Utc) (d : HistoricalDataset F) : Option String × HistoricalDataset F :=
  enter now .active ("Dataset ready: " ++ toString d.records.length ++ " records")
    { d.sort.computeHash with frozen := true, status := .ready }

def markValidated (now : Utc) (d : HistoricalDataset F) : Option String × HistoricalDataset F :=
  enter now .validated "Dataset validated" { d with status := .validated }

def markFailed (now : Utc) (reason : String) (d : HistoricalDataset F) :
    Option String × HistoricalDataset F :=
  enter now .invalidated (if reason ≠ "" then "Dataset failed: " ++ reason else "Dataset failed")
    { d with status := .failed }

/-- The entries of `to_dict`, with those of the base and of the records. -/
def dict (base : BaseDict) (records : List (RecordDict F)) (d : HistoricalDataset F) :
    DatasetDict F where
  base := base
  symbol := d.symbol
  timeframe := d.timeframe
  dataType := d.dataType
  source := d.source
  quality := d.quality.value
  status := d.status.value
  recordCount := some d.records.length
  datasetHash := d.datasetHash
  datasetContentHash := d.datasetContentHash
  version := d.version
  tags := d.tags
  records := records

def toDict (d : HistoricalDataset F) : Except String (DatasetDict F) := do
  let base ← d.base.toDict
  let records ← d.records.mapM fun r ↦ r.fields.toDict
  return d.dict base records

/-- A record of `_deserialize_records`, if there is one.  What holds a candle is read as one where
the class fails, unless the class is that of candles. -/
def restoreRecord (now : Utc) (cls : RecordClass) (data : RecordDict F) : Option (DataRecord F) :=
  match Fields.fromDict now data cls with
  | .ok fields => some ⟨fields, none⟩
  | .error _ =>
    if cls ≠ .candle ∧ data.openPrice.isSome = true ∧ data.close.isSome = true then
      match Fields.fromDict now data .candle with
      | .ok fields => some ⟨fields, none⟩
      | .error _ => none
    else none

/-- The loop of `_deserialize_records`. -/
def restoreRecords (now : Utc) (dataType : String) (cls : RecordClass) :
    Nat → List (RecordDict F) → Except String (List (DataRecord F))
  | _, [] => .ok []
  | index, data :: rest => do
      let record ← found (restoreRecord now cls data)
        ("dataset record " ++ toString index ++ " failed " ++ dataType ++ " deserialization")
      let later ← restoreRecords now dataType cls (index + 1) rest
      return record :: later

def deserializeRecords (now : Utc) (records : List (RecordDict F)) (dataType : String) :
    Except String (List (DataRecord F)) := do
  let cls ← found (RecordClass.ofDataType dataType)
    ("unsupported dataset data_type: '" ++ dataType ++ "'")
  restoreRecords now dataType cls 0 records

def isCommitted (status : DatasetStatus) : Bool :=
  decide (status ∈ [DatasetStatus.ready, .validated, .archived])

/-- An expected hash that is there and is another one. -/
def Mismatch (expected : Option String) (actual : String) : Prop :=
  ∃ h, expected = some h ∧ h ≠ "" ∧ h ≠ actual

instance decidableMismatch (expected : Option String) (actual : String) :
    Decidable (Mismatch expected actual) :=
  match expected with
  | none => isFalse fun ⟨_, h, _⟩ ↦ by cases h
  | some h => decidable_of_iff (h ≠ "" ∧ h ≠ actual)
      ⟨fun hne ↦ ⟨h, rfl, hne⟩, fun ⟨_, heq, hne⟩ ↦ Option.some.inj heq ▸ hne⟩

/-- The dataset of the entries, before its hashes are computed. -/
def restored (now : Utc) (data : DatasetDict F) : Except String (HistoricalDataset F) := do
  let base ← BaseObject.fromDict now data.base
  let symbol ← found data.symbol "'symbol'"
  let timeframe ← found data.timeframe "'timeframe'"
  let dataType := data.dataType.getD "candle"
  let quality ← found (DataQuality.ofValue (data.quality.getD "Raw")) "not a valid DataQuality"
  let status ← found (DatasetStatus.ofValue (data.status.getD "Pending"))
    "not a valid DatasetStatus"
  let records ← deserializeRecords now (data.records.getD []) dataType
  return {
    base, symbol, timeframe, dataType, records
    source := data.source.getD ""
    quality, status
    version := data.version.getD "1.0.0"
    tags := data.tags.getD []
    datasetHash := data.datasetHash.getD ""
    datasetContentHash := data.datasetContentHash.getD ""
    frozen := isCommitted status }

def fromDict (now : Utc) (data : DatasetDict F) : Except String (HistoricalDataset F) := do
  let d ← restored now data
  let d := d.computeHash
  require (∀ n ∈ data.recordCount, n = d.records.length)
    "dataset record_count does not match restored records"
  require (¬ Mismatch data.datasetContentHash d.datasetContentHash)
    "dataset_content_hash does not match restored records"
  require (¬ Mismatch data.datasetHash d.datasetHash)
    "dataset_hash does not match restored dataset"
  return d

/-- `from_dict(d.to_dict())`. -/
def reload (now : Utc) (d : HistoricalDataset F) : Except String (HistoricalDataset F) :=
  d.toDict >>= fromDict now

end HistoricalDataset

/-- The operations on a dataset, with the times they are done at. -/
inductive Operation (F : Type) where
  | addRecord (record : DataRecord F)
  | addRecords (records : List (DataRecord F))
  | sort
  | markReady (now : Utc)
  | markValidated (now : Utc)
  | markFailed (now : Utc) (reason : String)
  | reload (now : Utc)

/-- The exception that an operation raises, if any, and the dataset that there is then. -/
def Operation.step : Operation F → HistoricalDataset F → Option String × HistoricalDataset F
  | .addRecord record, d => d.addRecord record
  | .addRecords records, d => d.addRecords records
  | .sort, d => (none, d.sort)
  | .markReady now, d => d.markReady now
  | .markValidated now, d => d.markValidated now
  | .markFailed now reason, d => d.markFailed now reason
  | .reload now, d =>
    match d.reload now with
    | .error e => (some e, d)
    | .ok d' => (none, d')

end Source

open Frozen.HistoricalDataset

/-! ## Records that come back -/

/-- A record that is read back from its dictionary as a record of a dataset of class `cls`. -/
def ComesBack {F : Type} (cls : RecordClass) (r : Fields F) : Prop :=
  r.data.cls = cls ∨ r.data.cls = .candle ∧ (cls = .quote ∨ cls = .trade)

section ComesBack

variable {F : Type} [Zero F] {now : Utc} {cls : RecordClass} {r : Fields F} {data : RecordDict F}

theorem restoreRecord_unserved {r : DataRecord F} (h : restoreRecord now cls data = some r) :
    r = ⟨r.fields, none⟩ := by
  unfold restoreRecord at h
  split at h
  · cases h
    rfl
  · split at h
    · split at h
      · cases h
        rfl
      · cases h
    · cases h

theorem cls_of_restoreRecord (h : restoreRecord now cls data = some ⟨r, none⟩) :
    r.data.cls = cls ∨ r.data.cls = .candle ∧ ∀ r', Fields.fromDict now data cls ≠ .ok r' := by
  unfold restoreRecord at h
  split at h
  · rename_i hok
    cases h
    exact .inl (Fields.cls_of_fromDict hok)
  · rename_i hfail
    split at h
    · split at h
      · rename_i hok
        cases h
        refine .inr ⟨Fields.cls_of_fromDict hok, fun r' hok' ↦ ?_⟩
        rw [hfail] at hok'
        cases hok'
      · cases h
    · cases h

theorem restoreRecord_eq_iff (h : r.toDict = .ok data) :
    restoreRecord now cls data = some ⟨r, none⟩ ↔ ComesBack cls r := by
  constructor
  · intro hrestore
    refine (cls_of_restoreRecord hrestore).imp_right ?_
    rintro ⟨hcandle, hfails⟩
    refine ⟨hcandle, ?_⟩
    cases cls with
    | candle => exact absurd (hcandle ▸ Fields.fromDict_toDict h now) (hfails r)
    | tick =>
      obtain ⟨r', hok⟩ := Fields.exists_fromDict_candle h hcandle (.inl rfl) now
      exact absurd hok (hfails r')
    | quote => exact .inl rfl
    | trade => exact .inr rfl
    | orderbook =>
      obtain ⟨r', hok⟩ := Fields.exists_fromDict_candle h hcandle (.inr rfl) now
      exact absurd hok (hfails r')
  · rintro (rfl | ⟨hcandle, hcls⟩)
    · rw [restoreRecord, Fields.fromDict_toDict h]
    · obtain ⟨hopen, hclose⟩ := Fields.prices_of_candle h hcandle
      have hne : cls ≠ .candle := by rcases hcls with rfl | rfl <;> decide
      have hback := Fields.fromDict_toDict h now
      rw [hcandle] at hback
      unfold restoreRecord
      split
      · rename_i hok
        exact absurd hok (Fields.fromDict_candle_ne_ok h hcandle hcls now _)
      · rw [if_pos ⟨hne, hopen, hclose⟩, hback]

/-- The record as it is read back. -/
def DataRecord.unserved (r : DataRecord F) : DataRecord F := { r with cachedHash := none }

variable {dataType : String} {records restored : List (DataRecord F)} {datas : List (RecordDict F)}

omit [Zero F] in
theorem begun_of_mapM
    (h : (records.mapM fun r ↦ r.fields.toDict) = .ok datas) :
    ∀ r ∈ records, r.fields.base.lifecycle.Begun := by
  intro r hr
  obtain ⟨data, -, hdata⟩ := mem_of_mapM h r hr
  exact Fields.toDict_isOk_iff.mp ⟨data, hdata⟩

theorem forall₂_of_restoreRecords {index : Nat}
    (h : restoreRecords now dataType cls index datas = .ok restored) :
    List.Forall₂ (fun data r ↦ restoreRecord now cls data = some r) datas restored := by
  induction datas generalizing index restored with
  | nil =>
    cases h
    exact .nil
  | cons data datas ih =>
    obtain ⟨record, hrecord, h⟩ := bind_eq_ok.mp h
    obtain ⟨later, hlater, hreturn⟩ := bind_eq_ok.mp h
    cases hreturn
    exact .cons (found_eq_ok.mp hrecord) (ih hlater)

theorem restoreRecords_of_comesBack {index : Nat}
    (h : List.Forall₂ (fun r data ↦ r.fields.toDict = .ok data) records datas)
    (hback : ∀ r ∈ records, ComesBack cls r.fields) :
    restoreRecords now dataType cls index datas = .ok (records.map DataRecord.unserved) := by
  induction h generalizing index with
  | nil => rfl
  | cons hr _ ih =>
    have hrecord : restoreRecord now cls _ = some _ :=
      (restoreRecord_eq_iff hr).mpr (hback _ mem_cons_self)
    exact bind_eq_ok.mpr ⟨_, found_eq_ok.mpr hrecord, bind_eq_ok.mpr
      ⟨_, ih fun r hmem ↦ hback r (mem_cons_of_mem _ hmem), rfl⟩⟩

theorem comesBack_of_restored
    (h : List.Forall₂ (fun r data ↦ r.fields.toDict = .ok data) records datas)
    (hrestored : List.Forall₂ (fun data r ↦ restoreRecord now cls data = some r) datas restored)
    (hfields : restored.map DataRecord.fields = records.map DataRecord.fields) :
    ∀ r ∈ records, ComesBack cls r.fields := by
  induction h generalizing restored with
  | nil =>
    intro r hmem
    cases hmem
  | @cons r data records datas hr _ ih =>
    obtain ⟨r', restored, hr', hlater, rfl⟩ := forall₂_cons_left_iff.mp hrestored
    obtain ⟨hfirst, hrest⟩ := List.cons.inj hfields
    rw [restoreRecord_unserved hr', hfirst] at hr'
    exact forall_mem_cons.mpr ⟨(restoreRecord_eq_iff hr).mp hr', ih hlater hrest⟩

end ComesBack

/-! ## Hashes -/

theorem sortStrings_eq_of_perm {xs ys : List String} (h : xs.Perm ys) :
    sortStrings xs = sortStrings ys := by
  have hperm : (sortStrings xs).Perm (sortStrings ys) :=
    ((perm_insertionSort (· ≤ ·) xs).trans h).trans
      (perm_insertionSort (· ≤ ·) ys).symm
  exact hperm.eq_of_pairwise (fun _ _ _ _ ↦ le_antisymm)
    (pairwise_insertionSort (· ≤ ·) xs) (pairwise_insertionSort (· ≤ ·) ys)

section Hashes

variable {F : Type} [FloatText F] [LT F] [DecidableLT F] [RoundTen F] [Hashlib]
  {d d' : HistoricalDataset F}

/-- What the hashes of two datasets are made of is the same. -/
structure SameContent (d d' : HistoricalDataset F) : Prop where
  symbol : d.symbol = d'.symbol
  timeframe : d.timeframe = d'.timeframe
  dataType : d.dataType = d'.dataType
  source : d.source = d'.source
  hashes : (d.records.map DataRecord.hash).Perm (d'.records.map DataRecord.hash)
  version : d.version = d'.version
  tags : d.tags = d'.tags
  ontologyTags : d.base.ontologyTags = d'.base.ontologyTags

theorem SameContent.computeContentHash (h : SameContent d d') :
    d.computeContentHash = d'.computeContentHash := by
  unfold HistoricalDataset.computeContentHash
  rw [sortStrings_eq_of_perm h.hashes]

theorem SameContent.computeDatasetHash (h : SameContent d d') :
    d.computeDatasetHash = d'.computeDatasetHash := by
  have hlength : d.records.length = d'.records.length := by
    simpa only [length_map] using h.hashes.length_eq
  unfold HistoricalDataset.computeDatasetHash HistoricalDataset.content
  dsimp only
  rw [h.symbol, h.timeframe, h.dataType, h.source, hlength, sortStrings_eq_of_perm h.hashes,
    h.version, h.tags, h.ontologyTags]

theorem sameContent_computeHash (d : HistoricalDataset F) : SameContent d.computeHash d where
  symbol := rfl
  timeframe := rfl
  dataType := rfl
  source := rfl
  hashes := by
    change ((d.records.map DataRecord.served).map DataRecord.hash).Perm _
    rw [map_map]
    exact .refl _
  version := rfl
  tags := rfl
  ontologyTags := rfl

theorem sameContent_sort (d : HistoricalDataset F) : SameContent d.sort d where
  symbol := rfl
  timeframe := rfl
  dataType := rfl
  source := rfl
  hashes := (stableSortBy_perm _ d.records).map DataRecord.hash
  version := rfl
  tags := rfl
  ontologyTags := rfl

def fieldsOf (d : HistoricalDataset F) : List (Fields F) := d.records.map DataRecord.fields

theorem fieldsOf_computeHash (d : HistoricalDataset F) : fieldsOf d.computeHash = fieldsOf d :=
  map_map

/-- No hash was computed yet, or the hash is that of the records, which all have a cache. -/
def Served (d : HistoricalDataset F) : Prop :=
  d.datasetHash = "" ∨
    d.datasetHash = d.computeDatasetHash ∧ ∀ r ∈ d.records, r.cachedHash.isSome = true

theorem served_computeHash (d : HistoricalDataset F) : Served d.computeHash := by
  refine .inr ⟨(sameContent_computeHash d).computeDatasetHash.symm, fun r hr ↦ ?_⟩
  obtain ⟨r', -, rfl⟩ := mem_map.mp hr
  rfl

end Hashes

/-! ## Reloads -/

theorem not_mismatch_iff {h h' : String} : ¬ Mismatch (some h) h' ↔ h = "" ∨ h = h' := by
  constructor
  · intro hnot
    by_contra hboth
    rw [not_or] at hboth
    exact hnot ⟨h, rfl, hboth⟩
  · rintro hor ⟨_, ⟨⟩, hne, hdiff⟩
    exact hor.elim hne hdiff

section Reload

variable {F : Type} [FloatText F] [LT F] [DecidableLT F] [RoundTen F] [Hashlib]
  {d d' : HistoricalDataset F} {now : Utc}

/-- The dataset with records that were read back and the flag that its status asks for. -/
def HistoricalDataset.withRestored (d : HistoricalDataset F) (records : List (DataRecord F)) :
    HistoricalDataset F :=
  { d with records, frozen := isCommitted d.status }

theorem map_hash_unserved (hfresh : ∀ r ∈ d.records, r.hash = r.fields.computeHash) :
    (d.records.map DataRecord.unserved).map DataRecord.hash = d.records.map DataRecord.hash := by
  rw [map_map]
  exact map_congr_left fun r hr ↦ (hfresh r hr).symm

theorem sameContent_withRestored {restored : List (DataRecord F)}
    (h : restored.map DataRecord.hash = d.records.map DataRecord.hash) :
    SameContent (d.withRestored restored) d where
  symbol := rfl
  timeframe := rfl
  dataType := rfl
  source := rfl
  hashes := .of_eq h
  version := rfl
  tags := rfl
  ontologyTags := rfl

theorem map_hash_computeHash (d : HistoricalDataset F) :
    d.computeHash.records.map DataRecord.hash = d.records.map DataRecord.hash := by
  change (d.records.map DataRecord.served).map DataRecord.hash = _
  rw [map_map]
  rfl

section Read

variable [Zero F]

omit [FloatText F] [LT F] [DecidableLT F] [RoundTen F] [Hashlib] in
theorem restored_dict {base : BaseDict} (hbase : d.base.toDict = .ok base)
    (datas : List (RecordDict F)) :
    restored now (d.dict base datas) =
      d.withRestored <$> deserializeRecords now datas d.dataType := by
  simp only [restored, dict, BaseObject.fromDict_toDict hbase, Option.getD_some,
    DataQuality.ofValue_value, DatasetStatus.ofValue_value]
  rfl

/-- **What a reload gives**: the records that are read back, with the flag of the status. -/
theorem reload_eq_ok :
    d.reload now = .ok d' ↔ ∃ base datas cls restored, d.base.toDict = .ok base ∧
      (d.records.mapM fun r ↦ r.fields.toDict) = .ok datas ∧
      RecordClass.ofDataType d.dataType = some cls ∧
      restoreRecords now d.dataType cls 0 datas = .ok restored ∧
      d.records.length = restored.length ∧
      (d.datasetContentHash = "" ∨
        d.datasetContentHash = (d.withRestored restored).computeContentHash) ∧
      (d.datasetHash = "" ∨ d.datasetHash = (d.withRestored restored).computeDatasetHash) ∧
      d' = (d.withRestored restored).computeHash := by
  constructor
  · intro h
    obtain ⟨data, hdata, h⟩ := bind_eq_ok.mp h
    obtain ⟨base, hbase, hdata⟩ := bind_eq_ok.mp hdata
    obtain ⟨datas, hdatas, hreturn⟩ := bind_eq_ok.mp hdata
    cases hreturn
    obtain ⟨d₁, hd₁, h⟩ := bind_eq_ok.mp h
    rw [restored_dict hbase] at hd₁
    obtain ⟨restored, hrestored, rfl⟩ := map_eq_ok.mp hd₁
    obtain ⟨cls, hcls, hrestored⟩ := bind_eq_ok.mp hrestored
    obtain ⟨_, hcount, h⟩ := bind_eq_ok.mp h
    obtain ⟨_, hcontent, h⟩ := bind_eq_ok.mp h
    obtain ⟨_, hdataset, hreturn⟩ := bind_eq_ok.mp h
    cases hreturn
    have hlength := Int.ofNat.inj (of_require hcount _ rfl)
    refine ⟨base, datas, cls, restored, hbase, hdatas, found_eq_ok.mp hcls, hrestored, ?_,
      not_mismatch_iff.mp (of_require hcontent), not_mismatch_iff.mp (of_require hdataset), rfl⟩
    exact hlength.trans (length_map DataRecord.served)
  · rintro ⟨base, datas, cls, restored, hbase, hdatas, hcls, hrestored, hcount, hcontent, hdataset,
      rfl⟩
    have hdict : d.toDict = .ok (d.dict base datas) :=
      bind_eq_ok.mpr ⟨base, hbase, bind_eq_ok.mpr ⟨datas, hdatas, rfl⟩⟩
    have hrecords : deserializeRecords now datas d.dataType = .ok restored :=
      bind_eq_ok.mpr ⟨cls, found_eq_ok.mpr hcls, hrestored⟩
    have hread : HistoricalDataset.restored now (d.dict base datas) =
        .ok (d.withRestored restored) := by
      rw [restored_dict hbase, hrecords]
      rfl
    refine bind_eq_ok.mpr ⟨_, hdict, bind_eq_ok.mpr ⟨_, hread, bind_eq_ok.mpr ⟨(), ?_,
      bind_eq_ok.mpr ⟨(), ?_, bind_eq_ok.mpr ⟨(), ?_, rfl⟩⟩⟩⟩⟩
    · rw [require_eq_ok]
      rintro n ⟨⟩
      rw [hcount]
      exact congrArg Int.ofNat (length_map DataRecord.served).symm
    · exact require_eq_ok.mpr (not_mismatch_iff.mpr hcontent)
    · exact require_eq_ok.mpr (not_mismatch_iff.mpr hdataset)

/-- `from_dict(to_dict(d))` succeeds with the same state. -/
structure SameState (d d' : HistoricalDataset F) : Prop where
  fields : fieldsOf d' = fieldsOf d
  hashes : d'.records.map DataRecord.hash = d.records.map DataRecord.hash
  status : d'.status = d.status
  tags : d'.tags = d.tags
  frozen : d'.frozen = d.frozen
  datasetHash : d'.datasetHash = d.datasetHash
  datasetContentHash : d'.datasetContentHash = d.datasetContentHash

def RoundTrips (d : HistoricalDataset F) : Prop :=
  ∀ now, ∃ d', d.reload now = .ok d' ∧ SameState d d'

structure Settled (d : HistoricalDataset F) : Prop where
  begun : d.base.lifecycle.Begun ∧ ∀ r ∈ d.records, r.fields.base.lifecycle.Begun
  typed : ∃ cls, RecordClass.ofDataType d.dataType = some cls ∧
    ∀ r ∈ d.records, ComesBack cls r.fields
  fresh : ∀ r ∈ d.records, r.hash = r.fields.computeHash
  hashed : d.datasetHash = d.computeDatasetHash ∧ d.datasetContentHash = d.computeContentHash
  flag : d.frozen = isCommitted d.status

theorem settled_of_roundTrips (h : RoundTrips d) : Settled d := by
  obtain ⟨d', hreload, hsame⟩ := h d.base.createdAt
  obtain ⟨base, datas, cls, restored, hbase, hdatas, hcls, hrestored, -, -, -, rfl⟩ :=
    reload_eq_ok.mp hreload
  have hfields : restored.map DataRecord.fields = d.records.map DataRecord.fields :=
    (fieldsOf_computeHash _).symm.trans hsame.fields
  have hread := forall₂_of_mapM hdatas
  have hback := comesBack_of_restored hread (forall₂_of_restoreRecords hrestored) hfields
  obtain rfl : d.records.map DataRecord.unserved = restored :=
    Except.ok.inj ((restoreRecords_of_comesBack hread hback).symm.trans hrestored)
  have hhashes := (map_hash_computeHash _).symm.trans hsame.hashes
  have hcontent := sameContent_withRestored hhashes
  refine ⟨⟨BaseObject.toDict_isOk_iff.mp ⟨base, hbase⟩, begun_of_mapM hdatas⟩, ⟨cls, hcls, hback⟩,
    ?_, ⟨?_, ?_⟩, hsame.frozen.symm⟩
  · intro r hr
    have hmap : (d.records.map DataRecord.unserved).map DataRecord.hash =
      d.records.map DataRecord.hash := hhashes
    rw [map_map] at hmap
    exact (map_inj_left.mp hmap r hr).symm
  · exact hsame.datasetHash.symm.trans hcontent.computeDatasetHash
  · exact hsame.datasetContentHash.symm.trans hcontent.computeContentHash

theorem Settled.roundTrips (h : Settled d) : RoundTrips d := by
  intro now
  obtain ⟨base, hbase⟩ := BaseObject.toDict_isOk_iff.mpr h.begun.1
  obtain ⟨datas, hdatas, -, -⟩ := exists_mapM_eq_ok fun r hr ↦
    Fields.toDict_isOk_iff.mpr (h.begun.2 r hr)
  obtain ⟨cls, hcls, hback⟩ := h.typed
  have hcontent := sameContent_withRestored (map_hash_unserved h.fresh)
  refine ⟨_, reload_eq_ok.mpr ⟨base, datas, cls, _, hbase, hdatas, hcls,
    restoreRecords_of_comesBack (forall₂_of_mapM hdatas) hback,
    (length_map DataRecord.unserved).symm,
    .inr (h.hashed.2.trans hcontent.computeContentHash.symm),
    .inr (h.hashed.1.trans hcontent.computeDatasetHash.symm), rfl⟩, ?_⟩
  exact {
    fields := (fieldsOf_computeHash _).trans map_map
    hashes := (map_hash_computeHash _).trans (map_hash_unserved h.fresh)
    status := rfl
    tags := rfl
    frozen := h.flag.symm
    datasetHash := hcontent.computeDatasetHash.trans h.hashed.1.symm
    datasetContentHash := hcontent.computeContentHash.trans h.hashed.2.symm }

/-- **A dataset comes back as it is** exactly when it is settled. -/
theorem roundTrips_iff : RoundTrips d ↔ Settled d := ⟨settled_of_roundTrips, Settled.roundTrips⟩

end Read

end Reload

/-! ## Changed records -/

section

variable {F : Type} [FloatText F] [LT F] [DecidableLT F] [RoundTen F] [Hashlib]
  {d : HistoricalDataset F}

def HistoricalDataset.changed (d : HistoricalDataset F) (before : List (DataRecord F))
    (r : DataRecord F) (fields : Fields F) (after : List (DataRecord F)) : HistoricalDataset F :=
  { d with records := before ++ { r with fields } :: after }

/-- After a change of any field of any record the hash is another one. -/
def TamperShows (d : HistoricalDataset F) : Prop :=
  d.datasetHash ≠ "" → ∀ before r after fields, d.records = before ++ r :: after →
    fields ≠ r.fields → (d.changed before r fields after).verifyDatasetIntegrity = false

/-- **No change shows**: the caches serve the hashes of the records as they were. -/
theorem verify_changed (h : Served d) (hhashed : d.datasetHash ≠ "")
    {before after : List (DataRecord F)} {r : DataRecord F}
    (hrecords : d.records = before ++ r :: after) (fields : Fields F) :
    (d.changed before r fields after).verifyDatasetIntegrity = true := by
  obtain ⟨hhash, hcached⟩ := h.resolve_left hhashed
  have hserved : ({ r with fields } : DataRecord F).hash = r.hash := by
    obtain ⟨hash, hcache⟩ := Option.isSome_iff_exists.mp
      (hcached r (hrecords ▸ mem_append_right before mem_cons_self))
    unfold DataRecord.hash
    rw [hcache]
    rfl
  have hcontent : SameContent (d.changed before r fields after) d := {
    symbol := rfl
    timeframe := rfl
    dataType := rfl
    source := rfl
    hashes := by
      unfold HistoricalDataset.changed
      rw [hrecords, map_append, map_append, map_cons, map_cons, hserved]
    version := rfl
    tags := rfl
    ontologyTags := rfl }
  exact decide_eq_true (hcontent.computeDatasetHash.trans hhash.symm)

/-- The record with another identifier. -/
def renamed (fields : Fields F) : Fields F :=
  { fields with base := { fields.base with id := fields.base.id.elim (some "") fun _ ↦ none } }

omit [FloatText F] [LT F] [DecidableLT F] [RoundTen F] [Hashlib] in
theorem renamed_ne (fields : Fields F) : renamed fields ≠ fields := by
  intro h
  have hid := congrArg (fun f ↦ f.base.id) h
  unfold renamed at hid
  cases hold : fields.base.id <;> rw [hold] at hid <;> cases hid

theorem tamperShows_iff (h : Served d) : TamperShows d ↔ d.datasetHash = "" ∨ d.records = [] := by
  constructor
  · intro hshows
    by_contra hnot
    rw [not_or] at hnot
    obtain ⟨r, rest, hrecords⟩ := exists_cons_of_ne_nil hnot.2
    have hrecords' : d.records = [] ++ r :: rest := hrecords
    have hfalse := hshows hnot.1 [] r rest (renamed r.fields) hrecords' (renamed_ne r.fields)
    rw [verify_changed h hnot.1 hrecords'] at hfalse
    cases hfalse
  · rintro (hempty | hnil) hhashed before r after fields hrecords
    · exact absurd hempty hhashed
    · rw [hnil] at hrecords
      exact absurd hrecords.symm (append_ne_nil_of_right_ne_nil _ (cons_ne_nil _ _))

end

/-! ## Runs -/

section

variable {F : Type} [Zero F] [FloatText F] [LT F] [DecidableLT F] [RoundTen F] [Hashlib]
  {d d' : HistoricalDataset F}

/-- The operations one after the other, from a dataset on. -/
def machine (d : HistoricalDataset F) :
    Machine (HistoricalDataset F) (Operation F) (Option String) := ⟨d, Operation.step⟩

variable {now : Utc}

omit [Zero F] in
theorem served_enter {stage : LifecycleStage} {reason : String} (h : Served d) :
    Served (d.enter now stage reason).2 := by
  unfold enter
  split
  · exact h
  · exact h

theorem served_step (op : Operation F) (h : Served d) : Served (op.step d).2 := by
  cases op with
  | addRecord record =>
    change Served (d.addRecord record).2
    unfold addRecord
    split
    · exact h
    · exact served_computeHash _
  | addRecords records =>
    change Served (d.addRecords records).2
    unfold addRecords
    split
    · exact h
    · exact served_computeHash _
  | sort =>
    refine h.imp_right ?_
    rintro ⟨hhash, hcached⟩
    refine ⟨hhash.trans (sameContent_sort d).computeDatasetHash.symm, fun r hr ↦ ?_⟩
    exact hcached r ((mem_stableSortBy _).mp hr)
  | markReady now => exact served_enter (served_computeHash d.sort)
  | markValidated now => exact served_enter h
  | markFailed now reason => exact served_enter h
  | reload now =>
    change Served (match d.reload now with | .error e => (some e, d) | .ok d' => (none, d')).2
    split
    · exact h
    · rename_i d' hreload
      obtain ⟨_, _, _, _, -, -, -, -, -, -, -, rfl⟩ := reload_eq_ok.mp hreload
      exact served_computeHash _

theorem after_reload {ops : List (Operation F)} (h : ((machine d).after ops).reload now = .ok d') :
    (machine d).after (ops ++ [.reload now]) = d' := by
  rw [Machine.after_concat]
  change (match ((machine d).after ops).reload now with
    | .error e => (some e, (machine d).after ops)
    | .ok d' => (none, d')).2 = d'
  rw [h]

theorem served_after (hnew : d.datasetHash = "") (ops : List (Operation F)) :
    Served ((machine d).after ops) :=
  (machine d).after_stable Served (fun op _ h ↦ served_step op h) List.nil_prefix (.inl hnew)

/-- Every later add raises. -/
def RefusesAdds (d : HistoricalDataset F) : Prop :=
  (∀ record, (d.addRecord record).1 ≠ none) ∧ ∀ records, (d.addRecords records).1 ≠ none

omit [Zero F] in
theorem refusesAdds_of_frozen (h : d.frozen = true) : RefusesAdds d := by
  constructor
  · intro record
    rw [addRecord, if_pos h]
    exact Option.some_ne_none _
  · intro records
    rw [addRecords, if_pos h]
    exact Option.some_ne_none _

/-- What `mark_ready` leaves and the operations keep: the fields, in order, the flag, and a
status that is not one of before. -/
structure Locked (fs : List (Fields F)) (d : HistoricalDataset F) : Prop where
  fields : fieldsOf d = fs
  sorted : fs.Pairwise fun f f' ↦ f.timestamp ≤ f'.timestamp
  frozen : d.frozen = true
  status : isCommitted d.status = true ∨ d.status = .failed

structure KeepsState (d : HistoricalDataset F) : Prop where
  status : d.status ≠ .failed
  typed : ∀ cls, RecordClass.ofDataType d.dataType = some cls →
    ∀ r ∈ d.records, ComesBack cls r.fields

variable {fs : List (Fields F)}

omit [Zero F] [FloatText F] [LT F] [DecidableLT F] [RoundTen F] [Hashlib] in
theorem locked_enter {stage : LifecycleStage} {reason : String} (h : Locked fs d) :
    Locked fs (d.enter now stage reason).2 := by
  unfold enter
  split
  · exact h
  · exact ⟨h.fields, h.sorted, h.frozen, h.status⟩

omit [Zero F] [FloatText F] [LT F] [DecidableLT F] [RoundTen F] [Hashlib] in
theorem Locked.sort_eq (h : Locked fs d) : d.sort = d := by
  have hsorted : d.records.Pairwise fun r r' ↦ r.fields.timestamp ≤ r'.fields.timestamp := by
    have hmap := h.sorted
    rw [← h.fields, fieldsOf, pairwise_map] at hmap
    exact hmap
  unfold HistoricalDataset.sort stableSortBy
  rw [hsorted.insertionSort_eq]

omit [Zero F] in
theorem locked_markReady (now : Utc) (d : HistoricalDataset F) :
    Locked (fieldsOf d.sort) (d.markReady now).2 := by
  refine locked_enter ⟨fieldsOf_computeHash d.sort, ?_, rfl, .inl rfl⟩
  exact pairwise_map.mpr (stableSortBy_sorted _ d.records)

/-- **A step keeps a dataset locked**, unless it is a reload that does not keep the state. -/
theorem locked_step (h : Locked fs d) {op : Operation F}
    (hop : ∀ now, op = .reload now → KeepsState d) : Locked fs (op.step d).2 := by
  cases op with
  | addRecord record =>
    change Locked fs (d.addRecord record).2
    rw [addRecord, if_pos h.frozen]
    exact h
  | addRecords records =>
    change Locked fs (d.addRecords records).2
    rw [addRecords, if_pos h.frozen]
    exact h
  | sort =>
    change Locked fs d.sort
    rw [h.sort_eq]
    exact h
  | markReady now =>
    have hready := locked_markReady now d
    rw [h.sort_eq, h.fields] at hready
    exact hready
  | markValidated now => exact locked_enter ⟨h.fields, h.sorted, h.frozen, .inl rfl⟩
  | markFailed now reason => exact locked_enter ⟨h.fields, h.sorted, h.frozen, .inr rfl⟩
  | reload now =>
    obtain ⟨hfailed, htyped⟩ := hop now rfl
    change Locked fs (match d.reload now with | .error e => (some e, d) | .ok d' => (none, d')).2
    split
    · exact h
    · rename_i d' hreload
      obtain ⟨_, datas, cls, restored, -, hdatas, hcls, hrestored, -, -, -, rfl⟩ :=
        reload_eq_ok.mp hreload
      obtain rfl : d.records.map DataRecord.unserved = restored :=
        Except.ok.inj ((restoreRecords_of_comesBack (forall₂_of_mapM hdatas)
          (htyped cls hcls)).symm.trans hrestored)
      have hcommitted := h.status.resolve_right hfailed
      have hfields : fieldsOf (d.withRestored (d.records.map DataRecord.unserved)) = fs :=
        map_map.trans h.fields
      exact ⟨(fieldsOf_computeHash _).trans hfields, h.sorted, hcommitted, .inl hcommitted⟩

/-- A step of a run that does not thaw: a reload after `mark_ready` is of a dataset that is not
failed and whose records are of its data type. -/
def Keeps (d : HistoricalDataset F) (pre : List (Operation F)) (op : Operation F) : Prop :=
  (∃ now, .markReady now ∈ pre) → (∃ now, op = .reload now) → KeepsState ((machine d).after pre)

/-- From a `mark_ready` on the records are the same and adds raise, in every state of the run. -/
def StaysFrozen (d : HistoricalDataset F) (ops : List (Operation F)) : Prop :=
  ∀ pre now post, pre ++ .markReady now :: post <+: ops →
    fieldsOf ((machine d).after (pre ++ .markReady now :: post)) =
        fieldsOf ((machine d).after (pre ++ [.markReady now])) ∧
      RefusesAdds ((machine d).after (pre ++ .markReady now :: post))

theorem locked_after {pre post : List (Operation F)}
    (h : Meets (Keeps d) (pre ++ .markReady now :: post)) :
    Locked (fieldsOf ((machine d).after pre).sort)
      ((machine d).after (pre ++ .markReady now :: post)) := by
  induction post using reverseRecOn with
  | nil =>
    rw [Machine.after_concat]
    exact locked_markReady now _
  | append_singleton post op ih =>
    rw [← cons_append, ← append_assoc] at h ⊢
    obtain ⟨hbefore, hop⟩ := meets_concat.mp h
    rw [Machine.after_concat]
    exact locked_step (ih hbefore) fun now' hreload ↦
      hop ⟨now, mem_append_right pre mem_cons_self⟩ ⟨now', hreload⟩

theorem staysFrozen_of_keeps {ops : List (Operation F)} (h : Meets (Keeps d) ops) :
    StaysFrozen d ops := by
  intro pre now post hprefix
  have hend := locked_after fun pre' op hpre ↦ h pre' op (hpre.trans hprefix)
  have hready : Locked (fieldsOf ((machine d).after pre).sort)
      ((machine d).after (pre ++ [.markReady now])) := by
    rw [Machine.after_concat]
    exact locked_markReady now _
  exact ⟨hend.fields.trans hready.fields.symm, refusesAdds_of_frozen hend.frozen⟩

/-- **When a dataset stays frozen and comes back, and when a change of it shows.** -/
theorem dataset_integrity (generateId : String → String) (now : Utc)
    (symbol timeframe dataType : String) (records : List (DataRecord F)) (source : String)
    (quality : DataQuality) (version : String) (tags ontologyTags : List String)
    (id : Option String) (ops : List (Operation F)) :
    let d₀ := HistoricalDataset.new generateId now symbol timeframe dataType records source quality
      version tags ontologyTags id
    let d := (machine d₀).after ops
    (Meets (Keeps d₀) ops → StaysFrozen d₀ ops) ∧ (RoundTrips d ↔ Settled d) ∧
      (TamperShows d ↔ d.datasetHash = "" ∨ d.records = []) :=
  ⟨staysFrozen_of_keeps, roundTrips_iff, tamperShows_iff (served_after rfl ops)⟩

end

/-! ## A thawed dataset -/

namespace Sample

local instance zeroTenths : Zero Tenths := ⟨.tenths 0⟩

local instance ltTenths : LT Tenths := ⟨fun a b ↦ NumberOps.lt (.float a) (.float b) = true⟩

local instance decidableLTTenths : DecidableLT Tenths := fun a b ↦
  inferInstanceAs (Decidable (NumberOps.lt (Number.float a) (.float b) = true))

local instance roundTenths : RoundTen Tenths := ⟨id⟩

def noon : Utc := ⟨0, Utc.epoch_ok⟩

def candle : DataRecord Tenths where
  fields := {
    base := .new noon "candle" [] "Candle created"
    symbol := "XAUUSD"
    timestamp := noon
    data := .candle {
      timeframe := "1m"
      openPrice := .tenths 10
      high := .tenths 12
      low := .tenths 9
      close := .tenths 11
      volume := .tenths 0
      quoteVolume := .tenths 0
      tradesCount := 0
      spread := none
      tickVolume := none
      realVolume := none
      isComplete := true } }
  cachedHash := none

def empty : HistoricalDataset Tenths :=
  .new (fun seed ↦ seed) noon "XAUUSD" "1m" "candle" [] "" .raw "1.0.0" [] [] none

/-- A failed dataset is thawed by a reload, a validated one is frozen by it, and a candle can be
changed. -/
theorem not_intact :
    ¬ (∃ _ : Hashlib,
        StaysFrozen empty [.markReady noon, .markFailed noon "", .reload noon]) ∧
      ¬ (∃ _ : Hashlib, RoundTrips ((machine empty).after [.markValidated noon])) ∧
      ¬ ∃ _ : Hashlib, (∀ text, (sha256 text).text ≠ "") ∧
        TamperShows ((machine empty).after [.addRecord candle]) := by
  refine ⟨?_, ?_, ?_⟩
  · rintro ⟨_, h⟩
    have hreload : ((machine empty).after [.markReady noon, .markFailed noon ""]).reload noon =
        .ok _ :=
      reload_eq_ok.mpr ⟨_, [], .candle, [], rfl, rfl, rfl, rfl, rfl, .inr rfl, .inr rfl, rfl⟩
    have hadds : (addRecords [] ((machine empty).after
        ([.markReady noon, .markFailed noon ""] ++ [.reload noon]))).1 = none := by
      rw [after_reload hreload]
      rfl
    have hrefuses := (h [] noon [.markFailed noon "", .reload noon] (List.prefix_refl _)).2.2 []
    exact hrefuses hadds
  · rintro ⟨_, h⟩
    have hflag : false = true := (settled_of_roundTrips h).flag
    cases hflag
  · rintro ⟨_, hdigest, h⟩
    rcases (tamperShows_iff (served_after rfl _)).mp h with hempty | hnil
    · exact hdigest _ hempty
    · cases hnil

end Sample

end Qros.DataEngine.Frozen
