import Mathlib.Algebra.Ring.Int.Defs
import Qros.Python.Value
import Qros.Lib.KeySort
import Qros.Lib.Machine

/-!
# Datasets

`Candle`, `HistoricalDataset` and the hashes of `data_engine/hashing.py`.  Numbers are of an
arbitrary type, `none` where Python has `None`; records that are no candles are of an
arbitrary type too.  Times, identifiers and digests are what the standard library makes of
texts.
-/

namespace Qros.DataEngine

open Qros.Lib Qros.Python

/-- What `datetime` offers to the repository. -/
class Datetime (T : Type) where
  isoformat : T → String
  fromisoformat : String → Option T
  /-- `dt.tzinfo is None`. -/
  isNaive : T → Bool
  /-- `dt.replace(tzinfo=timezone.utc)`. -/
  replaceUtc : T → T

def parseTimestamp {T : Type} [Datetime T] (ts : String) : Option T :=
  let ts := if ts.toList.getLast? = some 'Z' then
    String.ofList (ts.toList.dropLast ++ "+00:00".toList) else ts
  (Datetime.fromisoformat ts).map fun dt ↦
    if Datetime.isNaive dt = true then Datetime.replaceUtc dt else dt

structure Candle (F T : Type) where
  id : String
  symbol : String
  timeframe : String
  timestamp : T
  openPrice : Option F
  high : Option F
  low : Option F
  close : Option F
  volume : Option F
  quoteVolume : Option F
  tradesCount : Int
  spread : Option F
  tickVolume : Option F
  realVolume : Option F
  isComplete : Bool
  ontologyTags : List String

/-- A record of a dataset: a candle, or a tick, quote, trade or order book. -/
inductive DataRecord (F T R : Type) where
  | candle (c : Candle F T)
  | other (r : R)

inductive DataQuality where
  | raw
  | cleaned
  | normalized
  | validated
  | certified
deriving DecidableEq

inductive DatasetStatus where
  | pending
  | loading
  | ready
  | validated
  | archived
  | failed
deriving DecidableEq

def DataQuality.value : DataQuality → String
  | .raw => "Raw"
  | .cleaned => "Cleaned"
  | .normalized => "Normalized"
  | .validated => "Validated"
  | .certified => "Certified"

def DatasetStatus.value : DatasetStatus → String
  | .pending => "Pending"
  | .loading => "Loading"
  | .ready => "Ready"
  | .validated => "Validated"
  | .archived => "Archived"
  | .failed => "Failed"

def DataQuality.ofValue (value : String) : Option DataQuality :=
  [.raw, .cleaned, .normalized, .validated, .certified].find? fun q ↦ decide (q.value = value)

def DatasetStatus.ofValue (value : String) : Option DatasetStatus :=
  [.pending, .loading, .ready, .validated, .archived, .failed].find? fun s ↦
    decide (s.value = value)

theorem DataQuality.ofValue_value (q : DataQuality) : ofValue q.value = some q := by
  cases q <;> decide

theorem DatasetStatus.ofValue_value (s : DatasetStatus) : ofValue s.value = some s := by
  cases s <;> decide

structure HistoricalDataset (F T R : Type) where
  id : String
  symbol : String
  timeframe : String
  dataType : String
  records : List (DataRecord F T R)
  source : String
  quality : DataQuality
  status : DatasetStatus
  version : String
  tags : List String
  ontologyTags : List String
  datasetHash : String
  datasetContentHash : String
  createdAt : T

/-! ## Hashes -/

structure HashableCandle (F : Type) where
  symbol : String
  timeframe : String
  timestamp : String
  openPrice : F
  high : F
  low : F
  close : F
  volume : F
  quoteVolume : F
  tradesCount : Int
  isComplete : Bool
  ontologyTags : List String
  spread : Option F
  tickVolume : Option F
  realVolume : Option F

structure DatasetContent where
  symbol : String
  timeframe : String
  dataType : String
  source : String
  recordCount : Nat
  recordHashes : List String
  version : String
  tags : List String
  ontologyTags : List String

/-- `deterministic_hash` of contents, `round(x, 10)`, the time and the hash of a record that is
no candle, and `generate_id`. -/
class Hashing (F T R : Type) where
  round : F → F
  candle : HashableCandle F → String
  dataset : DatasetContent → String
  other : R → Option String
  otherTimestamp : R → Option T
  generateId : String → String

section

variable {F T R : Type} [Datetime T] [Hashing F T R]

/-- `candle.hash`, if no price or volume is `None`. -/
def Candle.hash (R : Type) [Hashing F T R] (c : Candle F T) : Option String := do
  let round := Hashing.round (F := F) T R
  return Hashing.candle T R {
    symbol := c.symbol
    timeframe := c.timeframe
    timestamp := Datetime.isoformat c.timestamp
    openPrice := round (← c.openPrice)
    high := round (← c.high)
    low := round (← c.low)
    close := round (← c.close)
    volume := round (← c.volume)
    quoteVolume := round (← c.quoteVolume)
    tradesCount := c.tradesCount
    isComplete := c.isComplete
    ontologyTags := sortStrings c.ontologyTags
    spread := c.spread.map round
    tickVolume := c.tickVolume.map round
    realVolume := c.realVolume.map round }

def DataRecord.hash : DataRecord F T R → Option String
  | .candle c => c.hash R
  | .other r => Hashing.other F T r

def DataRecord.timestamp : DataRecord F T R → Option T
  | .candle c => some c.timestamp
  | .other r => Hashing.otherTimestamp F r

/-- The identifier that a candle has if none is given. -/
def Candle.defaultId (R : Type) [Hashing F T R] (symbol timeframe : String) (timestamp : T) : String :=
  Hashing.generateId F T R
    ("Candle|" ++ symbol ++ "|" ++ timeframe ++ "|" ++ Datetime.isoformat timestamp)

def computeDatasetHash (d : HistoricalDataset F T R) : Option String := do
  let recordContent ← d.records.mapM DataRecord.hash
  return Hashing.dataset F T R {
    symbol := d.symbol
    timeframe := d.timeframe
    dataType := d.dataType
    source := d.source
    recordCount := d.records.length
    recordHashes := sortStrings recordContent
    version := d.version
    tags := sortStrings d.tags
    ontologyTags := sortStrings d.ontologyTags }

def verifyDatasetIntegrity (d : HistoricalDataset F T R) : Option Bool := do
  let computed ← computeDatasetHash d
  return decide (computed = d.datasetHash)

end

end Qros.DataEngine

/-!
## The dataset repository

`save` and `get` of `SqliteDatasetRepository`, for datasets.  A dataset has a row in
`datasets`, and its candles have rows in a table whose name is made of its identifier.
SQLite compares the names of tables without regard to case, so the tables are kept under
their names in lower case, each with the name that it was created with.

`json.loads` returns what `json.dumps` was given, so the columns of tags hold the lists.
Indices have no effect on what is stored or returned.  What SQLite makes of a statement in
which the name of a table is no identifier is arbitrary.
-/

namespace Qros.DataEngine

open Qros.Lib Qros.Python

/-! ## Tables -/

/-- A row of `datasets`, whose key is the identifier. -/
structure DatasetRow where
  symbol : String
  timeframe : String
  dataType : String
  source : String
  quality : String
  status : String
  recordCount : Nat
  startTime : Option String
  endTime : Option String
  datasetHash : String
  datasetContentHash : String
  version : String
  tags : List String
  ontologyTags : List String
  createdAt : String

structure CandleRow (F : Type) where
  id : String
  symbol : String
  timeframe : String
  timestamp : String
  openPrice : Option F
  high : Option F
  low : Option F
  close : Option F
  volume : Option F
  quoteVolume : Option F
  tradesCount : Int
  isComplete : Int
  spread : Option F
  tickVolume : Option F
  realVolume : Option F

/-- The columns of a table of records, with its rows.  Nothing is ever inserted into a table
with the columns `id`, `timestamp` and `data`. -/
inductive RecordTable (F : Type) where
  | candles (rows : List (CandleRow F))
  | generic

def RecordTable.rows {F : Type} : RecordTable F → List (CandleRow F)
  | candles rows => rows
  | generic => []

/-- The tables of records under their names in lower case, with the names they have. -/
abbrev RecordTables (F : Type) : Type := Dict String (String × RecordTable F)

structure Database (F : Type) where
  datasets : Dict String DatasetRow
  records : RecordTables F

/-- What SQLite and the driver decide. -/
class Sqlite (F T R : Type) where
  /-- The value of a `REAL` column into which the number was written. -/
  readBack : F → Option F
  /-- `_save_records` of a dataset whose records have no identifier as the name of their table. -/
  saveRecords : HistoricalDataset F T R → RecordTables F → Option String × RecordTables F

/-! ## Names -/

/-- `f"records_{dataset_id.replace('-', '_')}"`. -/
def tableName (datasetId : String) : String :=
  "records_" ++ datasetId.map fun c ↦ if c = '-' then '_' else c

/-- The name as SQLite compares it. -/
def foldName (name : String) : String := name.map Char.toLower

/-- The character may occur in an identifier of SQLite. -/
def isIdChar (c : Char) : Bool := c.isAlphanum || c == '_' || c == '$' || decide (128 ≤ c.toNat)

def isIdentifier (name : String) : Bool := name.toList.all isIdChar

/-- The rows of the table that has exactly this name in `sqlite_master`. -/
def rowsOf {F : Type} (records : RecordTables F) (name : String) : List (CandleRow F) :=
  match records.get? (foldName name) with
  | some (stored, table) => if stored = name then table.rows else []
  | none => []

section

variable {F T R : Type} [Datetime T] [Hashing F T R] [Sqlite F T R]

/-! ## Saving -/

def HistoricalDataset.row (d : HistoricalDataset F T R) : DatasetRow where
  symbol := d.symbol
  timeframe := d.timeframe
  dataType := d.dataType
  source := d.source
  quality := d.quality.value
  status := d.status.value
  recordCount := d.records.length
  startTime := (d.records.head?.bind DataRecord.timestamp).map Datetime.isoformat
  endTime := (d.records.getLast?.bind DataRecord.timestamp).map Datetime.isoformat
  datasetHash := d.datasetHash
  datasetContentHash := d.datasetContentHash
  version := d.version
  tags := d.tags
  ontologyTags := d.ontologyTags
  createdAt := Datetime.isoformat d.createdAt

def Candle.row (R : Type) [Sqlite F T R] (c : Candle F T) : CandleRow F :=
  let real (x : Option F) := x.bind (Sqlite.readBack T R)
  { id := c.id
    symbol := c.symbol
    timeframe := c.timeframe
    timestamp := Datetime.isoformat c.timestamp
    openPrice := real c.openPrice
    high := real c.high
    low := real c.low
    close := real c.close
    volume := real c.volume
    quoteVolume := real c.quoteVolume
    tradesCount := c.tradesCount
    isComplete := if c.isComplete then 1 else 0
    spread := real c.spread
    tickVolume := real c.tickVolume
    realVolume := real c.realVolume }

/-- The records that `isinstance(record, Candle)` selects. -/
def DataRecord.candle? : DataRecord F T R → Option (Candle F T)
  | .candle c => some c
  | .other _ => none

def HistoricalDataset.candles (d : HistoricalDataset F T R) : List (Candle F T) :=
  d.records.filterMap DataRecord.candle?

/-- The number fits into an `INTEGER` column. -/
def FitsInteger (n : Int) : Prop := -2 ^ 63 ≤ n ∧ n < 2 ^ 63

instance (n : Int) : Decidable (FitsInteger n) := inferInstanceAs (Decidable (_ ∧ _))

def ensureRecordTable (datasetId dataType : String) (records : RecordTables F) : RecordTables F :=
  let name := tableName datasetId
  records.setdefault (foldName name)
    (name, if dataType = "candle" then .candles [] else .generic)

/-- `executemany`, and the error that it raises. -/
def insertCandles (datasetId : String) (candles : List (Candle F T)) (records : RecordTables F) :
    Option String × RecordTables F :=
  let name := foldName (tableName datasetId)
  match records.get? name with
  | none => (some ("no such table: " ++ tableName datasetId), records)
  | some (stored, .generic) =>
    (some ("table " ++ stored ++ " has no column named symbol"), records)
  | some (stored, .candles rows) =>
    if ∀ c ∈ candles, FitsInteger c.tradesCount then
      (none, records.set name
        (stored, .candles (Rows.upsertAll CandleRow.id rows (candles.map (Candle.row R)))))
    else
      (some "Python int too large to convert to SQLite INTEGER", records)

def saveRecords (d : HistoricalDataset F T R) (records : RecordTables F) :
    Option String × RecordTables F :=
  if d.records.isEmpty then
    (none, records)
  else if isIdentifier (tableName d.id) then
    let records := ensureRecordTable d.id d.dataType records
    if d.candles.isEmpty then (none, records) else insertCandles (R := R) d.id d.candles records
  else
    Sqlite.saveRecords d records

/-- `save`, and the error that it raises after the row of the dataset is there. -/
def save (d : HistoricalDataset F T R) (db : Database F) : Option String × Database F :=
  let saved := saveRecords d db.records
  (saved.1, { datasets := db.datasets.set d.id d.row, records := saved.2 })

/-! ## Loading -/

def CandleRow.candle (R : Type) [Hashing F T R] (row : CandleRow F) : Option (Candle F T) := do
  let timestamp ← parseTimestamp (T := T) row.timestamp
  return {
    id := Candle.defaultId (F := F) R row.symbol row.timeframe timestamp
    symbol := row.symbol
    timeframe := row.timeframe
    timestamp := timestamp
    openPrice := row.openPrice
    high := row.high
    low := row.low
    close := row.close
    volume := row.volume
    quoteVolume := row.quoteVolume
    tradesCount := row.tradesCount
    spread := row.spread
    tickVolume := row.tickVolume
    realVolume := row.realVolume
    isComplete := decide (row.isComplete ≠ 0)
    ontologyTags := [] }

def hydrateRecords (datasetId dataType : String) (records : RecordTables F) :
    Option (List (DataRecord F T R)) :=
  let rows := KeySort.stableSortBy CandleRow.timestamp (rowsOf records (tableName datasetId))
  if dataType = "candle" then rows.mapM fun r ↦ (r.candle R).map .candle else some []

def rowToDataset (now : T) (datasetId : String) (row : DatasetRow) (records : RecordTables F) :
    Option (HistoricalDataset F T R) := do
  let quality ← DataQuality.ofValue row.quality
  let status ← DatasetStatus.ofValue row.status
  let hydrated ← hydrateRecords datasetId row.dataType records
  return {
    id := datasetId
    symbol := row.symbol
    timeframe := row.timeframe
    dataType := row.dataType
    records := hydrated
    source := row.source
    quality := quality
    status := status
    version := if row.version ≠ "" then row.version else row.datasetContentHash
    tags := row.tags
    ontologyTags := row.ontologyTags
    datasetHash := row.datasetHash
    datasetContentHash := row.datasetContentHash
    createdAt := now }

def get (now : T) (datasetId : String) (db : Database F) : Option (HistoricalDataset F T R) := do
  rowToDataset now datasetId (← db.datasets.get? datasetId) db.records

/-- A repository that is driven by calls of `save`. -/
def repository (F T R : Type) [Datetime T] [Hashing F T R] [Sqlite F T R] :
    Machine (Database F) (HistoricalDataset F T R) (Option String) where
  init := ⟨∅, ∅⟩
  step d db := save d db

end

end Qros.DataEngine
