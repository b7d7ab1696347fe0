import Qros.DataEngine.Dataset

/-!
# Datasets that come back as they were saved

A dataset is saveable in a database if it has only candles that their rows give back, in the
order of their times, and if no other rows are in its table.  A run of saves of saveable
datasets returns each dataset as it was saved last (`saved_comes_back`).
-/

namespace Qros.DataEngine

open Qros.Lib Qros.Python List

variable {F T R : Type} [Datetime T] [Hashing F T R] [Sqlite F T R]

/-! ## Saveable datasets -/

def Candle.numbers (c : Candle F T) : List (Option F) :=
  [c.openPrice, c.high, c.low, c.close, c.volume, c.quoteVolume, c.spread, c.tickVolume,
    c.realVolume]

/-- The row of the candle gives the candle back. -/
structure Candle.Restorable (R : Type) [Hashing F T R] [Sqlite F T R] (c : Candle F T) : Prop where
  id_eq : c.id = Candle.defaultId (F := F) R c.symbol c.timeframe c.timestamp
  timestamp_eq : parseTimestamp (Datetime.isoformat c.timestamp) = some c.timestamp
  numbers_eq : ∀ x ∈ c.numbers, x.bind (Sqlite.readBack T R) = x
  tradesCount_fits : FitsInteger c.tradesCount
  ontologyTags_eq : c.ontologyTags = []

/-- The dataset comes back if it is saved now. -/
structure Saveable (db : Database F) (d : HistoricalDataset F T R) : Prop where
  candles : ∀ r ∈ d.records, d.dataType = "candle" ∧ ∃ c, r = .candle c ∧ c.Restorable R
  ids : (d.candles.map Candle.id).Nodup
  ordered : d.candles.Pairwise fun c c' ↦
    Datetime.isoformat c.timestamp ≤ Datetime.isoformat c'.timestamp
  version : d.version ≠ "" ∨ d.datasetContentHash = ""
  integrity : verifyDatasetIntegrity d = some true
  identifier : d.records ≠ [] → isIdentifier (tableName d.id) = true
  /-- The table, if there is one, is of candles and has this very name. -/
  table : d.records ≠ [] → ∀ t ∈ db.records.get? (foldName (tableName d.id)),
    ∃ rows, t = (tableName d.id, .candles rows)
  /-- Rows that are already there are replaced. -/
  replaced : d.dataType = "candle" → ∀ row ∈ rowsOf db.records (tableName d.id),
    row.id ∈ d.candles.map Candle.id
  /-- No other dataset of candles has its rows in the table. -/
  unshared : d.records ≠ [] → ∀ e ∈ db.datasets.entries, e.1 ≠ d.id → e.2.dataType = "candle" →
    tableName e.1 ≠ tableName d.id

/-! ## Rows -/

theorem Candle.candle_row {c : Candle F T} (h : c.Restorable R) : (c.row R).candle R = some c := by
  have hreal : ∀ x ∈ c.numbers, x.bind (Sqlite.readBack T R) = x := h.numbers_eq
  simp only [numbers, mem_cons, not_mem_nil, or_false, forall_eq_or_imp,
    forall_eq] at hreal
  obtain ⟨hopen, hhigh, hlow, hclose, hvolume, hquote, hspread, htick, hrealVolume⟩ := hreal
  have hcomplete : decide ((if c.isComplete = true then (1 : Int) else 0) ≠ 0) = c.isComplete := by
    cases c.isComplete <;> rfl
  unfold CandleRow.candle Candle.row
  simp only [h.timestamp_eq, hopen, hhigh, hlow, hclose, hvolume, hquote, hspread, htick,
    hrealVolume, hcomplete, ← h.id_eq, Option.bind_eq_bind, Option.bind_some]
  rw [← h.ontologyTags_eq]
  rfl

theorem mapM_candle_row {cs : List (Candle F T)} (h : ∀ c ∈ cs, c.Restorable R) :
    (cs.map (Candle.row R)).mapM (fun r ↦ (r.candle R).map (DataRecord.candle (R := R))) =
      some (cs.map .candle) := by
  rw [mapM_map]
  induction cs with
  | nil => rfl
  | cons c cs ih =>
    rw [mapM_cons, ih fun c' hc' ↦ h c' (mem_cons_of_mem c hc'), Function.comp_apply,
      Candle.candle_row (h c mem_cons_self)]
    rfl

omit [Hashing F T R] in
theorem sorted_rows {cs : List (Candle F T)}
    (h : cs.Pairwise fun c c' ↦ Datetime.isoformat c.timestamp ≤ Datetime.isoformat c'.timestamp) :
    KeySort.stableSortBy CandleRow.timestamp (cs.map (Candle.row R)) = cs.map (Candle.row R) := by
  apply List.Pairwise.insertionSort_eq
  rw [pairwise_map]
  exact h

/-! ## Loading a dataset -/

omit [Sqlite F T R] in
theorem hydrateRecords_congr {id dataType : String} {records records' : RecordTables F}
    (h : dataType = "candle" → rowsOf records' (tableName id) = rowsOf records (tableName id)) :
    hydrateRecords (T := T) (R := R) id dataType records' = hydrateRecords id dataType records := by
  unfold hydrateRecords
  by_cases htype : dataType = "candle"
  · rw [h htype]
  · rw [if_neg htype, if_neg htype]

omit [Sqlite F T R] in
theorem get_congr {now : T} {id : String} {db db' : Database F}
    (hrow : db'.datasets.get? id = db.datasets.get? id)
    (hrows : ∀ row ∈ db.datasets.get? id, row.dataType = "candle" →
      rowsOf db'.records (tableName id) = rowsOf db.records (tableName id)) :
    get (R := R) now id db' = get now id db := by
  unfold get
  rw [hrow]
  cases hget : db.datasets.get? id with
  | none => rfl
  | some row =>
    simp only [Option.bind_eq_bind, Option.bind_some]
    unfold rowToDataset
    rw [hydrateRecords_congr (hrows row hget)]

omit [Sqlite F T R] in
theorem rowToDataset_row {now : T} {d : HistoricalDataset F T R} {records : RecordTables F}
    (hversion : d.version ≠ "" ∨ d.datasetContentHash = "")
    (hrecords : hydrateRecords d.id d.dataType records = some d.records) :
    rowToDataset now d.id d.row records = some { d with createdAt := now } := by
  have hv : (if d.version ≠ "" then d.version else d.datasetContentHash) = d.version := by
    by_cases hne : d.version = ""
    · rw [if_neg (not_not.mpr hne), hne]
      exact hversion.resolve_left (not_not.mpr hne)
    · exact if_pos hne
  unfold rowToDataset HistoricalDataset.row
  simp only [DataQuality.ofValue_value, DatasetStatus.ofValue_value, hrecords, hv,
    Option.bind_eq_bind, Option.bind_some]
  rfl

/-! ## Saving a dataset -/

namespace Saveable

variable {db : Database F} {d : HistoricalDataset F T R}

theorem records_eq (h : Saveable db d) : d.records = d.candles.map .candle := by
  have hall := h.candles
  unfold HistoricalDataset.candles
  generalize d.records = records at hall
  induction records with
  | nil => rfl
  | cons r records ih =>
    obtain ⟨-, c, rfl, -⟩ := hall r mem_cons_self
    change _ = DataRecord.candle c :: List.map DataRecord.candle (records.filterMap DataRecord.candle?)
    rw [← ih fun r hr ↦ hall r (mem_cons_of_mem _ hr)]

theorem restorable (h : Saveable db d) : ∀ c ∈ d.candles, c.Restorable R := by
  intro c hc
  have hmem : DataRecord.candle c ∈ d.records := by
    rw [h.records_eq]
    exact mem_map_of_mem hc
  obtain ⟨-, c', heq, hc'⟩ := h.candles _ hmem
  cases heq
  exact hc'

theorem table_ensured (h : Saveable db d) (hne : d.records ≠ []) :
    ∃ rows, (ensureRecordTable d.id d.dataType db.records).get? (foldName (tableName d.id)) =
      some (tableName d.id, .candles rows) ∧ rows = rowsOf db.records (tableName d.id) := by
  obtain ⟨r, records, hr⟩ := exists_cons_of_ne_nil hne
  have htype : d.dataType = "candle" := (h.candles r (hr ▸ mem_cons_self)).1
  unfold ensureRecordTable rowsOf
  rw [Dict.get?_setdefault, if_pos rfl, if_pos htype]
  cases hget : db.records.get? (foldName (tableName d.id)) with
  | none => exact ⟨[], rfl, rfl⟩
  | some t =>
    obtain ⟨rows, rfl⟩ := h.table hne t hget
    exact ⟨rows, rfl, (if_pos rfl).symm⟩

theorem saveRecords_eq (h : Saveable db d) (hne : d.records ≠ []) :
    saveRecords d db.records =
      (none, (ensureRecordTable d.id d.dataType db.records).set (foldName (tableName d.id))
        (tableName d.id, .candles (d.candles.map (Candle.row R)))) := by
  obtain ⟨rows, hget, hrows⟩ := h.table_ensured hne
  obtain ⟨r, records, hr⟩ := exists_cons_of_ne_nil hne
  have htype : d.dataType = "candle" := (h.candles r (hr ▸ mem_cons_self)).1
  have hcandles : d.candles ≠ [] := fun hnil ↦ hne (by rw [h.records_eq, hnil, map_nil])
  have hfits : ∀ c ∈ d.candles, FitsInteger c.tradesCount :=
    fun c hc ↦ (h.restorable c hc).tradesCount_fits
  have hids : (d.candles.map (Candle.row R)).map CandleRow.id = d.candles.map Candle.id := by
    rw [map_map]
    rfl
  have hreplaced : ∀ row ∈ rows, row.id ∈ (d.candles.map (Candle.row R)).map CandleRow.id := by
    rw [hids, hrows]
    exact h.replaced htype
  unfold saveRecords
  rw [if_neg (by rwa [List.isEmpty_iff]), if_pos (h.identifier hne)]
  dsimp only
  rw [if_neg (by rwa [List.isEmpty_iff])]
  unfold insertCandles
  dsimp only
  rw [hget]
  dsimp only
  rw [if_pos hfits, Rows.upsertAll_eq_new (hids ▸ h.ids) hreplaced]

omit [Hashing F T R] in
theorem saveRecords_of_nil (hnil : d.records = []) (records : RecordTables F) :
    saveRecords d records = (none, records) := by
  unfold saveRecords
  rw [hnil]
  rfl

theorem rowsOf_saveRecords_self (h : Saveable db d) (htype : d.dataType = "candle") :
    rowsOf (saveRecords d db.records).2 (tableName d.id) = d.candles.map (Candle.row R) := by
  by_cases hnil : d.records = []
  · have hcandles : d.candles = [] := by
      unfold HistoricalDataset.candles
      rw [hnil, filterMap_nil]
    rw [saveRecords_of_nil hnil, hcandles, map_nil, eq_nil_iff_forall_not_mem]
    intro row hrow
    have := h.replaced htype row hrow
    rw [hcandles] at this
    exact not_mem_nil this
  · rw [h.saveRecords_eq hnil]
    unfold rowsOf
    rw [Dict.get?_set_self]
    dsimp only
    rw [if_pos rfl]
    rfl

theorem rowsOf_saveRecords_of_ne (h : Saveable db d) {name : String} (hne : d.records ≠ [])
    (hname : name ≠ tableName d.id) :
    rowsOf (saveRecords d db.records).2 name = rowsOf db.records name := by
  rw [h.saveRecords_eq hne]
  unfold rowsOf
  by_cases hfold : foldName (tableName d.id) = foldName name
  · rw [hfold, Dict.get?_set_self]
    dsimp only
    rw [if_neg hname.symm]
    cases hget : db.records.get? (foldName name) with
    | none => rfl
    | some t =>
      obtain ⟨rows, rfl⟩ := h.table hne t (hfold ▸ hget)
      dsimp only
      rw [if_neg hname.symm]
  · rw [Dict.get?_set_of_ne _ _ hfold]
    unfold ensureRecordTable
    rw [Dict.get?_setdefault, if_neg hfold]

theorem hydrateRecords_save (h : Saveable db d) :
    hydrateRecords d.id d.dataType (saveRecords d db.records).2 = some d.records := by
  unfold hydrateRecords
  by_cases htype : d.dataType = "candle"
  · rw [if_pos htype, h.rowsOf_saveRecords_self htype, sorted_rows h.ordered,
      mapM_candle_row h.restorable, ← h.records_eq]
  · rw [if_neg htype, eq_comm, Option.some.injEq, eq_nil_iff_forall_not_mem]
    intro r hr
    exact htype (h.candles r hr).1

theorem save_fst (h : Saveable db d) : (save d db).1 = none := by
  change (saveRecords d db.records).1 = none
  by_cases hnil : d.records = []
  · rw [saveRecords_of_nil hnil]
  · rw [h.saveRecords_eq hnil]

theorem get_save_self (h : Saveable db d) (now : T) :
    get now d.id (save d db).2 = some { d with createdAt := now } := by
  unfold get save
  dsimp only
  rw [Dict.get?_set_self]
  exact rowToDataset_row h.version h.hydrateRecords_save

theorem get_save_of_ne (h : Saveable db d) (now : T) {id : String} (hid : id ≠ d.id) :
    get (R := R) now id (save d db).2 = get now id db := by
  refine get_congr (Dict.get?_set_of_ne _ _ hid.symm) fun row hrow htype ↦ ?_
  change rowsOf (saveRecords d db.records).2 _ = _
  by_cases hnil : d.records = []
  · rw [saveRecords_of_nil hnil]
  · exact h.rowsOf_saveRecords_of_ne hnil
      (h.unshared hnil (id, row) (Dict.mem_entries.mpr hrow) hid htype)

end Saveable

/-! ## Runs -/

/-- **Datasets come back as they were saved.**  In a run whose datasets were saveable when they
were saved, no save raises, each dataset is returned as it was saved last, with its integrity,
and a save leaves the datasets with other identifiers as they were. -/
theorem saved_comes_back {ds : List (HistoricalDataset F T R)}
    (h : Meets (fun pre d ↦ Saveable ((repository F T R).after pre) d) ds) :
    ∀ pre d rest, ds = pre ++ d :: rest →
      (save d ((repository F T R).after pre)).1 = none ∧
      (∀ (now : T) (id : String), id ≠ d.id →
        get (R := R) now id ((repository F T R).after (pre ++ [d])) =
          get now id ((repository F T R).after pre)) ∧
      ((∀ e ∈ rest, e.id ≠ d.id) → ∀ now : T,
        get now d.id ((repository F T R).after ds) = some { d with createdAt := now } ∧
          verifyDatasetIntegrity ({ d with createdAt := now } : HistoricalDataset F T R) =
            some true) := by
  have hstep : ∀ pre d, pre ++ [d] <+: ds → Saveable ((repository F T R).after pre) d := h
  rintro pre d rest rfl
  have hd : Saveable ((repository F T R).after pre) d := hstep pre d ⟨rest, by simp⟩
  refine ⟨hd.save_fst, fun now id hid ↦ ?_, fun hrest now ↦ ?_⟩
  · rw [Machine.after_concat]
    exact hd.get_save_of_ne now hid
  · refine ⟨?_, hd.integrity⟩
    -- The saves that follow are of other datasets.
    clear h
    induction rest using reverseRecOn with
    | nil =>
      rw [Machine.after_concat]
      exact hd.get_save_self now
    | append_singleton rest e ih =>
      have heq : pre ++ d :: (rest ++ [e]) = (pre ++ d :: rest) ++ [e] := by simp
      rw [heq, Machine.after_concat]
      have he : Saveable ((repository F T R).after (pre ++ d :: rest)) e :=
        hstep _ e ⟨[], by rw [heq, append_nil]⟩
      have hid : d.id ≠ e.id := (hrest e (mem_append_right _ (mem_singleton_self e))).symm
      refine (he.get_save_of_ne now hid).trans
        (ih (fun pre' d' hpre ↦ hstep pre' d' (hpre.trans ?_)) fun e' he' ↦
          hrest e' (mem_append_left _ he'))
      exact ⟨[e], heq.symm⟩

/-! ## A repository of small datasets -/

namespace Sample

/-- Times that are written as they are, with their offset. -/
local instance : Datetime String where
  isoformat t := t
  fromisoformat := some
  isNaive t := decide ('+' ∉ t.toList)
  replaceUtc t := t ++ "+00:00"

/-- Contents are their own digests. -/
local instance : Hashing Int String String where
  round x := x
  candle c := c.symbol ++ "|" ++ c.timestamp
  dataset c := c.symbol ++ "|" ++ c.dataType ++ "|" ++ toString c.recordCount
  other r := some r
  otherTimestamp _ := none
  generateId seed := seed

local instance : Sqlite Int String String where
  readBack := some
  saveRecords _ records := (none, records)

def candle (timestamp : String) : Candle Int String where
  id := "Candle|XAUUSD|M1|" ++ timestamp
  symbol := "XAUUSD"
  timeframe := "M1"
  timestamp := timestamp
  openPrice := some 2000
  high := some 2002
  low := some 1999
  close := some 2001
  volume := some 5
  quoteVolume := some 0
  tradesCount := 0
  spread := none
  tickVolume := none
  realVolume := none
  isComplete := true
  ontologyTags := []

def dataset (dataType : String) (records : List (DataRecord Int String String)) :
    HistoricalDataset Int String String where
  id := "ds-1"
  symbol := "XAUUSD"
  timeframe := "M1"
  dataType := dataType
  records := records
  source := "test"
  quality := .raw
  status := .ready
  version := "1.0.0"
  tags := []
  ontologyTags := []
  datasetHash := "XAUUSD|" ++ dataType ++ "|" ++ toString records.length
  datasetContentHash := ""
  createdAt := "2026-01-01T00:00:00+00:00"

def first : Candle Int String := candle "2026-01-02T00:00:00+00:00"

def second : Candle Int String := candle "2026-01-02T00:01:00+00:00"

/-- A dataset that grows by a candle. -/
def saved : List (HistoricalDataset Int String String) :=
  [dataset "candle" [.candle first], dataset "candle" [.candle first, .candle second]]

theorem restorable_candle {timestamp : String}
    (h : parseTimestamp (Datetime.isoformat timestamp) = some timestamp) :
    (candle timestamp).Restorable String where
  id_eq := rfl
  timestamp_eq := h
  numbers_eq := fun x _ ↦ by cases x <;> rfl
  tradesCount_fits := show FitsInteger 0 by decide
  ontologyTags_eq := rfl

theorem saveable_first :
    Saveable (repository Int String String).init (dataset "candle" [.candle first]) where
  candles := by
    rintro r (_ | ⟨_, ⟨⟩⟩)
    exact ⟨rfl, first, rfl, restorable_candle (by decide +kernel)⟩
  ids := by decide +kernel
  ordered := by decide +kernel
  version := .inr rfl
  integrity := by decide +kernel
  identifier := by decide +kernel
  table := fun _ t ht ↦ absurd ht (Option.not_mem_none t)
  replaced := fun _ row hrow ↦ absurd hrow not_mem_nil
  unshared := fun _ e he ↦ absurd he not_mem_nil

theorem saveable_saved :
    Meets (fun pre d ↦ Saveable ((repository Int String String).after pre) d) saved := by
  change Meets _ (([] ++ [_]) ++ [_])
  refine meets_concat.mpr ⟨meets_concat.mpr ⟨meets_nil, saveable_first⟩, ?_⟩
  rw [Machine.after_concat, Machine.after_nil]
  have hne : (dataset "candle" [.candle first]).records ≠ [] := cons_ne_nil _ _
  constructor
  · rintro r (_ | ⟨_, _ | ⟨_, ⟨⟩⟩⟩)
    · exact ⟨rfl, first, rfl, restorable_candle (by decide +kernel)⟩
    · exact ⟨rfl, second, rfl, restorable_candle (by decide +kernel)⟩
  · decide +kernel
  · decide +kernel
  · exact .inr rfl
  · decide +kernel
  · decide +kernel
  · intro _ t ht
    change t ∈ (saveRecords _ _).2.get? _ at ht
    rw [saveable_first.saveRecords_eq hne] at ht
    exact ⟨_, (Option.some.inj ((Dict.get?_set_self _ _ _).symm.trans ht)).symm⟩
  · intro _ row hrow
    change row ∈ rowsOf (saveRecords _ _).2 _ at hrow
    have hstored : row ∈ [first.row String] := by
      rw [← show _ = [first.row String] from saveable_first.rowsOf_saveRecords_self rfl]
      exact hrow
    rw [mem_singleton.mp hstored]
    exact mem_cons_self
  · intro _ e he hid
    rcases mem_singleton.mp he with rfl
    exact absurd rfl hid

/-- The dataset comes back with the candle that it grew by. -/
theorem grown_comes_back :
    Meets (fun pre d ↦ Saveable ((repository Int String String).after pre) d) saved ∧
      get "2026-01-03T00:00:00+00:00" "ds-1" ((repository Int String String).after saved) =
        some { dataset "candle" [.candle first, .candle second] with
          createdAt := "2026-01-03T00:00:00+00:00" } :=
  ⟨saveable_saved, ((saved_comes_back saveable_saved [dataset "candle" [.candle first]] _ [] rfl).2.2
    (fun _ he ↦ absurd he not_mem_nil) _).1⟩

/-- A dataset of ticks is saved and comes back without its records. -/
theorem ticks_not_restored :
    ∃ d : HistoricalDataset Int String String, verifyDatasetIntegrity d = some true ∧
      ∀ now, get now d.id ((repository Int String String).after [d]) ≠
        some { d with createdAt := now } := by
  refine ⟨dataset "tick" [.other "2000.5"], by decide +kernel, fun now h ↦ ?_⟩
  have hcount := congrArg (Option.map fun d ↦ d.records.length) h
  exact absurd (show 0 = 1 from Option.some.inj hcount) (by decide)

end Sample

end Qros.DataEngine
