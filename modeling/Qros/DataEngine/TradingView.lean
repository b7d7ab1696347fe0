import Qros.DataEngine.Dataset
import Qros.DataEngine.MissingCandles
import Qros.Python.Float

/-!
# TradingView candles

`_parse_tradingview_rows` of `data_engine/csv_loader.py`, on the rows of a CSV file.

Rows are told apart by the text of their timestamp alone, a text counts as seen before its row
is read, and a row that is dropped is not counted.  So rows are lost as soon as two have the
same timestamp (`loses_no_row_iff`).
-/

namespace Qros.DataEngine.TradingView

open Qros.Lib Qros.Python List
open Qros.DataEngine.MissingCandles (Timeframe)

/-! ## What the loader uses -/

/-- An exception of `datetime.fromtimestamp`. -/
inductive Raised where
  | valueError
  | other

/-- What the standard library makes of texts and times, and the texts of its errors. -/
structure Host (F T : Type) where
  /-- `str.lower`. -/
  lower : String → String
  /-- `float(text)`, if it raises no `ValueError`. -/
  float : String → Option F
  /-- `datetime.fromtimestamp(x, tz=timezone.utc)`. -/
  fromTimestamp : F → Except Raised T
  strptime : String → String → Option T
  /-- `normalize_timestamp` of `data_engine/timezone.py`. -/
  normalizeTimestamp : T → String → Option T
  /-- `(b - a).total_seconds()`. -/
  totalSeconds : T → T → Option F
  generateId : String → String
  floatError : String → String
  keyError : String → String
  /-- `f"{x:.0f}"`. -/
  showSeconds : F → String

structure LoaderConfig where
  dateFormat : String := "%Y-%m-%d %H:%M:%S"
  timezone : String := "UTC"
  skipErrors : Bool := false
  normalizeTimezone : Bool := true

structure Stats where
  totalRows : Nat
  loadedRows : Nat
  skippedRows : Nat
  errorRows : Nat
  errors : List String

/-- A row, with the texts of its columns. -/
abbrev Row : Type := Dict String String

def Timeframe.value : Timeframe → String
  | .tick => "tick"
  | .m1 => "1m"
  | .m5 => "5m"
  | .m15 => "15m"
  | .m30 => "30m"
  | .h1 => "1h"
  | .h4 => "4h"
  | .d1 => "1d"
  | .w1 => "1w"
  | .mn1 => "1mo"

section Loader

variable {F T : Type} [FloatOps F] [Datetime T] (host : Host F T) (config : LoaderConfig)

/-! ## Columns -/

structure Columns where
  time : String
  openCol : String
  high : String
  low : String
  close : String
  volume : Option String
  symbol : Option String
deriving DecidableEq

/-- `{h.lower().strip(): h for h in keys}`. -/
def normalizedHeader (row : Row) : Dict String String :=
  row.keys.foldl (fun norm h ↦ norm.set (strip (host.lower h)) h) ∅

def findColumn (norm : Dict String String) (aliases : List String) : Option String :=
  aliases.findSome? norm.get?

def findColumns (first : Row) : Except String Columns :=
  let norm := normalizedHeader host first
  match findColumn norm ["time", "date", "datetime", "timestamp"],
      findColumn norm ["open", "o"], findColumn norm ["high", "h"],
      findColumn norm ["low", "l"], findColumn norm ["close", "c"] with
  | some time, some openCol, some high, some low, some close =>
    .ok {
      time := time
      openCol := openCol
      high := high
      low := low
      close := close
      volume := findColumn norm ["volume", "vol"]
      symbol := findColumn norm ["symbol", "ticker"] }
  | _, _, _, _, _ =>
    .error "TradingView CSV missing required columns (time, open, high, low, close)"

/-! ## Timestamps and the timeframe -/

def parseTimestamp (value sourceTimezone : String) : Option T :=
  let iso := if value.toList.getLast? = some 'Z' then
    String.ofList (value.toList.dropLast ++ "+00:00".toList) else value
  ((Datetime.fromisoformat iso).or (host.strptime value config.dateFormat)).bind fun dt ↦
    if config.normalizeTimezone = true then
      host.normalizeTimestamp dt
        (if sourceTimezone ≠ "" then sourceTimezone else config.timezone)
    else some dt

def timestampOf (cols : Columns) (tz : String) (row : Row) : Option T :=
  (row.get? cols.time).bind fun text ↦
    let value := strip text
    match host.float value with
    | none => parseTimestamp host config value tz
    | some x =>
      match host.fromTimestamp x with
      | .ok t => some t
      | .error .valueError => parseTimestamp host config value tz
      | .error .other => none

def detectTimeframe (timestamps : List (Option T)) : Except String String := do
  let valid := timestamps.filterMap id
  require (2 ≤ valid.length) "Cannot auto-detect timeframe from fewer than 2 timestamps"
  let deltas ← (valid.zip valid.tail).mapM fun (a, b) ↦
    found (host.totalSeconds a b) "can't subtract offset-naive and offset-aware datetimes"
  let positive := (deltas.filter fun d ↦ decide (0 < d)).insertionSort fun a b ↦ a ≤ b
  let median ← found positive[positive.length / 2]?
    "Cannot auto-detect timeframe: no positive intervals"
  let candidate := [Timeframe.m1, .m5, .m15, .m30, .h1, .h4, .d1, .w1, .mn1].find? fun tf ↦
    ((tf.toSeconds : Nat) : F) == median
  match candidate with
  | some tf => return Timeframe.value tf
  | none => .error ("Cannot auto-detect timeframe from median interval " ++
      host.showSeconds median ++ "s; pass timeframe explicitly")

/-! ## Rows -/

def rowFloat (row : Row) (col : String) : Except String F := do
  let text ← found (row.get? col) (host.keyError col)
  found (host.float text) (host.floatError text)

def rowSymbol (cols : Columns) (symbol : String) (row : Row) : String :=
  match cols.symbol with
  | none => symbol
  | some col =>
    let text := strip ((row.get? col).getD "")
    if text ≠ "" then text else symbol

def rowVolume (cols : Columns) (row : Row) : Except String F :=
  match cols.volume.bind row.get? with
  | none => .ok 0
  | some text => if text = "" then .ok 0 else found (host.float text) (host.floatError text)

def readCandle (cols : Columns) (symbol timeframe : String) (row : Row) (ts : T) :
    Except String (Candle F T) := do
  let symbol := rowSymbol cols symbol row
  let openPrice ← rowFloat host row cols.openCol
  let high ← rowFloat host row cols.high
  let low ← rowFloat host row cols.low
  let close ← rowFloat host row cols.close
  let volume ← rowVolume host cols row
  return {
    id := host.generateId
      ("Candle|" ++ symbol ++ "|" ++ timeframe ++ "|" ++ Datetime.isoformat ts)
    symbol := symbol
    timeframe := timeframe
    timestamp := ts
    openPrice := some openPrice
    high := some high
    low := some low
    close := some close
    volume := some volume
    quoteVolume := some 0
    tradesCount := 0
    spread := none
    tickVolume := none
    realVolume := none
    isComplete := true
    ontologyTags := [] }

/-! ## The loop -/

structure LoadState (F T : Type) where
  stats : Stats
  candles : List (Candle F T)
  seen : Finset String

/-- The handler of an error in a row. -/
def LoadState.fail (s : LoadState F T) (e : String) : Except String (LoadState F T) :=
  let stats := { s.stats with
    errorRows := s.stats.errorRows + 1
    errors := s.stats.errors ++ ["Row " ++ toString s.stats.totalRows ++ ": " ++ e] }
  if config.skipErrors = true then
    .ok { s with stats := { stats with skippedRows := stats.skippedRows + 1 } }
  else .error e

def readRow (cols : Columns) (symbol timeframe : String) (removeDuplicates : Bool)
    (s : LoadState F T) (entry : Row × Option T) : Except String (LoadState F T) :=
  let s := { s with stats := { s.stats with totalRows := s.stats.totalRows + 1 } }
  match entry.2 with
  | none => s.fail config "Invalid timestamp"
  | some ts =>
    let key := Datetime.isoformat ts
    if removeDuplicates = true ∧ key ∈ s.seen then .ok s
    else
      let s := { s with seen := insert key s.seen }
      match readCandle host cols symbol timeframe entry.1 ts with
      | .error e => s.fail config e
      | .ok candle => .ok { s with
          stats := { s.stats with loadedRows := s.stats.loadedRows + 1 }
          candles := s.candles ++ [candle] }

/-- The timezone of timestamps that say none. -/
def resolveTimezone (sourceTimezone : Option String) : String :=
  (sourceTimezone.filter fun tz ↦ decide (tz ≠ "")).getD config.timezone

/-- The rows with their timestamps, which are read first. -/
def entriesOf (cols : Columns) (sourceTimezone : Option String) (rows : List Row) :
    List (Row × Option T) :=
  rows.map fun row ↦ (row, timestampOf host config cols (resolveTimezone config sourceTimezone) row)

def resolveTimeframe (timeframe : Option String) (timestamps : List (Option T)) :
    Except String String :=
  match timeframe with
  | some timeframe => .ok timeframe
  | none => detectTimeframe host timestamps

def parseTradingviewRows (stats : Stats) (rows : List Row) (symbol : String)
    (timeframe sourceTimezone : Option String) (removeDuplicates : Bool) :
    Except String (Stats × List (Candle F T)) :=
  match rows with
  | [] => .ok (stats, [])
  | first :: _ => do
      let cols ← findColumns host first
      let entries := entriesOf host config cols sourceTimezone rows
      let timeframe ← resolveTimeframe host timeframe (entries.map Prod.snd)
      let s ← entries.foldlM (readRow host config cols symbol timeframe removeDuplicates)
        ⟨stats, [], ∅⟩
      return (s.stats, s.candles)

end Loader

/-! ## What a row adds -/

section

variable {F T : Type} [FloatOps F] [Datetime T] {host : Host F T} {config : LoaderConfig}
  {cols : Columns} {symbol timeframe : String} {entries : List (Row × Option T)}
  {s s' : LoadState F T} {entry : Row × Option T}

/-- The text by which a row is told apart. -/
def keyOf (entry : Row × Option T) : Option String := entry.2.map Datetime.isoformat

variable (host cols symbol timeframe) in
def validCandle (entry : Row × Option T) : Option (Candle F T) :=
  entry.2.bind fun ts ↦ (readCandle host cols symbol timeframe entry.1 ts).toOption

/-- The number of rows that are neither loaded nor skipped. -/
def Stats.uncounted (before after : Stats) : Int :=
  after.totalRows - before.totalRows - (after.loadedRows - before.loadedRows) -
    (after.skippedRows - before.skippedRows)

theorem timestamp_readCandle {row : Row} {ts : T} {candle : Candle F T}
    (h : readCandle host cols symbol timeframe row ts = .ok candle) : candle.timestamp = ts := by
  unfold readCandle at h
  simp only [bind_eq_ok] at h
  obtain ⟨_, -, _, -, _, -, _, -, _, -, hcandle⟩ := h
  obtain rfl := Except.ok.inj hcandle
  rfl

theorem key_validCandle {candle : Candle F T}
    (h : validCandle host cols symbol timeframe entry = some candle) :
    keyOf entry = some (Datetime.isoformat candle.timestamp) := by
  obtain ⟨ts, hts, hcandle⟩ := Option.bind_eq_some_iff.mp h
  cases hread : readCandle host cols symbol timeframe entry.1 ts with
  | error e =>
    rw [hread] at hcandle
    cases hcandle
  | ok c =>
    rw [hread] at hcandle
    obtain rfl := Option.some.inj hcandle
    rw [keyOf, hts, timestamp_readCandle hread]
    rfl

variable (host config cols symbol timeframe) in
theorem readRow_of_seen {ts : T} (hts : entry.2 = some ts)
    (hseen : Datetime.isoformat ts ∈ s.seen) :
    ∃ s', readRow host config cols symbol timeframe true s entry = .ok s' ∧
      s'.candles = s.candles ∧ s'.seen = s.seen ∧ s.stats.uncounted s'.stats = 1 := by
  unfold readRow
  rw [hts]
  simp only
  rw [if_pos ⟨trivial, hseen⟩]
  refine ⟨_, rfl, rfl, rfl, ?_⟩
  unfold Stats.uncounted
  push_cast
  omega

omit [FloatOps F] [Datetime T] in
theorem fail_eq_ok (hskip : config.skipErrors = true) (s : LoadState F T) (e : String) :
    ∃ s', s.fail config e = .ok s' ∧ s'.candles = s.candles ∧ s'.seen = s.seen ∧
      s'.stats.totalRows = s.stats.totalRows ∧ s'.stats.loadedRows = s.stats.loadedRows ∧
      s'.stats.skippedRows = s.stats.skippedRows + 1 := by
  unfold LoadState.fail
  rw [if_pos hskip]
  exact ⟨_, rfl, rfl, rfl, rfl, rfl, rfl⟩

variable (host cols symbol timeframe) in
theorem readRow_of_not_seen (hskip : config.skipErrors = true)
    (hseen : ∀ key ∈ keyOf entry, key ∉ s.seen) :
    ∃ s', readRow host config cols symbol timeframe true s entry = .ok s' ∧
      s'.candles = s.candles ++ (validCandle host cols symbol timeframe entry).toList ∧
      (∀ key, key ∈ s'.seen ↔ key ∈ s.seen ∨ keyOf entry = some key) ∧
      s.stats.uncounted s'.stats = 0 := by
  unfold readRow
  cases hts : entry.2 with
  | none =>
    obtain ⟨s', hfail, hcandles, hseen', htotal, hloaded, hskipped⟩ := fail_eq_ok hskip
      { s with stats := { s.stats with totalRows := s.stats.totalRows + 1 } } "Invalid timestamp"
    refine ⟨s', hfail, ?_, fun key ↦ ?_, ?_⟩
    · rw [hcandles, validCandle, hts]
      simp
    · rw [hseen', keyOf, hts]
      simp
    · unfold Stats.uncounted
      rw [htotal, hloaded, hskipped]
      push_cast
      omega
  | some ts =>
    have hkey : keyOf entry = some (Datetime.isoformat ts) := by rw [keyOf, hts]; rfl
    simp only
    rw [if_neg fun h ↦ hseen _ hkey h.2]
    cases hread : readCandle host cols symbol timeframe entry.1 ts with
    | error e =>
      obtain ⟨s', hfail, hcandles, hseen', htotal, hloaded, hskipped⟩ := fail_eq_ok hskip
        { s with
          stats := { s.stats with totalRows := s.stats.totalRows + 1 }
          seen := insert (Datetime.isoformat ts) s.seen } e
      refine ⟨s', hfail, ?_, fun key ↦ ?_, ?_⟩
      · rw [hcandles, validCandle, hts, Option.bind_some, hread]
        simp [Except.toOption]
      · rw [hseen', hkey, Finset.mem_insert, Option.some_inj, or_comm, @eq_comm _ key]
      · unfold Stats.uncounted
        rw [htotal, hloaded, hskipped]
        push_cast
        omega
    | ok candle =>
      refine ⟨_, rfl, ?_, fun key ↦ ?_, ?_⟩
      · rw [validCandle, hts, Option.bind_some, hread]
        rfl
      · rw [hkey, Finset.mem_insert, Option.some_inj, or_comm, @eq_comm _ key]
      · unfold Stats.uncounted
        push_cast
        omega

/-! ## The whole loop -/

/-- What the loop has done with a list of rows: nothing is lost as long as no timestamp was
repeated, and afterwards some row is not counted. -/
structure Loaded (before : Stats) (host : Host F T) (cols : Columns) (symbol timeframe : String)
    (entries : List (Row × Option T)) (s : LoadState F T) : Prop where
  seen : ∀ key, key ∈ s.seen ↔ some key ∈ entries.map keyOf
  candles : (entries.filterMap keyOf).Nodup →
    s.candles = entries.filterMap (validCandle host cols symbol timeframe)
  counted : before.uncounted s.stats = 0 ↔ (entries.filterMap keyOf).Nodup
  uncounted_nonneg : 0 ≤ before.uncounted s.stats

@[simp]
theorem Stats.uncounted_self (a : Stats) : a.uncounted a = 0 := by
  unfold Stats.uncounted
  omega

theorem Stats.uncounted_trans (a b c : Stats) :
    a.uncounted c = a.uncounted b + b.uncounted c := by
  unfold Stats.uncounted
  omega

theorem mem_keys {key : String} : key ∈ entries.filterMap keyOf ↔ some key ∈ entries.map keyOf := by
  rw [mem_filterMap, mem_map]

/-- **One more row.** -/
theorem Loaded.readRow (hskip : config.skipErrors = true) {before : Stats}
    (h : Loaded before host cols symbol timeframe entries s) (entry : Row × Option T) :
    ∃ s', readRow host config cols symbol timeframe true s entry = .ok s' ∧
      Loaded before host cols symbol timeframe (entries ++ [entry]) s' := by
  have hkeys : (entries ++ [entry]).filterMap keyOf =
      entries.filterMap keyOf ++ (keyOf entry).toList := by
    rw [filterMap_append]
    cases hkey : keyOf entry with
    | none => rw [filterMap_cons_none hkey]; rfl
    | some key => rw [filterMap_cons_some hkey]; rfl
  by_cases hseen : ∃ key ∈ keyOf entry, key ∈ s.seen
  · obtain ⟨key, hkey, hmem⟩ := hseen
    obtain ⟨ts, hts, rfl⟩ := Option.map_eq_some_iff.mp hkey
    obtain ⟨s', hread, hcandles, hseen', hone⟩ := readRow_of_seen host config cols symbol
      timeframe hts hmem
    have hrepeated : ¬ ((entries ++ [entry]).filterMap keyOf).Nodup := by
      rw [hkeys, Option.mem_def.mp hkey, Option.toList_some, nodup_append']
      rintro ⟨-, -, hdisjoint⟩
      exact hdisjoint (mem_keys.mpr ((h.seen _).mp hmem)) mem_cons_self
    refine ⟨s', hread, fun key ↦ ?_, fun hnodup ↦ absurd hnodup hrepeated, ?_, ?_⟩
    · rw [hseen', h.seen, map_append, mem_append]
      refine (or_iff_left_of_imp fun hlast ↦ ?_).symm
      rw [map_singleton, mem_singleton, Option.mem_def.mp hkey, Option.some_inj] at hlast
      exact (h.seen key).mp (hlast ▸ hmem)
    · rw [Stats.uncounted_trans before s.stats, hone]
      have := h.uncounted_nonneg
      exact iff_of_false (by omega) hrepeated
    · rw [Stats.uncounted_trans before s.stats, hone]
      have := h.uncounted_nonneg
      omega
  · have hnew : ∀ key ∈ keyOf entry, key ∉ s.seen := fun key hkey hmem ↦ hseen ⟨key, hkey, hmem⟩
    obtain ⟨s', hread, hcandles, hseen', hzero⟩ := readRow_of_not_seen host cols symbol
      timeframe hskip hnew
    have hnodup : ((entries ++ [entry]).filterMap keyOf).Nodup ↔
        (entries.filterMap keyOf).Nodup := by
      rw [hkeys, nodup_append']
      refine ⟨fun hall ↦ hall.1, fun hinit ↦ ⟨hinit, ?_, ?_⟩⟩
      · cases keyOf entry <;> simp
      · intro key hmem hlast
        exact hnew key (Option.mem_toList.mp hlast) ((h.seen key).mpr (mem_keys.mp hmem))
    refine ⟨s', hread, fun key ↦ ?_, fun hall ↦ ?_, ?_, ?_⟩
    · rw [hseen', h.seen, map_append, mem_append, map_singleton,
        mem_singleton, @eq_comm _ (keyOf entry)]
    · rw [hcandles, h.candles (hnodup.mp hall), filterMap_append]
      refine congrArg (_ ++ ·) ?_
      cases hvalid : validCandle host cols symbol timeframe entry with
      | none => rw [filterMap_cons_none hvalid]; rfl
      | some candle => rw [filterMap_cons_some hvalid]; rfl
    · rw [Stats.uncounted_trans before s.stats, hzero, add_zero, h.counted, hnodup]
    · rw [Stats.uncounted_trans before s.stats, hzero, add_zero]
      exact h.uncounted_nonneg

variable (host cols symbol timeframe) in
/-- **The run.** -/
theorem exists_loaded (hskip : config.skipErrors = true) (before : Stats)
    (entries : List (Row × Option T)) :
    ∃ s, entries.foldlM (readRow host config cols symbol timeframe true) ⟨before, [], ∅⟩ = .ok s ∧
      Loaded before host cols symbol timeframe entries s := by
  induction entries using reverseRecOn with
  | nil =>
    refine ⟨_, rfl, by simp, fun _ ↦ rfl, ?_, ?_⟩
    · exact iff_of_true before.uncounted_self nodup_nil
    · exact before.uncounted_self.ge
  | append_singleton entries entry ih =>
    obtain ⟨s, hs, hloaded⟩ := ih
    obtain ⟨s', hs', hloaded'⟩ := hloaded.readRow hskip entry
    refine ⟨s', ?_, hloaded'⟩
    rw [foldlM_append, hs]
    change (readRow host config cols symbol timeframe true s entry >>= pure) = _
    rw [hs']
    rfl

/-! ## No row is lost -/

def HasPair (symbol text : String) (candle : Candle F T) : Prop :=
  candle.symbol = symbol ∧ Datetime.isoformat candle.timestamp = text

instance decidableHasPair (symbol text : String) (candle : Candle F T) :
    Decidable (HasPair symbol text candle) :=
  inferInstanceAs (Decidable (_ ∧ _))

variable (host cols symbol timeframe entries) in
/-- Each pair with a valid row has one candle, of the first such row, and rows that are not
loaded are counted as skipped. -/
structure LosesNoRow (before after : Stats) (candles : List (Candle F T)) : Prop where
  once : ∀ s text, (candles.filter fun c ↦ decide (HasPair s text c)) =
    ((entries.filterMap (validCandle host cols symbol timeframe)).filter
      fun c ↦ decide (HasPair s text c)).take 1
  counted : before.uncounted after = 0

theorem texts_sublist : ((entries.filterMap (validCandle host cols symbol timeframe)).map
    fun c ↦ Datetime.isoformat c.timestamp).Sublist (entries.filterMap keyOf) := by
  induction entries with
  | nil => exact List.Sublist.slnil
  | cons entry entries ih =>
    cases hvalid : validCandle host cols symbol timeframe entry with
    | none =>
      rw [filterMap_cons_none hvalid]
      cases hkey : keyOf entry with
      | none => rwa [filterMap_cons_none hkey]
      | some key =>
        rw [filterMap_cons_some hkey]
        exact ih.cons key
    | some candle =>
      rw [filterMap_cons_some hvalid, filterMap_cons_some (key_validCandle hvalid),
        map_cons]
      exact ih.cons_cons _

theorem length_filter_hasPair (h : (entries.filterMap keyOf).Nodup) (s text : String) :
    ((entries.filterMap (validCandle host cols symbol timeframe)).filter
      fun c ↦ decide (HasPair s text c)).length ≤ 1 := by
  have hnodup : (((entries.filterMap (validCandle host cols symbol timeframe)).filter
      fun c ↦ decide (HasPair s text c)).map fun c ↦ Datetime.isoformat c.timestamp).Nodup :=
    (h.sublist texts_sublist).sublist (filter_sublist.map _)
  generalize hfilter : (entries.filterMap (validCandle host cols symbol timeframe)).filter
    (fun c ↦ decide (HasPair s text c)) = candles at hnodup
  have htext : ∀ c ∈ candles, Datetime.isoformat c.timestamp = text := fun c hc ↦ by
    rw [← hfilter] at hc
    exact (of_decide_eq_true (mem_filter.mp hc).2).2
  rcases candles with _ | ⟨a, _ | ⟨b, rest⟩⟩
  · exact Nat.zero_le 1
  · exact Nat.le_refl 1
  · rw [map_cons, nodup_cons, map_cons, htext a (by simp),
      htext b (by simp)] at hnodup
    exact absurd mem_cons_self hnodup.1

theorem losesNoRow_iff {before : Stats}
    (h : Loaded before host cols symbol timeframe entries s) :
    LosesNoRow host cols symbol timeframe entries before s.stats s.candles ↔
      (entries.filterMap keyOf).Nodup := by
  constructor
  · intro hall
    exact h.counted.mp hall.counted
  · intro hnodup
    refine ⟨fun symbol' text ↦ ?_, h.counted.mpr hnodup⟩
    rw [h.candles hnodup, take_of_length_le (length_filter_hasPair hnodup symbol' text)]

theorem parse_eq_ok (hskip : config.skipErrors = true) (stats : Stats) (rows : List Row)
    (symbol : String) (timeframe sourceTimezone : Option String) {tf : String}
    (hready : ∀ first ∈ rows.head?, findColumns host first = .ok cols ∧
      resolveTimeframe host timeframe
        ((entriesOf host config cols sourceTimezone rows).map Prod.snd) = .ok tf) :
    ∃ s, parseTradingviewRows host config stats rows symbol timeframe sourceTimezone true =
        .ok (s.stats, s.candles) ∧
      Loaded stats host cols symbol tf (entriesOf host config cols sourceTimezone rows) s := by
  obtain ⟨s, hs, hloaded⟩ := exists_loaded host cols symbol tf hskip stats
    (entriesOf host config cols sourceTimezone rows)
  refine ⟨s, ?_, hloaded⟩
  cases rows with
  | nil =>
    obtain rfl := Except.ok.inj hs
    rfl
  | cons first rest =>
    obtain ⟨hcols, htf⟩ := hready first rfl
    exact bind_eq_ok.mpr ⟨cols, hcols, bind_eq_ok.mpr ⟨tf, htf, bind_eq_ok.mpr ⟨s, hs, rfl⟩⟩⟩

/-- **No row is lost** if and only if no two rows have the same timestamp. -/
theorem loses_no_row_iff (hskip : config.skipErrors = true) (stats : Stats) (rows : List Row)
    (symbol : String) (timeframe sourceTimezone : Option String) {tf : String}
    (hready : ∀ first ∈ rows.head?, findColumns host first = .ok cols ∧
      resolveTimeframe host timeframe
        ((entriesOf host config cols sourceTimezone rows).map Prod.snd) = .ok tf) :
    ∃ after candles,
      parseTradingviewRows host config stats rows symbol timeframe sourceTimezone true =
        .ok (after, candles) ∧
      (LosesNoRow host cols symbol tf (entriesOf host config cols sourceTimezone rows) stats after
        candles ↔ ((entriesOf host config cols sourceTimezone rows).filterMap keyOf).Nodup) := by
  obtain ⟨s, hparse, hloaded⟩ := parse_eq_ok hskip stats rows symbol timeframe sourceTimezone hready
  exact ⟨s.stats, s.candles, hparse, losesNoRow_iff hloaded⟩

end

/-! ## Two symbols -/

section

/-- Times in UTC, with their ISO texts. -/
local instance utcDatetime : Datetime Utc where
  isoformat t := String.ofList (Python.Datetime.isoChars ⟨t, some 0⟩)
  fromisoformat text := (Python.Datetime.ofIsoExtended text).map Python.Datetime.clock
  isNaive _ := false
  replaceUtc t := t

/-- What the library makes of texts of digits. -/
def digitHost : Host ℚ Utc where
  lower := id
  float text := (Python.Datetime.digitsValue text.toList).map fun n ↦ (n : ℚ)
  fromTimestamp x :=
    match Utc.add ⟨0, Utc.epoch_ok⟩ (x.num * 1000000) with
    | .ok t => .ok t
    | .error _ => .error .valueError
  strptime _ _ := none
  normalizeTimestamp t _ := some t
  totalSeconds a b := some (((b.micros - a.micros : Int) : ℚ) / 1000000)
  generateId seed := seed
  floatError text := "could not convert string to float: '" ++ text ++ "'"
  keyError key := "'" ++ key ++ "'"
  showSeconds _ := "0"

def skipping : LoaderConfig := { skipErrors := true }

def exportRow (time symbol : String) : Row :=
  (((((∅ : Row).set "time" time).set "symbol" symbol).set "open" "1").set "high" "1").set "low" "1"
    |>.set "close" "1"

def exportColumns : Columns := ⟨"time", "open", "high", "low", "close", none, some "symbol"⟩

def emptyStats : Stats := ⟨0, 0, 0, 0, []⟩

def sameTimeRows : List Row := [exportRow "1704096000" "A", exportRow "1704096000" "B"]

theorem exportColumns_found :
    findColumns digitHost (exportRow "1704096000" "A") = .ok exportColumns := by decide +kernel

theorem sameTime_keys : (entriesOf digitHost skipping exportColumns none sameTimeRows).filterMap
    keyOf = ["2024-01-01T08:00:00+00:00", "2024-01-01T08:00:00+00:00"] := by decide +kernel

theorem exportRows_ready (time symbol : String) :
    ∀ first ∈ [exportRow "1704096000" "A", exportRow time symbol].head?,
      findColumns digitHost first = .ok exportColumns ∧
      resolveTimeframe digitHost (some "1h") ((entriesOf digitHost skipping exportColumns none
        [exportRow "1704096000" "A", exportRow time symbol]).map Prod.snd) = .ok "1h" := by
  intro first hfirst
  obtain rfl := Option.some.inj hfirst
  exact ⟨exportColumns_found, rfl⟩

theorem skipping_skips : skipping.skipErrors = true := rfl

/-- The second symbol has no candle. -/
theorem row_lost : ∃ after candles,
    parseTradingviewRows digitHost skipping emptyStats sameTimeRows "X" (some "1h") none true =
      .ok (after, candles) ∧
    ¬ LosesNoRow digitHost exportColumns "X" "1h"
      (entriesOf digitHost skipping exportColumns none sameTimeRows) emptyStats after candles := by
  obtain ⟨s, hparse, hloaded⟩ := parse_eq_ok skipping_skips emptyStats sameTimeRows "X"
    (some "1h") none (exportRows_ready _ _)
  refine ⟨s.stats, s.candles, hparse, fun h ↦ ?_⟩
  have hnodup := (losesNoRow_iff hloaded).mp h
  rw [sameTime_keys] at hnodup
  exact absurd hnodup (by decide)

/-- Two rows of different symbols, an hour apart. -/
def hourRows : List Row := [exportRow "1704096000" "A", exportRow "1704099600" "B"]

theorem hour_keys : (entriesOf digitHost skipping exportColumns none hourRows).filterMap
    keyOf = ["2024-01-01T08:00:00+00:00", "2024-01-01T09:00:00+00:00"] := by decide +kernel

theorem loses_no_row_hour : ∃ after candles,
    parseTradingviewRows digitHost skipping emptyStats hourRows "X" (some "1h") none true =
      .ok (after, candles) ∧
    LosesNoRow digitHost exportColumns "X" "1h"
      (entriesOf digitHost skipping exportColumns none hourRows) emptyStats after candles := by
  obtain ⟨after, candles, hparse, hiff⟩ := loses_no_row_iff skipping_skips emptyStats hourRows "X"
    (some "1h") none (exportRows_ready _ _)
  have hnodup : ((entriesOf digitHost skipping exportColumns none hourRows).filterMap
      keyOf).Nodup := by
    rw [hour_keys]
    decide
  exact ⟨after, candles, hparse, hiff.mpr hnodup⟩

end

end Qros.DataEngine.TradingView
