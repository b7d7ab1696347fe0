import Mathlib.Algebra.Order.Field.Basic
import Qros.Lib.Bisect
import Qros.Lib.Dict
import Qros.Lib.KeySort
import Qros.Python.Builtins
import Qros.Python.Datetime

/-!
# Forward outcomes

`market_memory/outcome_engine.py` gives a market event its outcomes at horizons of
whole days.  An outcome is read off the *path* of its horizon: the bars after the
event, up to the first at or past its target.

Prices lie in an ordered field, so returns are exact.
-/

namespace Qros.MarketMemory

open Qros.Lib Qros.Lib.KeySort Qros.Python List

/-! ## Events and bars -/

/-- A `tzinfo`: two are equal when their keys are, and `name` is what `str` gives. -/
structure TzInfo where
  key : Nat
  name : String
deriving DecidableEq

structure Timestamp where
  time : Datetime
  tzinfo : Option TzInfo

namespace Timestamp

/-- What the clock shows, by which times of one zone are compared. -/
def clock (t : Timestamp) : Int := t.time.clock.micros

/-- `t + timedelta(days=h)`, of which comparisons see the clock. -/
def afterDays (t : Timestamp) (h : Int) : Except String Int :=
  if h ≤ 999999999 then (t.time.clock.add (h * 86400000000)).map Utc.micros
  else .error ("days=" ++ toString h ++ "; must have magnitude <= 999999999")

def isoformat (t : Timestamp) : String := String.ofList t.time.isoChars

end Timestamp

structure PriceBar (F : Type) where
  timestamp : Timestamp
  «open» : F
  high : F
  low : F
  close : F

/-- The fields that are filled in; the outcomes within a day keep their defaults. -/
structure EventOutcome (F : Type) where
  eventId : String
  asset : String
  timeframe : String
  eventTimestamp : Timestamp
  return1d : Option F
  return2d : Option F
  return3d : Option F
  return5d : Option F
  return10d : Option F
  return20d : Option F
  direction1d : Option String
  direction2d : Option String
  direction3d : Option String
  direction5d : Option String
  direction10d : Option String
  direction20d : Option String
  mfe1d : Option F
  mae1d : Option F
  mfe5d : Option F
  mae5d : Option F
  mfe20d : Option F
  mae20d : Option F
  hitThreshold1d : Option Bool
  hitThreshold5d : Option Bool
  hitThreshold20d : Option Bool
  outcomeCalculationMethod : String
  dataAvailability : Dict String String

structure MarketEvent (F C : Type) where
  eventId : String
  asset : String
  timeframe : String
  eventType : String
  direction : String
  timestamp : Timestamp
  eventPrice : F
  context : C
  outcome : Option (EventOutcome F)
  datasetSource : String
  computationMethod : String
  seed : Int
  /-- `__post_init__`. -/
  given : eventId ≠ "" ∧ asset ≠ "" ∧ timeframe ≠ "" ∧ eventType ≠ "" ∧ direction ≠ ""

def lower (s : String) : String := s.map Char.toLower

def timeframeMinutes (timeframe : String) : Except String Nat :=
  let aliases : List (String × Nat) :=
    [("m1", 1), ("1m", 1), ("m5", 5), ("5m", 5), ("m15", 15), ("15m", 15),
      ("m30", 30), ("30m", 30), ("h1", 60), ("1h", 60), ("h4", 240), ("4h", 240),
      ("d1", 1440), ("1d", 1440), ("w1", 10080), ("1w", 10080)]
  found (aliases.lookup (lower (strip timeframe)))
    ("Unsupported timeframe for forward outcome calculation: " ++ timeframe)

def bullish : List String := ["bullish", "long", "up"]

def bearish : List String := ["bearish", "short", "down"]

def unsupportedDirection (direction : String) : String :=
  "Unsupported event direction for outcome calculation: " ++ direction

section Model

variable {F C : Type} [Field F] [LinearOrder F]

def directionalReturn (event : MarketEvent F C) (rawReturn : F) : Except String F :=
  if lower (strip event.direction) ∈ bullish then .ok rawReturn
  else if lower (strip event.direction) ∈ bearish then .ok (-rawReturn)
  else .error (unsupportedDirection event.direction)

/-! ## One horizon -/

/-- What a horizon that the bars reach gives. -/
structure HorizonOutcome (F : Type) where
  realizedEnd : String
  ret : F
  direction : String
  mfe : F
  mae : F
  hit : Bool

/-- `max` or `min` of a slice, with `op` between two values. -/
def extreme (op : F → F → F) : List F → Except String F
  | [] => .error "iterable argument is empty"
  | x :: xs => .ok (xs.foldl op x)

def bisectLeft (frame : List (PriceBar F)) (target : Int) (lo : Nat) : Nat :=
  bisectFrom (fun b : PriceBar F ↦ b.timestamp.clock) frame target lo

/-- The excursions of an event between the extremes of its window. -/
def excursions (event : MarketEvent F C) (windowHigh windowLow : F) : F × F :=
  if lower (strip event.direction) ∈ bullish then
    ((windowHigh - event.eventPrice) / event.eventPrice,
      (windowLow - event.eventPrice) / event.eventPrice)
  else
    ((event.eventPrice - windowLow) / event.eventPrice,
      (event.eventPrice - windowHigh) / event.eventPrice)

/-- The round of the loop for a horizon whose target the bar `last` reaches. -/
def availableOutcome (event : MarketEvent F C) (threshold : F) (window : List (PriceBar F))
    (last : PriceBar F) : Except String (HorizonOutcome F) := do
  let windowHigh ← extreme max (window.map PriceBar.high)
  let windowLow ← extreme min (window.map PriceBar.low)
  let ret := (last.close - event.eventPrice) / event.eventPrice
  let directionalRet ← directionalReturn event ret
  let excursion := excursions event windowHigh windowLow
  return {
    realizedEnd := last.timestamp.isoformat
    ret := ret
    direction := if 0 < ret then "up" else if ret < 0 then "down" else "flat"
    mfe := excursion.1
    mae := excursion.2
    hit := decide (threshold < directionalRet) }

def horizonOutcome (event : MarketEvent F C) (frame : List (PriceBar F)) (threshold : F)
    (idx : Nat) (h : Int) : Except String (Option (HorizonOutcome F)) := do
  let target ← event.timestamp.afterDays h
  let futureIdx := bisectLeft frame target (idx + 1)
  match frame[futureIdx]? with
  | none => return none
  | some last =>
    let window := (frame.take (futureIdx + 1)).drop (idx + 1)
    return some (← availableOutcome event threshold window last)

/-! ## All horizons -/

/-- A name such as `return_5d`. -/
def fieldName (name : String) (h : Int) : String := name ++ (toString h ++ "d")

/-- What the loop over the horizons collects, by the names of the fields. -/
structure Tables (F : Type) where
  returns : Dict String (Option F) := ∅
  directions : Dict String (Option String) := ∅
  mfe : Dict String (Option F) := ∅
  mae : Dict String (Option F) := ∅
  hits : Dict String (Option Bool) := ∅
  realizedEnds : Dict String String := ∅

def Tables.record (t : Tables F) (h : Int) : Option (HorizonOutcome F) → Tables F
  | none =>
    { returns := t.returns.set (fieldName "return_" h) none
      directions := t.directions.set (fieldName "direction_" h) none
      mfe := t.mfe.set (fieldName "mfe_" h) none
      mae := t.mae.set (fieldName "mae_" h) none
      hits := t.hits.set (fieldName "hit_" h) none
      realizedEnds := t.realizedEnds }
  | some o =>
    { returns := t.returns.set (fieldName "return_" h) (some o.ret)
      directions := t.directions.set (fieldName "direction_" h) (some o.direction)
      mfe := t.mfe.set (fieldName "mfe_" h) (some o.mfe)
      mae := t.mae.set (fieldName "mae_" h) (some o.mae)
      hits := t.hits.set (fieldName "hit_" h) (some o.hit)
      realizedEnds := t.realizedEnds.set (fieldName "realized_end_" h) o.realizedEnd }

/-- The loop over the horizons. -/
def horizonTables (event : MarketEvent F C) (frame : List (PriceBar F)) (threshold : F)
    (idx : Nat) (horizons : List Int) : Except String (Tables F) :=
  horizons.foldlM
    (fun t h ↦ do return t.record h (← horizonOutcome event frame threshold idx h)) {}

/-- `d.get(name)` of a dictionary with values that may be `None`. -/
def get {α : Type} (d : Dict String (Option α)) (name : String) : Option α := (d.get? name).join

def dataAvailability (horizons : List Int) (t : Tables F) : Dict String String :=
  let returned := horizons.foldl (fun d h ↦ d.set (fieldName "return_" h)
    (if (get t.returns (fieldName "return_" h)).isSome then "available" else "unavailable")) ∅
  t.realizedEnds.entries.foldl (fun d e ↦ d.set e.1 e.2) returned

def eventOutcome (event : MarketEvent F C) (horizons : List Int) (t : Tables F) :
    EventOutcome F where
  eventId := event.eventId
  asset := event.asset
  timeframe := event.timeframe
  eventTimestamp := event.timestamp
  return1d := get t.returns "return_1d"
  return2d := get t.returns "return_2d"
  return3d := get t.returns "return_3d"
  return5d := get t.returns "return_5d"
  return10d := get t.returns "return_10d"
  return20d := get t.returns "return_20d"
  direction1d := get t.directions "direction_1d"
  direction2d := get t.directions "direction_2d"
  direction3d := get t.directions "direction_3d"
  direction5d := get t.directions "direction_5d"
  direction10d := get t.directions "direction_10d"
  direction20d := get t.directions "direction_20d"
  mfe1d := get t.mfe "mfe_1d"
  mae1d := get t.mae "mae_1d"
  mfe5d := get t.mfe "mfe_5d"
  mae5d := get t.mae "mae_5d"
  mfe20d := get t.mfe "mfe_20d"
  mae20d := get t.mae "mae_20d"
  hitThreshold1d := get t.hits "hit_1d"
  hitThreshold5d := get t.hits "hit_5d"
  hitThreshold20d := get t.hits "hit_20d"
  outcomeCalculationMethod :=
    "direction_aware_forward_return_from_actual_future_observation_timestamp"
  dataAvailability := dataAvailability horizons t

/-! ## All events -/

def sameTimezone (eventTz timezone : Option TzInfo) : Bool :=
  decide (eventTz = timezone) || match eventTz, timezone with
    | some a, some b => a.name == "UTC" && b.name == "UTC"
    | _, _ => false

/-- The rows by the instants of their timestamps, as `price_df.sort("timestamp")` gives them. -/
def sortedFrame (priceDf : List (PriceBar F)) : List (PriceBar F) :=
  stableSortBy (fun b ↦ b.timestamp.time.instant) priceDf

def checkHorizons (horizons : List Int) : Except String Unit := do
  require (horizons ≠ [] ∧ ∀ h ∈ horizons, 1 ≤ h)
    "horizons must be a non-empty list of positive integers"
  require horizons.Nodup "horizons must not contain duplicates"

def checkTimestamps (frame : List (PriceBar F)) (timezone : Option TzInfo) :
    Except String Unit := do
  require (frame.IsChain fun b b' ↦ b.timestamp.clock < b'.timestamp.clock)
    "price timestamps must be unique and strictly increasing"
  require (∀ b ∈ frame, b.timestamp.tzinfo = timezone)
    "price timestamps must use a consistent timezone"

def checkEvent (timezone : Option TzInfo) (event : MarketEvent F C) : Except String Unit := do
  require (sameTimezone event.timestamp.tzinfo timezone = true)
    "event and price timestamps must use the same timezone"
  require (lower (strip event.direction) ∈ bullish ∨ lower (strip event.direction) ∈ bearish)
    (unsupportedDirection event.direction)
  require (0 < event.eventPrice)
    "event price must be finite and non-zero, and strictly positive for percentage returns"

def checkColumn (frame : List (PriceBar F)) (column : String × (PriceBar F → F)) :
    Except String Unit :=
  require (∀ b ∈ frame, 0 < column.2 b) (column.1 ++ " prices must all be strictly positive")

def checkCandle (row : PriceBar F × Nat) : Except String Unit := do
  let candle := "OHLC candle at index " ++ toString row.2
  require (max (max row.1.open row.1.low) row.1.close ≤ row.1.high)
    (candle ++ " has a high below open, low, or close")
  require (row.1.low ≤ min (min row.1.open row.1.high) row.1.close)
    (candle ++ " has a low above open, high, or close")

def eventTables (frame : List (PriceBar F)) (threshold : F) (horizons : List Int)
    (event : MarketEvent F C) : Except String (Tables F) := do
  let idx ← found (frame.findIdx? fun b ↦ b.timestamp.clock == event.timestamp.clock)
    ("event timestamp " ++ event.timestamp.isoformat ++ " is not present in price data; " ++
      "cannot calculate forward outcomes")
  let _ ← timeframeMinutes event.timeframe
  horizonTables event frame threshold idx horizons

def updatedEvent (frame : List (PriceBar F)) (threshold : F) (horizons : List Int)
    (event : MarketEvent F C) : Except String (MarketEvent F C) := do
  let t ← eventTables frame threshold horizons event
  return { event with outcome := some (eventOutcome event horizons t) }

/-- The checks of the bars and of the events against them. -/
def checkFrame (events : List (MarketEvent F C)) (frame : List (PriceBar F)) :
    Except String Unit := do
  let timezone := frame.head?.bind fun b ↦ b.timestamp.tzinfo
  checkTimestamps frame timezone
  events.forM (checkEvent timezone)
  [("open", PriceBar.open), ("high", PriceBar.high), ("low", PriceBar.low),
    ("close", PriceBar.close)].forM (checkColumn frame)
  frame.zipIdx.forM checkCandle

def horizonsOf (horizons : Option (List Int)) : List Int := horizons.getD [1, 2, 3, 5, 10, 20]

def computeForwardOutcomes (events : List (MarketEvent F C)) (priceDf : List (PriceBar F))
    (horizons : Option (List Int)) (threshold : F) : Except String (List (MarketEvent F C)) := do
  checkHorizons (horizonsOf horizons)
  require (0 ≤ threshold) "threshold must be finite and non-negative"
  if priceDf = [] then
    require (events = []) "price_df must contain observations when events are supplied"
    return []
  else
    let frame := sortedFrame priceDf
    checkFrame events frame
    events.mapM (updatedEvent frame threshold (horizonsOf horizons))

end Model

/-! ## Names of fields -/

theorem fieldName_inj {name : String} {h h' : Int} (hpos : 1 ≤ h) (hpos' : 1 ≤ h')
    (heq : fieldName name h = fieldName name h') : h = h' := by
  obtain ⟨n, rfl⟩ := Int.eq_ofNat_of_zero_le (by omega : 0 ≤ h)
  obtain ⟨n', rfl⟩ := Int.eq_ofNat_of_zero_le (by omega : 0 ≤ h')
  have hlist := congrArg String.toList heq
  rw [fieldName, fieldName, String.toList_append, String.toList_append, String.toList_append,
    String.toList_append] at hlist
  have hdigits : (toString (n : Int)).toList = (toString (n' : Int)).toList :=
    append_cancel_right (append_cancel_left hlist)
  change (Nat.repr n).toList = (Nat.repr n').toList at hdigits
  rw [Nat.repr, Nat.repr, String.toList_ofList, String.toList_ofList] at hdigits
  have hvalue := congrArg (Nat.ofDigitChars 10 · 0) hdigits
  simp only [Nat.ofDigitChars_ten_toDigits] at hvalue
  rw [hvalue]

theorem return_ne_realizedEnd (h h' : Int) :
    fieldName "return_" h ≠ fieldName "realized_end_" h' := by
  intro heq
  have hlist := congrArg String.toList heq
  rw [fieldName, fieldName, String.toList_append, String.toList_append] at hlist
  have hthird := congrArg (fun cs : List Char ↦ cs[2]?) hlist
  simp at hthird

/-! ## What the tables say of a horizon -/

section

variable {F : Type}

structure HorizonView (F : Type) where
  ret : Option F
  direction : Option String
  mfe : Option F
  mae : Option F
  hit : Option Bool
  realizedEnd : Option String

def HorizonView.of (o : Option (HorizonOutcome F)) : HorizonView F where
  ret := o.map HorizonOutcome.ret
  direction := o.map HorizonOutcome.direction
  mfe := o.map HorizonOutcome.mfe
  mae := o.map HorizonOutcome.mae
  hit := o.map HorizonOutcome.hit
  realizedEnd := o.map HorizonOutcome.realizedEnd

def Tables.view (t : Tables F) (h : Int) : HorizonView F where
  ret := get t.returns (fieldName "return_" h)
  direction := get t.directions (fieldName "direction_" h)
  mfe := get t.mfe (fieldName "mfe_" h)
  mae := get t.mae (fieldName "mae_" h)
  hit := get t.hits (fieldName "hit_" h)
  realizedEnd := t.realizedEnds.get? (fieldName "realized_end_" h)

theorem get_set_self {α : Type} (d : Dict String (Option α)) (k : String) (a : Option α) :
    get (d.set k a) k = a := by
  rw [get, Dict.get?_set_self, Option.join_some]

theorem get_set_of_ne {α : Type} (d : Dict String (Option α)) {k l : String} (a : Option α)
    (h : k ≠ l) : get (d.set k a) l = get d l := by
  rw [get, Dict.get?_set_of_ne d a h, get]

theorem Tables.view_record_self {t : Tables F} {h : Int} (o : Option (HorizonOutcome F))
    (hnew : (t.view h).realizedEnd = none) : (t.record h o).view h = .of o := by
  cases o with
  | none => simp only [view, record, get_set_self, HorizonView.of, Option.map_none] at hnew ⊢
            rw [hnew]
  | some o => simp only [view, record, get_set_self, Dict.get?_set_self, HorizonView.of,
      Option.map_some]

theorem Tables.view_record_of_ne {t : Tables F} {h h' : Int} (o : Option (HorizonOutcome F))
    (hpos : 1 ≤ h) (hpos' : 1 ≤ h') (hne : h' ≠ h) : (t.record h' o).view h = t.view h := by
  have hname (name : String) : fieldName name h' ≠ fieldName name h :=
    fun heq ↦ hne (fieldName_inj hpos' hpos heq)
  cases o with
  | none => simp only [view, record, get_set_of_ne _ _ (hname _)]
  | some o => simp only [view, record, get_set_of_ne _ _ (hname _),
      Dict.get?_set_of_ne _ _ (hname _)]

theorem view_of_foldlM {f : Int → Except String (Option (HorizonOutcome F))} {hs : List Int}
    (hnd : hs.Nodup) (hpos : ∀ h ∈ hs, 1 ≤ h) {t t' : Tables F}
    (hnew : ∀ h ∈ hs, (t.view h).realizedEnd = none)
    (hrun : hs.foldlM (fun t h ↦ do return t.record h (← f h)) t = .ok t') :
    (∀ h ∈ hs, ∃ o, f h = .ok o ∧ t'.view h = .of o) ∧
      ∀ h, 1 ≤ h → h ∉ hs → t'.view h = t.view h := by
  induction hs generalizing t with
  | nil =>
    obtain rfl := Except.ok.inj hrun
    exact ⟨fun h hh ↦ absurd hh not_mem_nil, fun _ _ _ ↦ rfl⟩
  | cons k hs ih =>
    obtain ⟨hk, hnd⟩ := nodup_cons.mp hnd
    obtain ⟨hkpos, hpos⟩ := forall_mem_cons.mp hpos
    obtain ⟨hknew, hnew⟩ := forall_mem_cons.mp hnew
    rw [foldlM_cons] at hrun
    obtain ⟨t₁, hfirst, hrun⟩ := bind_eq_ok.mp hrun
    obtain ⟨o, ho, hrecord⟩ := bind_eq_ok.mp hfirst
    obtain rfl := Except.ok.inj hrecord
    have hother : ∀ h, 1 ≤ h → h ≠ k → (t.record k o).view h = t.view h :=
      fun h hh hne ↦ Tables.view_record_of_ne o hh hkpos (Ne.symm hne)
    have hnew' : ∀ h ∈ hs, ((t.record k o).view h).realizedEnd = none := by
      intro h hh
      rw [hother h (hpos h hh) fun heq ↦ hk (heq ▸ hh)]
      exact hnew h hh
    obtain ⟨hmem, hout⟩ := ih hnd hpos hnew' hrun
    refine ⟨fun h hh ↦ ?_, fun h hh hnot ↦ ?_⟩
    · rcases mem_cons.mp hh with rfl | hh
      · exact ⟨o, ho, (hout h hkpos hk).trans (Tables.view_record_self o hknew)⟩
      · exact hmem h hh
    · rw [mem_cons, not_or] at hnot
      exact (hout h hh hnot.2).trans (hother h hh hnot.1)

theorem realizedEnd_name {f : Int → Except String (Option (HorizonOutcome F))} {hs : List Int}
    {t t' : Tables F} (hrun : hs.foldlM (fun t h ↦ do return t.record h (← f h)) t = .ok t')
    (ht : ∀ k, t.realizedEnds.get? k ≠ none → ∃ h, k = fieldName "realized_end_" h) :
    ∀ k, t'.realizedEnds.get? k ≠ none → ∃ h, k = fieldName "realized_end_" h := by
  induction hs generalizing t with
  | nil =>
    obtain rfl := Except.ok.inj hrun
    exact ht
  | cons h hs ih =>
    rw [foldlM_cons] at hrun
    obtain ⟨t₁, hfirst, hrun⟩ := bind_eq_ok.mp hrun
    obtain ⟨o, -, hrecord⟩ := bind_eq_ok.mp hfirst
    obtain rfl := Except.ok.inj hrecord
    refine ih hrun fun k hk ↦ ?_
    cases o with
    | none => exact ht k hk
    | some o =>
      change (t.realizedEnds.set _ _).get? k ≠ none at hk
      rw [Dict.get?_set] at hk
      split at hk
      · exact ⟨h, Eq.symm ‹_›⟩
      · exact ht k hk

end

/-! ## What an outcome says of a horizon -/

section

variable {F C : Type}

structure HorizonFields (F : Type) extends HorizonView F where
  availability : Option String

def EventOutcome.fields (o : EventOutcome F) (h : Int) : HorizonFields F where
  ret := match h with
    | 1 => o.return1d
    | 2 => o.return2d
    | 3 => o.return3d
    | 5 => o.return5d
    | 10 => o.return10d
    | 20 => o.return20d
    | _ => none
  direction := match h with
    | 1 => o.direction1d
    | 2 => o.direction2d
    | 3 => o.direction3d
    | 5 => o.direction5d
    | 10 => o.direction10d
    | 20 => o.direction20d
    | _ => none
  mfe := match h with
    | 1 => o.mfe1d
    | 5 => o.mfe5d
    | 20 => o.mfe20d
    | _ => none
  mae := match h with
    | 1 => o.mae1d
    | 5 => o.mae5d
    | 20 => o.mae20d
    | _ => none
  hit := match h with
    | 1 => o.hitThreshold1d
    | 5 => o.hitThreshold5d
    | 20 => o.hitThreshold20d
    | _ => none
  realizedEnd := o.dataAvailability.get? (fieldName "realized_end_" h)
  availability := o.dataAvailability.get? (fieldName "return_" h)

def HorizonView.kept (v : HorizonView F) (h : Int) : HorizonFields F where
  ret := if h ∈ [1, 2, 3, 5, 10, 20] then v.ret else none
  direction := if h ∈ [1, 2, 3, 5, 10, 20] then v.direction else none
  mfe := if h ∈ [1, 5, 20] then v.mfe else none
  mae := if h ∈ [1, 5, 20] then v.mae else none
  hit := if h ∈ [1, 5, 20] then v.hit else none
  realizedEnd := v.realizedEnd
  availability := some (if v.ret.isSome then "available" else "unavailable")

theorem daily_eq {α : Type} (f : Int → Option α) (h : Int) :
    (match h with
      | 1 => f 1
      | 2 => f 2
      | 3 => f 3
      | 5 => f 5
      | 10 => f 10
      | 20 => f 20
      | _ => none) = if h ∈ [1, 2, 3, 5, 10, 20] then f h else none := by
  split
  any_goals rfl
  rw [if_neg]
  simp_all

theorem excursion_eq {α : Type} (f : Int → Option α) (h : Int) :
    (match h with
      | 1 => f 1
      | 5 => f 5
      | 20 => f 20
      | _ => none) = if h ∈ [1, 5, 20] then f h else none := by
  split
  any_goals rfl
  rw [if_neg]
  simp_all

theorem get?_foldl_set (es : List (String × String)) (hnd : (es.map Prod.fst).Nodup)
    (d : Dict String String) (k : String) :
    (es.foldl (fun d e ↦ d.set e.1 e.2) d).get? k = (Dict.find k es).or (d.get? k) := by
  have h := Dict.get?_foldl_update (f := fun _ b ↦ some b) hnd d k
  simpa only [Option.elim_some, Option.bind_fun_some] using h

theorem get?_returned (f : Int → String) {hs : List Int} (hpos : ∀ h ∈ hs, 1 ≤ h)
    (d : Dict String String) {h : Int} (hh : 1 ≤ h) :
    (hs.foldl (fun d h ↦ d.set (fieldName "return_" h) (f h)) d).get? (fieldName "return_" h) =
      if h ∈ hs then some (f h) else d.get? (fieldName "return_" h) := by
  induction hs generalizing d with
  | nil => rfl
  | cons k hs ih =>
    obtain ⟨hk, hpos⟩ := forall_mem_cons.mp hpos
    rw [foldl_cons, ih hpos]
    by_cases hmem : h ∈ hs
    · rw [if_pos hmem, if_pos (mem_cons_of_mem _ hmem)]
    · rw [if_neg hmem, Dict.get?_set]
      by_cases hkh : k = h
      · rw [if_pos (congrArg _ hkh), hkh, if_pos mem_cons_self]
      · rw [if_neg fun heq ↦ hkh (fieldName_inj hk hh heq), if_neg]
        rw [mem_cons, not_or]
        exact ⟨Ne.symm hkh, hmem⟩

theorem get?_returned_of_ne (f : Int → String) {k : String}
    (hk : ∀ h, fieldName "return_" h ≠ k) (hs : List Int) (d : Dict String String) :
    (hs.foldl (fun d h ↦ d.set (fieldName "return_" h) (f h)) d).get? k = d.get? k := by
  induction hs generalizing d with
  | nil => rfl
  | cons h hs ih => rw [foldl_cons, ih, Dict.get?_set_of_ne _ _ (hk h)]

theorem fields_eventOutcome (event : MarketEvent F C) {hs : List Int} (hpos : ∀ h ∈ hs, 1 ≤ h)
    {t : Tables F}
    (hnames : ∀ k, t.realizedEnds.get? k ≠ none → ∃ h, k = fieldName "realized_end_" h)
    {h : Int} (hh : h ∈ hs) :
    (eventOutcome event hs t).fields h = (t.view h).kept h := by
  have havailability : (dataAvailability hs t).get? (fieldName "return_" h) =
      some (if (t.view h).ret.isSome then "available" else "unavailable") := by
    have hnone : Dict.find (fieldName "return_" h) t.realizedEnds.entries = none := by
      by_contra hsome
      obtain ⟨h', heq⟩ := hnames _ hsome
      exact return_ne_realizedEnd _ _ heq
    rw [dataAvailability, get?_foldl_set _ t.realizedEnds.nodup, hnone, Option.none_or,
      get?_returned _ hpos _ (hpos h hh), if_pos hh]
    rfl
  have hend : (dataAvailability hs t).get? (fieldName "realized_end_" h) =
      (t.view h).realizedEnd := by
    rw [dataAvailability, get?_foldl_set _ t.realizedEnds.nodup,
      get?_returned_of_ne _ (fun h' ↦ return_ne_realizedEnd h' h), Dict.get?_empty, Option.or_none]
    rfl
  unfold EventOutcome.fields HorizonView.kept
  rw [show (eventOutcome event hs t).dataAvailability = dataAvailability hs t from rfl,
    havailability, hend]
  congr 1
  congr 1
  · exact daily_eq (fun h ↦ (t.view h).ret) h
  · exact daily_eq (fun h ↦ (t.view h).direction) h
  · exact excursion_eq (fun h ↦ (t.view h).mfe) h
  · exact excursion_eq (fun h ↦ (t.view h).mae) h
  · exact excursion_eq (fun h ↦ (t.view h).hit) h

end

/-! ## The path of a horizon -/

section

variable {F C : Type} [Field F] [LinearOrder F]

def barsAfter (event : MarketEvent F C) (priceDf : List (PriceBar F)) : List (PriceBar F) :=
  (sortedFrame priceDf).filter fun b ↦ decide (event.timestamp.clock < b.timestamp.clock)

/-- The bars after an event up to the first at or past `h` days, if there is one. -/
def path (event : MarketEvent F C) (priceDf : List (PriceBar F)) (h : Int) :
    Option (List (PriceBar F)) :=
  upTo (fun b ↦ decide (event.timestamp.clock + h * 86400000000 ≤ b.timestamp.clock))
    (barsAfter event priceDf)

def pathOutcome (event : MarketEvent F C) (threshold : F) :
    Option (List (PriceBar F)) → Except String (Option (HorizonOutcome F))
  | none => .ok none
  | some bars =>
    match bars.getLast? with
    | none => .ok none
    | some last => (availableOutcome event threshold bars last).map some

theorem clock_of_afterDays {t : Timestamp} {h target : Int} (heq : t.afterDays h = .ok target) :
    target = t.clock + h * 86400000000 := by
  unfold Timestamp.afterDays at heq
  split at heq
  · obtain ⟨u, hu, rfl⟩ := map_eq_ok.mp heq
    exact Utc.add_eq_ok.mp hu
  · cases heq

variable {event : MarketEvent F C} {priceDf frame : List (PriceBar F)} {threshold : F}

variable {h : Int}

/-- **A horizon is read off its path.** -/
theorem horizonOutcome_eq {idx : Nat} {o : Option (HorizonOutcome F)}
    (hsorted : frame.Pairwise fun b b' ↦ b.timestamp.clock < b'.timestamp.clock)
    (hidx : idx < frame.length) (hat : frame[idx].timestamp.clock = event.timestamp.clock)
    (hh : 1 ≤ h) (ho : horizonOutcome event frame threshold idx h = .ok o) :
    pathOutcome event threshold
      (upTo (fun b ↦ decide (event.timestamp.clock + h * 86400000000 ≤ b.timestamp.clock))
        (frame.filter fun b ↦ decide (event.timestamp.clock < b.timestamp.clock))) = .ok o := by
  unfold horizonOutcome at ho
  obtain ⟨target, htarget, ho⟩ := bind_eq_ok.mp ho
  obtain rfl := clock_of_afterDays htarget
  have hbelow : ∀ i (hi : i < frame.length), i < idx + 1 →
      frame[i].timestamp.clock < event.timestamp.clock + h * 86400000000 := by
    intro i hi hlt
    have hle : frame[i].timestamp.clock ≤ event.timestamp.clock := by
      rw [← hat]
      rcases Nat.eq_or_lt_of_le (Nat.le_of_lt_succ hlt) with rfl | hlt
      · exact le_refl _
      · exact (pairwise_iff_getElem.mp hsorted i idx hi hidx hlt).le
    omega
  rw [filter_lt_eq_drop hsorted hidx hat,
    upTo_drop_eq hsorted hidx hbelow]
  change (match frame[bisectFrom _ frame _ (idx + 1)]? with
    | none => _
    | some last => _) = _ at ho
  split at ho
  · rename_i hnone
    rw [hnone]
    exact ho
  · rename_i last hsome
    rw [hsome]
    obtain ⟨outcome, houtcome, hsome'⟩ := bind_eq_ok.mp ho
    obtain rfl := Except.ok.inj hsome'
    obtain ⟨hlt, -⟩ := List.getElem?_eq_some_iff.mp hsome
    have hle := le_bisectFrom hsorted hidx hbelow hlt
    rw [Option.map_some, pathOutcome, getLast?_drop_take hle hsome]
    exact map_eq_ok.mpr ⟨outcome, houtcome, rfl⟩

/-! ## Order of an outcome -/

omit [Field F] [LinearOrder F] in
theorem extreme_rel {op : F → F → F} {r : F → F → Prop} (hrefl : ∀ x, r x x)
    (htrans : ∀ x y z, r x y → r y z → r x z) (hleft : ∀ x y, r x (op x y))
    (hright : ∀ x y, r y (op x y)) {xs : List F} {m : F} (hm : extreme op xs = .ok m) :
    ∀ x ∈ xs, r x m := by
  have hfold (ys : List F) (y : F) : r y (ys.foldl op y) ∧ ∀ x ∈ ys, r x (ys.foldl op y) := by
    induction ys generalizing y with
    | nil => exact ⟨hrefl y, fun x hx ↦ absurd hx not_mem_nil⟩
    | cons z ys ih =>
      obtain ⟨hstart, hrest⟩ := ih (op y z)
      refine ⟨htrans _ _ _ (hleft y z) hstart, forall_mem_cons.mpr ⟨?_, hrest⟩⟩
      exact htrans _ _ _ (hright y z) hstart
  cases xs with
  | nil => cases hm
  | cons y ys =>
    obtain rfl := Except.ok.inj hm
    exact forall_mem_cons.mpr (hfold ys y)

omit [Field F] in
theorem window_bounds {bars : List (PriceBar F)} {last : PriceBar F} {high low : F}
    (hbars : ∀ b ∈ bars, b.low ≤ b.close ∧ b.close ≤ b.high) (hlast : last ∈ bars)
    (hhigh : extreme max (bars.map PriceBar.high) = .ok high)
    (hlow : extreme min (bars.map PriceBar.low) = .ok low) :
    low ≤ last.close ∧ last.close ≤ high := by
  have hmax := extreme_rel (r := (· ≤ ·)) le_refl (fun _ _ _ ↦ le_trans) le_max_left le_max_right
    hhigh last.high (mem_map_of_mem hlast)
  have hmin := extreme_rel (r := (· ≥ ·)) le_refl (fun _ _ _ h h' ↦ le_trans h' h) min_le_left
    min_le_right hlow last.low (mem_map_of_mem hlast)
  obtain ⟨hclose, hclose'⟩ := hbars last hlast
  exact ⟨le_trans hmin hclose, le_trans hclose' hmax⟩

theorem excursions_bounds [IsStrictOrderedRing F] {low close high d : F}
    (hprice : 0 < event.eventPrice) (hlow : low ≤ close) (hhigh : close ≤ high)
    (hd : directionalReturn event ((close - event.eventPrice) / event.eventPrice) = .ok d) :
    (excursions event high low).2 ≤ d ∧ d ≤ (excursions event high low).1 := by
  unfold directionalReturn at hd
  unfold excursions
  split at hd
  · rw [if_pos ‹_›]
    obtain rfl := Except.ok.inj hd
    exact ⟨div_le_div_of_nonneg_right (sub_le_sub_right hlow _) hprice.le,
      div_le_div_of_nonneg_right (sub_le_sub_right hhigh _) hprice.le⟩
  · rw [if_neg ‹_›]
    split at hd
    · obtain rfl := Except.ok.inj hd
      rw [← neg_div, neg_sub]
      exact ⟨div_le_div_of_nonneg_right (sub_le_sub_left hhigh _) hprice.le,
        div_le_div_of_nonneg_right (sub_le_sub_left hlow _) hprice.le⟩
    · cases hd

/-- **The directional return lies between the excursions.** -/
theorem outcome_ordered [IsStrictOrderedRing F] {bars : List (PriceBar F)} {last : PriceBar F}
    {o : HorizonOutcome F} (hprice : 0 < event.eventPrice)
    (hbars : ∀ b ∈ bars, b.low ≤ b.close ∧ b.close ≤ b.high) (hlast : last ∈ bars)
    (ho : availableOutcome event threshold bars last = .ok o) :
    ∃ d, directionalReturn event o.ret = .ok d ∧ o.mae ≤ d ∧ d ≤ o.mfe := by
  unfold availableOutcome at ho
  obtain ⟨high, hhigh, ho⟩ := bind_eq_ok.mp ho
  obtain ⟨low, hlow, ho⟩ := bind_eq_ok.mp ho
  obtain ⟨d, hd, ho⟩ := bind_eq_ok.mp ho
  obtain rfl := Except.ok.inj ho
  obtain ⟨hle, hle'⟩ := window_bounds hbars hlast hhigh hlow
  exact ⟨d, hd, excursions_bounds hprice hle hle' hd⟩

/-! ## What an accepted call gives -/

/-- What a call has checked, and what it gives. -/
structure Accepted (events : List (MarketEvent F C)) (priceDf : List (PriceBar F))
    (horizons : List Int) (threshold : F) (updated : List (MarketEvent F C)) : Prop where
  pos : ∀ h ∈ horizons, 1 ≤ h
  nodup : horizons.Nodup
  sorted : (sortedFrame priceDf).Pairwise fun b b' ↦ b.timestamp.clock < b'.timestamp.clock
  price : ∀ e ∈ events, 0 < e.eventPrice
  candles : ∀ b ∈ sortedFrame priceDf, b.low ≤ b.close ∧ b.close ≤ b.high
  updates : events.mapM (updatedEvent (sortedFrame priceDf) threshold horizons) = .ok updated

omit [Field F] in
theorem close_bounds {row : PriceBar F × Nat} (h : checkCandle row = .ok ()) :
    row.1.low ≤ row.1.close ∧ row.1.close ≤ row.1.high := by
  obtain ⟨_, hhigh, hlow⟩ := bind_eq_ok.mp h
  exact ⟨le_trans (of_require hlow) (min_le_right _ _),
    le_trans (le_max_right _ _) (of_require hhigh)⟩

theorem accepted_of_ok {events updated : List (MarketEvent F C)} {horizons : Option (List Int)}
    (h : computeForwardOutcomes events priceDf horizons threshold = .ok updated) :
    Accepted events priceDf (horizonsOf horizons) threshold updated := by
  unfold computeForwardOutcomes at h
  obtain ⟨_, hhorizons, hrest⟩ := bind_eq_ok.mp h
  obtain ⟨_, _, hbody⟩ := bind_eq_ok.mp hrest
  obtain ⟨_, hpos, hnodup⟩ := bind_eq_ok.mp hhorizons
  have hpos := (of_require hpos).2
  have hnodup := of_require hnodup
  by_cases hempty : priceDf = []
  · rw [if_pos hempty] at hbody
    subst hempty
    obtain ⟨_, hevents, hnil⟩ := bind_eq_ok.mp hbody
    obtain rfl := of_require hevents
    obtain rfl := Except.ok.inj hnil
    exact ⟨hpos, hnodup, .nil, fun e he ↦ absurd he not_mem_nil,
      fun b hb ↦ absurd hb not_mem_nil, rfl⟩
  · rw [if_neg hempty] at hbody
    obtain ⟨_, hchecks, hupdates⟩ := bind_eq_ok.mp hbody
    obtain ⟨_, htimestamps, hchecks⟩ := bind_eq_ok.mp hchecks
    obtain ⟨_, hchecked, hchecks⟩ := bind_eq_ok.mp hchecks
    obtain ⟨_, -, hcandles⟩ := bind_eq_ok.mp hchecks
    obtain ⟨_, hchain, -⟩ := bind_eq_ok.mp htimestamps
    refine ⟨hpos, hnodup, ?_, fun e he ↦ ?_, fun b hb ↦ ?_, hupdates⟩
    · have htrans : IsTrans (PriceBar F) fun b b' ↦ b.timestamp.clock < b'.timestamp.clock :=
        ⟨fun _ _ _ ↦ lt_trans⟩
      exact isChain_iff_pairwise.mp (of_require hchain)
    · obtain ⟨_, -, hevent⟩ := bind_eq_ok.mp (forM_eq_ok.mp hchecked e he)
      obtain ⟨_, -, hprice⟩ := bind_eq_ok.mp hevent
      exact of_require hprice
    · obtain ⟨i, hi, rfl⟩ := mem_iff_getElem.mp hb
      exact close_bounds (forM_eq_ok.mp hcandles (_, i) (mem_zipIdx_iff_getElem?.mpr
        (getElem?_eq_getElem hi)))

theorem Accepted.outcome_at [IsStrictOrderedRing F] {events updated : List (MarketEvent F C)}
    {horizons : List Int} (hcall : Accepted events priceDf horizons threshold updated)
    {e u : MarketEvent F C} (hmem : (e, u) ∈ events.zip updated) :
    ∃ t, eventTables (sortedFrame priceDf) threshold horizons e = .ok t ∧
      u = { e with outcome := some (eventOutcome e horizons t) } ∧
      ∀ h ∈ horizons, ∃ o, pathOutcome e threshold (path e priceDf h) = .ok o ∧
        t.view h = .of o ∧ (eventOutcome e horizons t).fields h = (HorizonView.of o).kept h ∧
        ∀ x ∈ o, ∃ d, directionalReturn e x.ret = .ok d ∧ x.mae ≤ d ∧ d ≤ x.mfe := by
  have hupdate := (forall₂_iff_zip.mp (forall₂_of_mapM hcall.updates)).2 hmem
  have hprice := hcall.price e (of_mem_zip hmem).1
  obtain ⟨t, ht, hu⟩ := bind_eq_ok.mp hupdate
  refine ⟨t, ht, (Except.ok.inj hu).symm, fun h hh ↦ ?_⟩
  obtain ⟨idx, hfound, htables⟩ := bind_eq_ok.mp ht
  obtain ⟨_, -, htables⟩ := bind_eq_ok.mp htables
  obtain ⟨hidx, hat, -⟩ := findIdx?_eq_some_iff_getElem.mp (found_eq_ok.mp hfound)
  have hat := eq_of_beq hat
  obtain ⟨hviews, -⟩ := view_of_foldlM hcall.nodup hcall.pos (fun _ _ ↦ rfl) htables
  have hnames := realizedEnd_name htables fun k hk ↦ absurd rfl hk
  obtain ⟨o, ho, hview⟩ := hviews h hh
  have hpath := horizonOutcome_eq hcall.sorted hidx hat (hcall.pos h hh) ho
  refine ⟨o, hpath, hview, ?_, fun x hx ↦ ?_⟩
  · rw [fields_eventOutcome e hcall.pos hnames hh, hview]
  · obtain rfl := Option.mem_def.mp hx
    change pathOutcome e threshold (path e priceDf h) = _ at hpath
    cases hbars : path e priceDf h with
    | none =>
      rw [hbars] at hpath
      cases hpath
    | some bars =>
      obtain ⟨hsub, last, hlast⟩ := exists_getLast_of_upTo hbars
      rw [hbars, pathOutcome, hlast] at hpath
      obtain ⟨x', hx', hsome⟩ := map_eq_ok.mp hpath
      obtain rfl := Option.some.inj hsome
      refine outcome_ordered hprice (fun b hb ↦ ?_) (mem_of_getLast? hlast) hx'
      exact hcall.candles b (mem_of_mem_filter (hsub b hb))

/-! ## More bars -/

omit [Field F] [LinearOrder F] in
theorem barsAfter_append {more : List (PriceBar F)}
    (hlater : ∀ b ∈ priceDf, ∀ c ∈ more, b.timestamp.time.instant < c.timestamp.time.instant) :
    barsAfter event (priceDf ++ more) = barsAfter event priceDf ++ barsAfter event more := by
  unfold barsAfter sortedFrame
  rw [stableSortBy_append _ fun b hb c hc ↦ (hlater b hb c hc).le, filter_append]

omit [Field F] [LinearOrder F] in
theorem path_append {more bars : List (PriceBar F)}
    (hlater : ∀ b ∈ priceDf, ∀ c ∈ more, b.timestamp.time.instant < c.timestamp.time.instant)
    (hpath : path event priceDf h = some bars) : path event (priceDf ++ more) h = some bars := by
  unfold path
  rw [barsAfter_append hlater]
  exact upTo_append hpath

theorem exists_path {o : Option (HorizonOutcome F)}
    (ho : pathOutcome event threshold (path event priceDf h) = .ok o)
    (havailable : ((HorizonView.of o).kept h).availability = some "available") :
    ∃ bars, path event priceDf h = some bars := by
  cases hpath : path event priceDf h with
  | some bars => exact ⟨bars, rfl⟩
  | none =>
    rw [hpath] at ho
    obtain rfl := Except.ok.inj ho
    simp [HorizonView.kept, HorizonView.of] at havailable

/-! ## Forward outcomes -/

theorem fields_congr [IsStrictOrderedRing F]
    {events events' updated updated' : List (MarketEvent F C)} {priceDf' : List (PriceBar F)}
    {horizons horizons' : List Int} (hcall : Accepted events priceDf horizons threshold updated)
    (hcall' : Accepted events' priceDf' horizons' threshold updated') {e u u' : MarketEvent F C}
    (hu : (e, u) ∈ events.zip updated) (hu' : (e, u') ∈ events'.zip updated') (hh : h ∈ horizons)
    (hh' : h ∈ horizons') (hpath : path e priceDf h = path e priceDf' h) :
    ∀ o ∈ u.outcome, ∀ o' ∈ u'.outcome, o.fields h = o'.fields h := by
  obtain ⟨t, -, rfl, hall⟩ := hcall.outcome_at hu
  obtain ⟨t', -, rfl, hall'⟩ := hcall'.outcome_at hu'
  obtain ⟨x, hx, -, hfields, -⟩ := hall h hh
  obtain ⟨x', hx', -, hfields', -⟩ := hall' h hh'
  rw [hpath, hx'] at hx
  obtain rfl := Except.ok.inj hx
  intro o ho o' ho'
  obtain rfl := Option.some.inj ho
  obtain rfl := Option.some.inj ho'
  rw [hfields, hfields']

/-- **Forward outcomes are local, ordered and stable.** -/
theorem forward_outcomes_local_ordered_stable [IsStrictOrderedRing F] :
    (∀ (events updated : List (MarketEvent F C)) priceDf horizons threshold,
      computeForwardOutcomes events priceDf horizons threshold = .ok updated →
      updated.length = events.length ∧ ∀ e u, (e, u) ∈ events.zip updated →
        ∃ t, eventTables (sortedFrame priceDf) threshold (horizonsOf horizons) e = .ok t ∧
          u = { e with outcome := some (eventOutcome e (horizonsOf horizons) t) } ∧
          ∀ h ∈ horizonsOf horizons,
            ∃ o, pathOutcome e threshold (path e priceDf h) = .ok o ∧ t.view h = .of o ∧
              (eventOutcome e (horizonsOf horizons) t).fields h = (HorizonView.of o).kept h ∧
              ∀ x ∈ o, ∃ d, directionalReturn e x.ret = .ok d ∧ x.mae ≤ d ∧ d ≤ x.mfe) ∧
    (∀ (events events' updated updated' : List (MarketEvent F C)) priceDf priceDf' horizons
        horizons' threshold,
      computeForwardOutcomes events priceDf horizons threshold = .ok updated →
      computeForwardOutcomes events' priceDf' horizons' threshold = .ok updated' →
      ∀ e u u', (e, u) ∈ events.zip updated → (e, u') ∈ events'.zip updated' →
        ∀ h ∈ horizonsOf horizons, h ∈ horizonsOf horizons' →
          path e priceDf h = path e priceDf' h →
          ∀ o ∈ u.outcome, ∀ o' ∈ u'.outcome, o.fields h = o'.fields h) ∧
    (∀ (events events' updated updated' : List (MarketEvent F C)) priceDf more horizons horizons'
        threshold,
      computeForwardOutcomes events priceDf horizons threshold = .ok updated →
      computeForwardOutcomes events' (priceDf ++ more) horizons' threshold = .ok updated' →
      (∀ b ∈ priceDf, ∀ c ∈ more, b.timestamp.time.instant < c.timestamp.time.instant) →
      ∀ e u u', (e, u) ∈ events.zip updated → (e, u') ∈ events'.zip updated' →
        ∀ h ∈ horizonsOf horizons, h ∈ horizonsOf horizons' →
          ∀ o ∈ u.outcome, ∀ o' ∈ u'.outcome,
            (o.fields h).availability = some "available" → o'.fields h = o.fields h) := by
  refine ⟨fun events updated priceDf horizons threshold hcall ↦ ?_,
    fun events events' updated updated' priceDf priceDf' horizons horizons' threshold hcall hcall'
      e u u' hu hu' h hh hh' hpath ↦ ?_,
    fun events events' updated updated' priceDf more horizons horizons' threshold hcall hcall'
      hlater e u u' hu hu' h hh hh' o ho o' ho' havailable ↦ ?_⟩
  · have haccepted := accepted_of_ok hcall
    exact ⟨(forall₂_of_mapM haccepted.updates).length_eq.symm, fun e u hu ↦ haccepted.outcome_at hu⟩
  · exact fields_congr (accepted_of_ok hcall) (accepted_of_ok hcall') hu hu' hh hh' hpath
  · have hagree := fields_congr (accepted_of_ok hcall) (accepted_of_ok hcall') hu hu' hh hh'
    refine (hagree ?_ o ho o' ho').symm
    obtain ⟨t, -, rfl, hall⟩ := (accepted_of_ok hcall).outcome_at hu
    obtain ⟨x, hx, -, hfields, -⟩ := hall h hh
    obtain rfl := Option.some.inj ho
    rw [hfields] at havailable
    obtain ⟨bars, hbars⟩ := exists_path hx havailable
    rw [hbars, path_append hlater hbars]

end

/-! ### A bar after four days -/

def utcDay (d : Int) (h : -62135596800000000 ≤ d * 86400000000 ∧
    d * 86400000000 ≤ 253402300799999999) : Timestamp :=
  ⟨⟨⟨_, h⟩, some 0⟩, some ⟨0, "UTC"⟩⟩

/-- A bar a day and one after three days. -/
def gapBars : List (PriceBar ℚ) :=
  [⟨utcDay 0 (by decide), 100, 101, 99, 100⟩, ⟨utcDay 1 (by decide), 100, 106, 98, 105⟩,
    ⟨utcDay 3 (by decide), 105, 107, 94, 96⟩]

def laterBars : List (PriceBar ℚ) := [⟨utcDay 4 (by decide), 96, 200, 50, 150⟩]

theorem gapEvent_given : "e" ≠ "" ∧ "XAUUSD" ≠ "" ∧ "D1" ≠ "" ∧ "sma_crossover" ≠ "" ∧
    "bearish" ≠ "" := by decide

def gapEvent : MarketEvent ℚ Unit where
  eventId := "e"
  asset := "XAUUSD"
  timeframe := "D1"
  eventType := "sma_crossover"
  direction := "bearish"
  timestamp := utcDay 0 (by decide)
  eventPrice := 100
  context := ()
  outcome := none
  datasetSource := ""
  computationMethod := ""
  seed := 42
  given := gapEvent_given

/-- The outcome after two days is read off the third, and a later bar does not change it. -/
theorem gap_outcome_stable :
    ∃ us us', computeForwardOutcomes [gapEvent] gapBars (some [2, 4]) 0 = .ok us ∧
      computeForwardOutcomes [gapEvent] (gapBars ++ laterBars) (some [2, 4]) 0 = .ok us' ∧
      ∀ u u', (gapEvent, u) ∈ [gapEvent].zip us → (gapEvent, u') ∈ [gapEvent].zip us' →
        ∀ o ∈ u.outcome, ∀ o' ∈ u'.outcome, (o.fields 2).availability = some "available" →
          o'.fields 2 = o.fields 2 := by
  obtain ⟨us, hus⟩ := exists_of_isOk (by decide +kernel :
    (computeForwardOutcomes [gapEvent] gapBars (some [2, 4]) 0).isOk = true)
  obtain ⟨us', hus'⟩ := exists_of_isOk (by decide +kernel :
    (computeForwardOutcomes [gapEvent] (gapBars ++ laterBars) (some [2, 4]) 0).isOk = true)
  refine ⟨us, us', hus, hus', fun u u' hu hu' ↦ ?_⟩
  exact forward_outcomes_local_ordered_stable.2.2 [gapEvent] [gapEvent] us us' gapBars
    laterBars (some [2, 4]) (some [2, 4]) 0 hus hus' (by decide) gapEvent u u' hu hu' 2
    mem_cons_self mem_cons_self

end Qros.MarketMemory
