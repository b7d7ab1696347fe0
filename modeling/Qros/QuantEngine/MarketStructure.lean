import Mathlib.Algebra.Order.Floor.Ring
import Qros.Lib.Rolling
import Qros.Python.JsonAscii
import Qros.Python.Builtins
import Qros.Lib.Numerals

/-!
# Market structure

`detect_market_structure` of `researchos/quant_engine/technical/market_structure.py`, in exact
arithmetic: numbers are an ordered field, so every price is finite, and `nan` is `none`.  The
text of a number, which only the identifiers use, is that of `FloatText`.
-/

namespace Qros.QuantEngine.Technical

open Qros.Lib Qros.Lib.Online Qros.Python

inductive BreakBasis where
  | wick
  | close
deriving DecidableEq

inductive SwingKind where
  | swingHigh
  | swingLow
deriving DecidableEq

inductive StructureKind where
  | bos
  | choch
deriving DecidableEq

inductive Direction where
  | bullish
  | bearish
deriving DecidableEq

inductive TrendLabel where
  | unknown
  | bullish
  | bearish
deriving DecidableEq

def BreakBasis.name : BreakBasis → String
  | .wick => "wick"
  | .close => "close"

section Data

variable (F : Type) [Field F] [LinearOrder F]

structure MarketStructureConfig where
  swingWindow : Nat
  breakBasis : BreakBasis
  confirmationBars : Nat
  breakBufferAtr : F
  atrPeriod : Nat
  swingWindow_ok : 1 ≤ swingWindow
  confirmationBars_ok : 1 ≤ confirmationBars
  breakBufferAtr_ok : 0 ≤ breakBufferAtr
  atrPeriod_ok : 1 ≤ atrPeriod

structure StructureDefinition extends MarketStructureConfig F where
  schemaVersion : String
  schemaVersion_ok : strip schemaVersion ≠ ""

inductive StructureConfig where
  | none
  | config (config : MarketStructureConfig F)
  | definition (definition : StructureDefinition F)

structure SwingPoint where
  kind : SwingKind
  pivotIndex : Nat
  confirmedIndex : Nat
  price : F
deriving DecidableEq

structure StructureBreak where
  kind : StructureKind
  direction : Direction
  level : F
  pivotIndex : Nat
  pivotConfirmedIndex : Nat
  breakIndex : Nat
  breakPrice : F
  variantId : String
  definitionId : String
deriving DecidableEq

structure MarketStructureResult where
  variantId : String
  definitionId : String
  rows : Nat
  swings : List (SwingPoint F)
  breaks : List (StructureBreak F)
  ambiguousBreakIndices : List Nat
  gapIndices : List Nat
  finalTrend : TrendLabel

end Data

/-- What the detector asks of a `datetime`; `epoch` is `int(value.timestamp())`. -/
structure Timestamp where
  aware : Bool
  /-- `utcoffset()`, in microseconds. -/
  utcoffset : Int
  tzname : String
  second : Nat
  microsecond : Nat
  epoch : Int

/-! ## Identifiers -/

section

variable {F : Type} [Field F] [LinearOrder F] [FloorRing F]

def roundHalfEven (x : F) : Int :=
  if Int.fract x < 1 / 2 then ⌊x⌋
  else if 1 / 2 < Int.fract x then ⌊x⌋ + 1
  else if ⌊x⌋ % 2 = 0 then ⌊x⌋ else ⌊x⌋ + 1

/-- `f"{n:0wd}"`, of a number that is not negative. -/
def padded (w : Nat) (n : Nat) : String := String.ofList ((Nat.toDigits 10 n).leftpad w '0')

def MarketStructureConfig.variantId (config : MarketStructureConfig F) : String :=
  let bufferBps := (roundHalfEven (config.breakBufferAtr * 10000)).toNat
  "sw" ++ padded 2 config.swingWindow ++ "_" ++ config.breakBasis.name ++ "_c" ++
    toString config.confirmationBars ++ "_atr" ++ padded 4 bufferBps

def MarketStructureConfig.toDefinition (config : MarketStructureConfig F) : StructureDefinition F where
  toMarketStructureConfig := config
  schemaVersion := "1.0.0"
  schemaVersion_ok := by decide

def MarketStructureConfig.default : MarketStructureConfig F where
  swingWindow := 3
  breakBasis := .close
  confirmationBars := 1
  breakBufferAtr := 0
  atrPeriod := 14
  swingWindow_ok := by decide
  confirmationBars_ok := by decide
  breakBufferAtr_ok := le_refl 0
  atrPeriod_ok := by decide

/-- The dictionary of `canonical_json`. -/
def StructureDefinition.toDict (d : StructureDefinition F) : Json F :=
  .dict [
    ("schema_version", .str d.schemaVersion),
    ("variant_key", .str d.variantId),
    ("swing_window", .int d.swingWindow),
    ("break_basis", .str d.breakBasis.name),
    ("confirmation_bars", .int d.confirmationBars),
    ("break_buffer_atr", .float d.breakBufferAtr),
    ("atr_period", .int d.atrPeriod),
    ("choch_rule", .str "opposite_confirmed_swing_break"),
    ("trend_filter", .str "off")]

def StructureDefinition.definitionId [FloatText F] [Hashlib] (d : StructureDefinition F) : String :=
  (sha256 (d.toDict.sortKeys.asciiText .compact)).text

/-- The definition that the detector uses; its config has the same fields. -/
def StructureConfig.resolved : StructureConfig F → StructureDefinition F
  | .none => MarketStructureConfig.default.toDefinition
  | .config c => c.toDefinition
  | .definition d => d

end

/-! ## Checks -/

section

variable {F : Type} [Field F] [LinearOrder F]

/-- `_validate_ohlc`, for series of finite numbers. -/
def validateOhlc (high low close : List F) : Except String Unit := do
  require (high.length = low.length ∧ low.length = close.length)
    "high, low, and close must have equal lengths"
  require (close ≠ []) "OHLC input must contain at least one row"
  require (∀ bar ∈ high.zip low, ¬ bar.1 < bar.2) "high must be >= low"
  require (∀ bar ∈ (high.zip low).zip close, ¬ bar.1.1 < bar.2 ∧ ¬ bar.2 < bar.1.2)
    "close must lie within each bar's high/low range"

def validateTimestamps : Option Int → List Timestamp → Except String (List Int)
  | _, [] => .ok []
  | previous, value :: values => do
    require (value.aware = true ∧ value.utcoffset = 0 ∧ value.tzname ∈ ["UTC", "Etc/UTC"])
      "timestamps must be timezone-aware UTC"
    require (value.second = 0 ∧ value.microsecond = 0) "M1 timestamps must be aligned to whole minutes"
    require (∀ p ∈ previous, p < value.epoch) "timestamps must be unique and strictly increasing"
    let epochs ← validateTimestamps (some value.epoch) values
    return value.epoch :: epochs

/-- `gap_before`, of the times of at least one row. -/
def gapsBefore (epochs : List Int) : List Bool :=
  false :: epochs.zipWith (fun a b ↦ decide (b - a ≠ 60)) epochs.tail

def validateUtcTimestamps (timestamps : Option (List Timestamp)) (expectedRows : Nat) :
    Except String (List Bool) := do
  let timestamps ← found timestamps "timezone-aware UTC timestamps are required"
  require (timestamps.length = expectedRows) "timestamps must have the same length as OHLC input"
  return gapsBefore (← validateTimestamps none timestamps)

end

/-! ## The detector -/

section

variable {F : Type} [Field F] [LinearOrder F]

def previousClose : List F → List F
  | [] => []
  | c :: cs => c :: (c :: cs).dropLast

def trueRange (high low close : List F) : List F :=
  ((high.zip low).zip (previousClose close)).map fun ((h, l), p) ↦ max (h - l) (max |h - p| |l - p|)

def atr (high low close : List F) (period : Nat) : List (Option F) :=
  let cumulative := List.scanl (· + ·) (0 : F) (trueRange high low close)
  if period ≤ close.length then
    List.replicate (period - 1) none ++
      (cumulative.drop period).zipWith (fun a b ↦ some ((a - b) / (period : F)))
        (cumulative.take (cumulative.length - period))
  else
    List.replicate close.length none

/-- The arrays that the detector reads. -/
structure Series (F : Type) where
  high : List F
  low : List F
  close : List F
  atr : List (Option F)
  gapBefore : List Bool

/-- The buffers of the observed bars, unless one is not finite. -/
def breakBuffers (config : MarketStructureConfig F) (observed : List F)
    (observedAtr : List (Option F)) : Option (List F) :=
  if config.breakBufferAtr = 0 then
    some (observed.map fun _ ↦ 0)
  else
    observedAtr.mapM fun a ↦ a.map (config.breakBufferAtr * ·)

def isConfirmedBreak (values : List F) (index : Nat) (level : F) (direction : Direction)
    (config : MarketStructureConfig F) (atr : List (Option F)) (gapBefore : List Bool) : Bool :=
  if index + 1 < config.confirmationBars then false
  else
    let start := index + 1 - config.confirmationBars
    if (Online.slice gapBefore (start + 1) (index + 1)).any id then false
    else
      let observed := Online.slice values start (index + 1)
      match breakBuffers config observed (Online.slice atr start (index + 1)) with
      | none => false
      | some buffers =>
        match direction with
        | .bullish => (observed.zip buffers).all fun (x, buffer) ↦ decide (level + buffer < x)
        | .bearish => (observed.zip buffers).all fun (x, buffer) ↦ decide (x < level - buffer)

/-- The variables of the loop. -/
structure Detection (F : Type) where
  swings : List (SwingPoint F)
  breaks : List (StructureBreak F)
  ambiguous : List Nat
  activeHigh : Option (SwingPoint F)
  activeLow : Option (SwingPoint F)
  highConsumed : Bool
  lowConsumed : Bool
  trend : Int

def Detection.start : Detection F := ⟨[], [], [], none, none, false, false, 0⟩

def levelBroken (active : Option (SwingPoint F)) (consumed : Bool) (values : List F) (index : Nat)
    (direction : Direction) (config : MarketStructureConfig F) (s : Series F) : Bool :=
  match active with
  | none => false
  | some point =>
    !consumed && isConfirmedBreak values index point.price direction config s.atr s.gapBefore

def aboveMax (x : F) (xs : List F) : Bool := (xs.max?.map fun m ↦ decide (m < x)).getD false

def belowMin (x : F) (xs : List F) : Bool := (xs.min?.map fun m ↦ decide (x < m)).getD false

variable [FloorRing F] [FloatText F] [Hashlib]

def structureBreak (kind : StructureKind) (direction : Direction) (point : SwingPoint F)
    (index : Nat) (values : List F) (d : StructureDefinition F) : StructureBreak F where
  kind := kind
  direction := direction
  level := point.price
  pivotIndex := point.pivotIndex
  pivotConfirmedIndex := point.confirmedIndex
  breakIndex := index
  breakPrice := values.getD index 0
  variantId := d.variantId
  definitionId := d.definitionId

def detectBreaks (d : StructureDefinition F) (s : Series F) (index : Nat) (st : Detection F) :
    Detection F :=
  let upValues := if d.breakBasis = .wick then s.high else s.close
  let downValues := if d.breakBasis = .wick then s.low else s.close
  let bullishBreak := levelBroken st.activeHigh st.highConsumed upValues index .bullish
    d.toMarketStructureConfig s
  let bearishBreak := levelBroken st.activeLow st.lowConsumed downValues index .bearish
    d.toMarketStructureConfig s
  if bullishBreak && bearishBreak then
    { st with ambiguous := st.ambiguous ++ [index] }
  else
    match bullishBreak, st.activeHigh, bearishBreak, st.activeLow with
    | true, some point, _, _ =>
      let kind := if st.trend = -1 then .choch else .bos
      { st with
        breaks := st.breaks ++ [structureBreak kind .bullish point index upValues d]
        trend := 1
        highConsumed := true }
    | _, _, true, some point =>
      let kind := if st.trend = 1 then .choch else .bos
      { st with
        breaks := st.breaks ++ [structureBreak kind .bearish point index downValues d]
        trend := -1
        lowConsumed := true }
    | _, _, _, _ => st

/-- The pivot that a bar confirms, after its breaks. -/
def confirmPivot (swingWindow : Nat) (s : Series F) (index : Nat) (st : Detection F) : Detection F :=
  if index < swingWindow + swingWindow then st
  else
    let candidate := index - swingWindow
    let left := candidate - swingWindow
    if (Online.slice s.gapBefore (left + 1) (index + 1)).any id then st
    else
      let high := s.high.getD candidate 0
      let low := s.low.getD candidate 0
      let isSwingHigh := aboveMax high (Online.slice s.high left candidate) &&
        aboveMax high (Online.slice s.high (candidate + 1) (index + 1))
      let isSwingLow := belowMin low (Online.slice s.low left candidate) &&
        belowMin low (Online.slice s.low (candidate + 1) (index + 1))
      let st := if isSwingHigh then
          let point : SwingPoint F := ⟨.swingHigh, candidate, index, high⟩
          { st with swings := st.swings ++ [point], activeHigh := some point, highConsumed := false }
        else st
      if isSwingLow then
        let point : SwingPoint F := ⟨.swingLow, candidate, index, low⟩
        { st with swings := st.swings ++ [point], activeLow := some point, lowConsumed := false }
      else st

/-- A turn of the loop. -/
def detectBar (d : StructureDefinition F) (s : Series F) (index : Nat) (st : Detection F) :
    Detection F :=
  confirmPivot d.swingWindow s index (detectBreaks d s index st)

def flatnonzero (flags : List Bool) : List Nat :=
  (List.range flags.length).filter fun i ↦ flags.getD i false

def detectMarketStructure (high low close : List F) (config : StructureConfig F)
    (timestamps : Option (List Timestamp)) : Except String (MarketStructureResult F) := do
  let d := config.resolved
  validateOhlc high low close
  let gapBefore ← validateUtcTimestamps timestamps close.length
  let s : Series F := ⟨high, low, close, atr high low close d.atrPeriod, gapBefore⟩
  let st := loop (detectBar d s) close.length .start
  return {
    variantId := d.variantId
    definitionId := d.definitionId
    rows := close.length
    swings := st.swings
    breaks := st.breaks
    ambiguousBreakIndices := st.ambiguous
    gapIndices := flatnonzero gapBefore
    finalTrend := if st.trend = 1 then .bullish else if st.trend = -1 then .bearish else .unknown }

end

end Qros.QuantEngine.Technical
