import Mathlib.Algebra.Order.Field.Basic
import Qros.Lib.Checks
import Qros.Lib.Gaps
import Qros.Lib.Rolling
import Qros.Lib.Numerals

/-!
# The batch regime detector

`detect_market_regime` of `researchos/orchestration/xauusd_regime_detection.py`, in exact
arithmetic: numbers are an ordered field, `nan` is `none`, and no number is infinite.  A
series is the list of its values, and a rolling mean has a value where every entry of its
window has one.
-/

namespace Qros.Orchestration.Regime

open Qros.Lib

/-- The states, in the order of `STATES`. -/
inductive State where
  | up
  | down
  | range
deriving DecidableEq

section Data

variable (F : Type) [Field F] [LinearOrder F]

structure Candle where
  high : F
  low : F
  close : F
  positive : 0 < high ∧ 0 < low ∧ 0 < close
  high_ok : max low close ≤ high
  low_ok : low ≤ min high close

/-- The parameters that both engines have, with what they ask of them. -/
structure RegimeConfig where
  lookback : Nat
  adxPeriod : Nat
  rangeAdx : F
  trendAdx : F
  slopeFloor : F
  dirichletAlpha : F
  lookback_ok : 40 ≤ lookback
  adxPeriod_ok : 2 ≤ adxPeriod
  adx_ok : 0 ≤ rangeAdx ∧ rangeAdx < trendAdx
  slopeFloor_ok : 0 ≤ slopeFloor
  alpha_pos : 0 < dirichletAlpha

/-- What the engines call: logarithm and root, the line `np.polyfit(np.arange(n), ys, 1)`
and `_hurst_variance_time`. -/
structure Numerics where
  log : F → F
  sqrt : F → F
  polyfit : List F → F × F
  hurst : List F → Option F

structure RegimeFeatures where
  adx : Option F
  plusDi : Option F
  minusDi : Option F
  normalizedLogPriceSlope : Option F
  hurstVarianceTime : Option F

structure Classification where
  currentState : State
  features : RegimeFeatures F
  stateProbabilitiesNext : State → F
  transitionCountsWithPrior : State → State → F
  historicalTransitionCount : Nat

inductive Detection where
  | insufficientEvidence
  | classified (result : Classification F)

end Data

section Series

variable {F : Type} [Field F] [LinearOrder F]

def Candle.make (high low close : F) : Except String (Candle F) :=
  if hpos : 0 < high ∧ 0 < low ∧ 0 < close then
    if hbounds : max low close ≤ high ∧ low ≤ min high close then
      .ok ⟨high, low, close, hpos, hbounds.1, hbounds.2⟩
    else .error "invalid OHLC candle geometry"
  else .error "OHLC values must be finite and positive"

def withPrevious (candles : List (Candle F)) : List (Option (Candle F) × Candle F) :=
  (none :: candles.map some).zip candles

/-- `max` of a row of differences, of which those with the previous close may be missing. -/
def trueRange : Option (Candle F) → Candle F → F
  | none, c => c.high - c.low
  | some p, c => max (max (c.high - c.low) |c.high - p.close|) |c.low - p.close|

def plusDm : Option (Candle F) → Candle F → F
  | none, _ => 0
  | some p, c =>
    let upMove := c.high - p.high
    let downMove := -(c.low - p.low)
    if upMove > downMove ∧ upMove > 0 then upMove else 0

def minusDm : Option (Candle F) → Candle F → F
  | none, _ => 0
  | some p, c =>
    let upMove := c.high - p.high
    let downMove := -(c.low - p.low)
    if downMove > upMove ∧ downMove > 0 then downMove else 0

/-- A value of every candle, which may look at the one before it. -/
def series (f : Option (Candle F) → Candle F → F) (candles : List (Candle F)) : List F :=
  (withPrevious candles).map fun p ↦ f p.1 p.2

def mean (xs : List F) : F := xs.sum / xs.length

/-- The mean of a window in which no entry is missing. -/
def meanOfAll (entries : List (Option F)) : Option F :=
  if entries.all Option.isSome then some (mean entries.reduceOption) else none

def rollingMean (period : Nat) (entries : List (Option F)) : List (Option F) :=
  rolling period none meanOfAll entries

/-- `replace(0, np.nan)`. -/
def replaceZero (x : Option F) : Option F := if x = some 0 then none else x

/-- `100.0 * dm / atr.replace(0, np.nan)`. -/
def directional (dm atr : Option F) : Option F := do
  return 100 * (← dm) / (← replaceZero atr)

def directionalIndex (plusDi minusDi : Option F) : Option F := do
  let denominator ← replaceZero (do return (← plusDi) + (← minusDi))
  return 100 * |(← plusDi) - (← minusDi)| / denominator

def directionals (f : Option (Candle F) → Candle F → F) (period : Nat) (candles : List (Candle F)) :
    List (Option F) :=
  List.zipWith directional (rollingMean period ((series f candles).map some))
    (rollingMean period ((series trueRange candles).map some))

structure Indicators (F : Type) where
  adx : List (Option F)
  plusDi : List (Option F)
  minusDi : List (Option F)

def adxAndDi (candles : List (Candle F)) (period : Nat) : Indicators F :=
  let plusDi := directionals plusDm period candles
  let minusDi := directionals minusDm period candles
  let dx := List.zipWith directionalIndex plusDi minusDi
  ⟨rollingMean period dx, plusDi, minusDi⟩

def diff (xs : List F) : List F := List.zipWith (· - ·) xs.tail xs

variable (num : Numerics F)

def std (xs : List F) : F := num.sqrt ((xs.map fun x ↦ (x - mean xs) ^ 2).sum / xs.length)

/-- The slope of a window of logarithms in units of the deviation of its returns. -/
def slopePerBar (logs : List F) : F :=
  let slope := (num.polyfit logs).1
  let returnScale := std num (diff logs)
  if returnScale > 0 then slope / returnScale else 0

end Series

section Detect

variable {F : Type} [Field F] [LinearOrder F]

def label (config : RegimeConfig F) (strength slope pdi mdi : F) : State :=
  if strength ≥ config.trendAdx ∧ slope > config.slopeFloor ∧ pdi > mdi then .up
  else if strength ≥ config.trendAdx ∧ slope < -config.slopeFloor ∧ mdi > pdi then .down
  else if strength < config.rangeAdx ∨ |slope| ≤ config.slopeFloor then .range
  else .range

variable (num : Numerics F) (config : RegimeConfig F)

def firstLabelled : Nat := max (config.lookback - 1) (config.adxPeriod * 2)

/-- The window of logarithms that ends at a position. -/
def logWindow (candles : List (Candle F)) (i : Nat) : List F :=
  window config.lookback (candles.map fun c ↦ num.log c.close) (i + 1 - config.lookback)

/-- The round of the loop at one position.  The slope is a number in exact arithmetic. -/
def labelAt (candles : List (Candle F)) (i : Nat) : Option State :=
  if i < firstLabelled config then none
  else
    let indicators := adxAndDi candles config.adxPeriod
    let slope := slopePerBar num (logWindow num config candles i)
    match (indicators.adx[i]?).join, (indicators.plusDi[i]?).join,
      (indicators.minusDi[i]?).join with
    | some strength, some pdi, some mdi => some (label config strength slope pdi mdi)
    | _, _, _ => none

def labels (candles : List (Candle F)) : List (Option State) :=
  (List.range candles.length).map (labelAt num config candles)

def addTransition (counts : State → State → F) (previous current : State) : State → State → F :=
  fun s t ↦ if s = previous ∧ t = current then counts s t + 1 else counts s t

def countTransitions (pairs : List (State × State)) : State → State → F :=
  pairs.foldl (fun counts p ↦ addTransition counts p.1 p.2) fun _ _ ↦ config.dirichletAlpha

/-- A row of the counts over its sum. -/
def probabilities (row : State → F) : State → F :=
  fun state ↦ row state / (row .up + row .down + row .range)

def detectMarketRegime (candles : List (Candle F)) : Except String (Detection F) := do
  require (¬ candles.length < max config.lookback (config.adxPeriod * 2 + 2)) "INSUFFICIENT_HISTORY"
  match (labels num config candles).getLast?.join with
  | none => return .insufficientEvidence
  | some currentState =>
    let indicators := adxAndDi candles config.adxPeriod
    let logs := logWindow num config candles (candles.length - 1)
    let transitions := present (labels num config candles)
    let counts := countTransitions config transitions
    return .classified {
      currentState := currentState
      features := {
        adx := indicators.adx.getLast?.join
        plusDi := indicators.plusDi.getLast?.join
        minusDi := indicators.minusDi.getLast?.join
        normalizedLogPriceSlope := some (slopePerBar num logs)
        hurstVarianceTime := num.hurst logs }
      stateProbabilitiesNext := probabilities (counts currentState)
      transitionCountsWithPrior := counts
      historicalTransitionCount := transitions.length }

end Detect

end Qros.Orchestration.Regime
