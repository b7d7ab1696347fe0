import Qros.Orchestration.RegimeDetection

/-!
# The incremental regime engine

`IncrementalRegimeEngine` of `researchos/orchestration/incremental_regime.py`, in exact
arithmetic as the batch detector.  Its queues have bounded length, and the sums over them
are kept along with what they evict.
-/

namespace Qros.Orchestration.Regime

open Qros.Lib

section Data

variable (F : Type)

/-- The fields of the engine that change. -/
structure IncrementalRegimeEngine where
  count : Nat
  previousHigh : Option F
  previousLow : Option F
  previousClose : Option F
  logCloses : List F
  logReturns : List F
  returnSum : F
  returnSqSum : F
  logSum : F
  logXySum : F
  trueRanges : List F
  plusDms : List F
  minusDms : List F
  dxValues : List (Option F)
  hurst : Option F
  lastState : Option State
  transitionCounts : State → State → F
  transitionCount : Nat

/-- What `update` returns when it classifies a candle. -/
structure Report where
  barCountSeen : Nat
  currentState : State
  features : RegimeFeatures F
  stateProbabilitiesNext : State → F
  historicalTransitionCount : Nat

end Data

namespace IncrementalRegimeEngine

variable {F : Type} [Field F] [LinearOrder F]

def init (config : RegimeConfig F) : IncrementalRegimeEngine F where
  count := 0
  previousHigh := none
  previousLow := none
  previousClose := none
  logCloses := []
  logReturns := []
  returnSum := 0
  returnSqSum := 0
  logSum := 0
  logXySum := 0
  trueRanges := []
  plusDms := []
  minusDms := []
  dxValues := []
  hurst := none
  lastState := none
  transitionCounts := fun _ _ ↦ config.dirichletAlpha
  transitionCount := 0

/-- `_append_rolling`: what the queue evicts, and the queue. -/
def appendRolling {α : Type} (maxlen : Nat) (values : List α) (value : α) : Option α × List α :=
  (evicted maxlen values, push maxlen values value)

variable (num : Numerics F) (config : RegimeConfig F) (engine : IncrementalRegimeEngine F)

/-- The return of the candle and the sums of the returns. -/
def pushReturn (logClose : F) : IncrementalRegimeEngine F :=
  match engine.previousClose with
  | none => engine
  | some oldClose =>
    let logReturn := logClose - num.log oldClose
    let (evictedReturn, logReturns) :=
      appendRolling (config.lookback - 1) engine.logReturns logReturn
    let (returnSum, returnSqSum) :=
      match evictedReturn with
      | none => (engine.returnSum, engine.returnSqSum)
      | some e => (engine.returnSum - e, engine.returnSqSum - e * e)
    { engine with
      logReturns := logReturns
      returnSum := returnSum + logReturn
      returnSqSum := returnSqSum + logReturn * logReturn }

/-- Makes room for one more logarithm. -/
def popLog : IncrementalRegimeEngine F :=
  match engine.logCloses with
  | evictedLog :: rest =>
    if engine.logCloses.length = config.lookback then
      { engine with
        logCloses := rest
        logXySum := engine.logXySum - (engine.logSum - evictedLog)
        logSum := engine.logSum - evictedLog }
    else engine
  | [] => engine

def pushLog (logClose : F) : IncrementalRegimeEngine F :=
  let xIndex := engine.logCloses.length
  { engine with
    logCloses := engine.logCloses ++ [logClose]
    logSum := engine.logSum + logClose
    logXySum := engine.logXySum + xIndex * logClose }

/-- The true range and the directional moves of the candle. -/
def pushRanges (candle : Candle F) : IncrementalRegimeEngine F :=
  let tr :=
    match engine.previousClose with
    | none => candle.high - candle.low
    | some oldClose =>
      max (max (candle.high - candle.low) |candle.high - oldClose|) |candle.low - oldClose|
  let (plusDm, minusDm) :=
    match engine.previousHigh, engine.previousLow with
    | some oldHigh, some oldLow =>
      let upMove := candle.high - oldHigh
      let downMove := oldLow - candle.low
      (if upMove > downMove ∧ upMove > 0 then upMove else 0,
        if downMove > upMove ∧ downMove > 0 then downMove else 0)
    | _, _ => (0, 0)
  { engine with
    trueRanges := (appendRolling config.adxPeriod engine.trueRanges tr).2
    plusDms := (appendRolling config.adxPeriod engine.plusDms plusDm).2
    minusDms := (appendRolling config.adxPeriod engine.minusDms minusDm).2 }

def pushDx (dx : Option F) : IncrementalRegimeEngine F :=
  { engine with dxValues := (appendRolling config.adxPeriod engine.dxValues dx).2 }

/-- `adx`, `plus_di` and `minus_di` of the candle, whose ranges are in the queues. -/
def indicators : IncrementalRegimeEngine F × Option F × Option F × Option F :=
  if engine.trueRanges.length = config.adxPeriod then
    let trSum := engine.trueRanges.sum
    let plusSum := engine.plusDms.sum
    let minusSum := engine.minusDms.sum
    if trSum > 0 then
      let plusDi := 100 * plusSum / trSum
      let minusDi := 100 * minusSum / trSum
      let denom := plusDi + minusDi
      let dx := if denom > 0 then some (100 * |plusDi - minusDi| / denom) else none
      let engine := engine.pushDx config dx
      let adx :=
        if engine.dxValues.length = config.adxPeriod ∧ engine.dxValues.all Option.isSome then
          some (engine.dxValues.reduceOption.sum / config.adxPeriod)
        else none
      (engine, adx, some plusDi, some minusDi)
    else (engine.pushDx config none, none, none, none)
  else (engine, none, none, none)

/-- The count, the Hurst exponent and the previous prices. -/
def advance (hurstRefreshEvery : Nat) (candle : Candle F) : IncrementalRegimeEngine F :=
  let count := engine.count + 1
  { engine with
    count := count
    hurst :=
      if count % hurstRefreshEvery = 0 ∧ engine.logCloses.length ≥ 40 then
        num.hurst engine.logCloses
      else engine.hurst
    previousHigh := some candle.high
    previousLow := some candle.low
    previousClose := some candle.close }

/-- The slope of the logarithms in the queue in units of the deviation of the returns. -/
def normalizedSlope : F :=
  let n : F := engine.logCloses.length
  let sumX := n * (n - 1) / 2
  let sumXX := n * (n - 1) * (2 * n - 1) / 6
  let denominator := n * sumXX - sumX * sumX
  let slope := (n * engine.logXySum - sumX * engine.logSum) / denominator
  let returnCount : F := (max engine.logReturns.length 1 : Nat)
  let returnMean := engine.returnSum / returnCount
  let returnVariance := max (engine.returnSqSum / returnCount - returnMean * returnMean) 0
  let returnScale := num.sqrt returnVariance
  if returnScale > 0 then slope / returnScale else 0

def stateOf (adx plusDi minusDi slope : F) : State :=
  if adx ≥ config.trendAdx ∧ slope > config.slopeFloor ∧ plusDi > minusDi then .up
  else if adx ≥ config.trendAdx ∧ slope < -config.slopeFloor ∧ minusDi > plusDi then .down
  else .range

/-- Counts the transition into a state. -/
def enter (state : State) : IncrementalRegimeEngine F :=
  match engine.lastState with
  | none => { engine with lastState := some state }
  | some previous =>
    { engine with
      transitionCounts := addTransition engine.transitionCounts previous state
      transitionCount := engine.transitionCount + 1
      lastState := some state }

/-- The end of `update`: the classification past the warm-up. -/
def classify (adx plusDi minusDi : Option F) : Option (Report F) × IncrementalRegimeEngine F :=
  if engine.logCloses.length < config.lookback ∨ engine.count < config.adxPeriod * 2 + 1 then
    (none, engine)
  else
    match adx, plusDi, minusDi with
    | some adx, some plusDi, some minusDi =>
      let slope := engine.normalizedSlope num
      let state := stateOf config adx plusDi minusDi slope
      let engine := engine.enter state
      (some {
        barCountSeen := engine.count
        currentState := state
        features := {
          adx := some adx
          plusDi := some plusDi
          minusDi := some minusDi
          normalizedLogPriceSlope := some slope
          hurstVarianceTime := engine.hurst }
        stateProbabilitiesNext := probabilities (engine.transitionCounts state)
        historicalTransitionCount := engine.transitionCount }, engine)
    | _, _, _ => (none, engine)

/-- The queues and sums after a candle. -/
def pushPrices (candle : Candle F) : IncrementalRegimeEngine F :=
  let logClose := num.log candle.close
  let engine := engine.pushReturn num config logClose
  let engine := (engine.popLog config).pushLog logClose
  engine.pushRanges config candle

def update (hurstRefreshEvery : Nat) (candle : Candle F) :
    Option (Report F) × IncrementalRegimeEngine F :=
  let (engine, adx, plusDi, minusDi) := (engine.pushPrices num config candle).indicators config
  (engine.advance num hurstRefreshEvery candle).classify num config adx plusDi minusDi

def feed (hurstRefreshEvery : Nat) (candles : List (Candle F)) : IncrementalRegimeEngine F :=
  candles.foldl (fun engine candle ↦ (engine.update num config hurstRefreshEvery candle).2)
    (init config)

end IncrementalRegimeEngine

end Qros.Orchestration.Regime
