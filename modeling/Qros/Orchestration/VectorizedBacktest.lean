import Mathlib.Data.List.DropRight
import Qros.Lib.Dict
import Qros.Lib.Rolling

/-!
# The signal scores of the vectorised backtester

Arrays are lists, and an operation that NumPy refuses is an error.  The numbers
are an arbitrary type `F` with the operators of the source and no law about
them, so that results hold of `float64`.

The score is computed twice in the source: by `_causal_signal_score`, for one
lookback, and by the loop of `run_grid`, for each lookback of the grid.  Where
the two have the same lines (`prior_atr` to `scale`, and the mask of the gaps)
these lines are one definition here.  The rest of `run_grid` reads the scores and
is left out, and so are the checks of Python types that the types here express.
-/

namespace Qros.Orchestration

open Qros.Lib

/-! ## NumPy -/

/-- What the backtester takes from NumPy about single numbers. -/
class NumpyFloat (F : Type) where
  nan : F
  isfinite : F → Bool
  /-- `np.nan_to_num` with `nan=0.0`. -/
  nanToNum : F → F
  abs : F → F
  maximum : F → F → F
  minimum : F → F → F
  /-- The inner product of two arrays, whose order of summation NumPy does not fix. -/
  dot : List F → List F → F

open NumpyFloat (nan nanToNum maximum minimum dot)

/-- Whatever is computed from `nan` is `nan`. -/
class LawfulNumpyFloat (F : Type) [Div F] [NumpyFloat F] : Prop where
  nan_div : ∀ x : F, nan / x = nan

section Arrays

variable {F : Type}

def assignFrom (k : Nat) (ys xs : List F) : Except String (List F) :=
  if ys.length = xs.length - k then .ok (xs.take k ++ ys)
  else
    match ys with
    | [y] => .ok (xs.take k ++ List.replicate (xs.length - k) y)
    | _ =>
      .error ("could not broadcast input array from shape (" ++ toString ys.length ++
        ",) into shape (" ++ toString (xs.length - k) ++ ",)")

def convolveValid [NumpyFloat F] (a v : List F) : Except String (List F) :=
  -- the longer of the two is the one that is slid along
  let (a, v) := if v.length > a.length then (v, a) else (a, v)
  if a.length = 0 then .error "a cannot be empty"
  else if v.length = 0 then .error "v cannot be empty"
  else .ok ((windows v.length a).map fun w ↦ dot w v.reverse)

def ones [One F] (k : Nat) : List F := List.replicate k 1

/-- `np.timedelta64(15, "m")` in nanoseconds. -/
def fifteenMinutes : Int := 15 * 60 * 1000000000

/-- A bar follows the one before it without a gap. -/
def Follows (s t : Int) : Prop := t - s = fifteenMinutes

instance : DecidableRel Follows := fun s t ↦ inferInstanceAs (Decidable (t - s = fifteenMinutes))

/-- `np.cumsum(gap)` with `gap = np.r_[False, np.diff(timestamps) != ...]`. -/
def gapPrefix (timestamps : List Int) : List Int := countsTo (breaks Follows timestamps)

/-- `gap_prefix[idx] - gap_prefix[np.maximum(0, idx - lookback)] > 0`. -/
def crossesGap (gaps : List Int) (n lookback : Nat) : List Bool :=
  (List.range n).map fun i ↦ decide (gaps.getD i 0 - gaps.getD (i - lookback) 0 > 0)

def maskNan [NumpyFloat F] (mask : List Bool) (score : List F) : List F :=
  List.zipWith (fun m s ↦ if m then nan else s) mask score

end Arrays

/-! ## The scores -/

section

variable {F : Type} [NumpyFloat F] [Zero F] [One F] [Sub F] [Div F] [LT F] [DecidableLT F]

def positiveOrNan (x : F) : F := if x > 0 then x else nan

/-- `sums / np.where(counts > 0, counts, np.nan)`: the mean of the finite ATRs of each window. -/
def priorScale (atr : List F) (lookback : Nat) : Except String (List F) := do
  let priorAtr := atr.rdrop 1
  let finite := priorAtr.map NumpyFloat.isfinite
  let vals := priorAtr.map nanToNum
  let sums ← convolveValid vals (ones lookback)
  let counts ← convolveValid (finite.map fun b ↦ if b then (1 : F) else 0) (ones lookback)
  return List.zipWith (· / ·) sums (counts.map positiveOrNan)

def closeMoves (close : List F) (lookback : Nat) : List F :=
  List.zipWith (· - ·) (close.drop lookback) (close.rdrop lookback)

def causalSignalScore (close atr : List F) (timestamps : List Int) (lookback : Int) :
    Except String (List F) := do
  require (1 ≤ lookback) "lookback must be an integer >= 1"
  require (close.length = atr.length ∧ atr.length = timestamps.length)
    "close, ATR and timestamps must be one-dimensional arrays of equal length"
  let n := close.length
  let lookback := lookback.toNat
  let score := List.replicate n nan
  if n ≤ lookback then
    return score
  let move := closeMoves close lookback
  let scale ← priorScale atr lookback
  let score ← assignFrom lookback (List.zipWith (· / ·) move (scale.map positiveOrNan)) score
  return maskNan (crossesGap (gapPrefix timestamps) n lookback) score

/-- The body of the loop of `run_grid` over the lookbacks. -/
def gridScore (close atr : List F) (gaps : List Int) (lookback : Int) : Except String (List F) := do
  let n := close.length
  let lookback := lookback.toNat
  let move ← assignFrom lookback (closeMoves close lookback) (List.replicate n nan)
  let scale ← priorScale atr lookback
  let scale ← assignFrom lookback scale (List.replicate n nan)
  let score := List.zipWith (· / ·) move (scale.map positiveOrNan)
  return maskNan (crossesGap gaps n lookback) score

/-- The true ranges, `nan` standing for the close before the first bar. -/
def trueRanges (high low close : List F) : List F :=
  let prev := nan :: close.rdrop 1
  List.zipWith maximum (List.zipWith (· - ·) high low)
    (List.zipWith maximum (List.zipWith (fun h p ↦ NumpyFloat.abs (h - p)) high prev)
      (List.zipWith (fun l p ↦ NumpyFloat.abs (l - p)) low prev))

def setFirstRange (tr high low : List F) : Except String (List F) :=
  match high, low with
  | h :: _, l :: _ => .ok (tr.set 0 (h - l))
  | _, _ => .error "index 0 is out of bounds for axis 0 with size 0"

def atr [NatCast F] (high low close : List F) (period : Nat) : Except String (List F) := do
  let tr ← setFirstRange (trueRanges high low close) high low
  let out := List.replicate close.length nan
  if period ≤ close.length then
    let sums ← convolveValid tr (ones period)
    assignFrom (period - 1) (sums.map (· / (period : F))) out
  else
    return out

end

/-! ## The grid -/

/-- The parameters that `_validate_engine_config` reads. -/
structure EngineConfig (F : Type) where
  lookbacks : List Int
  zThresholds : List F
  takeProfitAtr : List F
  stopLossAtr : List F
  horizons : List Int
  newsBuffersBars : List Int
  candidateChunkSize : Int
  bootstrapReplicates : Int
  bootstrapBlockTradingDays : Int
  fdrQ : F
  costAlphaPrice : Option F
  baseSpreadPrice : Option F
  commissionRoundtripPrice : Option F
  randomSeed : Int

/-- The columns of the data, all of them there; timestamps are in nanoseconds. -/
structure BacktestData (F : Type) where
  opens : List F
  high : List F
  low : List F
  close : List F
  timestamp : List Int
  tickVolume : Option (List F)
  realVolume : Option (List F)

section Grid

variable {F : Type} [NumpyFloat F] [Zero F] [One F] [Sub F] [Div F] [NatCast F]
variable [LT F] [DecidableLT F] [LE F] [DecidableLE F]

def requireIntegers (name : String) (values : List Int) (minimum : Int) : Except String Unit :=
  require (values ≠ [] ∧ ∀ value ∈ values, ¬ value < minimum)
    (name ++ " must be a non-empty tuple of integers >= " ++ toString minimum)

def requirePositives (name : String) (values : List F) : Except String Unit :=
  require (values ≠ [] ∧ ∀ number ∈ values, NumpyFloat.isfinite number = true ∧ ¬ number ≤ 0)
    (name ++ " must be a non-empty tuple of finite positive numbers")

def requireInteger (name : String) (value minimum : Int) : Except String Unit :=
  require (¬ value < minimum) (name ++ " must be an integer >= " ++ toString minimum)

def requireCost (name : String) (cost : Option F) : Except String Unit :=
  require (∀ value ∈ cost, NumpyFloat.isfinite value = true ∧ ¬ value < 0)
    (name ++ " must be None or a finite nonnegative number")

def validateEngineConfig (config : EngineConfig F) : Except String Unit := do
  requireIntegers "lookbacks" config.lookbacks 1
  requireIntegers "horizons" config.horizons 1
  requireIntegers "news_buffers_bars" config.newsBuffersBars 0
  requirePositives "z_thresholds" config.zThresholds
  requirePositives "take_profit_atr" config.takeProfitAtr
  requirePositives "stop_loss_atr" config.stopLossAtr
  requireInteger "candidate_chunk_size" config.candidateChunkSize 1
  requireInteger "bootstrap_replicates" config.bootstrapReplicates 100
  requireInteger "bootstrap_block_trading_days" config.bootstrapBlockTradingDays 2
  requireInteger "random_seed" config.randomSeed 0
  require (NumpyFloat.isfinite config.fdrQ = true ∧ 0 < config.fdrQ ∧ config.fdrQ < 1)
    "fdr_q must be finite and strictly between 0 and 1"
  requireCost "base_spread_price" config.baseSpreadPrice
  requireCost "cost_alpha_price" config.costAlphaPrice
  requireCost "commission_roundtrip_price" config.commissionRoundtripPrice

def requirePrices (key : String) (values : List F) : Except String Unit :=
  require (∀ value ∈ values, NumpyFloat.isfinite value = true ∧ ¬ value ≤ 0)
    ("Invalid positive finite price series: " ++ key)

def requireVolumes (key : String) (n : Nat) (values : Option (List F)) : Except String Unit :=
  require (∀ vs ∈ values, vs.length = n ∧ ∀ v ∈ vs, NumpyFloat.isfinite v = true ∧ ¬ v < 0)
    (key ++ " must be finite, nonnegative and match OHLC row count")

/-- `np.any` of a comparison of two arrays. -/
def anyOf (p : F → F → Bool) (xs ys : List F) : Bool := (List.zipWith p xs ys).any id

def validateBacktestData (data : BacktestData F) : Except String Nat := do
  let n := data.close.length
  require (data.opens.length = n ∧ data.high.length = n ∧ data.low.length = n ∧
    data.timestamp.length = n) "OHLC and timestamp arrays must have equal lengths"
  require (n ≠ 0) "Empty OHLCV input"
  requirePrices "open" data.opens
  requirePrices "high" data.high
  requirePrices "low" data.low
  requirePrices "close" data.close
  require (¬ (anyOf (fun h x ↦ h < x) data.high (List.zipWith maximum data.opens data.close) ∨
      anyOf (fun l x ↦ l > x) data.low (List.zipWith minimum data.opens data.close) ∨
      anyOf (fun h l ↦ h < l) data.high data.low))
    "Invalid OHLC geometry"
  require (¬ (n > 1 ∧ (List.zipWith (fun t s ↦ decide (t - s ≤ 0)) data.timestamp.tail
      data.timestamp).any id))
    "Timestamps must be strictly increasing and unique"
  requireVolumes "tick_volume" n data.tickVolume
  requireVolumes "real_volume" n data.realVolume
  return n

def runGridChecks (data : BacktestData F) (config : EngineConfig F) : Except String Nat := do
  validateEngineConfig config
  let n ← validateBacktestData data
  require (¬ n < 100) "At least 100 bars required"
  return n

def gridLoop (close atr : List F) (gaps : List Int) :
    List Int → Dict Int (List F) → Except String (Dict Int (List F))
  | [], scores => .ok scores
  | lb :: lbs, scores => do
    let score ← gridScore close atr gaps lb
    gridLoop close atr gaps lbs (scores.set lb score)

def runGridScores (data : BacktestData F) (config : EngineConfig F) :
    Except String (Dict Int (List F)) := do
  let _ ← runGridChecks data config
  let atr ← atr data.high data.low data.close 14
  gridLoop data.close atr (gapPrefix data.timestamp) config.lookbacks ∅

end Grid

end Qros.Orchestration
