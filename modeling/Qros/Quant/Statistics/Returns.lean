import Qros.Quant.Arith

/-!
# Statistics of returns

`mean_of` and `variance_of` of `src/statistics/descriptive.cpp`, and the value at risk and the ratios
of `src/statistics/risk.cpp`.
-/

universe u

namespace Qros.Quant

variable {F : Type u}

class SizeCast (F : Type u) where
  /-- `static_cast<size_t>` of a `double`. -/
  toSize : F → Nat

/-- The fraction is cut off. -/
instance : SizeCast ℚ := ⟨fun x ↦ x.floor.toNat⟩

section Source

variable [Zero F] [One F] [NatCast F] [Add F] [Sub F] [Mul F] [Div F] [Neg F] [LT F]
  [DecidableLT F] [BEq F]

namespace DescriptiveStats

def meanOf (data : List F) : F :=
  if data.isEmpty then 0 else data.foldl (· + ·) 0 / (data.length : F)

def varianceOf (data : List F) (meanVal : F) : F :=
  if data.length < 2 then 0
  else data.foldl (fun acc x ↦ let d := x - meanVal; acc + d * d) 0 / (data.length : F)

end DescriptiveStats

namespace RiskMetrics

open DescriptiveStats

structure VaRResult (F : Type u) where
  var95 : F
  var99 : F
  cvar95 : F
  cvar99 : F

/-- The position both lambdas compute. -/
def varIndex [SizeCast F] (sorted : List F) (conf : F) : Nat :=
  min (SizeCast.toSize ((1 - conf) * (sorted.length : F))) (sorted.length - 1)

def computeVar [SizeCast F] (sorted : List F) (conf : F) : F :=
  -sorted.getD (varIndex sorted conf) 0

def computeCvar [SizeCast F] (sorted : List F) (conf : F) : F :=
  let idx := varIndex sorted conf
  let sum := (sorted.take (idx + 1)).foldl (· + ·) 0
  (-sum) / ((idx + 1 : Nat) : F)

def valueAtRisk [SizeCast F] (returns : List F) (confidence95 confidence99 : F) :
    Result (VaRResult F) :=
  if returns.isEmpty then .error ⟨.insufficientData, "empty returns"⟩
  else
    let sorted := returns.mergeSort fun a b ↦ !decide (b < a)
    .ok {
      var95 := computeVar sorted confidence95
      var99 := computeVar sorted confidence99
      cvar95 := computeCvar sorted confidence95
      cvar99 := computeCvar sorted confidence99 }

variable [CMath F]

def sharpeRatio (returns : List F) (riskFreeRate : F) : Result F :=
  if returns.length < 2 then .error ⟨.insufficientData, "need at least 2 returns"⟩
  else
    let meanRet := meanOf returns
    let excess := meanRet - riskFreeRate
    let var := varianceOf returns meanRet
    if var == 0 then .error ⟨.divisionByZero, "zero variance"⟩
    else .ok (excess / CMath.sqrt var)

/-- One return of the loop of `sortino_ratio`, over the sum of the squares and their count. -/
def sortinoStep (targetReturn : F) (s : F × Nat) (r : F) : F × Nat :=
  let diff := r - targetReturn
  if diff < 0 then (s.1 + diff * diff, s.2 + 1) else s

def sortinoRatio (returns : List F) (riskFreeRate targetReturn : F) : Result F :=
  if returns.length < 2 then .error ⟨.insufficientData, "need at least 2 returns"⟩
  else
    let meanRet := meanOf returns
    let excess := meanRet - riskFreeRate
    let (downside, count) := returns.foldl (sortinoStep targetReturn) (0, 0)
    if count = 0 then .ok (excess / CMath.sqrt (varianceOf returns meanRet))
    else
      let downsideDev := CMath.sqrt (downside / (returns.length : F))
      if downsideDev == 0 then .error ⟨.divisionByZero, "zero downside deviation"⟩
      else .ok (excess / downsideDev)

end RiskMetrics

end Source

end Qros.Quant

/-!
## Risk metrics

The drawdown of `src/statistics/risk.cpp`, which walks the equity curve once and
keeps the highest point so far and the deepest relative fall from it.
-/

namespace Qros.Quant.RiskMetrics

variable {F : Type u}

structure DrawdownInfo (F : Type u) where
  maxDrawdown : F
  maxDrawdownPct : F
  peakIndex : Nat
  troughIndex : Nat
  recoveryIndex : Nat
deriving DecidableEq

structure DrawdownLoop (F : Type u) where
  dd : DrawdownInfo F
  peak : F
  peakIdx : Nat
  maxDd : F
  troughIdx : Nat

section Source

variable [Zero F] [NatCast F] [Sub F] [Mul F] [Div F] [LT F] [LE F] [DecidableLT F] [DecidableLE F]

def DrawdownLoop.initial (first : F) : DrawdownLoop F :=
  ⟨⟨0, 0, 0, 0, 0⟩, first, 0, 0, 0⟩

def DrawdownLoop.step (curve : List F) (s : DrawdownLoop F) (i : Nat) : DrawdownLoop F :=
  let e := curve.getD i 0
  let s := if s.peak < e then { s with peak := e, peakIdx := i } else s
  let drawdown := (s.peak - e) / s.peak
  let s :=
    if s.maxDd < drawdown then
      { s with
        maxDd := drawdown
        troughIdx := i
        dd := { s.dd with peakIndex := s.peakIdx, troughIndex := i } }
    else s
  if s.peak ≤ e ∧ 0 < s.maxDd ∧ s.dd.recoveryIndex = 0 then
    { s with dd := { s.dd with recoveryIndex := i } }
  else s

def maxDrawdown (equityCurve : List F) : Result (DrawdownInfo F) :=
  match equityCurve with
  | [] => .error ⟨.insufficientData, "empty equity curve"⟩
  | first :: _ =>
    let s := (List.range' 1 (equityCurve.length - 1)).foldl (DrawdownLoop.step equityCurve)
      (DrawdownLoop.initial first)
    .ok { s.dd with
      maxDrawdown := s.peak - equityCurve.getD s.troughIdx 0
      maxDrawdownPct := s.maxDd * 100 }

end Source

section Exact

variable [Field F] [LinearOrder F]

end Exact

end Qros.Quant.RiskMetrics
