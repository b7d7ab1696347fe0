import Qros.Quant.Backtest.Engine

/-!
# The performance report

`PerformanceReport::compute` of `src/backtest/performance.cpp`, from the result of a backtest.  The
ratios are set where the equity curve allows it, and the figures of the trades once there is a closed
one.
-/

universe u

namespace Qros.Quant.Backtest

open DescriptiveStats RiskMetrics

structure PerformanceReport (F : Type u) where
  totalReturn : F
  totalReturnPct : F
  annualizedReturn : F
  annualizedVolatility : F
  sharpeRatio : F
  sortinoRatio : F
  calmarRatio : F
  maxDrawdownPct : F
  maxDrawdownDuration : F
  winRate : F
  profitFactor : F
  avgWin : F
  avgLoss : F
  largestWin : F
  largestLoss : F
  totalTrades : Nat
  winningTrades : Nat
  losingTrades : Nat
  downsideDeviation : F
  downsideDeviationAnnualized : F
  var95 : F
  var99 : F
  cvar95 : F
  cvar99 : F
  maxDrawdownRecoveryBars : Nat
  timeInDrawdownPct : F
deriving DecidableEq

/-- The result with the two further members that a report reads. -/
structure ReportedResult (F : Type u) extends BacktestResult F where
  winRate : F
  profitFactor : F

variable {F : Type u}

section Trades

variable [Zero F] [One F] [Add F] [Sub F] [Mul F] [Neg F] [LT F] [LE F] [DecidableLT F]
  [DecidableLE F]

def Trade.isProfitable (t : Trade F) : Bool := decide (t.status = .closed) && decide (0 < t.pnl)

namespace TradeBook

def closedTrades (b : TradeBook F) : List (Trade F) := b.trades.filter (·.status = .closed)

def totalTrades (b : TradeBook F) : Nat := b.trades.length

/-- `profitable_trades().size()`. -/
def winningTrades (b : TradeBook F) : Nat := (b.trades.filter Trade.isProfitable).length

def losingTradesCount (b : TradeBook F) : Nat :=
  (b.closedTrades.filter fun t ↦ t.pnl ≤ 0).length

end TradeBook

end Trades

section Source

variable [Zero F] [One F] [NatCast F] [Add F] [Sub F] [Mul F] [Div F] [Neg F] [LT F] [LE F]
  [DecidableLT F] [DecidableLE F] [BEq F] [CMath F] [SizeCast F]

/-- The bar-to-bar returns, without those that follow a zero. -/
def returnsOf : List F → List F
  | prev :: next :: rest =>
    if prev != 0 then (next - prev) / prev :: returnsOf (next :: rest)
    else returnsOf (next :: rest)
  | _ => []

/-- The local variables of the scan for the time in drawdown. -/
structure Underwater (F : Type u) where
  underwater : Nat
  worstRecovery : Nat
  peakIdx : Nat
  peak : F

def Underwater.step (equity : List F) (s : Underwater F) (i : Nat) : Underwater F :=
  let eq := equity.getD i 0
  if s.peak ≤ eq then { s with peak := eq, peakIdx := i }
  else { s with
    underwater := s.underwater + 1
    worstRecovery := max s.worstRecovery (i - s.peakIdx) }

def Underwater.after (equity : List F) (k : Nat) : Underwater F :=
  (List.range k).foldl (Underwater.step equity) ⟨0, 0, 0, equity.getD 0 0⟩

section Blocks

variable (equity returns : List F) (tradingDaysPerYear : F) (r : PerformanceReport F)

/-- Downside deviation, with the target zero. -/
def withDownside : PerformanceReport F :=
  let sumSq := returns.foldl (fun sum ret ↦ if ret < 0 then sum + ret * ret else sum) 0
  let downsideDeviation := CMath.sqrt (sumSq / (returns.length : F))
  { r with
    downsideDeviation
    downsideDeviationAnnualized := downsideDeviation * CMath.sqrt tradingDaysPerYear }

def withVar : PerformanceReport F :=
  match valueAtRisk returns (95 / 100) (99 / 100) with
  | .ok var =>
    { r with var95 := var.var95, var99 := var.var99, cvar95 := var.cvar95, cvar99 := var.cvar99 }
  | .error _ => r

/-- Time in drawdown and the worst recovery. -/
def withUnderwater : PerformanceReport F :=
  let scan := Underwater.after equity equity.length
  { r with
    timeInDrawdownPct := (scan.underwater : F) / (equity.length : F) * 100
    maxDrawdownRecoveryBars := scan.worstRecovery }

def withAnnualized : PerformanceReport F :=
  let meanRet := meanOf returns
  let stddev := CMath.sqrt (varianceOf returns meanRet)
  { r with
    annualizedReturn := meanRet * tradingDaysPerYear
    annualizedVolatility := stddev * CMath.sqrt tradingDaysPerYear }

def withSharpe : PerformanceReport F :=
  match RiskMetrics.sharpeRatio returns 0 with
  | .ok sr => { r with sharpeRatio := sr * CMath.sqrt tradingDaysPerYear }
  | .error _ => r

def withSortino : PerformanceReport F :=
  match RiskMetrics.sortinoRatio returns 0 0 with
  | .ok sortino => { r with sortinoRatio := sortino * CMath.sqrt tradingDaysPerYear }
  | .error _ => r

def withCalmar : PerformanceReport F :=
  if r.maxDrawdownPct != 0 then
    { r with calmarRatio := r.annualizedReturn / (r.maxDrawdownPct / 100) }
  else r

/-- The blocks for a curve that has a bar. -/
def withCurve : PerformanceReport F :=
  let returns := returnsOf equity
  let r := withDownside returns tradingDaysPerYear r
  let r := withUnderwater equity (withVar returns r)
  if returns.isEmpty then r
  else
    let r := withAnnualized returns tradingDaysPerYear r
    withCalmar (withSortino returns tradingDaysPerYear (withSharpe returns tradingDaysPerYear r))

end Blocks

/-- The sums and counts of the winning and the losing trades. -/
structure WinsLosses (F : Type u) where
  winSum : F
  lossSum : F
  wins : Nat
  losses : Nat

def WinsLosses.step (s : WinsLosses F) (t : Trade F) : WinsLosses F :=
  if t.isProfitable then { s with winSum := s.winSum + t.pnl, wins := s.wins + 1 }
  else { s with lossSum := s.lossSum + fabs t.pnl, losses := s.losses + 1 }

def winsLosses (closed : List (Trade F)) : WinsLosses F :=
  closed.foldl WinsLosses.step ⟨0, 0, 0, 0⟩

def profitFactorOf (s : WinsLosses F) : F :=
  if 0 < s.lossSum then s.winSum / s.lossSum else if 0 < s.winSum then CMath.infinity else 0

def withTrades (closed : List (Trade F)) (r : PerformanceReport F) : PerformanceReport F :=
  match closed.map Trade.pnl with
  | [] => r
  | first :: rest =>
    let s := winsLosses closed
    { r with
      largestLoss := rest.foldl (fun m x ↦ if x < m then x else m) first
      largestWin := rest.foldl (fun m x ↦ if x < m then m else x) first
      avgWin := if 0 < s.wins then s.winSum / (s.wins : F) else 0
      avgLoss := if 0 < s.losses then s.lossSum / (s.losses : F) else 0
      profitFactor := profitFactorOf s
      winRate := (s.wins : F) / (closed.length : F) * 100 }

/-- The report before any of its blocks. -/
def baseReport (result : ReportedResult F) : PerformanceReport F where
  totalReturn := result.finalEquity - result.config.initialCapital
  totalReturnPct := result.totalReturnPct
  annualizedReturn := 0
  annualizedVolatility := 0
  sharpeRatio := 0
  sortinoRatio := 0
  calmarRatio := 0
  maxDrawdownPct := result.maxDrawdownPct
  maxDrawdownDuration := 0
  winRate := result.winRate
  profitFactor := result.profitFactor
  avgWin := 0
  avgLoss := 0
  largestWin := 0
  largestLoss := 0
  totalTrades := result.tradeBook.totalTrades
  winningTrades := result.tradeBook.winningTrades
  losingTrades := result.tradeBook.losingTradesCount
  downsideDeviation := 0
  downsideDeviationAnnualized := 0
  var95 := 0
  var99 := 0
  cvar95 := 0
  cvar99 := 0
  maxDrawdownRecoveryBars := 0
  timeInDrawdownPct := 0

def PerformanceReport.compute (result : ReportedResult F) (tradingDaysPerYear : F) :
    PerformanceReport F :=
  let r := baseReport result
  let r := if result.equityCurve.isEmpty then r
    else withCurve result.equityCurve tradingDaysPerYear r
  withTrades result.tradeBook.closedTrades r

end Source

end Qros.Quant.Backtest
