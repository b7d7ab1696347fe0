import Qros.Lib.KeySort
import Qros.Quant.Strategy.Kernel

/-!
# `StrategyKernel::run`

The bar loop of `run` is cut into the steps its comments name: the daily reset,
the session close, the fills of the queued signals, the management of open
positions, the loss-limit breaker, the curves and the queue.  `stateAfter n` is
the state once the first `n` bars are done.
-/

universe u

/-!
## Statistics and calendar-period returns

The reporting passes of `src/strategy/strategy_kernel.cpp`.  They read the
finished run and change nothing in it.
-/

namespace Qros.Quant.Strategy

variable {F : Type u} [Zero F] [One F] [NatCast F] [Add F] [Sub F] [Mul F] [Div F] [Neg F]
  [LT F] [LE F] [DecidableLT F] [DecidableLE F]

/-! ## Statistics -/

/-- `periods_per_year`: from the median spacing of the bars in seconds. -/
def periodsPerYear [IntCast F] (bars : List (OHLCV F)) : F :=
  if bars.length < 2 then 252
  else
    let deltas := (List.range (bars.length - 1)).map fun i ↦
      toSeconds ((barAt bars (i + 1)).timestamp - (barAt bars i).timestamp)
    let sorted := deltas.insertionSort (· ≤ ·)
    let med : F := ((sorted.getD (sorted.length / 2) 0 : Int) : F)
    if 0 < med then 31557600 / med else 252

/-- The running values of the loop over the trades. -/
structure TradeTally (F : Type u) where
  grossProfit : F
  grossLoss : F
  net : F
  sumR : F
  totalCommission : F
  totalSlippage : F
  wins : Nat
  losses : Nat
  breakeven : Nat
  curW : Nat
  curL : Nat
  maxW : Nat
  maxL : Nat

def TradeTally.empty : TradeTally F := ⟨0, 0, 0, 0, 0, 0, 0, 0, 0, 0, 0, 0, 0⟩

def TradeTally.add (s : TradeTally F) (t : TradeResult F) : TradeTally F :=
  let s := { s with
    net := s.net + t.netPnl
    sumR := s.sumR + t.rMultiple
    totalCommission := s.totalCommission + t.commission
    totalSlippage := s.totalSlippage + t.slippage }
  if 0 < t.netPnl then
    { s with
      wins := s.wins + 1
      grossProfit := s.grossProfit + t.netPnl
      curW := s.curW + 1
      curL := 0
      maxW := max s.maxW (s.curW + 1) }
  else if t.netPnl < 0 then
    { s with
      losses := s.losses + 1
      grossLoss := s.grossLoss + -t.netPnl
      curL := s.curL + 1
      curW := 0
      maxL := max s.maxL (s.curL + 1) }
  else { s with breakeven := s.breakeven + 1 }

/-- `peak`, `max_dd` and `max_dd_peak` of the loop over the equity curve. -/
structure DrawdownTally (F : Type u) where
  peak : F
  maxDd : F
  maxDdPeak : F

def DrawdownTally.add (s : DrawdownTally F) (eq : F) : DrawdownTally F :=
  let peak := if s.peak < eq then eq else s.peak
  let dd := if 0 < peak then (peak - eq) / peak else 0
  if s.maxDd < dd then ⟨peak, dd, peak⟩ else { s with peak := peak }

/-- `rets`: the returns from each point of the curve to the next. -/
def curveReturns : List F → List F
  | prev :: eq :: rest => (if 0 < prev then (eq - prev) / prev else 0) :: curveReturns (eq :: rest)
  | _ => []

structure ReturnStats (F : Type u) where
  annualizedVolatility : F
  sharpe : F
  sortino : F
  totalReturnPct : F
  annualizedReturn : F

section Compute

variable [CMath F] [IntCast F] [BEq F]

def returnStats (bars : List (OHLCV F)) (curve : List F) (initial final : F) : ReturnStats F :=
  let n := curve.length
  if n < 2 then ⟨0, 0, 0, 0, 0⟩
  else
    let rets := curveReturns curve
    let mean := rets.foldl (· + ·) 0 / ((n - 1 : Nat) : F)
    let var := rets.foldl (fun acc rr ↦ acc + (rr - mean) * (rr - mean)) 0 / ((n - 1 : Nat) : F)
    let downside := rets.foldl (fun acc rr ↦ if rr < 0 then acc + rr * rr else acc) 0
    let sd := CMath.sqrt var
    let downsideDev := CMath.sqrt (downside / ((n - 1 : Nat) : F))
    let periods := periodsPerYear bars
    { annualizedVolatility := sd * CMath.sqrt periods
      sharpe := if 0 < sd then mean / sd * CMath.sqrt periods else 0
      sortino := if 0 < downsideDev then mean / downsideDev * CMath.sqrt periods
        else if 0 < mean then CMath.infinity else 0
      totalReturnPct := if 0 < initial then (final / initial - 1) * 100 else 0
      annualizedReturn := if 0 < initial ∧ 0 < final then
          CMath.pow (final / initial) (periods / (n : F)) - 1
        else 0 }

def computeStats (bars : List (OHLCV F)) (trades : List (TradeResult F)) (curve ddCurve : List F)
    (initial final : F) : StrategyStats F :=
  let t := trades.foldl TradeTally.add TradeTally.empty
  let total := trades.length
  let averageWin := if t.wins = 0 then 0 else t.grossProfit / (t.wins : F)
  let averageLoss := if t.losses = 0 then 0 else -t.grossLoss / (t.losses : F)
  let d : DrawdownTally F := match curve with
    | [] => ⟨0, 0, 0⟩
    | eq :: _ => curve.foldl DrawdownTally.add ⟨eq, 0, eq⟩
  let maxDrawdownPct := d.maxDd * 100
  let maxDrawdown := d.maxDdPeak * d.maxDd
  let r := returnStats bars curve initial final
  { totalTrades := total
    winningTrades := t.wins
    losingTrades := t.losses
    breakevenTrades := t.breakeven
    winRate := if total = 0 then 0 else (t.wins : F) / (total : F) * 100
    averageWin := averageWin
    averageLoss := averageLoss
    averageRr := if averageLoss != 0 then fabs (averageWin / averageLoss)
      else if t.wins = 0 then 0 else CMath.infinity
    profitFactor := if 0 < t.grossLoss then t.grossProfit / t.grossLoss
      else if 0 < t.grossProfit then CMath.infinity else 0
    expectancy := if total = 0 then 0 else t.net / (total : F)
    expectancyR := if total = 0 then 0 else t.sumR / (total : F)
    grossProfit := t.grossProfit
    grossLoss := t.grossLoss
    netProfit := t.net
    maxDrawdown := maxDrawdown
    maxDrawdownPct := maxDrawdownPct
    maxConsecutiveLosses := t.maxL
    maxConsecutiveWins := t.maxW
    recoveryFactor := if 0 < maxDrawdown then t.net / maxDrawdown else 0
    sharpe := r.sharpe
    sortino := r.sortino
    calmar := if curve.length < 2 then 0
      else if 0 < maxDrawdownPct then r.annualizedReturn * 100 / maxDrawdownPct else 0
    ulcerIndex := if ddCurve.isEmpty then 0
      else CMath.sqrt (ddCurve.foldl (fun acc dd ↦ acc + dd * dd) 0 / (ddCurve.length : F))
    totalCommission := t.totalCommission
    totalSlippage := t.totalSlippage
    totalReturnPct := r.totalReturnPct
    annualizedReturn := r.annualizedReturn
    annualizedVolatility := r.annualizedVolatility }

end Compute

/-! ## Calendar period returns -/

inductive Granularity where
  | monthly
  | yearly
deriving DecidableEq

/-- The label of the period a bar belongs to, `YYYY-MM` or `YYYY`. -/
def periodLabel (g : Granularity) (ts : TimePoint) : List Char :=
  match g with
  | .monthly => zeroPadded 4 (utcParts ts).year ++ '-' :: zeroPadded 2 (utcParts ts).month
  | .yearly => zeroPadded 4 (utcParts ts).year

/-- The variables of the loop of `build_period_returns`: the periods already
closed, the label of the current one (empty before the first bar), its start
equity and the equity of the last bar. -/
structure PeriodState (F : Type u) where
  out : List (PeriodReturn F)
  cur : List Char
  periodStart : F
  lastEq : F

def closePeriod (s : PeriodState F) : PeriodReturn F where
  label := s.cur
  startEquity := s.periodStart
  endEquity := s.lastEq
  returnPct := if 0 < s.periodStart then (s.lastEq / s.periodStart - 1) * 100 else 0

def periodStep (g : Granularity) (s : PeriodState F) (b : OHLCV F × F) : PeriodState F :=
  let lbl := periodLabel g b.1.timestamp
  let s := if s.cur.isEmpty then { s with cur := lbl } else s
  let s := if lbl != s.cur then
      { s with out := s.out ++ [closePeriod s], cur := lbl, periodStart := s.lastEq }
    else s
  { s with lastEq := b.2 }

def buildPeriodReturns (g : Granularity) (bars : List (OHLCV F)) (curve : List F) (initial : F) :
    List (PeriodReturn F) :=
  let s := (bars.zip curve).foldl (periodStep g) ⟨[], [], initial, initial⟩
  if s.cur.isEmpty then s.out else s.out ++ [closePeriod s]

end Qros.Quant.Strategy

namespace Qros.Quant.Strategy

open Qros.Lib.KeySort

/-! ## Errors -/

inductive ErrorCode where
  | insufficientData
  | invalidArgument
  | outOfBounds
deriving DecidableEq

structure Error where
  code : ErrorCode
  message : String

/-- The state of the bar loop.  `rest` is `ordered` from the cursor `si` on. -/
structure LoopState (F : Type u) where
  ctx : Context F
  equityCurve : List F
  drawdownCurve : List F
  peakEq : F
  rest : List (StrategySignal F)
  signalsProcessed : Nat

variable {F : Type u} [Zero F] [One F] [NatCast F] [Add F] [Sub F] [Mul F] [Div F] [Neg F]
  [LT F] [LE F] [DecidableLT F] [DecidableLE F]

/-! ## Validation -/

def barError (bars : List (OHLCV F)) (i : Nat) : Option Error :=
  if !(barAt bars i).isValid then
    some ⟨.invalidArgument, "invalid OHLC bar at index " ++ toString i⟩
  else if 0 < i ∧ (barAt bars i).timestamp < (barAt bars (i - 1)).timestamp then
    some ⟨.invalidArgument, "bar timestamps must be non-decreasing"⟩
  else none

def inputError (bars : List (OHLCV F)) (signals : List (StrategySignal F)) : Option Error :=
  if bars.isEmpty then
    some ⟨.insufficientData, "strategy kernel requires at least one bar"⟩
  else match (List.range bars.length).findSome? (barError bars) with
    | some e => some e
    | none =>
      if signals.any (fun s ↦ decide (s.barIndex < 0) ||
          decide ((bars.length : Int) ≤ s.barIndex)) then
        some ⟨.outOfBounds, "signal bar_index out of range"⟩
      else none

/-! ## One bar -/

def needDaily (rc : RiskConfig F) : Bool :=
  decide (0 < rc.dailyLossLimitPct) || decide (0 < rc.maxTradesPerDay)

/-- The reset of the daily counters on the first bar of a UTC day. -/
def dailyReset (rc : RiskConfig F) (bar : OHLCV F) (ctx : Context F) : Context F :=
  if needDaily rc && (utcParts bar.timestamp).dayKey != ctx.lastDayKey then
    { ctx with
      lastDayKey := (utcParts bar.timestamp).dayKey
      dailyStartEquity := ctx.currentEquity
      dailyTrades := 0
      lossLimitHit := false }
  else ctx

section Loop

variable [CMath F]

/-- The forced close when the bar is the first one outside the session. -/
def sessionClose (cfg : StrategyConfig F) (bar : OHLCV F) (barIdx : Int) (ctx : Context F) :
    Context F :=
  if cfg.risk.closeOnSessionEnd && cfg.risk.session.enabled then
    let inside := inSession cfg.risk bar.timestamp
    let ctx := if ctx.prevSessionKnown && ctx.prevInSession && !inside then
        closeAll cfg.trade ctx bar.open .sessionClose barIdx bar.timestamp
      else ctx
    { ctx with prevInSession := inside, prevSessionKnown := true }
  else ctx

/-- The fills of the signals queued by the previous bar, at this bar's open. -/
def fillPending (env : Env F) (bar : OHLCV F) (barIdx : Int) (ctx : Context F) : Context F :=
  { ctx.pending.foldl (executeSignal env bar barIdx) ctx with pending := [] }

/-- The condition of the daily loss-limit breaker for the equity `eq` at the
close. -/
def breakerTrips (rc : RiskConfig F) (ctx : Context F) (eq : F) : Bool :=
  decide (0 < rc.dailyLossLimitPct) && !ctx.lossLimitHit &&
    decide (eq ≤ ctx.dailyStartEquity * (1 - rc.dailyLossLimitPct / 100))

/-- The breaker: the new context and the equity reported for the bar. -/
def lossLimitBreaker (cfg : StrategyConfig F) (bar : OHLCV F) (barIdx : Int) (ctx : Context F)
    (eq : F) : Context F × F :=
  if breakerTrips cfg.risk ctx eq then
    let ctx := closeAll cfg.trade { ctx with lossLimitHit := true } bar.close .dailyLossLimit
      barIdx bar.timestamp
    (ctx, ctx.cash)
  else (ctx, eq)

/-- The context in which the bar's signals are filled. -/
def beforeFills (env : Env F) (ctx : Context F) (i : Nat) : Context F :=
  let bar := barAt env.bars i
  sessionClose env.cfg bar i (dailyReset env.cfg.risk bar ctx)

/-- The context once the bar's positions have been managed. -/
def managed (env : Env F) (ctx : Context F) (i : Nat) : Context F :=
  let bar := barAt env.bars i
  managePositions env.cfg.trade bar i (fillPending env bar i (beforeFills env ctx i))

/-- The context and the reported equity at the close of the bar. -/
def closeBar (env : Env F) (ctx : Context F) (i : Nat) : Context F × F :=
  let bar := barAt env.bars i
  let ctx := managed env ctx i
  lossLimitBreaker env.cfg bar i ctx (markToMarket ctx bar.close)

end Loop

/-- Queue one signal of the bar: an `Open` under a hit loss limit is ignored. -/
def queueSignal (ctx : Context F) (sig : StrategySignal F) : Context F :=
  if ctx.lossLimitHit && decide (sig.action = .open) then ignoreSignal ctx
  else { ctx with pending := ctx.pending ++ [sig] }

section Loop

variable [CMath F]

/-- The body of the bar loop at bar `i`, given the signals stamped with it. -/
def barStep (env : Env F) (i : Nat) (sigs rest : List (StrategySignal F)) (st : LoopState F) :
    LoopState F :=
  let (ctx, eq) := closeBar env st.ctx i
  let ctx := { ctx with currentEquity := eq }
  let peakEq := if st.peakEq < eq then eq else st.peakEq
  let ddPct := if 0 < peakEq then (peakEq - eq) / peakEq * 100 else 0
  { ctx := sigs.foldl queueSignal ctx
    equityCurve := st.equityCurve ++ [eq]
    drawdownCurve := st.drawdownCurve ++ [ddPct]
    peakEq := peakEq
    rest := rest
    signalsProcessed := st.signalsProcessed + sigs.length }

/-- The body of the bar loop at bar `i`; the cursor takes the signals of the bar
off `rest`. -/
def loopBody (env : Env F) (i : Nat) (st : LoopState F) : LoopState F :=
  barStep env i (st.rest.takeWhile (fun s ↦ decide (s.barIndex = (i : Int))))
    (st.rest.dropWhile (fun s ↦ decide (s.barIndex = (i : Int)))) st

def initialContext (rc : RiskConfig F) : Context F where
  trades := []
  cash := rc.initialEquity
  currentEquity := rc.initialEquity
  positions := []
  pending := []
  nextId := 1
  signalsOpened := 0
  signalsIgnored := 0
  lastDayKey := 0
  dailyStartEquity := 0
  dailyTrades := 0
  lossLimitHit := false
  prevInSession := false
  prevSessionKnown := false

def initialState (rc : RiskConfig F) (ordered : List (StrategySignal F)) : LoopState F where
  ctx := initialContext rc
  equityCurve := []
  drawdownCurve := []
  peakEq := rc.initialEquity
  rest := ordered
  signalsProcessed := 0

def stateAfter (env : Env F) (ordered : List (StrategySignal F)) : Nat → LoopState F
  | 0 => initialState env.cfg.risk ordered
  | n + 1 => loopBody env n (stateAfter env ordered n)

/-- The liquidation of whatever is open at the final close. -/
def liquidate (env : Env F) (ctx : Context F) : Context F :=
  let last := barAt env.bars (env.bars.length - 1)
  closeAll env.cfg.trade ctx last.close .endOfData ((env.bars.length : Int) - 1) last.timestamp

/-! ## The run -/

/-- The signal stream by bar index; equal indices keep their order. -/
def orderSignals (signals : List (StrategySignal F)) : List (StrategySignal F) :=
  stableSortBy StrategySignal.barIndex signals

def needAtr (tc : TradeConfig F) : Bool :=
  decide (tc.stopType = .atr) || decide (0 < tc.atrSlMultiplier) ||
    decide (0 < tc.atrTpMultiplier) || decide (0 < tc.atrTrailingMultiplier)

def runEnv (cfg : StrategyConfig F) (bars : List (OHLCV F)) : Env F where
  bars := bars
  cfg := cfg
  atr := if needAtr cfg.trade then computeAtr bars cfg.trade.atrPeriod else []

def contextBefore (cfg : StrategyConfig F) (bars : List (OHLCV F))
    (signals : List (StrategySignal F)) (i : Nat) : Context F :=
  (stateAfter (runEnv cfg bars) (orderSignals signals) i).ctx

def openAfter (cfg : StrategyConfig F) (bars : List (OHLCV F)) (signals : List (StrategySignal F))
    (i : Nat) : List (OpenPosition F) :=
  (contextBefore cfg bars signals (i + 1)).positions

def loopEnd (cfg : StrategyConfig F) (bars : List (OHLCV F)) (signals : List (StrategySignal F)) :
    LoopState F :=
  stateAfter (runEnv cfg bars) (orderSignals signals) bars.length

/-- The run on input that has passed validation. -/
def simulate [IntCast F] [BEq F] (cfg : StrategyConfig F) (bars : List (OHLCV F))
    (signals : List (StrategySignal F)) : SimulationResult F :=
  let st := loopEnd cfg bars signals
  let ctx := liquidate (runEnv cfg bars) st.ctx
  { stats := computeStats bars ctx.trades st.equityCurve st.drawdownCurve cfg.risk.initialEquity
      ctx.cash
    equityCurve := st.equityCurve
    drawdownCurve := st.drawdownCurve
    trades := ctx.trades
    monthlyReturns := buildPeriodReturns .monthly bars st.equityCurve cfg.risk.initialEquity
    yearlyReturns := buildPeriodReturns .yearly bars st.equityCurve cfg.risk.initialEquity
    barsProcessed := bars.length
    signalsProcessed := st.signalsProcessed
    signalsOpened := ctx.signalsOpened
    signalsIgnored := ctx.signalsIgnored
    initialEquity := cfg.risk.initialEquity
    finalEquity := ctx.cash }

def run [IntCast F] [BEq F] (cfg : StrategyConfig F) (bars : List (OHLCV F))
    (signals : List (StrategySignal F)) : Except Error (SimulationResult F) :=
  match inputError bars signals with
  | some e => .error e
  | none => .ok (simulate cfg bars signals)

end Loop

end Qros.Quant.Strategy
