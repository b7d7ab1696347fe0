import Qros.Quant.Market

/-!
# Signals, configuration, positions and trades

The value types of `include/quant/strategy`.  `int64_t` and `int` are `Int`,
`size_t` is `Nat`, `double` is the arithmetic `F`.
-/

universe u

namespace Qros.Quant.Strategy

/-! ## Signals -/

inductive TradeSide where
  | long
  | short
deriving DecidableEq

def TradeSide.flip : TradeSide → TradeSide
  | .long => .short
  | .short => .long

inductive SignalAction where
  | none
  | «open»
  | close
  | closeAll
  | modify
deriving DecidableEq

structure StrategySignal (F : Type u) where
  barIndex : Int
  action : SignalAction
  side : TradeSide
  quantity : F
  stopLoss : F
  takeProfit : F
  trailingStop : F
  hasStopLoss : Bool
  hasTakeProfit : Bool
  hasTrailingStop : Bool
  riskAmount : F
deriving DecidableEq

/-- The default member initializers. -/
def StrategySignal.defaults {F : Type u} [Zero F] : StrategySignal F where
  barIndex := -1
  action := .none
  side := .long
  quantity := 0
  stopLoss := 0
  takeProfit := 0
  trailingStop := 0
  hasStopLoss := false
  hasTakeProfit := false
  hasTrailingStop := false
  riskAmount := 0

/-! ## Configuration -/

inductive PositionSizing where
  | fixedLot
  | riskPercent
deriving DecidableEq

inductive StopType where
  | none
  | fixed
  | atr
deriving DecidableEq

structure SessionFilter where
  enabled : Bool
  utcStartHour : Int
  utcEndHour : Int
  allowSaturday : Bool
  allowSunday : Bool
deriving DecidableEq

namespace SessionFilter

def allowsWeekday (s : SessionFilter) (utcDow : Int) : Bool :=
  if utcDow = 0 then s.allowSunday
  else if utcDow = 6 then s.allowSaturday
  else true

def allowsHour (s : SessionFilter) (utcHour : Int) : Bool :=
  if !s.enabled then true
  else if s.utcStartHour ≤ s.utcEndHour then
    decide (s.utcStartHour ≤ utcHour) && decide (utcHour ≤ s.utcEndHour)
  else
    -- wrap past midnight
    decide (s.utcStartHour ≤ utcHour) || decide (utcHour ≤ s.utcEndHour)

def allows (s : SessionFilter) (utcHour utcDow : Int) : Bool :=
  s.allowsHour utcHour && s.allowsWeekday utcDow

end SessionFilter

structure TradeConfig (F : Type u) where
  sizing : PositionSizing
  fixedLot : F
  riskPercent : F
  riskAmount : F
  defaultQuantity : F
  commissionPct : F
  commissionPerLot : F
  spreadPct : F
  slippagePct : F
  stopType : StopType
  stopLoss : F
  takeProfit : F
  atrPeriod : Int
  atrSlMultiplier : F
  atrTpMultiplier : F
  trailingStop : F
  atrTrailingMultiplier : F
  trailingActivationPct : F
  breakEvenActivationPct : F
  partialClosePct : F
  partialCloseTargetPct : F
  maxBarsInTrade : Int
  allowLong : Bool
  allowShort : Bool
deriving DecidableEq

structure RiskConfig (F : Type u) where
  initialEquity : F
  dailyLossLimitPct : F
  maxOpenPositions : Nat
  maxTradesPerDay : Nat
  session : SessionFilter
  closeOnSessionEnd : Bool
deriving DecidableEq

structure StrategyConfig (F : Type u) where
  trade : TradeConfig F
  risk : RiskConfig F
deriving DecidableEq

section Defaults

variable {F : Type u} [NatCast F] [Div F]

def decimal (n d : Nat) : F := (n : F) / ((10 ^ d : Nat) : F)

/-- The default member initializers. -/
def TradeConfig.defaults [Zero F] [One F] : TradeConfig F where
  sizing := .riskPercent
  fixedLot := 0
  riskPercent := 1
  riskAmount := 0
  defaultQuantity := 1
  commissionPct := decimal 1 3
  commissionPerLot := 0
  spreadPct := decimal 1 4
  slippagePct := decimal 5 4
  stopType := .fixed
  stopLoss := 0
  takeProfit := 0
  atrPeriod := 14
  atrSlMultiplier := 0
  atrTpMultiplier := 0
  trailingStop := 0
  atrTrailingMultiplier := 0
  trailingActivationPct := 0
  breakEvenActivationPct := 0
  partialClosePct := 0
  partialCloseTargetPct := 0
  maxBarsInTrade := 0
  allowLong := true
  allowShort := true

/-- The default member initializers. -/
def RiskConfig.defaults [Zero F] : RiskConfig F where
  initialEquity := (100000 : Nat)
  dailyLossLimitPct := 0
  maxOpenPositions := 0
  maxTradesPerDay := 0
  session :=
    { enabled := false
      utcStartHour := 0
      utcEndHour := 23
      allowSaturday := true
      allowSunday := true }
  closeOnSessionEnd := false

def StrategyConfig.defaults [Zero F] [One F] : StrategyConfig F :=
  ⟨TradeConfig.defaults, RiskConfig.defaults⟩

end Defaults

/-! ## Positions -/

structure OpenPosition (F : Type u) where
  id : Int
  entryBar : Int
  entryTime : TimePoint
  side : TradeSide
  entryPrice : F
  openRaw : F
  quantity : F
  entryQuantity : F
  stopLoss : F
  takeProfit : F
  initialStop : F
  trailingDistance : F
  activationDistance : F
  breakEvenActivation : F
  partialTarget : F
  entryCommission : F
  totalCommission : F
  entryValue : F
  riskedAmount : F
  mfe : F
  mae : F
  realizedPnl : F
  avgExitPrice : F
  closedQuantity : F
  slippage : F
  barsOpen : Int
  trailingActive : Bool
  breakEvenMoved : Bool
  partialClosed : Bool
  partialFillCount : Int
deriving DecidableEq

/-! ## Trades -/

inductive ExitReason where
  | signal
  | stopLoss
  | takeProfit
  | trailingStop
  | breakEven
  | timeStop
  | dailyLossLimit
  | sessionClose
  | endOfData
deriving DecidableEq

structure TradeResult (F : Type u) where
  tradeId : Int
  side : TradeSide
  entryBar : Int
  exitBar : Int
  entryTime : TimePoint
  exitTime : TimePoint
  entryPrice : F
  exitPrice : F
  avgExitPrice : F
  quantity : F
  grossPnl : F
  netPnl : F
  netPnlPct : F
  rMultiple : F
  commission : F
  slippage : F
  mfe : F
  mae : F
  barsHeld : Int
  exitReason : ExitReason
  partialClose : Bool
  partialFillCount : Int
deriving DecidableEq

/-! ## Results -/

structure PeriodReturn (F : Type u) where
  label : List Char
  returnPct : F
  startEquity : F
  endEquity : F
deriving DecidableEq

structure StrategyStats (F : Type u) where
  totalTrades : Nat
  winningTrades : Nat
  losingTrades : Nat
  breakevenTrades : Nat
  winRate : F
  averageWin : F
  averageLoss : F
  averageRr : F
  profitFactor : F
  expectancy : F
  expectancyR : F
  grossProfit : F
  grossLoss : F
  netProfit : F
  maxDrawdown : F
  maxDrawdownPct : F
  maxConsecutiveLosses : Nat
  maxConsecutiveWins : Nat
  recoveryFactor : F
  sharpe : F
  sortino : F
  calmar : F
  ulcerIndex : F
  totalCommission : F
  totalSlippage : F
  totalReturnPct : F
  annualizedReturn : F
  annualizedVolatility : F
deriving DecidableEq

/-- The result of a run, less its two digests. -/
structure SimulationResult (F : Type u) where
  stats : StrategyStats F
  equityCurve : List F
  drawdownCurve : List F
  trades : List (TradeResult F)
  monthlyReturns : List (PeriodReturn F)
  yearlyReturns : List (PeriodReturn F)
  barsProcessed : Nat
  signalsProcessed : Nat
  signalsOpened : Nat
  signalsIgnored : Nat
  initialEquity : F
  finalEquity : F
deriving DecidableEq

end Qros.Quant.Strategy
