import Qros.Quant.Strategy.Types

/-!
# The per-bar functions of the strategy kernel

`src/strategy/strategy_kernel.cpp` up to the statistics: stop planning, costs,
fill accounting, signal execution and the management of open positions.

The source's `Context` holds references to the bars, the configuration and the
ATR series next to the run's state.  Here the references are an `Env` and the
state is the `Context`, to which `result->trades` belongs.  A function that
changes its context returns the new one.
-/

universe u

/-!
## Position helpers

The member functions of `OpenPosition`: `include/quant/strategy/position.h` and
`src/strategy/position.cpp`.
-/

namespace Qros.Quant.Strategy

namespace OpenPosition

variable {F : Type u} [Zero F] [One F] [Add F] [Sub F] [Mul F] [Neg F] [LT F] [LE F]
  [DecidableLT F] [DecidableLE F]

def isLong (p : OpenPosition F) : Bool := p.side = .long

def sign (p : OpenPosition F) : F := if p.isLong then 1 else -1

def valuePerUnit (p : OpenPosition F) (price : F) : F := (price - p.openRaw) * p.sign

def unrealizedPnl (p : OpenPosition F) (price : F) : F :=
  (price - p.entryPrice) * p.quantity * p.sign

def profitPerUnit (p : OpenPosition F) (price : F) : F := p.valuePerUnit price

def stopHit (p : OpenPosition F) (high low : F) : Bool :=
  if p.isLong then decide (low ≤ p.stopLoss) else decide (p.stopLoss ≤ high)

def tpHit (p : OpenPosition F) (high low : F) : Bool :=
  if p.takeProfit ≤ 0 then false
  else if p.isLong then decide (p.takeProfit ≤ high) else decide (low ≤ p.takeProfit)

def stopFill (p : OpenPosition F) («open» : F) : F :=
  if p.isLong then stdMin «open» p.stopLoss else stdMax «open» p.stopLoss

def tpFill (p : OpenPosition F) («open» : F) : F :=
  if p.isLong then stdMax «open» p.takeProfit else stdMin «open» p.takeProfit

def updateMfeMae (p : OpenPosition F) (high low : F) : OpenPosition F :=
  if p.isLong then
    { p with mfe := stdMax p.mfe (high - p.openRaw), mae := stdMin p.mae (low - p.openRaw) }
  else
    { p with mfe := stdMax p.mfe (p.openRaw - low), mae := stdMin p.mae (p.openRaw - high) }

def moveStopToBreakEven (p : OpenPosition F) : OpenPosition F :=
  { p with stopLoss := p.openRaw, breakEvenMoved := true }

def ratchetTrailing (p : OpenPosition F) (bestPrice : F) : OpenPosition F :=
  if !p.trailingActive || decide (p.trailingDistance ≤ 0) then p
  else if p.isLong then
    if p.stopLoss < bestPrice - p.trailingDistance then
      { p with stopLoss := bestPrice - p.trailingDistance }
    else p
  else
    if bestPrice + p.trailingDistance < p.stopLoss then
      { p with stopLoss := bestPrice + p.trailingDistance }
    else p

end OpenPosition

end Qros.Quant.Strategy

namespace Qros.Quant.Strategy

/-- What a run only reads. -/
structure Env (F : Type u) where
  bars : List (OHLCV F)
  cfg : StrategyConfig F
  /-- Empty when no ATR is required. -/
  atr : List F

structure Context (F : Type u) where
  trades : List (TradeResult F)
  cash : F
  currentEquity : F
  positions : List (OpenPosition F)
  pending : List (StrategySignal F)
  nextId : Int
  signalsOpened : Nat
  signalsIgnored : Nat
  lastDayKey : Int
  dailyStartEquity : F
  dailyTrades : Nat
  lossLimitHit : Bool
  prevInSession : Bool
  prevSessionKnown : Bool

structure StopPlan (F : Type u) where
  stopDistance : F
  stopLevel : F
  tpDistance : F
  tpLevel : F
  trailingDistance : F
  activationDistance : F
  breakEvenActivation : F
  partialTarget : F

variable {F : Type u} [Zero F] [One F] [NatCast F] [Add F] [Sub F] [Mul F] [Div F] [Neg F]
  [LT F] [LE F] [DecidableLT F] [DecidableLE F]

/-! ## ATR -/

section

variable [CMath F]

def trueRange (bars : List (OHLCV F)) (i : Nat) : F :=
  let prevClose := if 0 < i then (barAt bars (i - 1)).close else (barAt bars i).close
  let highLow := (barAt bars i).high - (barAt bars i).low
  stdMax highLow (stdMax (fabs ((barAt bars i).high - prevClose))
    (fabs ((barAt bars i).low - prevClose)))

def trueRangeSum (bars : List (OHLCV F)) (period : Nat) : Nat → F
  | 0 => 0
  | i + 1 =>
    let sum := trueRangeSum bars period i + trueRange bars i
    if period ≤ i then sum - trueRange bars (i - period) else sum

def computeAtr (bars : List (OHLCV F)) (period : Int) : List F :=
  let period := (max 1 period).toNat
  (List.range bars.length).map fun i ↦
    trueRangeSum bars period (i + 1) / ((min (i + 1) period : Nat) : F)

end

/-! ## Stop planning -/

def atrAt (atr : List F) (sig : StrategySignal F) : F := atr.getD sig.barIndex.toNat 0

/-- `raw` moved by `distance` in the direction of the side's profit. -/
def awayFrom (side : TradeSide) (raw distance : F) : F :=
  match side with
  | .long => raw + distance
  | .short => raw - distance

/-- `raw` moved by `distance` in the direction of the side's loss. -/
def against (side : TradeSide) (raw distance : F) : F :=
  match side with
  | .long => raw - distance
  | .short => raw + distance

def slDistance (sig : StrategySignal F) (tc : TradeConfig F) (atr : List F) (raw : F) : F :=
  if sig.hasStopLoss then
    let d := match sig.side with
      | .long => raw - sig.stopLoss
      | .short => sig.stopLoss - raw
    if 0 < d then d else 0
  else
    match tc.stopType with
    | .atr =>
      if !atr.isEmpty && decide (0 < tc.atrSlMultiplier) then atrAt atr sig * tc.atrSlMultiplier
      else 0
    | .fixed => tc.stopLoss
    | .none => 0

def tpDistance (sig : StrategySignal F) (tc : TradeConfig F) (atr : List F) (raw : F) : F :=
  if sig.hasTakeProfit then
    let d := match sig.side with
      | .long => sig.takeProfit - raw
      | .short => raw - sig.takeProfit
    if 0 < d then d else 0
  else
    match tc.stopType with
    | .atr =>
      if !atr.isEmpty && decide (0 < tc.atrTpMultiplier) then atrAt atr sig * tc.atrTpMultiplier
      else 0
    | .fixed => tc.takeProfit
    | .none => 0

def trailingDistance (sig : StrategySignal F) (tc : TradeConfig F) (atr : List F) : F :=
  if sig.hasTrailingStop then sig.trailingStop
  else if !atr.isEmpty && decide (0 < tc.atrTrailingMultiplier) then
    atrAt atr sig * tc.atrTrailingMultiplier
  else tc.trailingStop

def partialDistance (tc : TradeConfig F) (slDist tpDist : F) : F :=
  if 0 < tc.partialClosePct then
    if 0 < tc.partialCloseTargetPct then tc.partialCloseTargetPct * slDist else tpDist
  else 0

def buildStopPlan (sig : StrategySignal F) (tc : TradeConfig F) (atr : List F) (raw : F) :
    StopPlan F :=
  let slDist := slDistance sig tc atr raw
  let tpDist := tpDistance sig tc atr raw
  let refDist := if 0 < slDist then slDist else tpDist
  let ptDist := partialDistance tc slDist tpDist
  { stopDistance := slDist
    stopLevel := if 0 < slDist then against sig.side raw slDist else 0
    tpDistance := tpDist
    tpLevel := if 0 < tpDist then awayFrom sig.side raw tpDist else 0
    trailingDistance := trailingDistance sig tc atr
    activationDistance := tc.trailingActivationPct * refDist
    breakEvenActivation := tc.breakEvenActivationPct * slDist
    partialTarget := if 0 < ptDist then awayFrom sig.side raw ptDist else 0 }

/-! ## Costs -/

def applyExitCosts (tc : TradeConfig F) (side : TradeSide) (raw : F) : F :=
  let dir : F := match side with
    | .long => -1
    | .short => 1
  raw + dir * tc.slippagePct * raw + dir * (tc.spreadPct / 2) * raw

/-- The entry fill: `raw` moved against the position by slippage and half the
spread. -/
def applyEntryCosts (tc : TradeConfig F) (side : TradeSide) (raw : F) : F :=
  let dir : F := match side with
    | .long => 1
    | .short => -1
  raw + dir * tc.slippagePct * raw + dir * (tc.spreadPct / 2) * raw

def fillNet (tc : TradeConfig F) (p : OpenPosition F) (rawFill qty : F) : F :=
  let exitFill := applyExitCosts tc p.side rawFill
  let gross := (exitFill - p.entryPrice) * qty * p.sign
  let commission := exitFill * qty * tc.commissionPct + qty * tc.commissionPerLot
  gross - commission

section Fills

variable [CMath F]

/-! ## Fill accounting -/

/-- The bookkeeping both closes share: `qty` of the position leaves at
`rawFill`. -/
def applyFill (tc : TradeConfig F) (p : OpenPosition F) (rawFill qty : F) : OpenPosition F :=
  let exitFill := applyExitCosts tc p.side rawFill
  { p with
    slippage := p.slippage + fabs (exitFill - rawFill) * qty
    realizedPnl := p.realizedPnl + fillNet tc p rawFill qty
    totalCommission := p.totalCommission +
      (exitFill * qty * tc.commissionPct + qty * tc.commissionPerLot)
    avgExitPrice := (p.avgExitPrice * p.closedQuantity + exitFill * qty) / (p.closedQuantity + qty)
    closedQuantity := p.closedQuantity + qty
    quantity := p.quantity - qty }

def closePartial (tc : TradeConfig F) (ctx : Context F) (p : OpenPosition F) (rawFill pct : F) :
    Context F × OpenPosition F :=
  let closedQty := p.quantity * pct
  ({ ctx with cash := ctx.cash + fillNet tc p rawFill closedQty },
    { applyFill tc p rawFill closedQty with
      partialClosed := true
      partialFillCount := p.partialFillCount + 1 })

/-- The trade record of a position `p` that has just been closed in full. -/
def tradeOf (p : OpenPosition F) (exitPrice : F) (reason : ExitReason) (exitBar : Int)
    (exitTime : TimePoint) : TradeResult F where
  tradeId := p.id
  side := p.side
  entryBar := p.entryBar
  exitBar := exitBar
  entryTime := p.entryTime
  exitTime := exitTime
  entryPrice := p.entryPrice
  exitPrice := exitPrice
  avgExitPrice := p.avgExitPrice
  quantity := p.entryQuantity
  grossPnl := p.realizedPnl + p.totalCommission
  netPnl := p.realizedPnl
  netPnlPct := if 0 < p.entryValue then p.realizedPnl / p.entryValue * 100 else 0
  rMultiple := if 0 < p.riskedAmount then p.realizedPnl / p.riskedAmount else 0
  commission := p.totalCommission
  slippage := p.slippage
  mfe := p.mfe
  mae := p.mae
  barsHeld := if p.entryBar < exitBar then exitBar - p.entryBar + 1 else 1
  exitReason := reason
  partialClose := decide (0 < p.partialFillCount)
  partialFillCount := p.partialFillCount

/-- The source sets the quantity of the closed position to zero; every caller
drops the position, so only the context comes back. -/
def closePosition (tc : TradeConfig F) (ctx : Context F) (p : OpenPosition F) (rawFill : F)
    (reason : ExitReason) (exitBar : Int) (exitTime : TimePoint) : Context F :=
  { ctx with
    cash := ctx.cash + fillNet tc p rawFill p.quantity
    trades := ctx.trades ++ [tradeOf (applyFill tc p rawFill p.quantity)
      (applyExitCosts tc p.side rawFill) reason exitBar exitTime] }

def closeEach (tc : TradeConfig F) (rawFill : F) (reason : ExitReason) (barIdx : Int)
    (ts : TimePoint) (ctx : Context F) (ps : List (OpenPosition F)) : Context F :=
  ps.foldl (fun c p ↦ closePosition tc c p rawFill reason barIdx ts) ctx

def closeAll (tc : TradeConfig F) (ctx : Context F) (rawFill : F) (reason : ExitReason)
    (barIdx : Int) (ts : TimePoint) : Context F :=
  { closeEach tc rawFill reason barIdx ts ctx ctx.positions with positions := [] }

/-! ## Access helpers -/

/-- The last position of a side.  An iterator into the vector is the split of
the vector around its element; `none` is `end()`. -/
def findLastOfSide (side : TradeSide) :
    List (OpenPosition F) → Option (List (OpenPosition F) × OpenPosition F × List (OpenPosition F))
  | [] => none
  | p :: ps =>
    match findLastOfSide side ps with
    | some (before, q, after) => some (p :: before, q, after)
    | none => if p.side = side then some ([], p, ps) else none

def inSession (rc : RiskConfig F) (ts : TimePoint) : Bool :=
  rc.session.allows (utcParts ts).hour (utcParts ts).weekday

def tradingAllowed (env : Env F) (ctx : Context F) (bar : OHLCV F) : Bool :=
  if env.cfg.risk.session.enabled && !inSession env.cfg.risk bar.timestamp then false
  else if ctx.lossLimitHit then false
  else if decide (0 < env.cfg.risk.maxOpenPositions) &&
      decide (env.cfg.risk.maxOpenPositions ≤ ctx.positions.length) then false
  else if decide (0 < env.cfg.risk.maxTradesPerDay) &&
      decide (env.cfg.risk.maxTradesPerDay ≤ ctx.dailyTrades) then false
  else true

def sizeQuantity (env : Env F) (ctx : Context F) (sig : StrategySignal F) (plan : StopPlan F) : F :=
  let tc := env.cfg.trade
  match tc.sizing with
  | .fixedLot => tc.fixedLot
  | .riskPercent =>
    let risk := if 0 < sig.riskAmount then sig.riskAmount
      else if 0 < tc.riskAmount then tc.riskAmount
      else ctx.currentEquity * tc.riskPercent / 100
    if plan.stopDistance ≤ 0 then 0
    else if 0 < risk then risk / plan.stopDistance else 0

/-! ## Signal execution -/

def sideAllowed (tc : TradeConfig F) : TradeSide → Bool
  | .long => tc.allowLong
  | .short => tc.allowShort

/-- The plan of an `Open` signal, anchored at the close of the signal's bar. -/
def signalPlan (env : Env F) (sig : StrategySignal F) : StopPlan F :=
  buildStopPlan sig env.cfg.trade env.atr (barAt env.bars sig.barIndex.toNat).close

/-- `entry_value * commission_pct + qty * commission_per_lot`. -/
def entryCommission (tc : TradeConfig F) (raw qty : F) : F :=
  qty * raw * tc.commissionPct + qty * tc.commissionPerLot

def newPosition (env : Env F) (ctx : Context F) (sig : StrategySignal F) (bar : OHLCV F)
    (barIdx : Int) : OpenPosition F :=
  let tc := env.cfg.trade
  let raw := bar.open
  let plan := signalPlan env sig
  let qty := sizeQuantity env ctx sig plan
  let entryPrice := applyEntryCosts tc sig.side raw
  let commission := entryCommission tc raw qty
  { id := ctx.nextId
    entryBar := barIdx
    entryTime := bar.timestamp
    side := sig.side
    entryPrice := entryPrice
    openRaw := raw
    quantity := qty
    entryQuantity := qty
    stopLoss := plan.stopLevel
    takeProfit := plan.tpLevel
    initialStop := plan.stopLevel
    trailingDistance := plan.trailingDistance
    activationDistance := plan.activationDistance
    breakEvenActivation := plan.breakEvenActivation
    partialTarget := plan.partialTarget
    entryCommission := commission
    totalCommission := commission
    entryValue := qty * raw
    riskedAmount := if 0 < plan.stopDistance then plan.stopDistance * qty else 0
    mfe := 0
    mae := 0
    realizedPnl := -commission
    avgExitPrice := 0
    closedQuantity := 0
    slippage := fabs (entryPrice - raw) * qty
    barsOpen := 0
    trailingActive := false
    breakEvenMoved := false
    partialClosed := false
    partialFillCount := 0 }

def ignoreSignal (ctx : Context F) : Context F :=
  { ctx with signalsIgnored := ctx.signalsIgnored + 1 }

/-- Whether an `Open` signal is filled rather than ignored. -/
def opens (env : Env F) (ctx : Context F) (sig : StrategySignal F) (bar : OHLCV F) : Bool :=
  sideAllowed env.cfg.trade sig.side && tradingAllowed env ctx bar &&
    !decide (sizeQuantity env ctx sig (signalPlan env sig) ≤ 0)

def openPosition (env : Env F) (ctx : Context F) (sig : StrategySignal F) (bar : OHLCV F)
    (barIdx : Int) : Context F :=
  let p := newPosition env ctx sig bar barIdx
  { ctx with
    nextId := ctx.nextId + 1
    cash := ctx.cash - p.entryCommission
    positions := ctx.positions ++ [p]
    signalsOpened := ctx.signalsOpened + 1
    dailyTrades := ctx.dailyTrades + 1 }

def modifyPosition (sig : StrategySignal F) (p : OpenPosition F) : OpenPosition F :=
  { p with
    stopLoss := if sig.hasStopLoss then sig.stopLoss else p.stopLoss
    takeProfit := if sig.hasTakeProfit then sig.takeProfit else p.takeProfit
    trailingDistance := if sig.hasTrailingStop then sig.trailingStop else p.trailingDistance }

def executeSignal (env : Env F) (bar : OHLCV F) (barIdx : Int) (ctx : Context F)
    (sig : StrategySignal F) : Context F :=
  match sig.action with
  | .open => if opens env ctx sig bar then openPosition env ctx sig bar barIdx else ignoreSignal ctx
  | .close =>
    match findLastOfSide sig.side ctx.positions with
    | none => ignoreSignal ctx
    | some (before, p, after) =>
      { closePosition env.cfg.trade ctx p bar.open .signal barIdx bar.timestamp with
        positions := before ++ after }
  | .closeAll =>
    if ctx.positions.isEmpty then ignoreSignal ctx
    else closeAll env.cfg.trade ctx bar.open .signal barIdx bar.timestamp
  | .modify =>
    match findLastOfSide sig.side ctx.positions with
    | none => ignoreSignal ctx
    | some (before, p, after) =>
      { ctx with positions := before ++ modifyPosition sig p :: after }
  | .none => ctx

/-! ## Per-bar position management -/

/-- The reason a hit stop is reported under. -/
def stopReason (p : OpenPosition F) : ExitReason :=
  if p.trailingActive then .trailingStop
  else if p.breakEvenMoved then .breakEven
  else .stopLoss

def bestPrice (p : OpenPosition F) (bar : OHLCV F) : F := if p.isLong then bar.high else bar.low

def partialTargetHit (tc : TradeConfig F) (p : OpenPosition F) (bar : OHLCV F) : Bool :=
  !p.partialClosed && decide (0 < tc.partialClosePct) && decide (0 < p.partialTarget) &&
    (if p.isLong then decide (p.partialTarget ≤ bar.high) else decide (bar.low ≤ p.partialTarget))

def managePartial (tc : TradeConfig F) (ctx : Context F) (p : OpenPosition F) (bar : OHLCV F) :
    Context F × OpenPosition F :=
  if partialTargetHit tc p bar then
    closePartial tc ctx p
      (if p.isLong then stdMax bar.open p.partialTarget else stdMin bar.open p.partialTarget)
      tc.partialClosePct
  else (ctx, p)

def manageBreakEven (p : OpenPosition F) (best : F) : OpenPosition F :=
  if !p.breakEvenMoved && decide (0 < p.breakEvenActivation) &&
      decide (p.breakEvenActivation ≤ p.profitPerUnit best) then
    p.moveStopToBreakEven
  else p

/-- Trailing stop: armed once the activation distance is reached, then ratcheted
in the direction of profit only. -/
def manageTrailing (p : OpenPosition F) (best : F) : OpenPosition F :=
  if 0 < p.trailingDistance then
    let p := if !p.trailingActive && (decide (p.activationDistance ≤ 0) ||
        decide (p.activationDistance ≤ p.profitPerUnit best)) then
      { p with trailingActive := true } else p
    if p.trailingActive then p.ratchetTrailing best else p
  else p

def timeStopDue (tc : TradeConfig F) (p : OpenPosition F) : Bool :=
  decide (0 < tc.maxBarsInTrade) && decide (tc.maxBarsInTrade ≤ p.barsOpen)

/-- The start of `manage_one`: excursions and age. -/
def ageOneBar (p : OpenPosition F) (bar : OHLCV F) : OpenPosition F :=
  { p.updateMfeMae bar.high bar.low with barsOpen := p.barsOpen + 1 }

/-- One position through one bar.  `none` is the source's `true`: the position
was closed. -/
def manageOne (tc : TradeConfig F) (bar : OHLCV F) (barIdx : Int) (ctx : Context F)
    (p : OpenPosition F) : Context F × Option (OpenPosition F) :=
  let p := ageOneBar p bar
  -- Price exits first; the stop takes priority over the take-profit.
  if p.stopHit bar.high bar.low then
    (closePosition tc ctx p (p.stopFill bar.open) (stopReason p) barIdx bar.timestamp, none)
  else if p.tpHit bar.high bar.low then
    (closePosition tc ctx p (p.tpFill bar.open) .takeProfit barIdx bar.timestamp, none)
  else
    let (ctx, p) := managePartial tc ctx p bar
    let p := manageTrailing (manageBreakEven p (bestPrice p bar)) (bestPrice p bar)
    if timeStopDue tc p then
      (closePosition tc ctx p bar.close .timeStop barIdx bar.timestamp, none)
    else (ctx, some p)

def manageEach (tc : TradeConfig F) (bar : OHLCV F) (barIdx : Int) :
    Context F → List (OpenPosition F) → Context F × List (OpenPosition F)
  | ctx, [] => (ctx, [])
  | ctx, p :: ps =>
    let (ctx, kept) := manageOne tc bar barIdx ctx p
    let (ctx, rest) := manageEach tc bar barIdx ctx ps
    (ctx, kept.toList ++ rest)

def managePositions (tc : TradeConfig F) (bar : OHLCV F) (barIdx : Int) (ctx : Context F) :
    Context F :=
  let (ctx, positions) := manageEach tc bar barIdx ctx ctx.positions
  { ctx with positions := positions }

end Fills

def markToMarket (ctx : Context F) (close : F) : F :=
  ctx.positions.foldl (fun eq p ↦ eq + p.unrealizedPnl close) ctx.cash

end Qros.Quant.Strategy
