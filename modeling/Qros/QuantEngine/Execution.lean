import Mathlib.Algebra.BigOperators.Group.List.Basic
import Mathlib.Algebra.Order.Field.Basic
import Qros.Python.Json
import Qros.Python.Builtins

/-!
# The simulated execution of signals

`ExecutionSimulationLayer` of `quant_engine/execution.py`.  Numbers are an arbitrary
type `F` with the operators of the source and a `round(x, 10)`.
-/

set_option linter.unusedSectionVars false

namespace Qros.QuantEngine

open Qros.Python (Json strip)

/-- `round(x, 10)`. -/
class Rounding (F : Type) where
  round10 : F → F

export Rounding (round10)

/-- Rounding that changes nothing. -/
class ExactRounding (F : Type) [Rounding F] : Prop where
  round10_eq (x : F) : round10 x = x

export ExactRounding (round10_eq)

attribute [simp] round10_eq

/-- Rational numbers are not rounded. -/
instance : Rounding ℚ := ⟨id⟩

instance : ExactRounding ℚ := ⟨fun _ ↦ rfl⟩

/-! ## Costs -/

inductive CostKind where
  | fixed
  | pct
deriving DecidableEq

/-- `parse_cost_spec` without a default, with `float(text)` and `str.lower` given. -/
def parseCostSpec {F : Type} [Zero F] (float : String → Except String F) (lower : String → String)
    (spec : Option String) : Except String (CostKind × F) :=
  match spec with
  | none => .ok (.fixed, 0)
  | some text =>
    if text = "" then .ok (.fixed, 0)
    else if ':' ∉ text.toList then do
      return (.fixed, ← float text)
    else do
      let kind := lower (strip (String.ofList (text.toList.takeWhile (· ≠ ':'))))
      let value := String.ofList (text.toList.dropWhile (· ≠ ':')).tail
      if kind = "fixed" then
        return (.fixed, ← float value)
      else if kind = "pct" then
        return (.pct, ← float value)
      else .error ("Unsupported cost spec kind '" ++ kind ++ "'. Expected 'fixed' or 'pct'.")

/-! ## Records -/

inductive OrderSide where
  | buy
  | sell
deriving DecidableEq

inductive OrderType where
  | market
  | limit
deriving DecidableEq

inductive OrderStatus where
  | pending
  | filled
  | cancelled
deriving DecidableEq

structure Signal (F : Type) where
  barIndex : Nat
  timestamp : String
  side : OrderSide
  confidence : F
  metadata : List (String × Json F)

structure Order (F : Type) where
  signalIndex : Nat
  side : OrderSide
  orderType : OrderType
  quantity : F
  limitPrice : Option F
  status : OrderStatus
  barIndex : Nat
  timestamp : String

structure OrderFill (F : Type) where
  order : Order F
  fillPrice : F
  fillQuantity : F
  commission : F
  slippage : F
  barIndex : Nat
  timestamp : String

structure Position (F : Type) where
  symbol : String
  side : OrderSide
  quantity : F
  entryPrice : F
  currentPrice : F
  unrealizedPnl : F
  realizedPnl : F
  barIndex : Nat
  timestamp : String

structure Trade (F : Type) where
  entryFill : OrderFill F
  exitFill : OrderFill F
  pnl : F
  returnPct : F
  barsHeld : Int
  entryBarIndex : Nat
  exitBarIndex : Nat

/-- What the layer is made with. -/
structure ExecutionConfig (F : Type) where
  initialCapital : F
  commissionSpec : Option String
  slippageSpec : Option String
  symbol : String
  positionSize : F
  commissionKind : CostKind
  commissionValue : F
  slippageKind : CostKind
  slippageValue : F

/-- What the layer changes. -/
structure Execution (F : Type) where
  cash : F
  positionQty : F
  entryPrice : F
  entryCommission : F
  entryBarIndex : Option Nat
  entryFill : Option (OrderFill F)
  realizedPnl : F
  totalCommission : F
  totalSlippageCost : F
  signals : List (Signal F)
  orders : List (Order F)
  fills : List (OrderFill F)
  trades : List (Trade F)
  equityCurve : List F
  positionSnapshots : List (Position F)
  signalCounter : Nat

structure ExecutionStats (F : Type) where
  strategy : String
  strategyVersion : String
  executionModel : String
  commissionSpec : Option String
  slippageSpec : Option String
  initialCapital : F
  finalEquity : F
  totalReturn : F
  totalCommission : F
  totalSlippageCost : F
  realizedPnl : F
  numSignals : Nat
  numOrders : Nat
  numFills : Nat
  numTrades : Nat
  numWinningTrades : Nat
  numLosingTrades : Nat

/-! ## The layer -/

section

variable {F : Type} [Zero F] [One F] [Add F] [Sub F] [Neg F] [Mul F] [Div F] [BEq F] [LT F]
  [DecidableLT F] [Rounding F]

def absolute (x : F) : F := if x < 0 then -x else x

/-- `ExecutionSimulationLayer.__init__`, the fields that do not change. -/
def ExecutionConfig.make (float : String → Except String F) (lower : String → String)
    (initialCapital : F) (commission slippage : Option String) (symbol : String)
    (positionSize : F) : Except String (ExecutionConfig F) := do
  let (commissionKind, commissionValue) ← parseCostSpec float lower commission
  let (slippageKind, slippageValue) ← parseCostSpec float lower slippage
  return ⟨initialCapital, commission, slippage, symbol, positionSize, commissionKind,
    commissionValue, slippageKind, slippageValue⟩

variable (cfg : ExecutionConfig F)

/-- `ExecutionSimulationLayer.__init__`, the fields that change. -/
def Execution.fresh : Execution F where
  cash := cfg.initialCapital
  positionQty := 0
  entryPrice := 0
  entryCommission := 0
  entryBarIndex := none
  entryFill := none
  realizedPnl := 0
  totalCommission := 0
  totalSlippageCost := 0
  signals := []
  orders := []
  fills := []
  trades := []
  equityCurve := []
  positionSnapshots := []
  signalCounter := 0

def commissionFor (price quantity : F) : F :=
  match cfg.commissionKind with
  | .pct => round10 (absolute (price * quantity) * cfg.commissionValue)
  | .fixed => round10 cfg.commissionValue

def slippageOffset (price : F) : F :=
  match cfg.slippageKind with
  | .pct => price * cfg.slippageValue
  | .fixed => cfg.slippageValue

def fillPrice (price : F) (side : OrderSide) : F :=
  let offset := slippageOffset cfg price
  match side with
  | .buy => round10 (price + offset)
  | .sell => round10 (price - offset)

namespace Execution

def setEntry (s : Execution F) (fill : OrderFill F) : Execution F :=
  { s with
    entryPrice := fill.fillPrice
    entryCommission := fill.commission
    entryBarIndex := some fill.barIndex
    entryFill := some fill }

def tradeOf (entryPrice : F) (entry fill : OrderFill F) (qty : F) (closingShort : Bool) : Trade F :=
  let pnl :=
    if closingShort = true then (entryPrice - fill.fillPrice) * qty - entry.commission - fill.commission
    else (fill.fillPrice - entryPrice) * qty - entry.commission - fill.commission
  let costBasis := absolute (entryPrice * qty) + entry.commission
  let returnPct := if costBasis != 0 then pnl / costBasis else 0
  { entryFill := entry
    exitFill := fill
    pnl := round10 pnl
    returnPct := round10 returnPct
    barsHeld := fill.barIndex - entry.barIndex
    entryBarIndex := entry.barIndex
    exitBarIndex := fill.barIndex }

def recordTradeClose (s : Execution F) (fill : OrderFill F) (qty : F) (closingShort : Bool) :
    Execution F :=
  match s.entryFill with
  | none => s
  | some entry =>
    let trade := tradeOf s.entryPrice entry fill qty closingShort
    let s := { s with trades := s.trades ++ [trade], realizedPnl := s.realizedPnl + trade.pnl }
    if s.positionQty == 0 then
      { s with entryPrice := 0, entryCommission := 0, entryBarIndex := none, entryFill := none }
    else s

def applyFill (s : Execution F) (fill : OrderFill F) : Execution F :=
  let qty := fill.fillQuantity
  let price := fill.fillPrice
  let commission := fill.commission
  match fill.order.side with
  | .buy =>
    let s' := { s with
      cash := s.cash - (price * qty + commission), positionQty := s.positionQty + qty }
    if s.positionQty < 0 then s'.recordTradeClose fill qty true else s'.setEntry fill
  | .sell =>
    let s' := { s with
      cash := s.cash + (price * qty - commission), positionQty := s.positionQty - qty }
    if 0 < s.positionQty then s'.recordTradeClose fill qty false else s'.setEntry fill

def fill (s : Execution F) (order : Order F) (price : F) (barIndex : Nat) (timestamp : String) :
    Execution F :=
  let price' := fillPrice cfg price order.side
  let commission := commissionFor cfg price' order.quantity
  let slippageCost := absolute (price' - price) * order.quantity
  let fill : OrderFill F :=
    { order := order
      fillPrice := price'
      fillQuantity := order.quantity
      commission := commission
      slippage := absolute (price' - price)
      barIndex := barIndex
      timestamp := timestamp }
  { s with
    fills := s.fills ++ [fill]
    totalCommission := s.totalCommission + commission
    totalSlippageCost := s.totalSlippageCost + slippageCost }.applyFill fill

/-- The signal asks for the position that is held. -/
def Redundant (s : Execution F) (side : OrderSide) : Prop :=
  match side with
  | .buy => 0 < s.positionQty
  | .sell => s.positionQty < 0

instance (s : Execution F) (side : OrderSide) : Decidable (s.Redundant side) :=
  match side with
  | .buy => inferInstanceAs (Decidable (0 < s.positionQty))
  | .sell => inferInstanceAs (Decidable (s.positionQty < 0))

/-- What is traded on a signal: all of an opposite position, or the position size. -/
def quantity (s : Execution F) (side : OrderSide) : F :=
  match side with
  | .buy => if s.positionQty < 0 then absolute s.positionQty else cfg.positionSize
  | .sell => if 0 < s.positionQty then absolute s.positionQty else cfg.positionSize

def processSignal (s : Execution F) (signal : Signal F) (price : F) (barIndex : Nat)
    (timestamp : String) : Execution F :=
  let s := { s with signals := s.signals ++ [signal] }
  if s.Redundant signal.side then s
  else
    let order : Order F :=
      { signalIndex := s.signalCounter
        side := signal.side
        orderType := .market
        quantity := s.quantity cfg signal.side
        limitPrice := none
        status := .pending
        barIndex := barIndex
        timestamp := timestamp }
    { s with
      signalCounter := s.signalCounter + 1
      orders := s.orders ++ [order] }.fill cfg order price barIndex timestamp

/-- What an open position would gain if it were closed at a price. -/
def unrealized (s : Execution F) (price : F) : F :=
  if s.positionQty == 0 then 0
  else if 0 < s.positionQty then
    round10 ((price - s.entryPrice) * s.positionQty - s.entryCommission)
  else round10 ((s.entryPrice - price) * absolute s.positionQty - s.entryCommission)

def markToMarket (s : Execution F) (price : F) (barIndex : Nat) (timestamp : String) :
    Execution F :=
  let equity := round10 (s.cash + s.positionQty * price)
  let snapshot : Position F :=
    { symbol := cfg.symbol
      side := if s.positionQty == 0 then .buy else if 0 < s.positionQty then .buy else .sell
      quantity := absolute s.positionQty
      entryPrice := if s.positionQty == 0 then 0 else s.entryPrice
      currentPrice := price
      unrealizedPnl := s.unrealized price
      realizedPnl := round10 s.realizedPnl
      barIndex := barIndex
      timestamp := timestamp }
  { s with
    equityCurve := s.equityCurve ++ [equity]
    positionSnapshots := s.positionSnapshots ++ [snapshot] }

/-- `final_equity`: the last point of the curve. -/
def finalEquity (s : Execution F) : F := s.equityCurve.getLast?.getD cfg.initialCapital

def executionStats (s : Execution F) : ExecutionStats F where
  strategy := ""
  strategyVersion := ""
  executionModel := "ExecutionSimulationLayer"
  commissionSpec := cfg.commissionSpec
  slippageSpec := cfg.slippageSpec
  initialCapital := cfg.initialCapital
  finalEquity := round10 (s.finalEquity cfg)
  totalReturn :=
    round10 (if cfg.initialCapital != 0 then s.finalEquity cfg / cfg.initialCapital - 1 else 0)
  totalCommission := round10 s.totalCommission
  totalSlippageCost := round10 s.totalSlippageCost
  realizedPnl := round10 s.realizedPnl
  numSignals := s.signals.length
  numOrders := s.orders.length
  numFills := s.fills.length
  numTrades := s.trades.length
  numWinningTrades := s.trades.countP fun t ↦ decide (0 < t.pnl)
  numLosingTrades := s.trades.countP fun t ↦ decide (t.pnl < 0)

/-! ## What a fill does not touch -/

section

variable {s : Execution F} {f : OrderFill F}

@[simp]
theorem applyFill_fills : (s.applyFill f).fills = s.fills := by
  unfold applyFill recordTradeClose setEntry
  grind

@[simp]
theorem applyFill_signalCounter : (s.applyFill f).signalCounter = s.signalCounter := by
  unfold applyFill recordTradeClose setEntry
  grind

@[simp]
theorem applyFill_equityCurve : (s.applyFill f).equityCurve = s.equityCurve := by
  unfold applyFill recordTradeClose setEntry
  grind

@[simp]
theorem applyFill_positionSnapshots :
    (s.applyFill f).positionSnapshots = s.positionSnapshots := by
  unfold applyFill recordTradeClose setEntry
  grind

variable {cfg} in
theorem processSignal_positionSnapshots (signal : Signal F) (price : F) (i : Nat)
    (timestamp : String) :
    (s.processSignal cfg signal price i timestamp).positionSnapshots = s.positionSnapshots := by
  unfold processSignal
  dsimp only
  split
  · rfl
  · exact applyFill_positionSnapshots

end

end Execution

end

end Qros.QuantEngine
