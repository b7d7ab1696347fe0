import Qros.Lib.Machine
import Qros.Quant.Backtest.TradeBook
import Qros.Quant.Statistics.Returns

/-!
# The backtest engine

`src/backtest/backtest_engine.cpp`.  The engine walks over the bars, asks the signal
function for an order at each of them and executes the order at the close.  Three
ledgers move when it does: the cash, the position, which is negative when short, and
the trade book.  After the last bar a position that is left is liquidated.

`execute_signal` mutates the ledgers and then returns `ok()`, so `run` has no error
either (`run_eq_ok`).
-/

universe u

set_option linter.unusedSectionVars false

namespace Qros.Quant.Backtest

open Qros.Lib

structure BacktestConfig (F : Type u) where
  initialCapital : F
  commissionPct : F
  slippagePct : F
  allowShort : Bool
deriving DecidableEq

structure SignalResult (F : Type u) where
  direction : TradeDirection
  quantity : F
deriving DecidableEq

/-- What a strategy emits at a bar, from the bars up to it. -/
abbrev SignalFn (F : Type u) := Nat → List (OHLCV F) → SignalResult F

structure Ledgers (F : Type u) where
  cash : F
  position : F
  book : TradeBook F

/-- The local variables of the loop of `run`. -/
structure LoopState (F : Type u) where
  history : List (OHLCV F)
  barsUsed : List (OHLCV F)
  equityCurve : List F
  drawdownCurve : List F
  runningPeak : F
  ledgers : Ledgers F

structure BacktestResult (F : Type u) where
  equityCurve : List F
  drawdownCurve : List F
  barsUsed : List (OHLCV F)
  tradeBook : TradeBook F
  config : BacktestConfig F
  totalBars : Nat
  finalEquity : F
  totalReturnPct : F
  maxDrawdownPct : F

variable {F : Type u} [Zero F] [One F] [NatCast F] [Add F] [Sub F] [Mul F] [Div F] [Neg F]
  [LT F] [LE F] [DecidableLT F] [DecidableLE F]

def BacktestConfig.defaults : BacktestConfig F where
  initialCapital := 100000
  commissionPct := 1 / 1000
  slippagePct := 5 / 10000
  allowShort := true

section Execute

variable (cfg : BacktestConfig F) (signal : SignalResult F) (bar : OHLCV F)

/-- The price of a fill is the close, moved by this much against the order. -/
def slippage : F := bar.close * cfg.slippagePct

/-- A buy against a short position is first recorded as a closed trade; cash and
position stay as they are. -/
def coverShort (l : Ledgers F) : Ledgers F :=
  if l.position < 0 then
    let buyQty := stdMin signal.quantity (-l.position)
    let entryPrice := bar.close + slippage cfg bar
    { l with
      book := l.book.addTrade
        { (Trade.initial : Trade F) with
          symbol := l.book.symbol
          direction := .buy
          quantity := buyQty
          entryPrice
          entryCommission := entryPrice * buyQty * cfg.commissionPct
          entryTime := bar.timestamp
          status := .closed
          exitPrice := entryPrice
          exitCommission := 0
          exitTime := bar.timestamp } }
  else l

def buyCost : F := signal.quantity * (bar.close + slippage cfg bar)

def enterLong (l : Ledgers F) : Ledgers F :=
  let cost := buyCost cfg signal bar
  let comm := cost * cfg.commissionPct
  { cash := l.cash - (cost + comm)
    position := l.position + signal.quantity
    book := l.book.addTrade
      { (Trade.initial : Trade F) with
        symbol := l.book.symbol
        direction := .buy
        quantity := signal.quantity
        entryPrice := bar.close + slippage cfg bar
        entryCommission := comm
        entryTime := bar.timestamp
        status := .open } }

def reduceLong (l : Ledgers F) : Ledgers F :=
  let price := bar.close
  let sellQty := stdMin signal.quantity l.position
  let proceeds := sellQty * (price - slippage cfg bar)
  let comm := sellQty * price * cfg.commissionPct
  { cash := l.cash + (proceeds - comm)
    position := l.position - sellQty
    book := l.book.addTrade
      { (Trade.initial : Trade F) with
        symbol := l.book.symbol
        direction := .sell
        quantity := sellQty
        entryPrice := price
        entryCommission := 0
        entryTime := bar.timestamp
        exitPrice := price - slippage cfg bar
        exitCommission := comm
        exitTime := bar.timestamp
        status := .closed } }

def enterShort (l : Ledgers F) : Ledgers F :=
  let price := bar.close
  let proceeds := signal.quantity * (price - slippage cfg bar)
  let comm := signal.quantity * price * cfg.commissionPct
  { cash := l.cash + (proceeds - comm)
    position := l.position - signal.quantity
    book := l.book.addTrade
      { (Trade.initial : Trade F) with
        symbol := l.book.symbol
        direction := .sell
        quantity := signal.quantity
        entryPrice := price - slippage cfg bar
        entryCommission := comm
        entryTime := bar.timestamp
        status := .open } }

def executed (l : Ledgers F) : Ledgers F :=
  match signal.direction with
  | .buy =>
    let l := coverShort cfg signal bar l
    let cost := buyCost cfg signal bar
    let comm := cost * cfg.commissionPct
    if cost + comm ≤ l.cash then enterLong cfg signal bar l else l
  | .sell =>
    if 0 < l.position then reduceLong cfg signal bar l
    else if cfg.allowShort then enterShort cfg signal bar l
    else l

def executeSignal (l : Ledgers F) : Result (Ledgers F) := .ok (executed cfg signal bar l)

end Execute

/-! ## The run -/

def Ledgers.initial (cfg : BacktestConfig F) : Ledgers F := ⟨cfg.initialCapital, 0, .empty⟩

/-- `bars[n - 1]`, the bar the liquidation takes its price from. -/
def lastBar (data : List (OHLCV F)) : OHLCV F := barAt data (data.length - 1)

/-- What becomes of a position after the last bar. -/
def liquidate [BEq F] (data : List (OHLCV F)) (l : Ledgers F) : Ledgers F :=
  if l.position != 0 then
    { cash := l.cash + l.position * (lastBar data).close
      position := 0
      book := l.book.exitOpenTrades (lastBar data).close (lastBar data).timestamp }
  else l

variable [CMath F]

def LoopState.initial (cfg : BacktestConfig F) : LoopState F :=
  ⟨[], [], [], [], -CMath.infinity, .initial cfg⟩

/-- The body of the loop of `run` over the bar indices. -/
def loopBody (cfg : BacktestConfig F) (data : List (OHLCV F)) (signalFn : SignalFn F)
    (s : LoopState F) (i : Nat) : Result (LoopState F) := do
  let bar := barAt data i
  let history := s.history ++ [bar]
  let equity := s.ledgers.cash + s.ledgers.position * bar.close
  let runningPeak := stdMax s.runningPeak equity
  let signal := signalFn i history
  let ledgers ←
    if 0 < signal.quantity then executeSignal cfg signal bar s.ledgers else pure s.ledgers
  return {
    history
    barsUsed := s.barsUsed ++ [bar]
    equityCurve := s.equityCurve ++ [equity]
    drawdownCurve := s.drawdownCurve ++
      [if 0 < runningPeak then (runningPeak - equity) / runningPeak * 100 else 0]
    runningPeak
    ledgers }

def run [BEq F] (cfg : BacktestConfig F) (data : List (OHLCV F)) (signalFn : SignalFn F) :
    Result (BacktestResult F) := do
  let s ← (List.range data.length).foldlM (loopBody cfg data signalFn) (.initial cfg)
  let l := liquidate data s.ledgers
  return {
    equityCurve := s.equityCurve
    drawdownCurve := s.drawdownCurve
    barsUsed := s.barsUsed
    tradeBook := l.book
    config := cfg
    totalBars := data.length
    finalEquity := l.cash
    totalReturnPct := (l.cash - cfg.initialCapital) / cfg.initialCapital * 100
    maxDrawdownPct := match RiskMetrics.maxDrawdown s.equityCurve with
      | .ok dd => dd.maxDrawdownPct
      | .error _ => 0 }

/-! ## The run as a machine -/

structure Tick (F : Type u) where
  bar : OHLCV F
  signal : SignalResult F
deriving DecidableEq

omit [CMath F] in
def engine (cfg : BacktestConfig F) : Machine (Ledgers F) (Tick F) Unit where
  init := .initial cfg
  step t l := ((), if 0 < t.signal.quantity then executed cfg t.signal t.bar l else l)

/-- The first `n` bars, each with what the signal function emits there. -/
def ticks (data : List (OHLCV F)) (signalFn : SignalFn F) (n : Nat) : List (Tick F) :=
  (List.range n).map fun i ↦ ⟨barAt data i, signalFn i ((List.range (i + 1)).map (barAt data))⟩

theorem ticks_succ (data : List (OHLCV F)) (signalFn : SignalFn F) (n : Nat) :
    ticks data signalFn (n + 1) = ticks data signalFn n ++
      [⟨barAt data n, signalFn n ((List.range (n + 1)).map (barAt data))⟩] := by
  simp only [ticks, List.range_succ, List.map_append, List.map_cons, List.map_nil]

theorem loopBody_eq_ok (cfg : BacktestConfig F) (data : List (OHLCV F)) (signalFn : SignalFn F)
    (s : LoopState F) (i : Nat) :
    ∃ s', loopBody cfg data signalFn s i = .ok s' ∧ s'.history = s.history ++ [barAt data i] ∧
      s'.ledgers = ((engine cfg).step
        ⟨barAt data i, signalFn i (s.history ++ [barAt data i])⟩ s.ledgers).2 := by
  by_cases h : 0 < (signalFn i (s.history ++ [barAt data i])).quantity
  · simp only [loopBody, engine, if_pos h]
    exact ⟨_, rfl, rfl, rfl⟩
  · simp only [loopBody, engine, if_neg h]
    exact ⟨_, rfl, rfl, rfl⟩

theorem loop_eq_ok (cfg : BacktestConfig F) (data : List (OHLCV F)) (signalFn : SignalFn F)
    (n : Nat) :
    ∃ s, (List.range n).foldlM (loopBody cfg data signalFn) (.initial cfg) = .ok s ∧
      s.history = (List.range n).map (barAt data) ∧
      s.ledgers = (engine cfg).after (ticks data signalFn n) := by
  induction n with
  | zero => exact ⟨_, rfl, rfl, rfl⟩
  | succ n ih =>
    obtain ⟨s, hs, hhist, hledgers⟩ := ih
    obtain ⟨s', hs', hhist', hledgers'⟩ := loopBody_eq_ok cfg data signalFn s n
    have hbars : s.history ++ [barAt data n] = (List.range (n + 1)).map (barAt data) := by
      rw [hhist, List.range_succ, List.map_append]
      rfl
    refine ⟨s', ?_, hhist'.trans hbars, ?_⟩
    · rw [List.range_succ, List.foldlM_append, hs]
      show loopBody cfg data signalFn s n >>= pure = _
      rw [bind_pure, hs']
    · rw [hledgers', hbars, hledgers, ticks_succ, Machine.after_concat]

/-- **A run never fails.**  It ends with the ledgers of the last tick, liquidated. -/
theorem run_eq_ok [BEq F] (cfg : BacktestConfig F) (data : List (OHLCV F))
    (signalFn : SignalFn F) :
    ∃ r, run cfg data signalFn = .ok r ∧
      r.tradeBook = (liquidate data ((engine cfg).after (ticks data signalFn data.length))).book ∧
      r.finalEquity =
        (liquidate data ((engine cfg).after (ticks data signalFn data.length))).cash := by
  obtain ⟨s, hs, -, hledgers⟩ := loop_eq_ok cfg data signalFn data.length
  rw [run, hs, ← hledgers]
  exact ⟨_, rfl, rfl, rfl⟩

end Qros.Quant.Backtest
