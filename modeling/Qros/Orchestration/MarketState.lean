import Mathlib.Data.List.MinMax
import Mathlib.Data.Prod.Lex
import Qros.Lib.Dict
import Qros.Lib.KeySort
import Qros.Python.Float
import Qros.Python.Builtins

/-!
# Market state

`ParallelMarketStateEngine` of `researchos/orchestration/market_state_reconstruction.py`.
The four kernels share nothing, so the pool that runs them gives what running them one
after the other gives, with the error of the first that fails.

Numbers are any type with the operators that the kernels use.
-/

namespace Qros.Orchestration.MarketState

open Qros.Lib Qros.Lib.KeySort Qros.Python

/-- Times are compared by their order as integers, which is computable. -/
scoped instance (priority := high) intPreorder : Preorder Int := Int.instLinearOrder.toPreorder

structure EventClock where
  source : String
  eventTimeNs : Int
  ingestTimeNs : Int

def EventClock.validate (clock : EventClock) : Except String Unit := do
  require (strip clock.source ≠ "") "source is required"
  require (¬ (clock.eventTimeNs ≤ 0 ∨ clock.ingestTimeNs ≤ 0))
    "timestamps must be positive UTC epoch nanoseconds"

section Data

variable (F : Type)

structure Quote where
  clock : EventClock
  symbol : String
  bid : F
  ask : F
  bidSize : F
  askSize : F

structure BookLevel where
  price : F
  size : F

structure BookSnapshot where
  clock : EventClock
  symbol : String
  bids : List (BookLevel F)
  asks : List (BookLevel F)

structure TradePrint where
  clock : EventClock
  symbol : String
  price : F
  size : F
  aggressorSide : Int

structure MacroPoint where
  clock : EventClock
  instrument : String
  value : F

/-- The records given to `reconstruct`. -/
structure Observations where
  quotes : List (Quote F)
  books : List (BookSnapshot F)
  trades : List (TradePrint F)
  macros : List (MacroPoint F)

structure SourcePolicy [FloatOps F] where
  maxAgeMs : F
  allowClockSkewMs : F
  maxAge_ok : isfinite maxAgeMs = true ∧ 0 ≤ maxAgeMs
  allowClockSkew_ok : isfinite allowClockSkewMs = true ∧ 0 ≤ allowClockSkewMs

/-- What the kernels call of the language. -/
structure Builtins where
  /-- `str.upper`. -/
  upper : String → String
  sum : List F → F
  /-- `ns / 1_000_000.0`, without a value where the integer is too large for a float. -/
  millis : Int → Option F

/-- The sign of a quotient is that of the dividend. -/
def Builtins.KeepsSign {F : Type} [FloatOps F] (py : Builtins F) : Prop :=
  ∀ ns ms, py.millis ns = some ms → (0 ≤ ms ↔ 0 ≤ ns)

inductive Status where
  | ok
  | stale
  | notConfigured
deriving DecidableEq

structure ClockFeatures where
  source : String
  eventAgeMs : F
  ingestAgeMs : F
  transportMs : F
  clockSkewSuspected : Bool
  fresh : Bool
  reason : Option String

inductive SourceFeatures (α : Type) where
  | missing (reason : String)
  | observed (data : α) (clock : ClockFeatures F)

structure QuoteData where
  bestBid : F
  bestAsk : F
  midPrice : F
  spread : F
  spreadBps : F
  topSizeImbalance : Option F

structure BookData where
  venue : String
  bestBid : F
  bestAsk : F
  bidDepth : F
  askDepth : F
  depthImbalance : Option F

structure TradeData where
  printCount : Nat
  signedVolume : F
  totalVolume : F
  signedVolumeImbalance : Option F

structure MacroData where
  value : F
  returnSincePrevious : Option F

structure Features where
  brokerQuote : SourceFeatures F (QuoteData F)
  futuresOrderBook : SourceFeatures F (BookData F)
  futuresTradeFlow : SourceFeatures F (TradeData F)
  macros : Dict String (SourceFeatures F (MacroData F))

inductive Readiness where
  | readyForFusion
  | partialOrStale
deriving DecidableEq

structure State where
  instrument : String
  decisionTimeNs : Int
  status : Readiness
  features : Features F

end Data

def SourceFeatures.status {F α : Type} : SourceFeatures F α → Status
  | .missing _ => .notConfigured
  | .observed _ clock => if clock.fresh then .ok else .stale

section Kernels

variable {F : Type} [FloatOps F] (py : Builtins F)

def finite (value : F) (name : String) : Except String F := do
  require (isfinite value = true) (name ++ " must be finite")
  return value

/-- A quotient, or `None` where the divisor is zero. -/
def ratio (numerator total : F) : Option F := if total != 0 then some (numerator / total) else none

def millis (ns : Int) : Except String F :=
  found (py.millis ns) "int too large to convert to float"

def clockFeatures (clock : EventClock) (decisionTimeNs : Int) (policy : SourcePolicy F) :
    Except String (ClockFeatures F) := do
  clock.validate
  let ageMs ← millis py (decisionTimeNs - clock.eventTimeNs)
  let transportMs ← millis py (clock.ingestTimeNs - clock.eventTimeNs)
  let ingestAgeMs ← millis py (decisionTimeNs - clock.ingestTimeNs)
  let valid := decide (ageMs ≥ 0 ∧ ingestAgeMs ≥ 0 ∧ transportMs ≥ -policy.allowClockSkewMs ∧
    ageMs ≤ policy.maxAgeMs)
  return {
    source := clock.source
    eventAgeMs := ageMs
    ingestAgeMs := ingestAgeMs
    transportMs := transportMs
    clockSkewSuspected := decide (transportMs < 0)
    fresh := valid
    reason := if valid then none else some "STALE_FUTURE_OR_CLOCK_SKEW" }

def quoteData (q : Quote F) (symbol : String) (now : Int) (policy : SourcePolicy F) :
    Except String (SourceFeatures F (QuoteData F)) := do
  require (q.symbol = symbol) "quote symbol mismatch"
  let bid ← finite q.bid "bid"
  let ask ← finite q.ask "ask"
  let bs ← finite q.bidSize "bid_size"
  let ass ← finite q.askSize "ask_size"
  require (¬ (bid ≤ 0 ∨ ask < bid ∨ bs < 0 ∨ ass < 0))
    "invalid quote: require 0 < bid <= ask and non-negative sizes"
  let clock ← clockFeatures py q.clock now policy
  let total := bs + ass
  let mid := (bid + ask) / 2
  return .observed {
    bestBid := bid
    bestAsk := ask
    midPrice := mid
    spread := ask - bid
    spreadBps := (ask - bid) / mid * 10000
    topSizeImbalance := ratio (bs - ass) total } clock

def quoteFeatures (quotes : List (Quote F)) (symbol : String) (now : Int)
    (policy : SourcePolicy F) : Except String (SourceFeatures F (QuoteData F)) :=
  match quotes.argmax (·.clock.ingestTimeNs) with
  | none => .ok (.missing "NO_QUOTES")
  | some q => quoteData py q symbol now policy

def finiteLevel (name : String) (level : BookLevel F) : Except String (F × F) := do
  let price ← finite level.price (name ++ ".price")
  let size ← finite level.size (name ++ ".size")
  return (price, size)

def bookData (book : BookSnapshot F) (symbol : String) (now : Int) (policy : SourcePolicy F) :
    Except String (SourceFeatures F (BookData F)) := do
  require (book.symbol = symbol) "book symbol mismatch"
  match book.bids, book.asks with
  | bestBid :: _, bestAsk :: _ =>
    let bids ← book.bids.mapM (finiteLevel "bid")
    let asks ← book.asks.mapM (finiteLevel "ask")
    require (¬ ∃ level ∈ bids ++ asks, level.1 ≤ 0 ∨ level.2 < 0)
      "book prices must be positive and sizes non-negative"
    require (¬ ∃ p ∈ bids.zip bids.tail, p.1.1 < p.2.1) "bid levels must be sorted descending"
    require (¬ ∃ p ∈ asks.zip asks.tail, p.1.1 > p.2.1) "ask levels must be sorted ascending"
    require (¬ bestBid.price ≥ bestAsk.price) "crossed order book"
    let bidDepth := py.sum (bids.map Prod.snd)
    let askDepth := py.sum (asks.map Prod.snd)
    let total := bidDepth + askDepth
    let clock ← clockFeatures py book.clock now policy
    return .observed {
      venue := book.clock.source
      bestBid := bestBid.price
      bestAsk := bestAsk.price
      bidDepth := bidDepth
      askDepth := askDepth
      depthImbalance := ratio (bidDepth - askDepth) total } clock
  | _, _ => .error "order book must contain bid and ask levels"

def bookFeatures (books : List (BookSnapshot F)) (symbol : String) (now : Int)
    (policy : SourcePolicy F) : Except String (SourceFeatures F (BookData F)) :=
  match books.argmax (·.clock.ingestTimeNs) with
  | none => .ok (.missing "NO_ORDER_BOOK")
  | some book => bookData py book symbol now policy

/-- The order of records by their times. -/
def timeKey (clock : EventClock) : Int ×ₗ Int := toLex (clock.eventTimeNs, clock.ingestTimeNs)

/-- The round of the loop of `_trade_features` for one trade. -/
def checkTrade (symbol : String) (trade : TradePrint F) : Except String Unit := do
  trade.clock.validate
  require (trade.symbol = symbol) "trade symbol mismatch"
  let price ← finite trade.price "trade.price"
  require (¬ price ≤ 0) "trade price must be positive and size non-negative"
  let size ← finite trade.size "trade.size"
  require (¬ size < 0) "trade price must be positive and size non-negative"
  require (trade.aggressorSide = -1 ∨ trade.aggressorSide = 0 ∨ trade.aggressorSide = 1)
    "aggressor_side must be -1, 0 or 1"

def tradeFeatures (trades : List (TradePrint F)) (symbol : String) (now : Int)
    (policy : SourcePolicy F) : Except String (SourceFeatures F (TradeData F)) := do
  let ordered := stableSortBy (fun trade ↦ timeKey trade.clock) trades
  forM ordered (checkTrade symbol)
  match ordered.argmax (·.clock.ingestTimeNs) with
  | none => return .missing "NO_TRADE_PRINTS"
  | some latest =>
    let clock ← clockFeatures py latest.clock now policy
    let signed := py.sum (ordered.map fun t ↦ t.size * (t.aggressorSide : F))
    let total := py.sum (ordered.map (·.size))
    return .observed {
      printCount := ordered.length
      signedVolume := signed
      totalVolume := total
      signedVolumeImbalance := ratio signed total } clock

def checkPoint (point : MacroPoint F) : Except String Unit := do
  point.clock.validate
  let value ← finite point.value "macro.value"
  require (¬ value ≤ 0) "macro values must be positive"

/-- `grouped.setdefault(point.instrument.upper(), []).append(point)`. -/
def addPoint (grouped : Dict String (List (MacroPoint F))) (point : MacroPoint F) :
    Dict String (List (MacroPoint F)) :=
  let instrument := py.upper point.instrument
  grouped.set instrument ((grouped.get? instrument).getD [] ++ [point])

def returnSincePrevious (latest : MacroPoint F) (earlier : List (MacroPoint F)) : Option F :=
  earlier.head?.map fun previous ↦ latest.value / previous.value - 1

def macroData (values : List (MacroPoint F)) (now : Int) (policy : SourcePolicy F) :
    Except String (SourceFeatures F (MacroData F)) :=
  match (stableSortBy (fun p ↦ timeKey p.clock) values).reverse with
  | [] => .error "list index out of range"
  | latest :: earlier => do
    let clock ← clockFeatures py latest.clock now policy
    return .observed ⟨latest.value, returnSincePrevious latest earlier⟩ clock

def macroFeatures (points : List (MacroPoint F)) (now : Int) (policy : SourcePolicy F) :
    Except String (Dict String (SourceFeatures F (MacroData F))) := do
  let grouped ← points.foldlM
    (fun grouped point ↦ do
      checkPoint point
      return addPoint py grouped point) ∅
  let output ← grouped.entries.foldlM
    (fun output entry ↦ do
      return output.set entry.1 (← macroData py entry.2 now policy)) ∅
  return ["DXY", "VXY"].foldl
    (fun output required ↦ output.setdefault required (.missing "NO_PROVIDER_DATA")) output

end Kernels

section Engine

variable {F : Type} [FloatOps F]

structure ParallelMarketStateEngine (F : Type) [FloatOps F] where
  quotePolicy : SourcePolicy F
  bookPolicy : SourcePolicy F
  tradePolicy : SourcePolicy F
  macroPolicy : SourcePolicy F
  workers : Int
  workers_ok : 1 ≤ workers ∧ workers ≤ 32

/-- Every source is there and fresh. -/
def Features.ready {F : Type} (features : Features F) : Bool :=
  let statuses := [features.brokerQuote.status, features.futuresOrderBook.status,
    features.futuresTradeFlow.status] ++ features.macros.values.map SourceFeatures.status
  statuses.all (decide <| · = .ok)

def ParallelMarketStateEngine.reconstruct (engine : ParallelMarketStateEngine F)
    (py : Builtins F) (symbol : String) (decisionTimeNs : Int) (input : Observations F) :
    Except String (State F) := do
  require (symbol = "XAUUSD") "V1 supports XAUUSD only"
  require (¬ decisionTimeNs ≤ 0) "decision_time_ns must be positive UTC epoch nanoseconds"
  let brokerQuote ← quoteFeatures py input.quotes symbol decisionTimeNs engine.quotePolicy
  let futuresOrderBook ← bookFeatures py input.books symbol decisionTimeNs engine.bookPolicy
  let futuresTradeFlow ← tradeFeatures py input.trades symbol decisionTimeNs engine.tradePolicy
  let macros ← macroFeatures py input.macros decisionTimeNs engine.macroPolicy
  let features : Features F := ⟨brokerQuote, futuresOrderBook, futuresTradeFlow, macros⟩
  return {
    instrument := symbol
    decisionTimeNs := decisionTimeNs
    status := if features.ready then .readyForFusion else .partialOrStale
    features := features }

end Engine

end Qros.Orchestration.MarketState
