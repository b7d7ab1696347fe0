import Qros.Quant.Backtest.MarketData

/-!
# Event replay

`include/quant/backtest/event_replay.h`, `src/backtest/event_replay.cpp`: a cursor
that turns the candles of a `MarketData` into a stream of events.  The one event it
holds is overwritten field by field, so that `session_status` keeps its value from
one event to the next.
-/

universe u

namespace Qros.Quant

inductive EventType where
  | candle
  | timestamp
  | session
deriving DecidableEq

inductive SessionStatus where
  | «open»
  | close
deriving DecidableEq

inductive ReplayMode where
  | candlesOnly
  | candleTimestamp
  | fullWithSessions
deriving DecidableEq

structure ReplayEvent (F : Type u) where
  type : EventType
  timestamp : TimePoint
  barIndex : Nat
  candle : Candle F
  sessionStatus : SessionStatus
  sequence : Nat
deriving DecidableEq

/-- `phase_`, the place within the current candle. -/
inductive Phase where
  | sessionOpen
  | candle
  | timestamp
  | sessionClose
deriving DecidableEq

/-- The nanoseconds of `std::chrono::days`. -/
abbrev dayLength : Int := 86400000000000

/-- `day_of`: `duration_cast` cuts the fraction of a day off towards zero. -/
def dayOf (tp : TimePoint) : Int := tp.tdiv dayLength

structure EventReplayEngine (F : Type u) where
  mode : ReplayMode
  candleIndex : Nat
  phase : Phase
  seq : Nat
  done : Bool
  current : ReplayEvent F

section Engine

variable {F : Type u} [Zero F] (data : MarketData F)

def MarketData.bar (i : Nat) : Candle F := data.candles.getD i default

/-- `data_[i].timestamp + std::chrono::minutes(timeframe_minutes(data_.timeframe()))`. -/
def MarketData.barClose (c : Candle F) : TimePoint :=
  c.timestamp + minutes (timeframeMinutes data.config.timeframe)

def ReplayEvent.empty : ReplayEvent F := ⟨.candle, 0, 0, .empty, .open, 0⟩

def isSessionOpen (i : Nat) : Bool :=
  i == 0 || dayOf (data.bar i).timestamp != dayOf (data.bar (i - 1)).timestamp

def isSessionClose (i : Nat) : Bool :=
  decide (data.candles.length ≤ i + 1) ||
    dayOf (data.bar i).timestamp != dayOf (data.bar (i + 1)).timestamp

/-- The phase a candle starts with. -/
def firstPhase (mode : ReplayMode) (i : Nat) : Phase :=
  if mode = .fullWithSessions ∧ isSessionOpen data i = true then .sessionOpen else .candle

namespace EventReplayEngine

variable (e : EventReplayEngine F)

def reset : EventReplayEngine F :=
  if data.candles = [] then
    { e with candleIndex := 0, seq := 0, done := true, phase := .candle }
  else
    { e with candleIndex := 0, seq := 0, done := false, phase := firstPhase data e.mode 0 }

def new (mode : ReplayMode) : EventReplayEngine F :=
  reset data ⟨mode, 0, .sessionOpen, 0, false, .empty⟩

def setNextCandle : EventReplayEngine F :=
  let i := e.candleIndex + 1
  if data.candles.length ≤ i then { e with candleIndex := i, done := true }
  else { e with candleIndex := i, phase := firstPhase data e.mode i }

/-- `emit_next`.  There are no phases but these four, so it does emit an event. -/
def emitNext : EventReplayEngine F :=
  let i := e.candleIndex
  let barClose := data.barClose (data.bar i)
  let e := { e with seq := e.seq + 1 }
  let current := { e.current with sequence := e.seq, barIndex := i, candle := .empty }
  match e.phase with
  | .sessionOpen =>
    { e with
      current := { current with
        type := .session, timestamp := (data.bar i).timestamp, sessionStatus := .open }
      phase := .candle }
  | .candle =>
    let e := { e with
      current := { current with
        type := .candle, timestamp := (data.bar i).timestamp, candle := data.bar i } }
    if e.mode ≠ .candlesOnly then { e with phase := .timestamp }
    else if e.mode = .fullWithSessions ∧ isSessionClose data i = true then
      { e with phase := .sessionClose }
    else e.setNextCandle data
  | .timestamp =>
    let e := { e with current := { current with type := .timestamp, timestamp := barClose } }
    if e.mode = .fullWithSessions ∧ isSessionClose data i = true then
      { e with phase := .sessionClose }
    else e.setNextCandle data
  | .sessionClose =>
    setNextCandle data { e with
      current := { current with
        type := .session, timestamp := barClose, sessionStatus := .close } }

def advance : Bool × EventReplayEngine F :=
  if e.done then (false, e) else (true, e.emitNext data)

def collect : Nat → EventReplayEngine F → List (ReplayEvent F)
  | 0, _ => []
  | fuel + 1, e =>
    match e.advance data with
    | (false, _) => []
    | (true, e) => e.current :: collect fuel e

end EventReplayEngine

/-- `build_event_sequence`.  A candle has at most four events. -/
def buildEventSequence (mode : ReplayMode) : List (ReplayEvent F) :=
  EventReplayEngine.collect data (4 * data.candles.length) (EventReplayEngine.new data mode)

end Engine

end Qros.Quant
