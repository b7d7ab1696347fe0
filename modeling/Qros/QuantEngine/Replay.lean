import Qros.Lib.Numerals
import Qros.Python.Datetime
import Qros.QuantEngine.Execution

/-!
# The replay engine

`ReplayEngine` of `quant_engine/replay.py` and the part of `HistoricalIterator` that it
uses.  A run gives what `run` returns or raises, and the states that it leaves the
strategy and the execution layer in, as both outlive the run.

Of a value the model keeps the attributes that the engine asks for; what else a strategy
may look at is a value of an arbitrary type.  Timestamps are any linear order.
-/

set_option linter.unusedSectionVars false

namespace Qros.QuantEngine

open Qros.Python (padded)

/-- The `datetime` values. -/
class Timestamp (T : Type) extends LinearOrder T where
  /-- `datetime.isoformat`. -/
  isoformat : T → String
  /-- `datetime(2020, 1, 1) + timedelta(days=i)`, or an `OverflowError`. -/
  day : Nat → Except String T
  day_le {i j : Nat} {s t : T} : i ≤ j → day i = .ok s → day j = .ok t → s ≤ t

def iso {T : Type} [Timestamp T] : Option T → String
  | none => ""
  | some t => Timestamp.isoformat t

/-- Naive times on whole seconds, as seconds since 1970. -/
instance : Timestamp Int where
  isoformat t :=
    let date := Lib.Calendar.civilFromDays (t / 86400)
    let second := t % 86400
    String.ofList (padded 4 date.year ++ '-' :: padded 2 date.month ++ '-' :: padded 2 date.day ++
      'T' :: padded 2 (second / 3600) ++ ':' :: padded 2 (second / 60 % 60) ++
      ':' :: padded 2 (second % 60))
  day i :=
    let n := Lib.Calendar.daysFromCivil ⟨2020, 1, 1⟩ + i
    if n ≤ Lib.Calendar.daysFromCivil ⟨9999, 12, 31⟩ then .ok (n * 86400)
    else .error "date value out of range"
  day_le {i j s t} hij hs ht := by
    dsimp only at hs ht
    split at hs
    · split at ht
      · obtain rfl := Except.ok.inj hs
        obtain rfl := Except.ok.inj ht
        omega
      · cases ht
    · cases hs

/-- A value, as far as the engine looks at it. -/
inductive Item (F T X : Type) where
  | replayBar (close : F) (timestamp : Option T) (open? : Option F)
  | /-- Attributes are `none` when missing; of `close` it matters what `float` makes of it,
    of `open` whether it is a number. -/
    object (close : Option (Except String F)) (timestamp : Option (Option T)) (open? : Option F)
      (rest : X)
  | number (x : F)
  | dict (close : Option (Except String F)) (timestamp : Option T) (rest : X)
  | /-- Anything else, with what `float` makes of it. -/
    other (float : Except String F) (rest : X)

namespace Item

variable {F T X : Type}

def hasClose : Item F T X → Bool
  | .replayBar _ _ _ => true
  | .object close _ _ _ => close.isSome
  | .number _ => false
  | .dict _ _ _ => false
  | .other _ _ => false

def hasTimestamp : Item F T X → Bool
  | .replayBar _ _ _ => true
  | .object _ timestamp _ _ => timestamp.isSome
  | .number _ => false
  | .dict _ _ _ => false
  | .other _ _ => false

def timestamp : Item F T X → Option T
  | .replayBar _ timestamp _ => timestamp
  | .object _ timestamp _ _ => timestamp.join
  | .number _ => none
  | .dict _ _ _ => none
  | .other _ _ => none

def close : Item F T X → Except String F
  | .replayBar close _ _ => .ok close
  | .object (some close) _ _ _ => close
  | _ => .error "object has no attribute 'close'"

def openPrice : Item F T X → Option F
  | .replayBar _ _ open? => open?
  | .object _ _ open? _ => open?
  | .number _ => none
  | .dict _ _ _ => none
  | .other _ _ => none

/-- `float(getattr(item, "open", None) or getattr(item, "close"))`. -/
def openOrClose [Zero F] [BEq F] (item : Item F T X) : Except String F :=
  match item.openPrice with
  | none => item.close
  | some x => if x == 0 then item.close else .ok x

def float : Item F T X → Except String F
  | .number x => .ok x
  | .other x _ => x
  | _ => .error "float() argument must be a string or a real number"

/-- `item.get("timestamp")` where that is a datetime, and otherwise `start + timedelta(days=i)`. -/
def dictTime [Timestamp T] (i : Nat) : Item F T X → Except String T
  | .dict _ (some t) _ => .ok t
  | .dict _ none _ => Timestamp.day i
  | _ => .error "object has no attribute 'get'"

def dictClose : Item F T X → Except String F
  | .dict (some close) _ _ => close
  | _ => .error "'close'"

end Item

/-! ## The forms of datasets -/

inductive Dataset (F T X : Type) where
  | none
  | historical (records : List (Item F T X))
  | /-- An object with `records` and `symbol`, and possibly `_records`. -/
    recorded (records : Option (List (Item F T X)))
  | list (items : List (Item F T X))
  | iterable (items : List (Item F T X))
  | other

section Extraction

variable {F T X : Type} [Zero F] [One F] [Add F] [Mul F] [NatCast F] [OfScientific F] [Timestamp T]

/-- What a `HistoricalIterator` lets through. -/
def Visible (startTime endTime asOf : Option T) (record : Item F T X) : Prop :=
  match record.timestamp with
  | none => False
  | some t =>
    (∀ s ∈ startTime, ¬ t < s) ∧ (∀ s ∈ endTime, ¬ s < t) ∧ (∀ s ∈ asOf, ¬ s < t)

instance (startTime endTime asOf : Option T) (record : Item F T X) :
    Decidable (Visible startTime endTime asOf record) := by
  unfold Visible
  split <;> infer_instance

def buildIndex (records : List (Item F T X)) (startTime endTime : Option T) (reverse : Bool)
    (asOf : Option T) : List Nat :=
  let indices :=
    (records.zipIdx.filter fun r ↦ decide (Visible startTime endTime asOf r.1)).map Prod.snd
  if reverse = true then indices.reverse else indices

def historicalIterator (records : List (Item F T X)) (asOf : Option T) : List (Item F T X) :=
  (buildIndex records none none false asOf).filterMap fun i ↦ records[i]?

/-- Bars made one by one, with their places. -/
def enumerateBars (bar : Nat → Item F T X → Except String (Item F T X))
    (items : List (Item F T X)) : Except String (List (Item F T X)) :=
  items.zipIdx.mapM fun r ↦ bar r.2 r.1

/-- The bars of a missing dataset. -/
def syntheticBars : Except String (List (Item F T X)) :=
  (List.range 252).mapM fun i ↦ do
    return .replayBar (100 * (1 + 0.0001 * (i : F))) (some (← Timestamp.day i)) Option.none

def extractBars (asOf : Option T) : Dataset F T X → Except String (List (Item F T X))
  | .none => syntheticBars
  | .historical records => .ok (historicalIterator records asOf)
  | .recorded (some records) => .ok (historicalIterator records asOf)
  | .recorded none => .error "object has no attribute '_records'"
  | .list [] => .ok []
  | .list (first :: items) =>
    if first.hasClose = true ∧ first.hasTimestamp = true then .ok (first :: items)
    else if first.hasClose = true then
      enumerateBars (fun i c ↦ do
        return .replayBar (← c.close) (some (← Timestamp.day i)) Option.none) (first :: items)
    else
      match first with
      | .number _ =>
        enumerateBars (fun i p ↦ do
          return .replayBar (← p.float) (some (← Timestamp.day i)) Option.none) (first :: items)
      | .dict (some _) _ _ =>
        enumerateBars (fun i d ↦ do
          let t ← d.dictTime i
          return .replayBar (← d.dictClose) (some t) Option.none) (first :: items)
      | _ => .ok []
  | .iterable items =>
    .ok (if (items.head?.map Item.hasClose).getD false = true then items else [])
  | .other => .ok []

end Extraction

/-! ## The engine -/

/-- A strategy with states `σ`; what it evaluates to may depend on its state in any way. -/
structure Strategy (σ F T X : Type) where
  identifier : String
  version : String
  evaluate : σ → Item F T X → List (Item F T X) → Nat → Except String (Option (Signal F)) × σ
  reset : σ → σ

structure ReplayStats (F : Type) extends ExecutionStats F where
  numBars : Nat
  signalFillTiming : String

structure ReplayOutput (F : Type) where
  signals : List (Signal F)
  trades : List (Trade F)
  positions : List (Position F)
  equityCurve : List F
  executionStats : ReplayStats F
  numBars : Nat
  startTime : String
  endTime : String

section Engine

variable {σ F T X : Type} [Zero F] [One F] [Add F] [Sub F] [Neg F] [Mul F] [Div F] [BEq F] [LT F]
  [DecidableLT F] [NatCast F] [OfScientific F] [Rounding F] [Timestamp T]
variable (strategy : Strategy σ F T X) (cfg : ExecutionConfig F)

/-- The signal of the bar before is executed at the open of this one. -/
def executePending (pending : Option (Signal F × String)) (bar : Item F T X) (i : Nat)
    (s : Execution F) : Except String (Execution F) :=
  match pending with
  | none => .ok s
  | some (signal, timestamp) => do
      return s.processSignal cfg signal (← bar.openOrClose) i timestamp

def barLoop : List (Item F T X) → Nat → List (Item F T X) → Option (Signal F × String) →
    σ × Execution F → Except String Unit × (σ × Execution F)
  | [], _, _, _, state => (.ok (), state)
  | bar :: bars, i, history, pending, (q, s) =>
    match executePending cfg pending bar i s with
    | .error e => (.error e, (q, s))
    | .ok s =>
      match strategy.evaluate q bar history i with
      | (.error e, q) => (.error e, (q, s))
      | (.ok signal, q) =>
        match bar.close with
        | .error e => (.error e, (q, s))
        | .ok close =>
          barLoop bars (i + 1) (history ++ [bar]) (signal.map fun x ↦ (x, iso bar.timestamp))
            (q, s.markToMarket cfg close i (iso bar.timestamp))

def liquidationSignal (s : Execution F) (lastBar : Item F T X) (lastIdx : Nat) : Signal F where
  barIndex := lastIdx
  timestamp := iso lastBar.timestamp
  side := if 0 < s.positionQty then .sell else .buy
  confidence := 1
  metadata :=
    [("strategy", .str strategy.identifier), ("reason", .str "end_of_data_liquidation")]

/-- The liquidation at the end of the data. -/
def liquidate (lastBar : Item F T X) (lastIdx : Nat) (s : Execution F) :
    Except String (Execution F) :=
  if s.positionQty != 0 then do
    return s.processSignal cfg (liquidationSignal strategy s lastBar lastIdx) (← lastBar.close)
      lastIdx (iso lastBar.timestamp)
  else .ok s

/-- What `run` returns. -/
def outputOf (firstBar lastBar : Item F T X) (numBars : Nat) (s : Execution F) :
    ReplayOutput F where
  signals := s.signals
  trades := s.trades
  positions := s.positionSnapshots
  equityCurve := s.equityCurve
  executionStats :=
    { s.executionStats cfg with
      strategy := strategy.identifier
      strategyVersion := strategy.version
      numBars := numBars
      signalFillTiming := "next_bar_open" }
  numBars := numBars
  startTime := iso firstBar.timestamp
  endTime := iso lastBar.timestamp

def runBars (bars : List (Item F T X)) (state : σ × Execution F) :
    Except String (ReplayOutput F) × (σ × Execution F) :=
  match bars.head?, bars.getLast? with
  | some firstBar, some lastBar =>
    if bars.length < 2 then
      (.error "Need at least 2 bars for replay, got 1", state)
    else
      match barLoop strategy cfg bars 0 [] none state with
      | (.error e, state) => (.error e, state)
      | (.ok (), (q, s)) =>
        match liquidate strategy cfg lastBar (bars.length - 1) s with
        | .error e => (.error e, (q, s))
        | .ok s => (.ok (outputOf strategy cfg firstBar lastBar bars.length s), (q, s))
  | _, _ => (.error "Need at least 2 bars for replay, got 0", state)

def run (asOf : Option T) (dataset : Dataset F T X) (state : σ × Execution F) :
    Except String (ReplayOutput F) × (σ × Execution F) :=
  let state := (strategy.reset state.1, state.2)
  match extractBars asOf dataset with
  | .error e => (.error e, state)
  | .ok bars => runBars strategy cfg bars state

theorem barLoop_cons_ok {strategy : Strategy σ F T X} {cfg : ExecutionConfig F}
    {bar : Item F T X} {bars history : List (Item F T X)} {i : Nat}
    {pending : Option (Signal F × String)} {q : σ} {s : Execution F} {r : σ × Execution F}
    (h : barLoop strategy cfg (bar :: bars) i history pending (q, s) = (.ok (), r)) :
    ∃ s' signal q' close, executePending cfg pending bar i s = .ok s' ∧
      strategy.evaluate q bar history i = (.ok signal, q') ∧ bar.close = .ok close ∧
      barLoop strategy cfg bars (i + 1) (history ++ [bar])
        (signal.map fun x ↦ (x, iso bar.timestamp))
        (q', s'.markToMarket cfg close i (iso bar.timestamp)) = (.ok (), r) := by
  rw [barLoop] at h
  cases hexec : executePending cfg pending bar i s with
  | error e => simp [hexec] at h
  | ok s' =>
    rcases heval : strategy.evaluate q bar history i with ⟨e | signal, q'⟩
    · simp [hexec, heval] at h
    · cases hclose : bar.close with
      | error e => simp [hexec, heval, hclose] at h
      | ok close =>
        refine ⟨s', signal, q', close, rfl, rfl, rfl, ?_⟩
        simpa only [hexec, heval, hclose] using h

theorem runBars_ok {strategy : Strategy σ F T X} {cfg : ExecutionConfig F}
    {bars : List (Item F T X)} {q q' : σ} {out : ReplayOutput F} {s s' : Execution F}
    (hrun : runBars strategy cfg bars (q, s) = (.ok out, (q', s'))) :
    ∃ firstBar lastBar s₁, bars.getLast? = some lastBar ∧ 2 ≤ bars.length ∧
      barLoop strategy cfg bars 0 [] none (q, s) = (.ok (), (q', s₁)) ∧
      liquidate strategy cfg lastBar (bars.length - 1) s₁ = .ok s' ∧
      out = outputOf strategy cfg firstBar lastBar bars.length s' := by
  unfold runBars at hrun
  cases hfirst : bars.head? with
  | none => simp [hfirst] at hrun
  | some firstBar =>
    cases hlast : bars.getLast? with
    | none => simp [hfirst, hlast] at hrun
    | some lastBar =>
      simp only [hfirst, hlast] at hrun
      split at hrun
      · cases hrun
      · rename_i hlen
        rcases hloop : barLoop strategy cfg bars 0 [] none (q, s) with ⟨e | _, q₁, s₁⟩
        · simp [hloop] at hrun
        · simp only [hloop] at hrun
          cases hliq : liquidate strategy cfg lastBar (bars.length - 1) s₁ with
          | error e => simp [hliq] at hrun
          | ok s₂ =>
            simp only [hliq, Prod.mk.injEq, Except.ok.injEq] at hrun
            obtain ⟨rfl, rfl, rfl⟩ := hrun
            exact ⟨firstBar, lastBar, s₁, rfl, not_lt.mp hlen, rfl, hliq, rfl⟩

end Engine

end Qros.QuantEngine
