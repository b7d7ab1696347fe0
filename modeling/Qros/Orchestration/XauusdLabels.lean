import Qros.Lib.Checks
import Qros.Python.Float

/-!
# Triple-barrier labels

`label_ohlc_triple_barrier` of `researchos/orchestration/xauusd_labels.py`.  A time
stamp is an instant, so one without a time zone is not a value here.

The numbers are a linear order with any three operations `+`, `-` and `*`: `float64`
without `nan`, whatever is rounded and wherever infinity is reached.  No `nan` is
among the barriers of positive finite numbers.
-/

namespace Qros.Orchestration

open Qros.Lib Qros.Python

inductive OutcomeLabel where
  | takeProfit
  | stopLoss
  | timeout
deriving DecidableEq

inductive AmbiguousTouchPolicy where
  | exclude
  | conservativeSlFirst
deriving DecidableEq

section Data

variable (F : Type) [LinearOrder F] [Zero F] [IsFinite F]

/-- `OutcomeSpec`, with what its `__post_init__` asks of the fields that a labeller reads. -/
structure OutcomeSpec where
  takeProfitAtr : F
  stopLossAtr : F
  maxHoldingBars : Nat
  ambiguousTouchPolicy : AmbiguousTouchPolicy
  version : String
  takeProfit_ok : FinitePositive takeProfitAtr
  stopLoss_ok : FinitePositive stopLossAtr
  holding_pos : 0 < maxHoldingBars

structure OHLCBar where
  timestamp : Int
  «open» : F
  high : F
  low : F
  close : F
  prices_ok : ∀ price ∈ [«open», high, low, close], FinitePositive price
  high_ok : max «open» close ≤ high
  low_ok : low ≤ min «open» close

structure OHLCBarrierLabel where
  eventTime : Int
  entryTime : Int
  entryPrice : F
  direction : Int
  outcome : OutcomeLabel
  exitTime : Int
  exitPrice : F
  barsHeld : Nat
  outcomeSpecVersion : String

end Data

section Label

variable {F : Type} [LinearOrder F] [Zero F] [IsFinite F]

/-- `OHLCBar.__post_init__`. -/
def OHLCBar.make (timestamp : Int) (o high low close : F) : Except String (OHLCBar F) :=
  if h : ∀ price ∈ [o, high, low, close], FinitePositive price then
    if hhigh : max o close ≤ high then
      if hlow : low ≤ min o close then
        if high < low then .error "high must be >= low"
        else .ok ⟨timestamp, o, high, low, close, h, hhigh, hlow⟩
      else .error "low must be <= open and close"
    else .error "high must be >= open and close"
  else
    let bad := [("open", o), ("high", high), ("low", low), ("close", close)].find?
      fun price ↦ ¬ FinitePositive price.2
    .error ((bad.map Prod.fst).getD "" ++ " must be finite and positive")

variable [Add F] [Sub F] [Mul F]

/-- Where a bar is against the two barriers. -/
structure Touches where
  openTp : Bool
  openSl : Bool
  hitTp : Bool
  hitSl : Bool

/-- The barriers of a position, take profit first. -/
def barriers (spec : OutcomeSpec F) (direction : Int) (entry eventAtr : F) : F × F :=
  if direction = 1 then
    (entry + spec.takeProfitAtr * eventAtr, entry - spec.stopLossAtr * eventAtr)
  else (entry - spec.takeProfitAtr * eventAtr, entry + spec.stopLossAtr * eventAtr)

omit [Add F] [Sub F] [Mul F] in
/-- The comparisons of a bar with the barriers. -/
def touches (direction : Int) (takeProfit stopLoss : F) (bar : OHLCBar F) : Touches :=
  if direction = 1 then
    { openTp := decide (bar.open ≥ takeProfit)
      openSl := decide (bar.open ≤ stopLoss)
      hitTp := decide (bar.high ≥ takeProfit)
      hitSl := decide (bar.low ≤ stopLoss) }
  else
    { openTp := decide (bar.open ≤ takeProfit)
      openSl := decide (bar.open ≥ stopLoss)
      hitTp := decide (bar.low ≤ takeProfit)
      hitSl := decide (bar.high ≥ stopLoss) }

/-- The loop over the bars from the entry to the end of the horizon, `held` of them
behind: the outcome with the price and the bar of the exit and the bars held. -/
def resolve (policy : AmbiguousTouchPolicy) (direction : Int) (takeProfit stopLoss : F) :
    List (OHLCBar F) → Nat → Option (OutcomeLabel × F × OHLCBar F × Nat)
  | [], _ => none
  | bar :: later, held =>
    let t := touches direction takeProfit stopLoss bar
    if t.openTp then some (.takeProfit, bar.open, bar, held + 1)
    else if t.openSl then some (.stopLoss, bar.open, bar, held + 1)
    else if t.hitTp && t.hitSl then
      if policy = .exclude then none else some (.stopLoss, stopLoss, bar, held + 1)
    else if t.hitTp then some (.takeProfit, takeProfit, bar, held + 1)
    else if t.hitSl then some (.stopLoss, stopLoss, bar, held + 1)
    else if later = [] then some (.timeout, bar.close, bar, held + 1)
    else resolve policy direction takeProfit stopLoss later (held + 1)

/-- The round of the loop over the directions for one signal bar. -/
def labelAt (spec : OutcomeSpec F) (bars : List (OHLCBar F)) (atr : List (Option F)) (index : Nat)
    (direction : Option Int) : Option (OHLCBarrierLabel F) := do
  let direction ← direction
  let endIndex := index + spec.maxHoldingBars
  if endIndex ≥ bars.length then
    none
  else
    let eventAtr ← (← atr[index]?)
    let signalBar ← bars[index]?
    let entryBar ← bars[index + 1]?
    let entry := entryBar.open
    let (takeProfit, stopLoss) := barriers spec direction entry eventAtr
    let window := (bars.drop (index + 1)).take spec.maxHoldingBars
    let (outcome, exitPrice, bar, held) ←
      resolve spec.ambiguousTouchPolicy direction takeProfit stopLoss window 0
    return {
      eventTime := signalBar.timestamp
      entryTime := entryBar.timestamp
      entryPrice := entry
      direction := direction
      outcome := outcome
      exitTime := bar.timestamp
      exitPrice := exitPrice
      barsHeld := held
      outcomeSpecVersion := spec.version }

theorem outcome_labelAt {spec : OutcomeSpec F} {bars : List (OHLCBar F)} {atr : List (Option F)}
    {index : Nat} {direction : Int} {eventAtr : F} {entryBar : OHLCBar F}
    (hatr : atr[index]? = some (some eventAtr)) (hentry : bars[index + 1]? = some entryBar)
    (hfits : index + spec.maxHoldingBars < bars.length) :
    (labelAt spec bars atr index (some direction)).map (·.outcome) =
      (resolve spec.ambiguousTouchPolicy direction
        (barriers spec direction entryBar.open eventAtr).1
        (barriers spec direction entryBar.open eventAtr).2
        ((bars.drop (index + 1)).take spec.maxHoldingBars) 0).map Prod.fst := by
  have hsignal : bars[index]? = some bars[index] := List.getElem?_eq_getElem (by omega)
  simp only [labelAt, Option.bind_eq_bind, Option.bind_some, if_neg (not_le.mpr hfits), hatr,
    hsignal, hentry]
  obtain ⟨takeProfit, stopLoss⟩ := barriers spec direction entryBar.open eventAtr
  cases resolve spec.ambiguousTouchPolicy direction takeProfit stopLoss
    ((bars.drop (index + 1)).take spec.maxHoldingBars) 0 with
  | none => rfl
  | some resolved => rfl

def labelOhlcTripleBarrier (bars : List (OHLCBar F)) (directions : List (Option Int))
    (atr : List (Option F)) (spec : OutcomeSpec F) :
    Except String (List (Option (OHLCBarrierLabel F))) := do
  require (directions.length = bars.length ∧ atr.length = bars.length)
    "bars, directions, and atr must have equal lengths"
  require (∀ p ∈ bars.zip bars.tail, p.1.timestamp < p.2.timestamp)
    "bar timestamps must be strictly increasing"
  require (∀ value ∈ atr, ∀ numeric ∈ value, FinitePositive numeric)
    "ATR values must be finite and positive or None"
  require (∀ direction ∈ directions, ∀ d ∈ direction, d = -1 ∨ d = 1)
    "directions must be -1, 1, or None"
  return directions.mapIdx (labelAt spec bars atr)

end Label

end Qros.Orchestration
