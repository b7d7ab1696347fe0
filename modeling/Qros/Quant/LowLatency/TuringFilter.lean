import Qros.Lib.Machine
import Qros.Quant.Arith

/-!
# The Turing filter

`include/quant/low_latency/turing_filter.h`, `src/low_latency/turing_filter.cpp`: a
sequential test of one hypothesis on a feed of ticks.  Ticks that fail a constraint abort
the test; ticks that pass all of them add their evidence, in decibans, until one of two
thresholds is reached.

The bits of a constraint mask are the fields of a record.  A 64-bit time stamp is always
finite as a `double`, and `last_mid`, which nothing reads, is left out.
-/

universe u

namespace Qros.Quant.LowLatency

open Qros.Lib

/-- What the filter takes from `<cmath>` and `<limits>`. -/
class TuringMath (F : Type u) where
  /-- `std::isfinite`. -/
  isfinite : F → Bool
  /-- `std::log`. -/
  log : F → F
  /-- `10.0 / kLn10`. -/
  decibansPerNat : F
  /-- `std::numeric_limits<double>::quiet_NaN()`. -/
  nan : F

/-- Finite values are totally ordered. -/
class LawfulTuringMath (F : Type u) [LE F] [LT F] [TuringMath F] : Prop where
  lt_of_not_le : ∀ x y : F, TuringMath.isfinite x = true → TuringMath.isfinite y = true →
    ¬ y ≤ x → x < y

open TuringMath

inductive TuringFilterDecision where
  | drop
  | «continue»
  | accept
  | reject
deriving DecidableEq

structure TuringConstraints where
  finite : Bool
  spread : Bool
  depth : Bool
  tradeVolume : Bool
  timestamp : Bool
  directionalAnchor : Bool
  persistence : Bool
deriving DecidableEq

/-- The empty mask. -/
def TuringConstraints.none : TuringConstraints := ⟨false, false, false, false, false, false, false⟩

/-- Whether all of `kStructuralMask` is in the mask. -/
def TuringConstraints.structural (m : TuringConstraints) : Bool :=
  m.finite && m.spread && m.depth && m.tradeVolume && m.timestamp

structure TuringFilterTick (F : Type u) where
  timestampNs : Int
  bid : F
  ask : F
  bidVolume : F
  askVolume : F
  tradeVolume : F

structure TuringFilterConfig (F : Type u) where
  maxSpread : F
  minTotalDepth : F
  minTradeVolume : F
  minAbsImbalance : F
  minPersistence : Nat
  maxSamples : Nat
  eventProbabilityH : F
  eventProbabilityNotH : F
  contradictionProbabilityH : F
  contradictionProbabilityNotH : F
  lowerDeciban : F
  upperDeciban : F

structure TuringFilterState (F : Type u) where
  logOddsDeciban : F
  samples : Nat
  persistence : Nat
  constraintMask : TuringConstraints
  lastDecision : TuringFilterDecision
  hasPrevious : Bool
  hasTimestamp : Bool
  lastTimestampNs : Int
  lastDirectionalImbalance : F
deriving DecidableEq

section Filter

variable {F : Type u} [Zero F] [One F] [Add F] [Sub F] [Mul F] [Div F] [Neg F] [LE F] [LT F]
  [DecidableLE F] [DecidableLT F] [TuringMath F]

def TuringFilterState.initial : TuringFilterState F :=
  ⟨0, 0, 0, .none, .continue, false, false, 0, 0⟩

def probabilityValid (p : F) : Bool := isfinite p && decide (0 < p) && decide (p < 1)

def configValid (c : TuringFilterConfig F) : Bool :=
  isfinite c.maxSpread && decide (0 ≤ c.maxSpread) &&
    isfinite c.minTotalDepth && decide (0 ≤ c.minTotalDepth) &&
    isfinite c.minTradeVolume && decide (0 ≤ c.minTradeVolume) &&
    isfinite c.minAbsImbalance &&
    decide (0 ≤ c.minAbsImbalance) && decide (c.minAbsImbalance < 1) &&
    decide (0 < c.minPersistence) && decide (0 < c.maxSamples) &&
    probabilityValid c.eventProbabilityH &&
    probabilityValid c.eventProbabilityNotH &&
    probabilityValid c.contradictionProbabilityH &&
    probabilityValid c.contradictionProbabilityNotH &&
    isfinite c.lowerDeciban && isfinite c.upperDeciban && decide (c.lowerDeciban < c.upperDeciban)

def evidenceDeciban (pEventH pEventNotH : F) : F :=
  if probabilityValid pEventH = false ∨ probabilityValid pEventNotH = false then nan
  else decibansPerNat * (log pEventH - log pEventNotH)

variable (config : TuringFilterConfig F) (bullishHypothesis : Bool)

/-- The first of the structural constraints: a tick of finite numbers. -/
def finiteTick (tick : TuringFilterTick F) : Bool :=
  isfinite tick.bid && isfinite tick.ask && isfinite tick.bidVolume && isfinite tick.askVolume &&
    isfinite tick.tradeVolume

def structuralConstraints (state : TuringFilterState F) (tick : TuringFilterTick F) :
    TuringConstraints :=
  if finiteTick tick = false then .none
  else
    let spread := tick.ask - tick.bid
    let totalDepth := tick.bidVolume + tick.askVolume
    { TuringConstraints.none with
      finite := true
      spread := decide (0 < tick.bid) && decide (0 < tick.ask) && decide (0 ≤ spread) &&
        decide (spread ≤ config.maxSpread)
      depth := decide (0 ≤ tick.bidVolume) && decide (0 ≤ tick.askVolume) &&
        decide (config.minTotalDepth ≤ totalDepth)
      tradeVolume := decide (config.minTradeVolume ≤ tick.tradeVolume)
      timestamp := !state.hasTimestamp || decide (state.lastTimestampNs < tick.timestampNs) }

/-- `directional_anchor`: the directional imbalance, where the anchor holds. -/
def directionalAnchor (tick : TuringFilterTick F) : Option F :=
  let total := tick.bidVolume + tick.askVolume
  if ¬ 0 < total ∨ isfinite total = false then none
  else
    let imbalance := (tick.bidVolume - tick.askVolume) / total
    let directionalImbalance := if bullishHypothesis then imbalance else -imbalance
    if isfinite directionalImbalance = true ∧ config.minAbsImbalance ≤ directionalImbalance then
      some directionalImbalance
    else none

def persistenceAnchor (state : TuringFilterState F) (directionalImbalance : F) : Bool × Nat :=
  let persistence :=
    if state.hasPrevious = false then 1
    else if config.minAbsImbalance ≤ directionalImbalance ∧
        config.minAbsImbalance ≤ state.lastDirectionalImbalance then
      if state.persistence < config.minPersistence then state.persistence + 1 else state.persistence
    else 1
  (decide (config.minPersistence ≤ persistence), persistence)

/-- The start of `process`: after a terminal decision a fresh sequence of evidence begins. -/
def beginSequence (state : TuringFilterState F) : TuringFilterState F :=
  if state.lastDecision = .accept ∨ state.lastDecision = .reject then
    { (TuringFilterState.initial : TuringFilterState F) with
      hasTimestamp := state.hasTimestamp
      lastTimestampNs := state.lastTimestampNs }
  else state

/-- The watermark of the feed moves on with every finite tick that is newer. -/
def noteTimestamp (structural : TuringConstraints) (tick : TuringFilterTick F)
    (state : TuringFilterState F) : TuringFilterState F :=
  if structural.finite = true ∧ structural.timestamp = true then
    { state with lastTimestampNs := tick.timestampNs, hasTimestamp := true }
  else state

/-- The end of a sequence that a tick breaks off. -/
def abortSequence (state : TuringFilterState F) : TuringFilterDecision × TuringFilterState F :=
  (.drop, { state with
    samples := 0, persistence := 0, logOddsDeciban := 0, hasPrevious := false, lastDecision := .drop })

/-- The end of a sequence that cannot go on. -/
def rejectSequence (state : TuringFilterState F) : TuringFilterDecision × TuringFilterState F :=
  (.reject, { state with
    samples := 0, persistence := 0, logOddsDeciban := 0, lastDecision := .reject })

/-- The rest of `process` for a tick that passes every anchor. -/
def weighEvidence (tick : TuringFilterTick F) (directionalImbalance : F)
    (state : TuringFilterState F) : TuringFilterDecision × TuringFilterState F :=
  if config.maxSamples ≤ state.samples then rejectSequence state
  else
    let confirming :=
      !state.hasPrevious || decide (state.lastDirectionalImbalance ≤ directionalImbalance)
    let evidence :=
      if confirming then evidenceDeciban config.eventProbabilityH config.eventProbabilityNotH
      else evidenceDeciban config.contradictionProbabilityH config.contradictionProbabilityNotH
    if isfinite evidence = false then rejectSequence state
    else
      let nextLogOdds := state.logOddsDeciban + evidence
      if isfinite nextLogOdds = false then rejectSequence state
      else
        let state := { state with
          logOddsDeciban := nextLogOdds
          samples := state.samples + 1
          lastTimestampNs := tick.timestampNs
          lastDirectionalImbalance := directionalImbalance
          hasPrevious := true }
        if config.upperDeciban ≤ state.logOddsDeciban then
          (.accept, { state with lastDecision := .accept })
        else if state.logOddsDeciban ≤ config.lowerDeciban then
          (.reject, { state with lastDecision := .reject })
        else (.continue, { state with lastDecision := .continue })

def process (tick : TuringFilterTick F) (state : TuringFilterState F) :
    TuringFilterDecision × TuringFilterState F :=
  let state := beginSequence state
  if configValid config = false then
    (.reject, { (TuringFilterState.initial : TuringFilterState F) with lastDecision := .reject })
  else
    let structural := structuralConstraints config state tick
    let state := { noteTimestamp structural tick state with constraintMask := structural }
    if structural.structural = false then abortSequence state
    else
      match directionalAnchor config bullishHypothesis tick with
      | none => abortSequence state
      | some directionalImbalance =>
        let (held, persistence) := persistenceAnchor config state directionalImbalance
        let state := { state with
          persistence := persistence
          constraintMask := { structural with directionalAnchor := true, persistence := held } }
        if held = false then
          (.drop, { state with
            samples := 0
            logOddsDeciban := 0
            lastTimestampNs := tick.timestampNs
            lastDirectionalImbalance := directionalImbalance
            hasPrevious := true
            lastDecision := .drop })
        else weighEvidence config tick directionalImbalance state

/-! ## The filter on a feed -/

inductive FeedEvent (F : Type u) where
  | tick (tick : TuringFilterTick F)
  | reset

def filter : Machine (TuringFilterState F) (FeedEvent F) (Option TuringFilterDecision) where
  init := .initial
  step event state :=
    match event with
    | .tick tick =>
      let (decision, state) := process config bullishHypothesis tick state
      (some decision, state)
    | .reset => (none, .initial)

def processBatch : List (TuringFilterTick F) → TuringFilterState F →
    List TuringFilterDecision × TuringFilterState F
  | [], state => ([], state)
  | tick :: ticks, state =>
    let (decision, state) := process config bullishHypothesis tick state
    let (decisions, state) := processBatch ticks state
    (decision :: decisions, state)

end Filter

end Qros.Quant.LowLatency
