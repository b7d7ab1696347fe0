import Mathlib.Data.Char
import Mathlib.Data.List.Lex
import Qros.Lib.Delimited
import Qros.Quant.Strategy.Bar

/-!
# Canonical texts

The canonical JSON of `strategy_hash.cpp` and the text that `compute_input_hash`
feeds to SHA-256.  A `std::string` is a `List Char`.  The digest itself is not
modelled: what a hash stands for is its preimage.
-/

universe u

namespace Qros.Quant.Strategy

open Qros.Lib.KeySort Qros.Lib.Delimited

abbrev Text := List Char

/-! ## Primitives -/

/-- `std::snprintf` with `"%04d-%02d-%02dT%02d:%02d:%02d"`. -/
def iso8601 (tp : TimePoint) : Text :=
  let tm := gmtime (toTimeT tp)
  zeroPadded 4 tm.date.year ++ '-' :: zeroPadded 2 tm.date.month ++ '-' ::
    zeroPadded 2 tm.date.day ++ 'T' :: zeroPadded 2 tm.hour ++ ':' :: zeroPadded 2 tm.min ++
    ':' :: zeroPadded 2 tm.sec

/-- The buffer of the source holds the longest finite `double`, so its failure
branch is never taken. -/
def canonicalDouble {F : Type u} [Zero F] [LT F] [DecidableLT F] [CFormat F] (v : F) : Text :=
  if CFormat.isnan v then "null".toList
  else if CFormat.isinf v then
    if 0 < v then "1e999".toList else "-1e999".toList
  else CFormat.fixed10 v

/-- `std::to_string`. -/
def canonicalInt (v : Int) : Text :=
  if v < 0 then '-' :: Nat.toDigits 10 v.natAbs else Nat.toDigits 10 v.natAbs

def canonicalBool (b : Bool) : Text := if b then "true".toList else "false".toList

def escapeChar (c : Char) : Text :=
  if c = '"' then ['\\', '"']
  else if c = '\\' then ['\\', '\\']
  else if c = '\n' then ['\\', 'n']
  else if c = '\r' then ['\\', 'r']
  else if c = '\t' then ['\\', 't']
  else if c.toNat < 32 then
    ['\\', 'u'] ++ List.replicate (4 - (Nat.toDigits 16 c.toNat).length) '0' ++
      Nat.toDigits 16 c.toNat
  else [c]

def canonicalStr (s : Text) : Text := '"' :: (s.flatMap escapeChar ++ ['"'])

def member (kv : Text × Text) : Text := canonicalStr kv.1 ++ ':' :: kv.2

/-- `canonical_object`; the keys of an object are distinct, so that `std::sort`
leaves no choice. -/
def canonicalObject (kvs : List (Text × Text)) : Text :=
  '{' :: (sepBy ',' ((stableSortBy Prod.fst kvs).map member) ++ ['}'])

/-- The array loops of `compute_input_hash`. -/
def canonicalArray (items : List Text) : Text :=
  '[' :: (sepBy ',' items ++ [']'])

/-! ## Names -/

def sideName : TradeSide → Text
  | .long => "Long".toList
  | .short => "Short".toList

def actionName : SignalAction → Text
  | .none => "None".toList
  | .open => "Open".toList
  | .close => "Close".toList
  | .closeAll => "CloseAll".toList
  | .modify => "Modify".toList

def sizingName : PositionSizing → Text
  | .fixedLot => "FixedLot".toList
  | .riskPercent => "RiskPercent".toList

def stopName : StopType → Text
  | .atr => "ATR".toList
  | .fixed => "Fixed".toList
  | .none => "None".toList

/-! ## The preimage of the input hash -/

section

variable {F : Type u} [Zero F] [LT F] [DecidableLT F] [CFormat F]

def barText (b : OHLCV F) : Text :=
  canonicalObject
    [("t".toList, canonicalStr (iso8601 b.timestamp)),
      ("o".toList, canonicalDouble b.open),
      ("h".toList, canonicalDouble b.high),
      ("l".toList, canonicalDouble b.low),
      ("c".toList, canonicalDouble b.close),
      ("v".toList, canonicalDouble b.volume)]

def barsJson (bars : List (OHLCV F)) : Text := canonicalArray (bars.map barText)

def signalText (s : StrategySignal F) : Text :=
  canonicalObject
    [("bar_index".toList, canonicalInt s.barIndex),
      ("action".toList, canonicalStr (actionName s.action)),
      ("side".toList, canonicalStr (sideName s.side)),
      ("quantity".toList, canonicalDouble s.quantity),
      ("stop_loss".toList, canonicalDouble s.stopLoss),
      ("take_profit".toList, canonicalDouble s.takeProfit),
      ("trailing_stop".toList, canonicalDouble s.trailingStop),
      ("has_stop_loss".toList, canonicalBool s.hasStopLoss),
      ("has_take_profit".toList, canonicalBool s.hasTakeProfit),
      ("has_trailing_stop".toList, canonicalBool s.hasTrailingStop),
      ("risk_amount".toList, canonicalDouble s.riskAmount)]

/-- The signals are listed in a stable order of their own. -/
def sigJson (signals : List (StrategySignal F)) : Text :=
  canonicalArray ((stableSortBy StrategySignal.barIndex signals).map signalText)

def tradeText (t : TradeConfig F) : Text :=
  canonicalObject
    [("sizing".toList, canonicalStr (sizingName t.sizing)),
      ("fixed_lot".toList, canonicalDouble t.fixedLot),
      ("risk_percent".toList, canonicalDouble t.riskPercent),
      ("risk_amount".toList, canonicalDouble t.riskAmount),
      ("default_quantity".toList, canonicalDouble t.defaultQuantity),
      ("commission_pct".toList, canonicalDouble t.commissionPct),
      ("commission_per_lot".toList, canonicalDouble t.commissionPerLot),
      ("spread_pct".toList, canonicalDouble t.spreadPct),
      ("slippage_pct".toList, canonicalDouble t.slippagePct),
      ("stop_type".toList, canonicalStr (stopName t.stopType)),
      ("stop_loss".toList, canonicalDouble t.stopLoss),
      ("take_profit".toList, canonicalDouble t.takeProfit),
      ("atr_period".toList, canonicalInt t.atrPeriod),
      ("atr_sl_multiplier".toList, canonicalDouble t.atrSlMultiplier),
      ("atr_tp_multiplier".toList, canonicalDouble t.atrTpMultiplier),
      ("trailing_stop".toList, canonicalDouble t.trailingStop),
      ("atr_trailing_multiplier".toList, canonicalDouble t.atrTrailingMultiplier),
      ("trailing_activation_pct".toList, canonicalDouble t.trailingActivationPct),
      ("break_even_activation_pct".toList, canonicalDouble t.breakEvenActivationPct),
      ("partial_close_pct".toList, canonicalDouble t.partialClosePct),
      ("partial_close_target_pct".toList, canonicalDouble t.partialCloseTargetPct),
      ("max_bars_in_trade".toList, canonicalInt t.maxBarsInTrade),
      ("allow_long".toList, canonicalBool t.allowLong),
      ("allow_short".toList, canonicalBool t.allowShort)]

def sessionText (s : SessionFilter) : Text :=
  canonicalObject
    [("enabled".toList, canonicalBool s.enabled),
      ("utc_start_hour".toList, canonicalInt s.utcStartHour),
      ("utc_end_hour".toList, canonicalInt s.utcEndHour),
      ("allow_saturday".toList, canonicalBool s.allowSaturday),
      ("allow_sunday".toList, canonicalBool s.allowSunday)]

/-- The two sizes are cast to `int64_t`; the cast tells any two sizes apart, as
the embedding into `Int` does. -/
def riskText (r : RiskConfig F) : Text :=
  canonicalObject
    [("initial_equity".toList, canonicalDouble r.initialEquity),
      ("daily_loss_limit_pct".toList, canonicalDouble r.dailyLossLimitPct),
      ("max_open_positions".toList, canonicalInt r.maxOpenPositions),
      ("max_trades_per_day".toList, canonicalInt r.maxTradesPerDay),
      ("close_on_session_end".toList, canonicalBool r.closeOnSessionEnd),
      ("session".toList, sessionText r.session)]

def cfgJson (config : StrategyConfig F) : Text :=
  canonicalObject [("trade".toList, tradeText config.trade), ("risk".toList, riskText config.risk)]

/-- What `compute_input_hash` hashes. -/
def inputPreimage (bars : List (OHLCV F)) (signals : List (StrategySignal F))
    (config : StrategyConfig F) : Text :=
  canonicalObject
    [("bars".toList, barsJson bars), ("config".toList, cfgJson config),
      ("signals".toList, sigJson signals)]

end

end Qros.Quant.Strategy

/-!
## The order of the signal stream

A run reads its signals through a stable sort by bar index, and so does the input
hash.  Two streams that list the signals of each bar in the same order are sorted
to the same stream, so that nothing downstream can tell them apart.
-/

set_option linter.unusedSectionVars false

namespace Qros.Quant.Strategy

open Qros.Lib.KeySort

variable {F : Type u} [Zero F] [One F] [NatCast F] [Add F] [Sub F] [Mul F] [Div F] [Neg F]
  [LT F] [LE F] [DecidableLT F] [DecidableLE F]

/-- The two streams are permutations of each other that keep the relative order
of signals with the same bar index. -/
structure Reordered (signals signals' : List (StrategySignal F)) : Prop where
  perm : signals.Perm signals'
  sameBar : ∀ k, atKey StrategySignal.barIndex k signals = atKey StrategySignal.barIndex k signals'

variable {signals signals' : List (StrategySignal F)}

theorem Reordered.orderSignals_eq (h : Reordered signals signals') :
    orderSignals signals = orderSignals signals' :=
  stableSortBy_congr _ h.sameBar

theorem Reordered.inputError_eq (h : Reordered signals signals') (bars : List (OHLCV F)) :
    inputError bars signals = inputError bars signals' := by
  have hany (p : StrategySignal F → Bool) : signals.any p = signals'.any p := by
    rw [Bool.eq_iff_iff, List.any_eq_true, List.any_eq_true]
    simp only [h.perm.mem_iff]
  simp only [inputError, hany]

theorem Reordered.run_eq [CMath F] [IntCast F] [BEq F] (h : Reordered signals signals')
    (cfg : StrategyConfig F) (bars : List (OHLCV F)) :
    run cfg bars signals = run cfg bars signals' := by
  simp only [run, h.inputError_eq bars, simulate, loopEnd, h.orderSignals_eq]

theorem Reordered.sigJson_eq [CFormat F] (h : Reordered signals signals') :
    sigJson signals = sigJson signals' := by
  rw [sigJson, sigJson, stableSortBy_congr _ h.sameBar]

/-- **Signal order.**  A reordering changes neither the outcome of `run` nor the
canonical signals that are hashed, and every run processes each of the signals it
was given. -/
theorem run_signalOrder [CMath F] [IntCast F] [BEq F] [CFormat F] (cfg : StrategyConfig F)
    (bars : List (OHLCV F)) (signals : List (StrategySignal F)) :
    (∀ signals', Reordered signals signals' →
      run cfg bars signals = run cfg bars signals' ∧ sigJson signals = sigJson signals') ∧
    ∀ r, run cfg bars signals = .ok r → r.signalsProcessed = signals.length := by
  refine ⟨fun signals' h ↦ ⟨h.run_eq cfg bars, h.sigJson_eq⟩, fun r hr ↦ ?_⟩
  obtain ⟨hacc, rfl⟩ := run_eq_ok.mp hr
  exact signalsProcessed_eq hacc cfg

/-- A stream supplied backwards. -/
theorem run_signalOrder_sample :
    let cfg : StrategyConfig ℚ :=
      { StrategyConfig.defaults with
        trade := { TradeConfig.defaults with sizing := .fixedLot, fixedLot := 1 } }
    let bars : List (OHLCV ℚ) :=
      [⟨0, 100, 101, 99, 100, 1⟩, ⟨60000000000, 100, 103, 99, 102, 1⟩,
        ⟨120000000000, 102, 102, 94, 95, 1⟩]
    let buy : StrategySignal ℚ := { StrategySignal.defaults with barIndex := 0, action := .open }
    let sell : StrategySignal ℚ := { StrategySignal.defaults with barIndex := 1, action := .close }
    ∃ r, run cfg bars [buy, sell] = .ok r ∧ run cfg bars [sell, buy] = .ok r ∧
      r.signalsProcessed = 2 := by
  intro cfg bars buy sell
  obtain ⟨r, hr⟩ : ∃ r, run cfg bars [buy, sell] = .ok r := exists_run (by decide +kernel)
  have hord : Reordered [buy, sell] [sell, buy] := by
    refine ⟨List.Perm.swap _ _ _, fun k ↦ ?_⟩
    by_cases h₀ : (0 : Int) = k
    · subst h₀
      rfl
    · by_cases h₁ : (1 : Int) = k
      · subst h₁
        rfl
      · simp [atKey, buy, sell, h₀, h₁]
  have h := run_signalOrder cfg bars [buy, sell]
  exact ⟨r, hr, (h.1 _ hord).1 ▸ hr, h.2 r hr⟩

end Qros.Quant.Strategy
