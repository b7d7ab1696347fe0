import Mathlib.Algebra.Order.Field.Rat
import Qros.Orchestration.Score

/-!
# The scores of the grid

`run_grid` gets past its scores when every lookback is shorter than the series.
The scores are then those of `_causal_signal_score`, and none of them looks
ahead: a score reads high, low, close and timestamp of the bars up to its own.
-/

set_option linter.unusedSectionVars false

namespace Qros.Orchestration

open Qros.Lib List
open NumpyFloat (nan dot)

variable {F : Type} [NumpyFloat F] [Zero F] [One F] [Sub F] [Div F] [NatCast F]
variable [LT F] [DecidableLT F]

/-! ## The ATR -/

section

variable {high low close : List F} {period : Nat}

/-- The true ranges, the first of them without a close before it. -/
def barRanges (high low close : List F) : List F :=
  match high, low with
  | h :: _, l :: _ => (trueRanges high low close).set 0 (h - l)
  | _, _ => []

/-- The mean of the last `period` ranges. -/
def atrSeries (high low close : List F) (period : Nat) : List F :=
  rolling period nan (fun w ↦ dot w (ones period).reverse / (period : F)) (barRanges high low close)

theorem length_trueRanges (hhigh : high.length = close.length) (hlow : low.length = close.length) :
    (trueRanges high low close).length = close.length := by
  simp only [trueRanges, length_zipWith, length_cons, List.rdrop, length_take]
  omega

theorem length_barRanges (hhigh : high.length = close.length) (hlow : low.length = close.length) :
    (barRanges high low close).length = close.length := by
  unfold barRanges
  split
  · rw [length_set, length_trueRanges hhigh hlow]
  · rename_i hne
    cases high with
    | nil => exact hhigh
    | cons h high =>
      cases low with
      | nil => exact hlow
      | cons l low => exact (hne h high l low rfl rfl).elim

theorem length_atrSeries (hperiod : 0 < period) (hhigh : high.length = close.length)
    (hlow : low.length = close.length) :
    (atrSeries high low close period).length = close.length := by
  rw [atrSeries, length_rolling hperiod, length_barRanges hhigh hlow]

theorem atr_eq (hperiod : 0 < period) (hhigh : high.length = close.length)
    (hlow : low.length = close.length) (hclose : close ≠ []) :
    atr high low close period = .ok (atrSeries high low close period) := by
  have hpos : 0 < close.length := length_pos_iff.mpr hclose
  have hlen := length_barRanges hhigh hlow
  have htr : setFirstRange (trueRanges high low close) high low =
      .ok (barRanges high low close) := by
    cases high with
    | nil => exact absurd hhigh (by rw [length_nil]; omega)
    | cons h high =>
      cases low with
      | nil => exact absurd hlow (by rw [length_nil]; omega)
      | cons l low => rfl
  dsimp only [atr]
  rw [htr]
  show (if period ≤ close.length then _ else _ : Except String (List F)) = _
  by_cases hle : period ≤ close.length
  · rw [if_pos hle, convolveValid_eq (by simpa using hperiod) (by rw [length_ones]; omega)]
    show assignFrom _ _ _ = _
    rw [assignFrom_eq (by
      simp only [length_map, length_windows, length_ones, length_replicate]
      omega), atrSeries, rolling, hlen, take_replicate, map_map, length_ones]
    rfl
  · have hnone : (barRanges high low close).length + 1 - period = 0 := by omega
    rw [if_neg hle, atrSeries, rolling, windows, hnone, hlen, Nat.min_eq_right (by omega)]
    exact congrArg Except.ok (append_nil _).symm

theorem take_trueRanges {t : Nat} (ht : t + 1 ≤ close.length) :
    (trueRanges high low close).take (t + 1) =
      trueRanges (high.take (t + 1)) (low.take (t + 1)) (close.take (t + 1)) := by
  have hprev : (nan :: close.rdrop 1).take (t + 1) = nan :: (close.take (t + 1)).rdrop 1 := by
    rw [take_succ_cons, List.rdrop, List.rdrop, take_take, take_take,
      length_take]
    congr 2
    omega
  simp only [trueRanges, take_zipWith, hprev]

theorem take_barRanges {t : Nat} (ht : t + 1 ≤ close.length) :
    (barRanges high low close).take (t + 1) =
      barRanges (high.take (t + 1)) (low.take (t + 1)) (close.take (t + 1)) := by
  unfold barRanges
  cases high with
  | nil => rfl
  | cons h high =>
    cases low with
    | nil => rfl
    | cons l low =>
      show ((trueRanges (h :: high) (l :: low) close).set 0 (h - l)).take (t + 1) = _
      rw [take_set, take_trueRanges ht]
      rfl

theorem take_atrSeries {t : Nat} (hperiod : 0 < period) (ht : t + 1 ≤ close.length) :
    (atrSeries high low close period).take (t + 1) =
      atrSeries (high.take (t + 1)) (low.take (t + 1)) (close.take (t + 1)) period := by
  rw [atrSeries, take_rolling hperiod, take_barRanges ht]
  rfl

end

/-! ## The loop over the lookbacks -/

section

variable {close atr : List F} {gaps : List Int}

variable {lbs : List Int}

theorem gridLoop_get?_of_not_mem {lb : Int} {scores scores' : Dict Int (List F)}
    (h : gridLoop close atr gaps lbs scores = .ok scores') (hlb : lb ∉ lbs) :
    scores'.get? lb = scores.get? lb := by
  induction lbs generalizing scores with
  | nil =>
    cases h
    rfl
  | cons l lbs ih =>
    obtain ⟨s, _, h⟩ := bind_eq_ok.mp h
    rw [ih h (fun hmem ↦ hlb (mem_cons_of_mem _ hmem)), Dict.get?_set_of_ne]
    rintro rfl
    exact hlb mem_cons_self

theorem gridLoop_get? {lb : Int} {scores scores' : Dict Int (List F)}
    (h : gridLoop close atr gaps lbs scores = .ok scores') (hlb : lb ∈ lbs) :
    ∃ s, gridScore close atr gaps lb = .ok s ∧ scores'.get? lb = some s := by
  induction lbs generalizing scores with
  | nil => cases hlb
  | cons l lbs ih =>
    obtain ⟨s, hs, h⟩ := bind_eq_ok.mp h
    by_cases hmem : lb ∈ lbs
    · exact ih h hmem
    · obtain rfl : lb = l := (mem_cons.mp hlb).resolve_right hmem
      exact ⟨s, hs, by rw [gridLoop_get?_of_not_mem h hmem, Dict.get?_set_self]⟩

theorem gridLoop_ok (scores : Dict Int (List F))
    (h : ∀ lb ∈ lbs, ∃ s, gridScore close atr gaps lb = .ok s) :
    ∃ scores', gridLoop close atr gaps lbs scores = .ok scores' := by
  induction lbs generalizing scores with
  | nil => exact ⟨scores, rfl⟩
  | cons l lbs ih =>
    obtain ⟨s, hs⟩ := h l mem_cons_self
    obtain ⟨scores', hscores'⟩ := ih (scores.set l s) fun lb hlb ↦ h lb (mem_cons_of_mem _ hlb)
    exact ⟨scores', bind_eq_ok.mpr ⟨s, hs, hscores'⟩⟩

end

/-! ## What the checks establish -/

variable [LE F] [DecidableLE F] {data : BacktestData F} {config : EngineConfig F}

structure Checked (data : BacktestData F) (config : EngineConfig F) : Prop where
  lookbacks : ∀ lb ∈ config.lookbacks, 1 ≤ lb
  bars : 100 ≤ data.close.length
  high : data.high.length = data.close.length
  low : data.low.length = data.close.length
  timestamp : data.timestamp.length = data.close.length

theorem checked_of_runGridChecks {n : Nat} (h : runGridChecks data config = .ok n) :
    Checked data config := by
  obtain ⟨_, hconfig, h⟩ := bind_eq_ok.mp h
  obtain ⟨m, hdata, h⟩ := bind_eq_ok.mp h
  obtain ⟨_, hbars, _⟩ := bind_eq_ok.mp h
  obtain ⟨_, hlookbacks, _⟩ := bind_eq_ok.mp hconfig
  dsimp only [validateBacktestData] at hdata
  obtain ⟨_, hlen, hdata⟩ := bind_eq_ok.mp hdata
  obtain ⟨_, hhigh, hlow, htimestamp⟩ := require_eq_ok.mp hlen
  have hm : m = data.close.length := by
    iterate 9 obtain ⟨_, _, hdata⟩ := bind_eq_ok.mp hdata
    exact (Except.ok.inj hdata).symm
  have hnlt := require_eq_ok.mp hbars
  exact ⟨fun lb hlb ↦ Int.not_lt.mp ((require_eq_ok.mp hlookbacks).2 lb hlb), by omega, hhigh, hlow,
    htimestamp⟩

namespace Checked

variable (h : Checked data config)

include h

theorem atr_eq : atr data.high data.low data.close 14 =
    .ok (atrSeries data.high data.low data.close 14) :=
  Orchestration.atr_eq (by omega) h.high h.low fun hnil ↦ by
    have := h.bars
    rw [hnil, length_nil] at this
    omega

theorem length_atr :
    data.close.length = (atrSeries data.high data.low data.close 14).length :=
  (length_atrSeries (by omega) h.high h.low).symm

theorem length_timestamp :
    (atrSeries data.high data.low data.close 14).length = data.timestamp.length :=
  h.length_atr.symm.trans h.timestamp.symm

end Checked

/-! ## The scores of the grid -/

def BacktestData.scores (data : BacktestData F) (lookback : Int) : List F :=
  Orchestration.scores data.close (atrSeries data.high data.low data.close 14) data.timestamp
    lookback.toNat

theorem runGridScores_eq {n : Nat} (h : runGridChecks data config = .ok n) :
    runGridScores data config = gridLoop data.close (atrSeries data.high data.low data.close 14)
      (gapPrefix data.timestamp) config.lookbacks ∅ := by
  unfold runGridScores
  rw [h, (checked_of_runGridChecks h).atr_eq]
  rfl

theorem lookback_lt_of_runGridScores {scores : Dict Int (List F)}
    (h : runGridScores data config = .ok scores) :
    ∀ lb ∈ config.lookbacks, lb < data.close.length := by
  intro lb hlb
  obtain ⟨n, hchecks, _⟩ := bind_eq_ok.mp h
  rw [runGridScores_eq hchecks] at h
  have hc := checked_of_runGridChecks hchecks
  obtain ⟨s, hs, _⟩ := gridLoop_get? h hlb
  by_contra hle
  have hbars := hc.bars
  exact gridScore_ne_ok (by omega) hc.length_atr (by omega) hs

theorem runGridScores_ok [LawfulNumpyFloat F] {n : Nat} (h : runGridChecks data config = .ok n)
    (hlt : ∀ lb ∈ config.lookbacks, lb < data.close.length) :
    ∃ scores, runGridScores data config = .ok scores := by
  rw [runGridScores_eq h]
  have hc := checked_of_runGridChecks h
  exact gridLoop_ok ∅ fun lb hlb ↦
    ⟨_, gridScore_eq (hc.lookbacks lb hlb) (hlt lb hlb) hc.length_atr hc.length_timestamp⟩

theorem get?_runGridScores [LawfulNumpyFloat F] {scores : Dict Int (List F)} {lb : Int}
    (h : runGridScores data config = .ok scores) (hlb : lb ∈ config.lookbacks) :
    scores.get? lb = some (data.scores lb) := by
  have hlt := lookback_lt_of_runGridScores h lb hlb
  obtain ⟨n, hchecks, _⟩ := bind_eq_ok.mp h
  rw [runGridScores_eq hchecks] at h
  have hc := checked_of_runGridChecks hchecks
  obtain ⟨s, hs, hget⟩ := gridLoop_get? h hlb
  rw [gridScore_eq (hc.lookbacks lb hlb) hlt hc.length_atr hc.length_timestamp] at hs
  exact hget.trans (congrArg some (Except.ok.inj hs).symm)

/-! ## No score looks ahead -/

def SameUpTo {α : Type} (t : Nat) (xs ys : List α) : Prop := xs.take (t + 1) = ys.take (t + 1)

theorem SameUpTo.getElem?_eq {α : Type} {t : Nat} {xs ys : List α} (h : SameUpTo t xs ys) :
    xs[t]? = ys[t]? := by
  have := congrArg (fun zs ↦ zs[t]?) h
  simp only [List.getElem?_take, if_pos (Nat.lt_succ_self t)] at this
  exact this

theorem SameUpTo.lt_length {α : Type} {t : Nat} {xs ys : List α} (h : SameUpTo t xs ys)
    (ht : t < xs.length) : t < ys.length := by
  have := congrArg List.length h
  rw [length_take, length_take] at this
  omega

theorem SameUpTo.scores {t k : Nat} {close close' atr atr' : List F}
    {timestamps timestamps' : List Int}
    (hclose : SameUpTo t close close') (hatr : SameUpTo t atr atr')
    (htimestamps : SameUpTo t timestamps timestamps') :
    SameUpTo t (scores close atr timestamps k) (scores close' atr' timestamps' k) := by
  unfold SameUpTo at hclose hatr htimestamps ⊢
  rw [take_scores, take_scores, hclose, hatr, htimestamps]

/-- What the scores read of the data is the same up to the position `t`. -/
structure BacktestData.SameBars (t : Nat) (data data' : BacktestData F) : Prop where
  high : SameUpTo t data.high data'.high
  low : SameUpTo t data.low data'.low
  close : SameUpTo t data.close data'.close
  timestamp : SameUpTo t data.timestamp data'.timestamp

theorem BacktestData.SameBars.scores {t : Nat} {data data' : BacktestData F} {lb : Int}
    (h : data.SameBars t data') (ht : t < data.close.length) :
    SameUpTo t (data.scores lb) (data'.scores lb) := by
  refine SameUpTo.scores h.close ?_ h.timestamp
  have ht' := h.close.lt_length ht
  have hhigh := h.high
  have hlow := h.low
  have hclose := h.close
  unfold SameUpTo at hhigh hlow hclose ⊢
  rw [take_atrSeries (by omega) ht, take_atrSeries (by omega) ht', hhigh, hlow, hclose]

structure ScoresAgree (data : BacktestData F) (config : EngineConfig F)
    (scores : Dict Int (List F)) : Prop where
  /-- They are the scores of `_causal_signal_score`. -/
  agrees : ∀ lb ∈ config.lookbacks, ∃ atrs s,
    atr data.high data.low data.close 14 = .ok atrs ∧ scores.get? lb = some s ∧
      causalSignalScore data.close atrs data.timestamp lb = .ok s
  /-- They do not change with the data behind them. -/
  causal : ∀ (t : Nat) (data' : BacktestData F) (scores' : Dict Int (List F)),
    t < data.close.length → data.SameBars t data' → runGridScores data' config = .ok scores' →
      ∀ lb ∈ config.lookbacks, ∃ s s', scores.get? lb = some s ∧ scores'.get? lb = some s' ∧
        s[t]? = s'[t]?
  /-- Neither do those of `_causal_signal_score`, whatever its arguments. -/
  causalSignal : ∀ lb ∈ config.lookbacks, ∀ (t : Nat) (close close' atrs atrs' : List F)
    (timestamps timestamps' : List Int) (s s' : List F), SameUpTo t close close' →
      SameUpTo t atrs atrs' → SameUpTo t timestamps timestamps' →
        causalSignalScore close atrs timestamps lb = .ok s →
          causalSignalScore close' atrs' timestamps' lb = .ok s' → s[t]? = s'[t]?

theorem causalSignalScore_ok {close atrs s : List F} {timestamps : List Int} {lb : Int}
    (h : causalSignalScore close atrs timestamps lb = .ok s) :
    s = scores close atrs timestamps lb.toNat := by
  obtain ⟨_, hlb, hrest⟩ := bind_eq_ok.mp h
  obtain ⟨_, hlen, _⟩ := bind_eq_ok.mp hrest
  obtain ⟨hatr, hts⟩ := require_eq_ok.mp hlen
  rw [causalSignalScore_eq (require_eq_ok.mp hlb) hatr hts] at h
  exact (Except.ok.inj h).symm

/-- The grid computes the causal scores just when every lookback is shorter than the series. -/
theorem scoresAgree_iff [LawfulNumpyFloat F] {n : Nat} (h : runGridChecks data config = .ok n) :
    (∃ scores, runGridScores data config = .ok scores ∧ ScoresAgree data config scores) ↔
      ∀ lb ∈ config.lookbacks, lb < data.close.length := by
  constructor
  · rintro ⟨scores, hscores, _⟩
    exact lookback_lt_of_runGridScores hscores
  · intro hlt
    have hc := checked_of_runGridChecks h
    obtain ⟨scores, hscores⟩ := runGridScores_ok h hlt
    refine ⟨scores, hscores, ?_, ?_, ?_⟩
    · intro lb hlb
      exact ⟨_, _, hc.atr_eq, get?_runGridScores hscores hlb,
        causalSignalScore_eq (hc.lookbacks lb hlb) hc.length_atr hc.length_timestamp⟩
    · intro t data' scores' ht hsame hscores' lb hlb
      exact ⟨_, _, get?_runGridScores hscores hlb, get?_runGridScores hscores' hlb,
        (hsame.scores ht).getElem?_eq⟩
    · intro lb _ t close close' atrs atrs' timestamps timestamps' s s' hclose hatrs hts hs hs'
      rw [causalSignalScore_ok hs, causalSignalScore_ok hs']
      exact (hclose.scores hatrs hts).getElem?_eq

/-! ## A sample -/

inductive Exact where
  | nan
  | num (q : ℚ)

namespace Exact

def map₂ (f : ℚ → ℚ → ℚ) : Exact → Exact → Exact
  | num a, num b => num (f a b)
  | _, _ => nan

def lt : Exact → Exact → Bool
  | num a, num b => decide (a < b)
  | _, _ => false

def le : Exact → Exact → Bool
  | num a, num b => decide (a ≤ b)
  | _, _ => false

instance : Zero Exact := ⟨num 0⟩
instance : One Exact := ⟨num 1⟩
instance : NatCast Exact := ⟨fun n ↦ num n⟩
instance : Sub Exact := ⟨map₂ (· - ·)⟩
instance : Div Exact := ⟨map₂ (· / ·)⟩
instance : LT Exact := ⟨fun x y ↦ lt x y = true⟩
instance : LE Exact := ⟨fun x y ↦ le x y = true⟩
instance : DecidableLT Exact := fun x y ↦ inferInstanceAs (Decidable (lt x y = true))
instance : DecidableLE Exact := fun x y ↦ inferInstanceAs (Decidable (le x y = true))

instance : NumpyFloat Exact where
  nan := nan
  isfinite
    | num _ => true
    | nan => false
  nanToNum
    | num q => num q
    | nan => num 0
  abs
    | num q => num (if q < 0 then -q else q)
    | nan => nan
  maximum := map₂ fun a b ↦ if a < b then b else a
  minimum := map₂ fun a b ↦ if b < a then b else a
  dot xs ys := (List.zipWith (map₂ (· * ·)) xs ys).foldl (map₂ (· + ·)) (num 0)

instance : LawfulNumpyFloat Exact := ⟨fun x ↦ by cases x <;> rfl⟩

end Exact

/-- A hundred bars at one price. -/
def flatBars : BacktestData Exact where
  opens := List.replicate 100 1
  high := List.replicate 100 1
  low := List.replicate 100 1
  close := List.replicate 100 1
  timestamp := (List.range 100).map fun i ↦ (i : Int) * fifteenMinutes
  tickVolume := none
  realVolume := none

def oneLookback (lookback : Int) : EngineConfig Exact where
  lookbacks := [lookback]
  zThresholds := [1]
  takeProfitAtr := [1]
  stopLossAtr := [1]
  horizons := [8]
  newsBuffersBars := [0]
  candidateChunkSize := 64
  bootstrapReplicates := 1000
  bootstrapBlockTradingDays := 20
  fdrQ := .num (1 / 20)
  costAlphaPrice := none
  baseSpreadPrice := none
  commissionRoundtripPrice := none
  randomSeed := 421

theorem scoresAgree_iff_sample :
    runGridChecks flatBars (oneLookback 8) = .ok 100 ∧
      ∃ scores, runGridScores flatBars (oneLookback 8) = .ok scores ∧
        ScoresAgree flatBars (oneLookback 8) scores := by
  have h : runGridChecks flatBars (oneLookback 8) = .ok 100 := by decide +kernel
  exact ⟨h, (scoresAgree_iff h).mpr (by decide +kernel)⟩

/-- A lookback of a hundred bars is accepted and then fails. -/
theorem lookback_of_series_fails :
    runGridChecks flatBars (oneLookback 100) = .ok 100 ∧
      (∃ s, causalSignalScore flatBars.close
        (atrSeries flatBars.high flatBars.low flatBars.close 14)
        flatBars.timestamp 100 = .ok s) ∧
      ¬ ∃ scores, runGridScores flatBars (oneLookback 100) = .ok scores ∧
        ScoresAgree flatBars (oneLookback 100) scores := by
  have h : runGridChecks flatBars (oneLookback 100) = .ok 100 := by decide +kernel
  have hc := checked_of_runGridChecks h
  refine ⟨h, ⟨_, causalSignalScore_eq (by decide) hc.length_atr hc.length_timestamp⟩, ?_⟩
  rintro ⟨scores, hscores, _⟩
  exact absurd (lookback_lt_of_runGridScores hscores 100 mem_cons_self) (by decide +kernel)

end Qros.Orchestration
