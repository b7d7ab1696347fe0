import Qros.Orchestration.XauusdLabels

/-!
# The two labellers of triple barriers

Both enter at the next open, ask for the whole horizon and decide at the first bar
that touches a barrier.  When that bar touches both, `label_ohlc_outcomes` goes by
the policy alone, and `label_ohlc_triple_barrier` looks at the open first.  They
disagree just where that makes a difference (`Disputed`).
-/

/-!
## Outcome labels of the quant engine

`label_ohlc_outcomes` of
`researchos/quant_engine/machine_learning/ohlc_triple_barrier.py`.  Its bars have no
time stamps and are checked with each call.
-/

namespace Qros.QuantEngine

open Qros.Lib Qros.Python
open Qros.Orchestration (OutcomeLabel AmbiguousTouchPolicy OutcomeSpec)

structure OHLCBar (F : Type) where
  «open» : F
  high : F
  low : F
  close : F

structure OHLCOutcome where
  decisionIndex : Nat
  entryIndex : Option Nat
  direction : Int
  label : Option OutcomeLabel
  reasonCode : String

section Label

variable {F : Type} [LinearOrder F] [Zero F] [IsFinite F]

def finite (value : F) (name : String) (index : Nat) : Except String F := do
  require (isfinite value = true)
    (name ++ "[" ++ toString index ++ "] must be finite numeric data")
  return value

/-- The round of the loop of `_validate_bars` for one bar. -/
def validateBar (bar : OHLCBar F) (i : Nat) : Except String Unit := do
  let o ← finite bar.open "open" i
  let h ← finite bar.high "high" i
  let low ← finite bar.low "low" i
  let c ← finite bar.close "close" i
  require (¬ min (min (min o h) low) c ≤ 0) ("bars[" ++ toString i ++ "] prices must be positive")
  require (¬ (h < max (max o c) low ∨ low > min o c))
    ("bars[" ++ toString i ++ "] has inconsistent OHLC bounds")

def validateBars (bars : List (OHLCBar F)) : Except String Unit :=
  forM bars.zipIdx fun (bar, i) ↦ validateBar bar i

/-- The loop over the bars from the entry to the end of the horizon. -/
def firstTouch (policy : AmbiguousTouchPolicy) (direction : Int) (takeProfit stopLoss : F) :
    List (OHLCBar F) → Option OutcomeLabel × String
  | [] => (some .timeout, "HORIZON_TIMEOUT")
  | bar :: later =>
    let (hitTp, hitSl) :=
      if direction = 1 then (decide (bar.high ≥ takeProfit), decide (bar.low ≤ stopLoss))
      else (decide (bar.low ≤ takeProfit), decide (bar.high ≥ stopLoss))
    if hitTp && hitSl then
      if policy = .exclude then (none, "AMBIGUOUS_SAME_BAR_TOUCH")
      else (some .stopLoss, "STOP_LOSS_CONSERVATIVE_AMBIGUOUS")
    else if hitSl then (some .stopLoss, "STOP_LOSS_FIRST_TOUCH")
    else if hitTp then (some .takeProfit, "TAKE_PROFIT_FIRST_TOUCH")
    else firstTouch policy direction takeProfit stopLoss later

variable [Add F] [Sub F] [Mul F]

def outcomeFrom (spec : OutcomeSpec F) (bars : List (OHLCBar F)) (i : Nat) (direction : Int)
    (entryBar : OHLCBar F) (atr : F) : OHLCOutcome :=
  let entryIndex := i + 1
  let finalIndex := entryIndex + spec.maxHoldingBars - 1
  if finalIndex ≥ bars.length then ⟨i, some entryIndex, direction, none, "HORIZON_INCOMPLETE"⟩
  else
    let entryPrice := entryBar.open
    let (takeProfit, stopLoss) :=
      if direction = 1 then
        (entryPrice + spec.takeProfitAtr * atr, entryPrice - spec.stopLossAtr * atr)
      else (entryPrice - spec.takeProfitAtr * atr, entryPrice + spec.stopLossAtr * atr)
    let window := (bars.drop entryIndex).take (finalIndex + 1 - entryIndex)
    let (outcome, reason) :=
      firstTouch spec.ambiguousTouchPolicy direction takeProfit stopLoss window
    ⟨i, some entryIndex, direction, outcome, reason⟩

/-- The round of the loop over the directions for one decision. -/
def outcomeAt (spec : OutcomeSpec F) (bars : List (OHLCBar F)) (atrValues : List (Option F))
    (direction : Int) (i : Nat) : Except String OHLCOutcome := do
  require (direction = -1 ∨ direction = 0 ∨ direction = 1)
    ("directions[" ++ toString i ++ "] must be -1, 0, or 1")
  let entryIndex := i + 1
  if direction = 0 then
    return ⟨i, if entryIndex < bars.length then some entryIndex else none, direction, none,
      "NEUTRAL_DIRECTION"⟩
  match bars[entryIndex]? with
  | none => return ⟨i, none, direction, none, "ENTRY_BAR_MISSING"⟩
  | some entryBar =>
    match (atrValues[i]?).join with
    | none => return ⟨i, some entryIndex, direction, none, "ATR_MISSING"⟩
    | some rawAtr =>
      if ¬ FinitePositive rawAtr then
        return ⟨i, some entryIndex, direction, none, "ATR_INVALID"⟩
      return outcomeFrom spec bars i direction entryBar rawAtr

def labelOhlcOutcomes (bars : List (OHLCBar F)) (directions : List Int)
    (atrValues : List (Option F)) (spec : OutcomeSpec F) : Except String (List OHLCOutcome) := do
  validateBars bars
  require (directions.length = bars.length ∧ atrValues.length = bars.length)
    "bars, directions, and atr_values must have equal lengths"
  directions.zipIdx.mapM fun (direction, i) ↦ outcomeAt spec bars atrValues direction i

end Label

end Qros.QuantEngine

namespace Qros.QuantEngine

open Qros.Lib Qros.Python
open Qros.Orchestration (OutcomeLabel AmbiguousTouchPolicy OutcomeSpec Touches barriers touches
  resolve labelAt outcome_labelAt labelOhlcTripleBarrier)

section Agreement

variable {F : Type} [LinearOrder F] [Zero F] [IsFinite F]

/-- The bar without its time. -/
def OHLCBar.untimed (bar : Orchestration.OHLCBar F) : OHLCBar F :=
  ⟨bar.open, bar.high, bar.low, bar.close⟩

/-- The first of the bars that touches a barrier touches both, and it opens at or beyond the
take profit, or, where ambiguous bars are excluded, at or beyond the stop. -/
def Disputed (policy : AmbiguousTouchPolicy) (direction : Int) (takeProfit stopLoss : F) :
    List (Orchestration.OHLCBar F) → Prop
  | [] => False
  | bar :: later =>
    let t := touches direction takeProfit stopLoss bar
    if t.hitTp = true ∨ t.hitSl = true then
      t.hitTp = true ∧ t.hitSl = true ∧
        (t.openTp = true ∨ policy = .exclude ∧ t.openSl = true)
    else Disputed policy direction takeProfit stopLoss later

variable {policy : AmbiguousTouchPolicy} {direction : Int} {takeProfit stopLoss : F}

theorem hit_of_open (direction : Int) (takeProfit stopLoss : F) (bar : Orchestration.OHLCBar F) :
    let t := touches direction takeProfit stopLoss bar
    (t.openTp = true → t.hitTp = true) ∧ (t.openSl = true → t.hitSl = true) := by
  have hhigh : bar.open ≤ bar.high := (le_max_left _ _).trans bar.high_ok
  have hlow : bar.low ≤ bar.open := bar.low_ok.trans (min_le_left _ _)
  unfold touches
  dsimp only
  split
  · simp only [decide_eq_true_eq]
    exact ⟨fun h ↦ h.trans hhigh, fun h ↦ hlow.trans h⟩
  · simp only [decide_eq_true_eq]
    exact ⟨fun h ↦ hlow.trans h, fun h ↦ h.trans hhigh⟩

theorem firstTouch_cons (bar : Orchestration.OHLCBar F) (later : List (OHLCBar F)) :
    firstTouch policy direction takeProfit stopLoss (.untimed bar :: later) =
      let t := touches direction takeProfit stopLoss bar
      if t.hitTp && t.hitSl then
        if policy = .exclude then (none, "AMBIGUOUS_SAME_BAR_TOUCH")
        else (some .stopLoss, "STOP_LOSS_CONSERVATIVE_AMBIGUOUS")
      else if t.hitSl then (some .stopLoss, "STOP_LOSS_FIRST_TOUCH")
      else if t.hitTp then (some .takeProfit, "TAKE_PROFIT_FIRST_TOUCH")
      else firstTouch policy direction takeProfit stopLoss later := by
  rw [firstTouch]
  unfold touches
  by_cases hdir : direction = 1
  · simp only [if_pos hdir]
    rfl
  · simp only [if_neg hdir]
    rfl

theorem resolve_eq_firstTouch_iff {window : List (Orchestration.OHLCBar F)} (hne : window ≠ [])
    (held : Nat) :
    (resolve policy direction takeProfit stopLoss window held).map Prod.fst =
        (firstTouch policy direction takeProfit stopLoss (window.map .untimed)).1 ↔
      ¬ Disputed policy direction takeProfit stopLoss window := by
  induction window generalizing held with
  | nil => exact absurd rfl hne
  | cons bar later ih =>
    obtain ⟨htp, hsl⟩ := hit_of_open direction takeProfit stopLoss bar
    rw [List.map_cons, firstTouch_cons, resolve, Disputed]
    generalize touches direction takeProfit stopLoss bar = t at htp hsl ⊢
    obtain ⟨openTp, openSl, hitTp, hitSl⟩ := t
    dsimp only at htp hsl ⊢
    cases hitTp with
    | true =>
      cases hitSl with
      | true => cases openTp <;> cases openSl <;> cases policy <;> simp
      | false =>
        obtain rfl : openSl = false := Bool.eq_false_iff.mpr fun h ↦ nomatch hsl h
        cases openTp <;> simp
    | false =>
      obtain rfl : openTp = false := Bool.eq_false_iff.mpr fun h ↦ nomatch htp h
      cases hitSl with
      | true => cases openSl <;> simp
      | false =>
        obtain rfl : openSl = false := Bool.eq_false_iff.mpr fun h ↦ nomatch hsl h
        cases later with
        | nil => simp [firstTouch, Disputed]
        | cons next rest => simpa using ih (List.cons_ne_nil _ _) (held + 1)

/-! ## What both accept -/

theorem validateBar_untimed (bar : Orchestration.OHLCBar F) (i : Nat) :
    validateBar (.untimed bar) i = .ok () := by
  have hopen := bar.prices_ok bar.open (by simp)
  have hhigh := bar.prices_ok bar.high (by simp)
  have hlow := bar.prices_ok bar.low (by simp)
  have hclose := bar.prices_ok bar.close (by simp)
  have hfinite {x : F} (h : FinitePositive x) (name : String) : finite x name i = .ok x :=
    bind_eq_ok.mpr ⟨(), require_eq_ok.mpr h.1, rfl⟩
  refine bind_eq_ok.mpr ⟨_, hfinite hopen _, bind_eq_ok.mpr ⟨_, hfinite hhigh _, ?_⟩⟩
  refine bind_eq_ok.mpr ⟨_, hfinite hlow _, bind_eq_ok.mpr ⟨_, hfinite hclose _, ?_⟩⟩
  refine bind_eq_ok.mpr ⟨(), require_eq_ok.mpr ?_, require_eq_ok.mpr ?_⟩
  · rw [not_le]
    exact lt_min (lt_min (lt_min hopen.2 hhigh.2) hlow.2) hclose.2
  · rintro (h | h)
    · refine absurd h (not_lt.mpr (max_le bar.high_ok ?_))
      exact bar.low_ok.trans ((min_le_left _ _).trans ((le_max_left _ _).trans bar.high_ok))
    · exact absurd h (not_lt.mpr bar.low_ok)

theorem validateBars_untimed (bars : List (Orchestration.OHLCBar F)) :
    validateBars (bars.map .untimed) = .ok () := by
  refine forM_eq_ok.mpr ?_
  rintro ⟨bar, i⟩ hmem
  obtain ⟨original, -, rfl⟩ := List.mem_map.mp (List.fst_mem_of_mem_zipIdx hmem)
  exact validateBar_untimed original i

/-! ## One decision -/

variable [Add F] [Sub F] [Mul F]

/-- The decision at an index enters, and its outcome is disputed. -/
def DisputedAt (spec : OutcomeSpec F) (bars : List (Orchestration.OHLCBar F))
    (directions : List (Option Int)) (atr : List (Option F)) (i : Nat) : Prop :=
  ∃ direction eventAtr entryBar, directions[i]? = some (some direction) ∧
    atr[i]? = some (some eventAtr) ∧ bars[i + 1]? = some entryBar ∧
    i + spec.maxHoldingBars < bars.length ∧
    let barrier := barriers spec direction entryBar.open eventAtr
    Disputed spec.ambiguousTouchPolicy direction barrier.1 barrier.2
      ((bars.drop (i + 1)).take spec.maxHoldingBars)

variable {spec : OutcomeSpec F} {bars : List (Orchestration.OHLCBar F)} {atr : List (Option F)}

variable {entryBar : Orchestration.OHLCBar F}

variable {eventAtr : F} {i : Nat}

theorem outcomeFrom_label {direction : Int} (hfits : i + spec.maxHoldingBars < bars.length) :
    (outcomeFrom spec (bars.map .untimed) i direction (.untimed entryBar) eventAtr).label =
      (firstTouch spec.ambiguousTouchPolicy direction
        (barriers spec direction entryBar.open eventAtr).1
        (barriers spec direction entryBar.open eventAtr).2
        (((bars.drop (i + 1)).take spec.maxHoldingBars).map .untimed)).1 := by
  have hfinal : ¬ i + 1 + spec.maxHoldingBars - 1 ≥ (bars.map OHLCBar.untimed).length := by
    rw [List.length_map]
    omega
  have hheld : i + 1 + spec.maxHoldingBars - 1 + 1 - (i + 1) = spec.maxHoldingBars := by
    have := spec.holding_pos
    omega
  simp only [outcomeFrom, if_neg hfinal, hheld, ← List.map_drop, ← List.map_take]
  rfl

theorem entered_agree_iff {direction : Int} (hatr : atr[i]? = some (some eventAtr))
    (hentry : bars[i + 1]? = some entryBar) (hfits : i + spec.maxHoldingBars < bars.length) :
    (labelAt spec bars atr i (some direction)).map (·.outcome) =
        (outcomeFrom spec (bars.map .untimed) i direction (.untimed entryBar) eventAtr).label ↔
      ¬ Disputed spec.ambiguousTouchPolicy direction
        (barriers spec direction entryBar.open eventAtr).1
        (barriers spec direction entryBar.open eventAtr).2
        ((bars.drop (i + 1)).take spec.maxHoldingBars) := by
  have hi : i < bars.length := by omega
  have hne : (bars.drop (i + 1)).take spec.maxHoldingBars ≠ [] := by
    rw [Ne, List.take_eq_nil_iff, List.drop_eq_nil_iff]
    have := spec.holding_pos
    omega
  rw [outcome_labelAt hatr hentry hfits, outcomeFrom_label hfits, resolve_eq_firstTouch_iff hne 0]

variable {directions : List (Option Int)}

theorem exists_outcomeAt (spec : OutcomeSpec F) (bars : List (Orchestration.OHLCBar F))
    (atr : List (Option F)) (i : Nat) {direction : Int} (hd : direction = -1 ∨ direction = 1) :
    ∃ outcome, outcomeAt spec (bars.map .untimed) atr direction i = .ok outcome ∧
      (bars[i + 1]? = none ∨ atr[i]? = some none → outcome.label = none) ∧
      ∀ entryBar eventAtr, bars[i + 1]? = some entryBar → atr[i]? = some (some eventAtr) →
        FinitePositive eventAtr →
          outcome = outcomeFrom spec (bars.map .untimed) i direction (.untimed entryBar)
            eventAtr := by
  have hzero : ¬ direction = 0 := by omega
  have hrequire : require (direction = -1 ∨ direction = 0 ∨ direction = 1)
      ("directions[" ++ toString i ++ "] must be -1, 0, or 1") = .ok () :=
    require_eq_ok.mpr (by omega)
  unfold outcomeAt
  rw [hrequire]
  dsimp only [bind, Except.bind]
  rw [if_neg hzero, List.getElem?_map]
  cases bars[i + 1]? with
  | none => exact ⟨_, rfl, fun _ ↦ rfl, by rintro _ _ ⟨⟩⟩
  | some entryBar =>
    rcases hatr : atr[i]? with _ | _ | eventAtr
    · exact ⟨_, rfl, fun _ ↦ rfl, by rintro _ _ _ ⟨⟩⟩
    · exact ⟨_, rfl, fun _ ↦ rfl, by rintro _ _ _ ⟨⟩⟩
    · by_cases hpos : FinitePositive eventAtr
      · refine ⟨_, if_neg (not_not.mpr hpos), by rintro (⟨⟨⟩⟩ | ⟨⟨⟩⟩), ?_⟩
        rintro _ _ ⟨⟩ ⟨⟩ _
        rfl
      · refine ⟨_, if_pos hpos, fun _ ↦ rfl, ?_⟩
        rintro _ _ _ ⟨⟩ hpos'
        exact absurd hpos' hpos

theorem labelAt_of_not_fits {direction : Int} (hfits : ¬ i + spec.maxHoldingBars < bars.length) :
    labelAt spec bars atr i (some direction) = none :=
  if_pos (not_lt.mp hfits)

theorem labelAt_of_no_atr {direction : Int} (hatr : atr[i]? = some none) :
    labelAt spec bars atr i (some direction) = none := by
  simp only [labelAt, Option.bind_eq_bind, Option.bind_some, hatr, Option.bind_none, ite_self]

theorem outcomeFrom_of_not_fits {direction : Int}
    (hfits : ¬ i + spec.maxHoldingBars < bars.length) :
    (outcomeFrom spec (bars.map .untimed) i direction (.untimed entryBar) eventAtr).label =
      none := by
  have hfinal : i + 1 + spec.maxHoldingBars - 1 ≥ (bars.map OHLCBar.untimed).length := by
    rw [List.length_map]
    omega
  rw [outcomeFrom, if_pos hfinal]

theorem outcomeAt_agree_iff (spec : OutcomeSpec F) {direction : Option Int} (hi : i < bars.length)
    (hdirection : directions[i]? = some direction) (hunit : ∀ d ∈ direction, d = -1 ∨ d = 1)
    (hlength : atr.length = bars.length)
    (hatr : ∀ value ∈ atr, ∀ numeric ∈ value, FinitePositive numeric) :
    ∃ outcome,
      outcomeAt spec (bars.map .untimed) atr (direction.getD 0) i = .ok outcome ∧
        ((labelAt spec bars atr i direction).map (·.outcome) = outcome.label ↔
          ¬ DisputedAt spec bars directions atr i) := by
  cases direction with
  | none =>
    refine ⟨_, rfl, iff_of_true rfl ?_⟩
    rintro ⟨d, _, _, hd, _⟩
    cases hdirection.symm.trans hd
  | some d =>
    obtain ⟨outcome, hok, hnone, hfrom⟩ := exists_outcomeAt spec bars atr i (hunit d rfl)
    refine ⟨outcome, hok, ?_⟩
    obtain ⟨value, hvalue⟩ : ∃ value, atr[i]? = some value :=
      ⟨_, List.getElem?_eq_getElem (hlength ▸ hi)⟩
    by_cases hfits : i + spec.maxHoldingBars < bars.length
    · have hpos := spec.holding_pos
      obtain ⟨entryBar, hentry⟩ : ∃ entryBar, bars[i + 1]? = some entryBar :=
        ⟨_, List.getElem?_eq_getElem (by omega)⟩
      cases value with
      | none =>
        rw [hnone (.inr hvalue), labelAt_of_no_atr hvalue]
        refine iff_of_true rfl ?_
        rintro ⟨_, _, _, _, hsome, _⟩
        cases hvalue.symm.trans hsome
      | some eventAtr =>
        have hfinite : FinitePositive eventAtr :=
          hatr _ (List.mem_of_getElem? hvalue) eventAtr rfl
        rw [hfrom entryBar eventAtr hentry hvalue hfinite,
          entered_agree_iff hvalue hentry hfits]
        refine not_congr ⟨fun h ↦ ⟨d, eventAtr, entryBar, hdirection, hvalue, hentry, hfits, h⟩,
          ?_⟩
        rintro ⟨_, _, _, hd, ha, he, _, h⟩
        cases hdirection.symm.trans hd
        cases hvalue.symm.trans ha
        cases hentry.symm.trans he
        exact h
    · have hlabel : outcome.label = none := by
        cases hentry : bars[i + 1]? with
        | none => exact hnone (.inl hentry)
        | some entryBar =>
          cases value with
          | none => exact hnone (.inr hvalue)
          | some eventAtr =>
            rw [hfrom entryBar eventAtr hentry hvalue
              (hatr _ (List.mem_of_getElem? hvalue) eventAtr rfl)]
            exact outcomeFrom_of_not_fits hfits
      rw [labelAt_of_not_fits hfits, hlabel]
      refine iff_of_true rfl ?_
      rintro ⟨_, _, _, _, _, _, hlt, _⟩
      exact hfits hlt

/-! ## The lists of labels -/

/-- The labellers give the same label at an index unless the outcome there is disputed. -/
theorem labels_agree_iff (spec : OutcomeSpec F) (bars : List (Orchestration.OHLCBar F))
    (directions : List (Option Int)) (atr : List (Option F))
    (htimes : ∀ p ∈ bars.zip bars.tail, p.1.timestamp < p.2.timestamp)
    (hlength : directions.length = bars.length ∧ atr.length = bars.length)
    (hunit : ∀ direction ∈ directions, ∀ d ∈ direction, d = -1 ∨ d = 1)
    (hatr : ∀ value ∈ atr, ∀ numeric ∈ value, FinitePositive numeric) :
    ∃ labels outcomes,
      labelOhlcTripleBarrier bars directions atr spec = .ok labels ∧
        labelOhlcOutcomes (bars.map .untimed) (directions.map (·.getD 0)) atr spec = .ok outcomes ∧
        labels.length = bars.length ∧ outcomes.length = bars.length ∧
        ∀ i < bars.length, ∃ label outcome, labels[i]? = some label ∧ outcomes[i]? = some outcome ∧
          (label.map (·.outcome) = outcome.label ↔ ¬ DisputedAt spec bars directions atr i) := by
  have hat {i : Nat} {direction : Option Int} (hdirection : directions[i]? = some direction) :=
    outcomeAt_agree_iff spec (hlength.1 ▸ (List.getElem?_eq_some_iff.mp hdirection).1)
      hdirection (hunit _ (List.mem_of_getElem? hdirection)) hlength.2 hatr
  have hscan : ∀ p ∈ (directions.map (·.getD 0)).zipIdx,
      ∃ outcome, outcomeAt spec (bars.map .untimed) atr p.1 p.2 = .ok outcome := by
    rintro ⟨d, i⟩ hmem
    rw [List.mem_zipIdx_iff_getElem?, List.getElem?_map, Option.map_eq_some_iff] at hmem
    obtain ⟨direction, hdirection, rfl⟩ := hmem
    obtain ⟨outcome, houtcome, -⟩ := hat hdirection
    exact ⟨outcome, houtcome⟩
  obtain ⟨outcomes, hok, hcount, hlookup⟩ := exists_mapM_eq_ok hscan
  refine ⟨directions.mapIdx (labelAt spec bars atr), outcomes, ?_, ?_, ?_, ?_, ?_⟩
  · refine bind_eq_ok.mpr ⟨(), require_eq_ok.mpr hlength, ?_⟩
    refine bind_eq_ok.mpr ⟨(), require_eq_ok.mpr htimes, ?_⟩
    exact bind_eq_ok.mpr ⟨(), require_eq_ok.mpr hatr,
      bind_eq_ok.mpr ⟨(), require_eq_ok.mpr hunit, rfl⟩⟩
  · refine bind_eq_ok.mpr ⟨(), validateBars_untimed bars, ?_⟩
    refine bind_eq_ok.mpr ⟨(), require_eq_ok.mpr ?_, hok⟩
    simpa only [List.length_map] using hlength
  · rw [List.length_mapIdx, hlength.1]
  · rw [hcount, List.length_zipIdx, List.length_map, hlength.1]
  · intro i hi
    obtain ⟨direction, hdirection⟩ : ∃ direction, directions[i]? = some direction :=
      ⟨_, List.getElem?_eq_getElem (hlength.1 ▸ hi)⟩
    obtain ⟨outcome, hoption, houtcome⟩ := hlookup i (direction.getD 0, i) (by
      rw [List.getElem?_zipIdx, List.getElem?_map, hdirection, Nat.zero_add]
      rfl)
    obtain ⟨_, hsame, hagree⟩ := hat hdirection
    obtain rfl := Except.ok.inj (houtcome.symm.trans hsame)
    refine ⟨_, outcome, ?_, hoption, hagree⟩
    rw [List.getElem?_mapIdx, hdirection]
    rfl

end Agreement

/-! ## A bar that opens above the take profit and falls below the stop -/

section

def flatBar (timestamp : Int) : Orchestration.OHLCBar ℚ where
  timestamp := timestamp
  «open» := 100
  high := 100
  low := 100
  close := 100
  prices_ok := by decide +kernel
  high_ok := by decide +kernel
  low_ok := by decide +kernel

def gapBar (timestamp : Int) : Orchestration.OHLCBar ℚ where
  timestamp := timestamp
  «open» := 102
  high := 102
  low := 98
  close := 100
  prices_ok := by decide +kernel
  high_ok := by decide +kernel
  low_ok := by decide +kernel

def unitSpec (policy : AmbiguousTouchPolicy) : OutcomeSpec ℚ where
  takeProfitAtr := 1
  stopLossAtr := 1
  maxHoldingBars := 2
  ambiguousTouchPolicy := policy
  version := "outcome-v1"
  takeProfit_ok := by decide +kernel
  stopLoss_ok := by decide +kernel
  holding_pos := by decide

/-- A long position that a gap takes out at a profit is a stop loss for the other labeller,
which does not look at the open. -/
theorem labels_disagree :
    (labelOhlcTripleBarrier [flatBar 0, flatBar 1, gapBar 2] [some 1, none, none]
        [some 1, none, none] (unitSpec .conservativeSlFirst)).map
          (List.map (Option.map (·.outcome))) = .ok [some .takeProfit, none, none] ∧
      (labelOhlcOutcomes ([flatBar 0, flatBar 1, gapBar 2].map .untimed) [1, 0, 0]
        [some 1, none, none] (unitSpec .conservativeSlFirst)).map
          (List.map (·.label)) = .ok [some .stopLoss, none, none] := by
  decide +kernel

theorem labels_agree_iff_gap :
    ∃ labels outcomes,
      labelOhlcTripleBarrier [flatBar 0, flatBar 1, gapBar 2] [some 1, none, none]
        [some 1, none, none] (unitSpec .exclude) = .ok labels ∧
      labelOhlcOutcomes ([flatBar 0, flatBar 1, gapBar 2].map .untimed)
        ([some 1, none, none].map (·.getD 0)) [some 1, none, none] (unitSpec .exclude) =
          .ok outcomes ∧
      labels.length = 3 ∧ outcomes.length = 3 ∧
      ∀ i < 3, ∃ label outcome, labels[i]? = some label ∧ outcomes[i]? = some outcome ∧
        (label.map (·.outcome) = outcome.label ↔
          ¬ DisputedAt (unitSpec .exclude) [flatBar 0, flatBar 1, gapBar 2] [some 1, none, none]
            [some 1, none, none] i) :=
  labels_agree_iff (unitSpec .exclude) [flatBar 0, flatBar 1, gapBar 2] [some 1, none, none]
    [some 1, none, none] (by decide) (by decide) (by decide) (by decide +kernel)

end

end Qros.QuantEngine
