import Qros.Orchestration.RegimeAgreement

/-!
# Candles that can be classified

A candle past the warm-up has an ADX when there is a directional move among every
`adx_period` consecutive candles of the last ones, and just then it gets a label.
-/

namespace Qros.Orchestration.Regime

open Qros.Lib IncrementalRegimeEngine List

section Gaps

variable {F : Type} [Field F] [LinearOrder F]

/-- The candle moves beyond the high or the low of the one before it, and further beyond one
of them than beyond the other. -/
def Moves (p : Option (Candle F) × Candle F) : Prop := 0 < plusDm p.1 p.2 ∨ 0 < minusDm p.1 p.2

def MovesAt (candles : List (Candle F)) (i : Nat) : Prop :=
  ∃ p, (withPrevious candles)[i]? = some p ∧ Moves p

/-- The candle at `i` is past the warm-up, and of the last candles every `adx_period`
consecutive ones have a move among them. -/
def Classifiable (config : RegimeConfig F) (candles : List (Candle F)) (i : Nat) : Prop :=
  firstLabelled config ≤ i ∧ i < candles.length ∧
    ∀ j, j + config.adxPeriod ≤ i + 1 → i + 2 ≤ j + 2 * config.adxPeriod →
      ∃ k, j ≤ k ∧ k < j + config.adxPeriod ∧ MovesAt candles k

variable {num : Numerics F} {config : RegimeConfig F} {cs : List (Candle F)} {c : Candle F}

theorem withPrevious_take (n : Nat) : withPrevious (cs.take n) = (withPrevious cs).take n := by
  have h (previous : Option (Candle F)) : (previous :: (cs.take n).map some).zip (cs.take n) =
      ((previous :: cs.map some).zip cs).take n := by
    induction cs generalizing previous n with
    | nil => simp
    | cons d cs ih =>
      cases n with
      | zero => rfl
      | succ n =>
        rw [take_succ_cons, map_cons, zip_cons_cons, ih, map_cons,
          zip_cons_cons, take_succ_cons]
  exact h none

variable {period i : Nat}

theorem dxs_getElem? (hp : 0 < period) (hi : i < cs.length) :
    (dxs period cs)[i]? = some (lastDx period (cs.take (i + 1))) :=
  getElem?_of_concat (eq_nil_of_length_eq_zero (length_dxs hp [])) (fun _ _ ↦ dxs_concat hp) hi

theorem labels_getElem? {i : Nat} (hi : i < cs.length) :
    (labels num config cs)[i]? = some (lastLabel num config (cs.take (i + 1))) :=
  getElem?_of_concat rfl (fun _ _ ↦ labels_concat) hi

variable [IsStrictOrderedRing F]

theorem sum_pos_iff {xs : List F} (h : ∀ x ∈ xs, 0 ≤ x) : 0 < xs.sum ↔ ∃ x ∈ xs, 0 < x := by
  induction xs with
  | nil => simp
  | cons x xs ih =>
    rw [forall_mem_cons] at h
    have hrest : 0 ≤ xs.sum := sum_nonneg h.2
    rw [sum_cons, exists_mem_cons_iff, ← ih h.2]
    constructor
    · intro hsum
      by_cases hx : 0 < x
      · exact .inl hx
      · exact .inr (by linarith)
    · rintro (hx | hpos)
      · exact add_pos_of_pos_of_nonneg hx hrest
      · exact add_pos_of_nonneg_of_pos h.1 hpos

theorem sum_lastN_series_pos_iff {f : Option (Candle F) → Candle F → F} (hf : ∀ p c, 0 ≤ f p c)
    {k : Nat} :
    0 < (lastN k (series f cs)).sum ↔ ∃ p ∈ lastN k (withPrevious cs), 0 < f p.1 p.2 := by
  rw [series, lastN_map, sum_pos_iff]
  · constructor
    · rintro ⟨_, hx, hpos⟩
      obtain ⟨p, hp, rfl⟩ := mem_map.mp hx
      exact ⟨p, hp, hpos⟩
    · rintro ⟨p, hp, hpos⟩
      exact ⟨_, mem_map_of_mem hp, hpos⟩
  · intro x hx
    obtain ⟨p, -, rfl⟩ := mem_map.mp hx
    exact hf _ _

theorem trueRange_pos {p : Option (Candle F) × Candle F} (h : Moves p) :
    0 < trueRange p.1 p.2 := by
  obtain ⟨previous, c⟩ := p
  cases previous with
  | none => rcases h with h | h <;> exact absurd h (lt_irrefl 0)
  | some p =>
    have hclose := (le_max_right _ _).trans p.high_ok
    have hclose' := p.low_ok.trans (min_le_right _ _)
    rcases h with h | h
    · have hup : 0 < c.high - p.high := by
        by_contra hnot
        unfold plusDm at h
        dsimp only at h
        rw [if_neg fun hand ↦ hnot hand.2] at h
        exact lt_irrefl 0 h
      have : 0 < c.high - p.close := by linarith
      exact ((this.trans_le (le_abs_self _)).trans_le (le_max_right _ _)).trans_le
        (le_max_left _ _)
    · have hdown : 0 < -(c.low - p.low) := by
        by_contra hnot
        unfold minusDm at h
        dsimp only at h
        rw [if_neg fun hand ↦ hnot hand.2] at h
        exact lt_irrefl 0 h
      have : 0 < -(c.low - p.close) := by linarith
      exact (this.trans_le (neg_le_abs _)).trans_le (le_max_right _ _)

theorem lastDx_isSome_iff {period : Nat} (hp : 0 < period) (hlen : period ≤ cs.length) :
    (lastDx period cs).isSome = true ↔ ∃ p ∈ lastN period (withPrevious cs), Moves p := by
  have hP := sum_lastN_series_nonneg plusDm_nonneg period cs
  have hM := sum_lastN_series_nonneg minusDm_nonneg period cs
  have hplus : 0 < (lastN period (series plusDm cs)).sum ↔ _ :=
    sum_lastN_series_pos_iff plusDm_nonneg
  have hminus : 0 < (lastN period (series minusDm cs)).sum ↔ _ :=
    sum_lastN_series_pos_iff minusDm_nonneg
  have hrange : 0 < (lastN period (series trueRange cs)).sum ↔ _ :=
    sum_lastN_series_pos_iff trueRange_nonneg
  have hmoves : (∃ p ∈ lastN period (withPrevious cs), Moves p) ↔
      0 < (lastN period (series plusDm cs)).sum ∨ 0 < (lastN period (series minusDm cs)).sum := by
    rw [hplus, hminus]
    constructor
    · rintro ⟨p, hmem, h | h⟩
      · exact .inl ⟨p, hmem, h⟩
      · exact .inr ⟨p, hmem, h⟩
    · rintro (⟨p, hmem, h⟩ | ⟨p, hmem, h⟩)
      · exact ⟨p, hmem, .inl h⟩
      · exact ⟨p, hmem, .inr h⟩
  rw [lastDx, lastDirectional_of_le hp hlen, lastDirectional_of_le hp hlen, hmoves]
  dsimp only
  by_cases hpos : (lastN period (series trueRange cs)).sum > 0
  · rw [if_pos hpos, if_pos hpos, directionalIndex_some (by positivity), ← add_div, ← mul_add]
    have hsum : 0 < (lastN period (series plusDm cs)).sum + (lastN period (series minusDm cs)).sum ↔
        0 < (lastN period (series plusDm cs)).sum ∨ 0 < (lastN period (series minusDm cs)).sum := by
      constructor
      · intro h
        by_contra hnot
        rw [not_or, not_lt, not_lt] at hnot
        linarith
      · rintro (h | h) <;> linarith
    rw [← hsum]
    split
    · rename_i h
      rw [gt_iff_lt, div_pos_iff_of_pos_right hpos, mul_pos_iff_of_pos_left (by norm_num)] at h
      exact iff_of_true rfl h
    · rename_i h
      rw [gt_iff_lt, div_pos_iff_of_pos_right hpos, mul_pos_iff_of_pos_left (by norm_num)] at h
      exact iff_of_false Bool.false_ne_true h
  · rw [if_neg hpos, if_neg hpos, ← hmoves]
    refine iff_of_false Bool.false_ne_true ?_
    rintro ⟨p, hmem, hmove⟩
    exact hpos (hrange.mpr ⟨p, hmem, trueRange_pos hmove⟩)

theorem dx_isSome_iff (hp : 0 < period) (hi : i < cs.length) (hlen : period ≤ i + 1) :
    (∃ x, (dxs period cs)[i]? = some (some x)) ↔
      ∃ k, i + 1 - period ≤ k ∧ k < i + 1 ∧ MovesAt cs k := by
  have htake : (cs.take (i + 1)).length = i + 1 := by
    rw [length_take]
    omega
  have hwith : (withPrevious cs).length = cs.length := by
    rw [withPrevious, length_zip, length_cons, length_map]
    omega
  rw [dxs_getElem? hp hi]
  have hsome : (lastDx period (cs.take (i + 1))).isSome = true ↔ _ :=
    lastDx_isSome_iff hp (by rwa [htake])
  rw [Option.isSome_iff_exists] at hsome
  simp only [Option.some.injEq]
  rw [hsome, withPrevious_take, lastN, length_take, hwith, Nat.min_eq_left hi]
  constructor
  · rintro ⟨p, hmem, hmove⟩
    obtain ⟨j, hj⟩ := mem_iff_getElem?.mp hmem
    rw [getElem?_drop, List.getElem?_take] at hj
    split at hj
    · exact ⟨i + 1 - period + j, Nat.le_add_right _ _, by assumption, p, hj, hmove⟩
    · cases hj
  · rintro ⟨k, hle, hlt, p, hk, hmove⟩
    refine ⟨p, mem_iff_getElem?.mpr ⟨k - (i + 1 - period), ?_⟩, hmove⟩
    rw [getElem?_drop, List.getElem?_take, Nat.add_sub_cancel' hle, if_pos hlt, hk]

theorem lastAdx_isSome_iff (hp : 0 < period) (hi : i < cs.length) (hlen : 2 * period ≤ i + 2) :
    (lastAdx period (cs.take (i + 1))).isSome = true ↔
      ∀ j, j + period ≤ i + 1 → i + 2 ≤ j + 2 * period →
        ∃ k, j ≤ k ∧ k < j + period ∧ MovesAt cs k := by
  have htake : (cs.take (i + 1)).length = i + 1 := by
    rw [length_take]
    omega
  have hearlier {d : Nat} (hd : d < i + 1) :
      (dxs period (cs.take (i + 1)))[d]? = (dxs period cs)[d]? := by
    rw [dxs_getElem? hp (by omega), dxs_getElem? hp (by omega), take_take,
      Nat.min_eq_left (by omega)]
  have hall : (lastAdx period (cs.take (i + 1))).isSome = true ↔
      ∀ x ∈ lastN period (dxs period (cs.take (i + 1))), x.isSome = true := by
    rw [lastAdx, if_neg (by omega), meanOfAll, ← all_eq_true]
    split
    · rename_i h
      exact iff_of_true rfl h
    · rename_i h
      exact iff_of_false Bool.false_ne_true h
  have hwindow {d : Nat} (hlow : i + 1 ≤ d + period) (hd : d < i + 1) :
      (∃ x, (dxs period cs)[d]? = some (some x)) ↔
        ∃ k, d + 1 - period ≤ k ∧ k < d + 1 ∧ MovesAt cs k :=
    dx_isSome_iff hp (by omega) (by omega)
  rw [hall, lastN, length_dxs hp, htake]
  constructor
  · intro h j hj hlow
    have hentry : (dxs period cs)[j + period - 1]? =
        some (lastDx period (cs.take (j + period - 1 + 1))) := dxs_getElem? hp (by omega)
    have hmem : lastDx period (cs.take (j + period - 1 + 1)) ∈
        (dxs period (cs.take (i + 1))).drop (i + 1 - period) := by
      refine mem_iff_getElem?.mpr ⟨j + period - 1 - (i + 1 - period), ?_⟩
      rw [getElem?_drop, Nat.add_sub_cancel' (by omega), hearlier (by omega), hentry]
    obtain ⟨x, hx⟩ := Option.isSome_iff_exists.mp (h _ hmem)
    obtain ⟨k, hk, hk', hmove⟩ := (hwindow (d := j + period - 1) (by omega) (by omega)).mp
      ⟨x, by rw [hentry, hx]⟩
    exact ⟨k, by omega, by omega, hmove⟩
  · intro h x hx
    obtain ⟨m, hm⟩ := mem_iff_getElem?.mp hx
    rw [getElem?_drop] at hm
    have hd : i + 1 - period + m < i + 1 := by
      have := (List.getElem?_eq_some_iff.mp hm).1
      rwa [length_dxs hp, htake] at this
    rw [hearlier hd] at hm
    obtain ⟨k, hk, hk', hmove⟩ := h (i + 1 - period + m + 1 - period) (by omega) (by omega)
    obtain ⟨y, hy⟩ := (hwindow (by omega) hd).mpr ⟨k, hk, by omega, hmove⟩
    rw [hy] at hm
    rw [← Option.some.inj hm]
    rfl

omit [IsStrictOrderedRing F] in
theorem lastDirectional_of_adx {period : Nat} (hp : 0 < period)
    (h : (lastAdx period (cs ++ [c])).isSome = true) :
    ∃ plusDi minusDi, lastDirectional plusDm period (cs ++ [c]) = some plusDi ∧
      lastDirectional minusDm period (cs ++ [c]) = some minusDi := by
  have hdx : lastDx period (cs ++ [c]) ≠ none := by
    intro hnone
    rw [lastAdx] at h
    split at h
    · cases h
    · rw [meanOfAll, if_neg] at h
      · cases h
      · refine not_all_isSome ?_
        rw [dxs_concat hp, hnone, ← push_lastN hp]
        exact mem_append_right _ (mem_singleton_self _)
  unfold lastDx at hdx
  cases hplus : lastDirectional plusDm period (cs ++ [c]) with
  | none =>
    rw [hplus] at hdx
    exact absurd rfl hdx
  | some plusDi =>
    cases hminus : lastDirectional minusDm period (cs ++ [c]) with
    | none =>
      rw [hplus, hminus] at hdx
      exact absurd rfl hdx
    | some minusDi => exact ⟨plusDi, minusDi, rfl, rfl⟩

omit [IsStrictOrderedRing F] in
theorem lastLabel_isSome_iff :
    (∃ state, lastLabel num config (cs ++ [c]) = some state) ↔
      firstLabelled config ≤ cs.length ∧
        (lastAdx config.adxPeriod (cs ++ [c])).isSome = true := by
  unfold lastLabel
  rw [length_append, length_singleton]
  by_cases hwarm : cs.length + 1 ≤ firstLabelled config
  · rw [if_pos hwarm]
    refine iff_of_false (by rintro ⟨_, ⟨⟩⟩) fun h ↦ ?_
    omega
  · rw [if_neg hwarm, and_iff_right (by omega)]
    cases hadx : lastAdx config.adxPeriod (cs ++ [c]) with
    | none => exact iff_of_false (by rintro ⟨_, ⟨⟩⟩) Bool.false_ne_true
    | some adx =>
      obtain ⟨plusDi, minusDi, hplus, hminus⟩ :=
        lastDirectional_of_adx (period_pos config) (by rw [hadx]; rfl)
      rw [hplus, hminus]
      exact iff_of_true ⟨_, rfl⟩ rfl

/-- **A candle gets a label just when it can be classified.** -/
theorem presentAt_labels_iff (num : Numerics F) {i : Nat} :
    PresentAt (labels num config cs) i ↔ Classifiable config cs i := by
  unfold PresentAt Classifiable
  by_cases hi : i < cs.length
  · have htake : cs.take (i + 1) = cs.take i ++ [cs[i]] := (take_concat_get' cs i hi).symm
    have hlength : (cs.take i).length = i := by
      rw [length_take]
      omega
    rw [labels_getElem? hi]
    simp only [Option.some.injEq]
    rw [htake, lastLabel_isSome_iff, hlength, ← htake, and_iff_right hi]
    refine and_congr_right fun hwarm ↦ lastAdx_isSome_iff (period_pos config) hi ?_
    unfold firstLabelled at hwarm
    omega
  · refine iff_of_false ?_ fun h ↦ hi h.2.1
    rintro ⟨_, h⟩
    rw [getElem?_eq_none (by rw [length_labels]; omega)] at h
    cases h

/-! ## The two engines at a candle -/

omit [IsStrictOrderedRing F] in
/-- What the engine reports of a candle, and its counts, are those of the batch detector. -/
def Agrees (report : Option (Report F)) (engine : IncrementalRegimeEngine F)
    (batch : Except String (Detection F)) : Prop :=
  match report, batch with
  | none, .ok .insufficientEvidence => True
  | some r, .ok (.classified b) =>
    r.currentState = b.currentState ∧ r.features.adx = b.features.adx ∧
      r.features.plusDi = b.features.plusDi ∧ r.features.minusDi = b.features.minusDi ∧
      r.features.normalizedLogPriceSlope = b.features.normalizedLogPriceSlope ∧
      engine.transitionCounts = b.transitionCountsWithPrior ∧
      r.historicalTransitionCount = b.historicalTransitionCount
  | _, _ => False

omit [IsStrictOrderedRing F] in
theorem detect_of_short
    (h : (cs ++ [c]).length < max config.lookback (config.adxPeriod * 2 + 2)) :
    detectMarketRegime num config (cs ++ [c]) = .error "INSUFFICIENT_HISTORY" := by
  unfold detectMarketRegime require
  rw [if_neg (not_not.mpr h)]
  rfl

omit [IsStrictOrderedRing F] in
theorem detect_of_long
    (h : ¬ (cs ++ [c]).length < max config.lookback (config.adxPeriod * 2 + 2)) :
    detectMarketRegime num config (cs ++ [c]) = .ok (match lastLabel num config (cs ++ [c]) with
      | none => .insufficientEvidence
      | some currentState =>
        let counts := countTransitions config (present (labels num config (cs ++ [c])))
        .classified {
          currentState := currentState
          features := {
            adx := lastAdx config.adxPeriod (cs ++ [c])
            plusDi := lastDirectional plusDm config.adxPeriod (cs ++ [c])
            minusDi := lastDirectional minusDm config.adxPeriod (cs ++ [c])
            normalizedLogPriceSlope :=
              some (slopePerBar num (lastN config.lookback (logs num (cs ++ [c]))))
            hurstVarianceTime := num.hurst (lastN config.lookback (logs num (cs ++ [c]))) }
          stateProbabilitiesNext := probabilities (counts currentState)
          transitionCountsWithPrior := counts
          historicalTransitionCount := (present (labels num config (cs ++ [c]))).length }) := by
  have hp := period_pos config
  have hlast : (labels num config (cs ++ [c])).getLast?.join = lastLabel num config (cs ++ [c]) := by
    rw [labels_concat, getLast?_concat]
    rfl
  have hadx : (adxAndDi (cs ++ [c]) config.adxPeriod).adx.getLast?.join =
      lastAdx config.adxPeriod (cs ++ [c]) := by
    rw [adx_concat hp, getLast?_concat]
    rfl
  have hdi (f : Option (Candle F) → Candle F → F) :
      (directionals f config.adxPeriod (cs ++ [c])).getLast?.join =
        lastDirectional f config.adxPeriod (cs ++ [c]) := by
    rw [directionals_concat hp, getLast?_concat]
    rfl
  have hindex : (cs ++ [c]).length - 1 = cs.length := by
    rw [length_append, length_singleton, Nat.add_sub_cancel]
  have hwindow : logWindow num config (cs ++ [c]) cs.length =
      lastN config.lookback (logs num (cs ++ [c])) := by
    refine logWindow_last ?_
    rw [length_append, length_singleton] at h
    omega
  unfold detectMarketRegime require
  rw [if_pos h, hlast]
  cases lastLabel num config (cs ++ [c]) with
  | none => rfl
  | some state =>
    dsimp only [bind, Except.bind]
    rw [hindex, hwindow, hadx]
    change Except.ok (Detection.classified _) = _
    simp only [adxAndDi, hdi]

/-- No candle that cannot be classified comes between two that can, up to the last one. -/
def NoGap (config : RegimeConfig F) (candles : List (Candle F)) : Prop :=
  Classifiable config candles (candles.length - 1) →
    ∀ i j, i < j → j < candles.length - 1 → Classifiable config candles i →
      Classifiable config candles j

/-- There is no gap before a candle that can be classified just when there is none between the
labels. -/
theorem noGap_iff (num : Numerics F) (hlast : PresentAt (labels num config cs) (cs.length - 1)) :
    NoGap config cs ↔ Gapless (labels num config cs) := by
  unfold NoGap
  rw [imp_iff_right ((presentAt_labels_iff num).mp hlast)]
  constructor
  · intro h i j k hij hjk hi hk
    have hlt := ((presentAt_labels_iff num).mp hk).2.1
    exact (presentAt_labels_iff num).mpr
      (h i j hij (by omega) ((presentAt_labels_iff num).mp hi))
  · intro h i j hij hj hi
    exact (presentAt_labels_iff num).mp
      (h i j (cs.length - 1) hij hj ((presentAt_labels_iff num).mpr hi) hlast)

/-- Past the warm-up the engine agrees with the batch detector at a candle just when the
detector has the history it asks for and there is no gap before the candle. -/
theorem agrees_iff (num : Numerics F) (hfit : num.FitsLine) (config : RegimeConfig F)
    (hurstRefreshEvery : Nat) (cs : List (Candle F)) (c : Candle F)
    (hwarm : max config.lookback (config.adxPeriod * 2 + 1) ≤ (cs ++ [c]).length) :
    let result := (feed num config hurstRefreshEvery cs).update num config hurstRefreshEvery c
    Agrees result.1 result.2 (detectMarketRegime num config (cs ++ [c])) ↔
      config.adxPeriod * 2 + 2 ≤ (cs ++ [c]).length ∧ NoGap config (cs ++ [c]) := by
  obtain ⟨⟨hurst, hreport⟩, htracks⟩ := update_tracks (c := c) hfit hurstRefreshEvery
    (feed_tracks hfit hurstRefreshEvery cs)
  dsimp only
  rw [hreport]
  by_cases hlong : config.adxPeriod * 2 + 2 ≤ (cs ++ [c]).length
  · have hlast : (labels num config (cs ++ [c]))[(cs ++ [c]).length - 1]? =
        some (lastLabel num config (cs ++ [c])) := by
      rw [labels_concat, length_append, length_singleton, Nat.add_sub_cancel,
        ← length_labels num config cs, getElem?_concat_length]
    rw [and_iff_right hlong, detect_of_long (by omega), reportOf]
    cases hlabel : lastLabel num config (cs ++ [c]) with
    | none =>
      refine iff_of_true trivial fun hclass ↦ ?_
      obtain ⟨state, hstate⟩ := (presentAt_labels_iff num).mpr hclass
      rw [hlast, hlabel] at hstate
      cases hstate
    | some state =>
      rw [noGap_iff num ⟨state, hlabel ▸ hlast⟩]
      unfold Agrees
      dsimp only [Option.map_some]
      rw [htracks.states.transitionCounts]
      rcases present_cases (labels num config (cs ++ [c])) with ⟨hgapless, hsame⟩ | ⟨hgap, hfewer⟩
      · rw [hsame]
        exact iff_of_true ⟨rfl, rfl, rfl, rfl, rfl, rfl, rfl⟩ hgapless
      · refine iff_of_false ?_ hgap
        rintro ⟨-, -, -, -, -, -, hcount⟩
        omega
  · rw [detect_of_short (by omega)]
    refine iff_of_false ?_ fun h ↦ hlong h.1
    unfold Agrees
    cases reportOf num config (cs ++ [c]) hurst with
    | none => exact not_false
    | some r => exact not_false

end Gaps

/-! ## A quiet spell -/

section

def exactNumerics : Numerics ℚ where
  log := fun x ↦ x - 1
  sqrt := id
  polyfit := fit
  hurst := fun _ ↦ none

def shortConfig : RegimeConfig ℚ where
  lookback := 40
  adxPeriod := 2
  rangeAdx := 20
  trendAdx := 25
  slopeFloor := 1 / 20
  dirichletAlpha := 1
  lookback_ok := by decide
  adxPeriod_ok := by decide
  adx_ok := by decide +kernel
  slopeFloor_ok := by decide +kernel
  alpha_pos := by decide +kernel

def lowCandle : Candle ℚ where
  high := 2
  low := 1
  close := 1
  positive := by decide +kernel
  high_ok := by decide +kernel
  low_ok := by decide +kernel

def highCandle : Candle ℚ where
  high := 3
  low := 1
  close := 1
  positive := by decide +kernel
  high_ok := by decide +kernel
  low_ok := by decide +kernel

/-- Candles that move every other time, three that do not, and three more. -/
def quietSpell : List (Candle ℚ) :=
  (List.replicate 20 [lowCandle, highCandle]).flatten ++ List.replicate 3 lowCandle ++
    [highCandle, lowCandle]

/-- The engine counts the transition over the quiet spell. -/
theorem quiet_spell_counted :
    ((feed exactNumerics shortConfig 10 quietSpell).update exactNumerics shortConfig 10
        highCandle).1.map (·.historicalTransitionCount) = some 3 ∧
      (detectMarketRegime exactNumerics shortConfig (quietSpell ++ [highCandle])).map
        (fun
          | .insufficientEvidence => none
          | .classified result => some result.historicalTransitionCount) = .ok (some 2) := by
  decide +kernel

theorem agrees_iff_quiet :
    let result := (feed exactNumerics shortConfig 10 quietSpell).update exactNumerics shortConfig
      10 highCandle
    Agrees result.1 result.2
        (detectMarketRegime exactNumerics shortConfig (quietSpell ++ [highCandle])) ↔
      2 * 2 + 2 ≤ (quietSpell ++ [highCandle]).length ∧
        NoGap shortConfig (quietSpell ++ [highCandle]) :=
  agrees_iff exactNumerics (fun _ h ↦ isLeastSquares_fit h) shortConfig 10 quietSpell highCandle
    (by decide)

end

end Qros.Orchestration.Regime
