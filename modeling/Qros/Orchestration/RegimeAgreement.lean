import Qros.Lib.LeastSquares
import Qros.Orchestration.IncrementalRegime
import Qros.Orchestration.RegimeSeries

/-!
# The incremental engine against the batch detector

`Tracks cs engine` says what each field of the engine is of the candles fed so far: the
queues hold the last values, the sums are the sums over the queues, and the transitions are
those between successive labels, those of unclassified candles left out.  The batch detector
counts transitions between neighbours only, which is the same as long as there is no gap.
-/

namespace Qros.Orchestration.Regime

open Qros.Lib IncrementalRegimeEngine List

section Agreement

variable {F : Type} [Field F] [LinearOrder F]

structure TracksReturns (num : Numerics F) (config : RegimeConfig F) (cs : List (Candle F))
    (engine : IncrementalRegimeEngine F) : Prop where
  logReturns : engine.logReturns = lastN (config.lookback - 1) (diff (logs num cs))
  returnSum : engine.returnSum = engine.logReturns.sum
  returnSqSum : engine.returnSqSum = (engine.logReturns.map fun x ↦ x * x).sum

/-- The queue of logarithms and the sums over it. -/
structure TracksLogs (num : Numerics F) (config : RegimeConfig F) (cs : List (Candle F))
    (engine : IncrementalRegimeEngine F) : Prop where
  logCloses : engine.logCloses = lastN config.lookback (logs num cs)
  logSum : engine.logSum = engine.logCloses.sum
  logXySum : engine.logXySum = weightedSum engine.logCloses

/-- The queues of ranges and moves. -/
structure TracksRanges (config : RegimeConfig F) (cs : List (Candle F))
    (engine : IncrementalRegimeEngine F) : Prop where
  trueRanges : engine.trueRanges = lastN config.adxPeriod (series trueRange cs)
  plusDms : engine.plusDms = lastN config.adxPeriod (series plusDm cs)
  minusDms : engine.minusDms = lastN config.adxPeriod (series minusDm cs)

/-- The last directional indices. -/
def TracksDx (config : RegimeConfig F) (cs : List (Candle F)) (engine : IncrementalRegimeEngine F) :
    Prop :=
  engine.dxValues = lastN config.adxPeriod ((dxs config.adxPeriod cs).drop (config.adxPeriod - 1))

structure TracksStates (num : Numerics F) (config : RegimeConfig F) (cs : List (Candle F))
    (engine : IncrementalRegimeEngine F) : Prop where
  lastState : engine.lastState = (labels num config cs).reduceOption.getLast?
  transitionCounts :
    engine.transitionCounts = countTransitions config (successive (labels num config cs))
  transitionCount : engine.transitionCount = (successive (labels num config cs)).length

structure TracksPrevious (cs : List (Candle F)) (engine : IncrementalRegimeEngine F) : Prop where
  count : engine.count = cs.length
  previousHigh : engine.previousHigh = cs.getLast?.map (·.high)
  previousLow : engine.previousLow = cs.getLast?.map (·.low)
  previousClose : engine.previousClose = cs.getLast?.map (·.close)

structure Tracks (num : Numerics F) (config : RegimeConfig F) (cs : List (Candle F))
    (engine : IncrementalRegimeEngine F) : Prop where
  returns : TracksReturns num config cs engine
  logs : TracksLogs num config cs engine
  ranges : TracksRanges config cs engine
  dx : TracksDx config cs engine
  states : TracksStates num config cs engine
  previous : TracksPrevious cs engine

variable {num : Numerics F} {config : RegimeConfig F} {cs : List (Candle F)} {c : Candle F}
variable {engine : IncrementalRegimeEngine F}

/-! ## The queues -/

omit [LinearOrder F] in
theorem diff_concat (xs : List F) (x : F) :
    diff (xs ++ [x]) = diff xs ++ (xs.getLast?.map (x - ·)).toList := by
  induction xs with
  | nil => rfl
  | cons a xs ih =>
    cases xs with
    | nil => rfl
    | cons b xs =>
      rw [getLast?_cons_cons]
      exact congrArg ((b - a) :: ·) ih

theorem pushReturn_tracks (h : TracksReturns num config cs engine)
    (hprevious : TracksPrevious cs engine) :
    TracksReturns num config (cs ++ [c]) (engine.pushReturn num config (num.log c.close)) := by
  have hlookback : 0 < config.lookback - 1 := by
    have := config.lookback_ok
    omega
  have hlogs : logs num (cs ++ [c]) = logs num cs ++ [num.log c.close] := map_append
  have hlast : (logs num cs).getLast? = cs.getLast?.map fun c ↦ num.log c.close :=
    getLast?_map
  cases hcs : cs.getLast? with
  | none =>
    have hsame : engine.pushReturn num config (num.log c.close) = engine := by
      rw [pushReturn, hprevious.previousClose, hcs]
      rfl
    rw [hsame]
    refine ⟨?_, h.returnSum, h.returnSqSum⟩
    rw [h.logReturns, hlogs, diff_concat, hlast, hcs]
    exact congrArg _ (append_nil _).symm
  | some d =>
    have hqueue : (engine.pushReturn num config (num.log c.close)).logReturns =
        push (config.lookback - 1) engine.logReturns (num.log c.close - num.log d.close) := by
      rw [pushReturn, hprevious.previousClose, hcs]
      rfl
    have hsum := sum_push id hlookback engine.logReturns (num.log c.close - num.log d.close)
    rw [map_id, map_id] at hsum
    refine ⟨?_, ?_, ?_⟩
    · rw [hqueue, h.logReturns, push_lastN hlookback, hlogs, diff_concat, hlast, hcs]
      rfl
    · rw [hqueue, hsum, pushReturn, hprevious.previousClose, hcs, ← h.returnSum]
      dsimp only [appendRolling, Option.map_some]
      cases evicted (config.lookback - 1) engine.logReturns with
      | none => rfl
      | some e => rfl
    · rw [hqueue, sum_push (fun x ↦ x * x) hlookback, pushReturn, hprevious.previousClose, hcs,
        ← h.returnSqSum]
      dsimp only [appendRolling, Option.map_some]
      cases evicted (config.lookback - 1) engine.logReturns with
      | none => rfl
      | some e => rfl

theorem popLog_tracks (h : TracksLogs num config cs engine) (x : F) :
    let engine' := engine.popLog config
    engine'.logCloses ++ [x] = lastN config.lookback (logs num cs ++ [x]) ∧
      engine'.logSum = engine'.logCloses.sum ∧
      engine'.logXySum = weightedSum engine'.logCloses := by
  have hsum := h.logSum
  have hxy := h.logXySum
  dsimp only
  rw [← push_lastN (lookback_pos config), ← h.logCloses, push, popLog]
  cases hq : engine.logCloses with
  | nil =>
    rw [hq] at hsum hxy
    rw [length_nil, if_neg (lookback_pos config).ne]
    dsimp only
    rw [hq]
    exact ⟨rfl, hsum, hxy⟩
  | cons e rest =>
    rw [hq] at hsum hxy
    dsimp only
    by_cases hfull : (e :: rest).length = config.lookback
    · rw [if_pos hfull, if_pos hfull]
      refine ⟨rfl, ?_, ?_⟩
      · rw [hsum, sum_cons, add_sub_cancel_left]
      · rw [hxy, hsum, weightedSum_cons, sum_cons, add_sub_cancel_left, add_sub_cancel_right]
    · rw [if_neg hfull, if_neg hfull, hq]
      exact ⟨rfl, hsum, hxy⟩

theorem pushLog_tracks (h : TracksLogs num config cs engine) :
    TracksLogs num config (cs ++ [c]) ((engine.popLog config).pushLog (num.log c.close)) := by
  obtain ⟨hqueue, hsum, hxy⟩ := popLog_tracks h (num.log c.close)
  refine ⟨?_, ?_, ?_⟩
  · rw [show logs num (cs ++ [c]) = logs num cs ++ [num.log c.close] from map_append]
    exact hqueue
  · rw [pushLog, sum_append, sum_singleton, hsum]
  · rw [pushLog, weightedSum_concat, hxy]

theorem pushRanges_tracks (h : TracksRanges config cs engine)
    (hprevious : TracksPrevious cs engine) :
    TracksRanges config (cs ++ [c]) (engine.pushRanges config c) := by
  have hp := period_pos config
  refine ⟨?_, ?_, ?_⟩
  all_goals
    rw [series_concat, ← push_lastN hp]
    unfold pushRanges
  · rw [← h.trueRanges, hprevious.previousClose]
    cases cs.getLast? with
    | none => rfl
    | some d => rfl
  · rw [← h.plusDms, hprevious.previousHigh, hprevious.previousLow]
    cases cs.getLast? with
    | none => rfl
    | some d =>
      dsimp only [Option.map_some, plusDm]
      rw [neg_sub]
      rfl
  · rw [← h.minusDms, hprevious.previousHigh, hprevious.previousLow]
    cases cs.getLast? with
    | none => rfl
    | some d =>
      dsimp only [Option.map_some, minusDm]
      rw [neg_sub]
      rfl

theorem pushReturn_frame (num : Numerics F) (config : RegimeConfig F)
    (engine : IncrementalRegimeEngine F) (x : F) : ∃ rs s q, engine.pushReturn num config x =
    { engine with logReturns := rs, returnSum := s, returnSqSum := q } := by
  unfold pushReturn
  split
  · exact ⟨engine.logReturns, engine.returnSum, engine.returnSqSum, rfl⟩
  · exact ⟨_, _, _, rfl⟩

theorem popLog_frame (config : RegimeConfig F) (engine : IncrementalRegimeEngine F) :
    ∃ ls s xy,
    engine.popLog config = { engine with logCloses := ls, logSum := s, logXySum := xy } := by
  unfold popLog
  split
  · split
    · exact ⟨_, _, _, rfl⟩
    · exact ⟨engine.logCloses, engine.logSum, engine.logXySum, rfl⟩
  · exact ⟨engine.logCloses, engine.logSum, engine.logXySum, rfl⟩

/-- What the engine is between taking in the prices of a candle and its indices. -/
structure TracksMidway (num : Numerics F) (config : RegimeConfig F) (cs : List (Candle F))
    (c : Candle F) (engine : IncrementalRegimeEngine F) : Prop where
  returns : TracksReturns num config (cs ++ [c]) engine
  logs : TracksLogs num config (cs ++ [c]) engine
  ranges : TracksRanges config (cs ++ [c]) engine
  dx : TracksDx config cs engine
  states : TracksStates num config cs engine
  previous : TracksPrevious cs engine

theorem pushPrices_tracks (h : Tracks num config cs engine) :
    TracksMidway num config cs c (engine.pushPrices num config c) := by
  have hreturns := pushReturn_tracks (c := c) h.returns h.previous
  unfold pushPrices
  dsimp only
  obtain ⟨rs, s, q, hframe⟩ := pushReturn_frame num config engine (num.log c.close)
  rw [hframe] at hreturns ⊢
  have hbefore : TracksLogs num config cs
      { engine with logReturns := rs, returnSum := s, returnSqSum := q } :=
    ⟨h.logs.1, h.logs.2, h.logs.3⟩
  have hlogs := pushLog_tracks (c := c) hbefore
  obtain ⟨ls, t, xy, hframe'⟩ := popLog_frame config
    { engine with logReturns := rs, returnSum := s, returnSqSum := q }
  rw [hframe'] at hlogs ⊢
  have hranges := pushRanges_tracks (c := c) h.ranges h.previous
  exact {
    returns := ⟨hreturns.1, hreturns.2, hreturns.3⟩
    logs := ⟨hlogs.1, hlogs.2, hlogs.3⟩
    ranges := ⟨hranges.1, hranges.2, hranges.3⟩
    dx := h.dx
    states := ⟨h.states.1, h.states.2, h.states.3⟩
    previous := ⟨h.previous.1, h.previous.2, h.previous.3, h.previous.4⟩ }

/-! ## The indices -/

variable {period : Nat}

variable {xs : List F}

omit [LinearOrder F] in
theorem lastMean_of_le (h : period ≤ xs.length) :
    lastMean period xs = some ((lastN period xs).sum / period) := by
  rw [lastMean, if_neg (not_lt.mpr h), mean, length_lastN_eq_iff.mpr h]

theorem lastDirectional_of_lt {f : Option (Candle F) → Candle F → F} (h : cs.length < period) :
    lastDirectional f period cs = none := by
  have hnone : lastMean period (series f cs) = none := if_pos (by rwa [length_series])
  rw [lastDirectional, hnone]
  rfl

theorem lastDx_of_lt (h : cs.length < period) : lastDx period cs = none := by
  rw [lastDx, lastDirectional_of_lt h]
  rfl

theorem lastAdx_of_lt (h : cs.length < period) : lastAdx period cs = none :=
  if_pos h

theorem dxs_before (hp : 0 < period) {i : Nat} (hi : i + 1 < period) (hlen : i < cs.length) :
    (dxs period cs)[i]? = some none := by
  induction cs using reverseRecOn with
  | nil => cases hlen
  | append_singleton cs c ih =>
    rw [dxs_concat hp]
    by_cases hlast : i < cs.length
    · rw [getElem?_append_left (by rwa [length_dxs hp])]
      exact ih hlast
    · have heq : i = cs.length := by
        rw [length_append, length_singleton] at hlen
        omega
      rw [heq, ← length_dxs hp cs, getElem?_concat_length, lastDx_of_lt]
      rw [length_append, length_singleton]
      omega

omit [Field F] [LinearOrder F] in
theorem lastN_drop {k m : Nat} (h : k + m ≤ xs.length) :
    lastN k (xs.drop m) = lastN k xs := by
  rw [lastN, lastN, drop_drop, length_drop]
  congr 1
  omega

omit [Field F] [LinearOrder F] in
theorem not_all_isSome {xs : List (Option F)} (h : none ∈ xs) : ¬ xs.all Option.isSome = true := by
  rw [all_eq_true]
  intro hall
  cases hall none h

theorem lastAdx_eq (hp : 0 < period) (hlen : period ≤ cs.length) :
    lastAdx period cs =
      let values := lastN period ((dxs period cs).drop (period - 1))
      if values.length = period ∧ values.all Option.isSome = true then
        some (values.reduceOption.sum / period)
      else none := by
  have hlength : (dxs period cs).length = cs.length := length_dxs hp cs
  rw [lastAdx, if_neg (not_lt.mpr hlen), meanOfAll]
  dsimp only
  by_cases hfull : period + (period - 1) ≤ cs.length
  · rw [lastN_drop (hlength ▸ hfull)]
    have hcount : (lastN period (dxs period cs)).length = period :=
      length_lastN_eq_iff.mpr (hlength ▸ hlen)
    by_cases hall : (lastN period (dxs period cs)).all Option.isSome = true
    · rw [if_pos hall, if_pos ⟨hcount, hall⟩, mean,
        reduceOption_length_eq_iff.mpr (all_eq_true.mp hall), hcount]
    · rw [if_neg hall, if_neg fun h ↦ hall h.2]
  · have hshort : (lastN period ((dxs period cs).drop (period - 1))).length ≠ period := by
      rw [length_lastN, length_drop, hlength]
      omega
    have hmissing : none ∈ lastN period (dxs period cs) := by
      have hnone : (dxs period cs)[cs.length - period]? = some none :=
        dxs_before hp (by omega) (by omega)
      rw [lastN, hlength, mem_iff_getElem?]
      exact ⟨0, by rw [getElem?_drop, Nat.add_zero, hnone]⟩
    rw [if_neg (not_all_isSome hmissing), if_neg fun h ↦ hshort h.1]

section Ordered

variable [IsStrictOrderedRing F]

theorem trueRange_nonneg (p : Option (Candle F)) (c : Candle F) : 0 ≤ trueRange p c := by
  have hbase : 0 ≤ c.high - c.low :=
    sub_nonneg.mpr ((le_max_left _ _).trans c.high_ok)
  cases p with
  | none => exact hbase
  | some p => exact hbase.trans ((le_max_left _ _).trans (le_max_left _ _))

omit [IsStrictOrderedRing F] in
theorem plusDm_nonneg (p : Option (Candle F)) (c : Candle F) : 0 ≤ plusDm p c := by
  cases p with
  | none => exact le_refl 0
  | some p =>
    unfold plusDm
    dsimp only
    split
    · rename_i h
      exact h.2.le
    · exact le_refl 0

omit [IsStrictOrderedRing F] in
theorem minusDm_nonneg (p : Option (Candle F)) (c : Candle F) : 0 ≤ minusDm p c := by
  cases p with
  | none => exact le_refl 0
  | some p =>
    unfold minusDm
    dsimp only
    split
    · rename_i h
      exact h.2.le
    · exact le_refl 0

theorem sum_lastN_series_nonneg {f : Option (Candle F) → Candle F → F} (hf : ∀ p c, 0 ≤ f p c)
    (k : Nat) (cs : List (Candle F)) : 0 ≤ (lastN k (series f cs)).sum := by
  refine sum_nonneg fun x hx ↦ ?_
  obtain ⟨p, -, rfl⟩ := mem_map.mp (mem_of_mem_drop hx)
  exact hf _ _

theorem directional_means {period : Nat} (hp : 0 < period) {a t : F} (ht : 0 ≤ t) :
    directional (some (a / period)) (some (t / period)) =
      if t > 0 then some (100 * a / t) else none := by
  have hperiod : (period : F) ≠ 0 := Nat.cast_ne_zero.mpr hp.ne'
  by_cases hpos : t > 0
  · have hne : some (t / (period : F)) ≠ some 0 := by
      intro h
      exact (div_pos hpos (Nat.cast_pos.mpr hp)).ne' (Option.some.inj h)
    rw [if_pos hpos, directional, replaceZero, if_neg hne]
    change some (100 * (a / (period : F)) / (t / period)) = some (100 * a / t)
    congr 1
    field_simp
  · obtain rfl : t = 0 := le_antisymm (not_lt.mp hpos) ht
    rw [if_neg hpos, directional, zero_div, replaceZero, if_pos rfl]
    rfl

omit [IsStrictOrderedRing F] in
theorem directionalIndex_some {a b : F} (h : 0 ≤ a + b) :
    directionalIndex (some a) (some b) =
      if a + b > 0 then some (100 * |a - b| / (a + b)) else none := by
  by_cases hpos : a + b > 0
  · have hne : (some (a + b) : Option F) ≠ some 0 := fun h ↦ hpos.ne' (Option.some.inj h)
    rw [if_pos hpos, directionalIndex]
    change ((replaceZero (some (a + b))).bind fun d ↦ some (100 * |a - b| / d)) = _
    rw [replaceZero, if_neg hne]
    rfl
  · have hzero : a + b = 0 := le_antisymm (not_lt.mp hpos) h
    rw [if_neg hpos, directionalIndex]
    change ((replaceZero (some (a + b))).bind fun d ↦ some (100 * |a - b| / d)) = none
    rw [hzero, replaceZero, if_pos rfl]
    rfl

theorem lastDirectional_of_le {f : Option (Candle F) → Candle F → F} {period : Nat}
    (hp : 0 < period) (hlen : period ≤ cs.length) :
    lastDirectional f period cs =
      let trSum := (lastN period (series trueRange cs)).sum
      if trSum > 0 then some (100 * (lastN period (series f cs)).sum / trSum) else none := by
  rw [lastDirectional, lastMean_of_le (by rwa [length_series]),
    lastMean_of_le (by rwa [length_series]),
    directional_means hp (sum_lastN_series_nonneg trueRange_nonneg period cs)]

omit [IsStrictOrderedRing F] in
theorem pushDx_tracks (h : TracksDx config cs engine)
    (hlen : config.adxPeriod ≤ (cs ++ [c]).length) :
    engine.pushDx config (lastDx config.adxPeriod (cs ++ [c])) =
      { engine with
        dxValues := lastN config.adxPeriod
          ((dxs config.adxPeriod (cs ++ [c])).drop (config.adxPeriod - 1)) } := by
  have hp := period_pos config
  have hdrop : (dxs config.adxPeriod (cs ++ [c])).drop (config.adxPeriod - 1) =
      (dxs config.adxPeriod cs).drop (config.adxPeriod - 1) ++
        [lastDx config.adxPeriod (cs ++ [c])] := by
    rw [dxs_concat hp, drop_append_of_le_length]
    rw [length_dxs hp]
    rw [length_append, length_singleton] at hlen
    omega
  rw [hdrop, ← push_lastN hp, ← show engine.dxValues = _ from h]
  rfl

theorem indicators_tracks (h : TracksMidway num config cs c engine) :
    engine.indicators config =
      ({ engine with
          dxValues := lastN config.adxPeriod
            ((dxs config.adxPeriod (cs ++ [c])).drop (config.adxPeriod - 1)) },
        lastAdx config.adxPeriod (cs ++ [c]), lastDirectional plusDm config.adxPeriod (cs ++ [c]),
        lastDirectional minusDm config.adxPeriod (cs ++ [c])) := by
  have hp := period_pos config
  have hfull : engine.trueRanges.length = config.adxPeriod ↔
      config.adxPeriod ≤ (cs ++ [c]).length := by
    rw [h.ranges.trueRanges, length_lastN_eq_iff, length_series]
  unfold indicators
  by_cases hlen : config.adxPeriod ≤ (cs ++ [c]).length
  · rw [if_pos (hfull.mpr hlen)]
    have hadx := lastAdx_eq hp hlen
    have hP := sum_lastN_series_nonneg plusDm_nonneg config.adxPeriod (cs ++ [c])
    have hM := sum_lastN_series_nonneg minusDm_nonneg config.adxPeriod (cs ++ [c])
    have hplus := lastDirectional_of_le (f := plusDm) hp hlen
    have hminus := lastDirectional_of_le (f := minusDm) hp hlen
    dsimp only at hplus hminus
    rw [← h.ranges.trueRanges, ← h.ranges.plusDms] at hplus
    rw [← h.ranges.trueRanges, ← h.ranges.minusDms] at hminus
    rw [← h.ranges.plusDms] at hP
    rw [← h.ranges.minusDms] at hM
    have hpush := pushDx_tracks (c := c) h.dx hlen
    dsimp only
    by_cases hpos : engine.trueRanges.sum > 0
    · rw [if_pos hpos] at hplus hminus ⊢
      have hdx : lastDx config.adxPeriod (cs ++ [c]) = _ :=
        (congrArg₂ directionalIndex hplus hminus).trans (directionalIndex_some (by positivity))
      rw [hplus, hminus, ← hdx, hpush, hadx]
    · rw [if_neg hpos] at hplus hminus ⊢
      have hnone : lastDx config.adxPeriod (cs ++ [c]) = none := by
        rw [lastDx, hplus]
        rfl
      rw [hnone] at hpush
      have hmissing : lastAdx config.adxPeriod (cs ++ [c]) = none := by
        rw [lastAdx, if_neg (not_lt.mpr hlen), meanOfAll, if_neg]
        refine not_all_isSome ?_
        rw [dxs_concat hp, hnone, ← push_lastN hp]
        exact mem_append_right _ (mem_singleton_self _)
      rw [hplus, hminus, hpush, hmissing]
  · rw [if_neg (mt hfull.mp hlen)]
    have hshort : (cs ++ [c]).length < config.adxPeriod := not_le.mp hlen
    rw [lastAdx_of_lt hshort, lastDirectional_of_lt hshort, lastDirectional_of_lt hshort]
    have hlength : (cs ++ [c]).length = cs.length + 1 := length_append
    have hnil (cs' : List (Candle F)) (hle : cs'.length ≤ config.adxPeriod - 1) :
        (dxs config.adxPeriod cs').drop (config.adxPeriod - 1) = [] :=
      drop_of_length_le (by rwa [length_dxs hp])
    have hdx : engine.dxValues = _ := h.dx
    rw [hnil cs (by omega)] at hdx
    rw [hnil (cs ++ [c]) (by omega), ← hdx]

end Ordered

/-! ## The slope -/

/-- `np.polyfit` gives a line of least squared error. -/
def Numerics.FitsLine (num : Numerics F) : Prop :=
  ∀ ys, 2 ≤ ys.length → IsLeastSquares ys (num.polyfit ys)

omit [LinearOrder F] in
theorem diff_lastN {k : Nat} (hk : 0 < k) (h : k ≤ xs.length) :
    diff (lastN k xs) = lastN (k - 1) (diff xs) := by
  have hlength : (diff xs).length = xs.length - 1 := by
    rw [diff, length_zipWith, length_tail]
    omega
  have hdrop : xs.length - 1 - (k - 1) = xs.length - k := by omega
  rw [lastN, lastN, hlength, hdrop, diff, diff, drop_zipWith, tail_drop, drop_tail]

/-- The slope from the sums kept is the slope of the line fitted to the window, in units of
the deviation of its returns. -/
theorem normalizedSlope_eq [IsStrictOrderedRing F] (hfit : num.FitsLine)
    (hlogs : TracksLogs num config cs engine) (hreturns : TracksReturns num config cs engine)
    (hlen : config.lookback ≤ cs.length) :
    engine.normalizedSlope num = slopePerBar num (lastN config.lookback (logs num cs)) := by
  have hlookback := config.lookback_ok
  have hlogsLength : (logs num cs).length = cs.length := length_map _
  have hcount : engine.logCloses.length = config.lookback := by
    rw [hlogs.logCloses]
    exact length_lastN_eq_iff.mpr (hlogsLength ▸ hlen)
  have hdiff : engine.logReturns = diff engine.logCloses := by
    rw [hreturns.logReturns, hlogs.logCloses, diff_lastN (lookback_pos config) (hlogsLength ▸ hlen)]
  have hreturnCount : engine.logReturns.length = config.lookback - 1 := by
    rw [hdiff, diff, length_zipWith, length_tail, hcount]
    omega
  have hslope : (num.polyfit engine.logCloses).1 = fitSlope engine.logCloses :=
    slope_of_isLeastSquares (by omega) (hfit _ (by omega))
  have hmax : max engine.logReturns.length 1 = engine.logReturns.length :=
    max_eq_left (by omega)
  have hne : (engine.logReturns.length : F) ≠ 0 := Nat.cast_ne_zero.mpr (by omega)
  have hvariance : max (engine.returnSqSum / (engine.logReturns.length : F) -
      engine.returnSum / engine.logReturns.length * (engine.returnSum / engine.logReturns.length)) 0 =
      (engine.logReturns.map fun x ↦ (x - mean engine.logReturns) ^ 2).sum /
        engine.logReturns.length := by
    rw [hreturns.returnSqSum, hreturns.returnSum, mean, ← sum_sq_dev hne]
    exact max_eq_left (div_nonneg (sum_sq_nonneg _ _) (Nat.cast_nonneg _))
  unfold normalizedSlope slopePerBar std
  dsimp only
  rw [hmax, hvariance, ← hlogs.logCloses, hslope, hdiff, hlogs.logSum, hlogs.logXySum]
  rfl

/-! ## The states -/

theorem labels_concat_none (h : lastLabel num config (cs ++ [c]) = none)
    (hstates : TracksStates num config cs engine) : TracksStates num config (cs ++ [c]) engine := by
  have hlabels : labels num config (cs ++ [c]) = labels num config cs ++ [none] := by
    rw [labels_concat, h]
  have hreduce : (labels num config cs ++ [none]).reduceOption =
      (labels num config cs).reduceOption := by
    rw [reduceOption_append]
    exact append_nil _
  refine ⟨?_, ?_, ?_⟩
  · rw [hstates.lastState, hlabels, hreduce]
  · rw [hstates.transitionCounts, hlabels, successive_concat_none]
  · rw [hstates.transitionCount, hlabels, successive_concat_none]

theorem enter_tracks {state : State} (h : lastLabel num config (cs ++ [c]) = some state)
    (hstates : TracksStates num config cs engine) :
    TracksStates num config (cs ++ [c]) (engine.enter state) := by
  have hlabels : labels num config (cs ++ [c]) = labels num config cs ++ [some state] := by
    rw [labels_concat, h]
  have hreduce : (labels num config cs ++ [some state]).reduceOption =
      (labels num config cs).reduceOption ++ [state] := by
    rw [reduceOption_append]
    rfl
  unfold enter
  rw [hstates.lastState]
  cases hlast : (labels num config cs).reduceOption.getLast? with
  | none =>
    refine ⟨?_, ?_, ?_⟩
    · rw [hlabels, hreduce, getLast?_concat]
    · dsimp only
      rw [hstates.transitionCounts, hlabels, successive_concat_some, hlast]
      rw [Option.map_none, Option.toList_none, append_nil]
    · dsimp only
      rw [hstates.transitionCount, hlabels, successive_concat_some, hlast]
      rw [Option.map_none, Option.toList_none, append_nil]
  | some previous =>
    refine ⟨?_, ?_, ?_⟩
    · rw [hlabels, hreduce, getLast?_concat]
    · dsimp only
      rw [hstates.transitionCounts, hlabels, successive_concat_some, hlast, countTransitions,
        countTransitions, foldl_append]
      rfl
    · dsimp only
      rw [hstates.transitionCount, hlabels, successive_concat_some, hlast, length_append]
      rfl

omit [LinearOrder F] in
theorem enter_frame (engine : IncrementalRegimeEngine F) (state : State) :
    ∃ ls tc t, engine.enter state =
    { engine with lastState := ls, transitionCounts := tc, transitionCount := t } := by
  unfold enter
  split
  · exact ⟨_, engine.transitionCounts, engine.transitionCount, rfl⟩
  · exact ⟨_, _, _, rfl⟩

theorem stateOf_eq_label (adx plusDi minusDi slope : F) :
    stateOf config adx plusDi minusDi slope = label config adx slope plusDi minusDi := by
  unfold stateOf label
  rw [ite_self]

/-- What `update` returns, from the last entries of the series. -/
def reportOf (num : Numerics F) (config : RegimeConfig F) (cs : List (Candle F))
    (hurst : Option F) : Option (Report F) :=
  (lastLabel num config cs).map fun state ↦ {
    barCountSeen := cs.length
    currentState := state
    features := {
      adx := lastAdx config.adxPeriod cs
      plusDi := lastDirectional plusDm config.adxPeriod cs
      minusDi := lastDirectional minusDm config.adxPeriod cs
      normalizedLogPriceSlope := some (slopePerBar num (lastN config.lookback (logs num cs)))
      hurstVarianceTime := hurst }
    stateProbabilitiesNext :=
      probabilities (countTransitions config (successive (labels num config cs)) state)
    historicalTransitionCount := (successive (labels num config cs)).length }

/-- The engine with the indices and the previous prices of a candle. -/
structure TracksIndices (num : Numerics F) (config : RegimeConfig F) (cs : List (Candle F))
    (c : Candle F) (engine : IncrementalRegimeEngine F) : Prop where
  returns : TracksReturns num config (cs ++ [c]) engine
  logs : TracksLogs num config (cs ++ [c]) engine
  ranges : TracksRanges config (cs ++ [c]) engine
  dx : TracksDx config (cs ++ [c]) engine
  states : TracksStates num config cs engine
  previous : TracksPrevious (cs ++ [c]) engine

theorem classify_tracks [IsStrictOrderedRing F] (hfit : num.FitsLine)
    (h : TracksIndices num config cs c engine) :
    let result := engine.classify num config (lastAdx config.adxPeriod (cs ++ [c]))
      (lastDirectional plusDm config.adxPeriod (cs ++ [c]))
      (lastDirectional minusDm config.adxPeriod (cs ++ [c]))
    result.1 = reportOf num config (cs ++ [c]) engine.hurst ∧
      Tracks num config (cs ++ [c]) result.2 := by
  have hlogsLength : (logs num (cs ++ [c])).length = (cs ++ [c]).length := length_map _
  have hwarm : (engine.logCloses.length < config.lookback ∨
      engine.count < config.adxPeriod * 2 + 1) ↔ (cs ++ [c]).length ≤ firstLabelled config := by
    rw [h.logs.logCloses, length_lastN, h.previous.count, hlogsLength, firstLabelled]
    have := config.lookback_ok
    omega
  have hunclassified (hlabel : lastLabel num config (cs ++ [c]) = none) :
      (none : Option (Report F)) = reportOf num config (cs ++ [c]) engine.hurst ∧
        Tracks num config (cs ++ [c]) engine :=
    ⟨by rw [reportOf, hlabel]; rfl,
      ⟨h.returns, h.logs, h.ranges, h.dx, labels_concat_none hlabel h.states, h.previous⟩⟩
  dsimp only
  unfold classify
  by_cases hcold : (cs ++ [c]).length ≤ firstLabelled config
  · rw [if_pos (hwarm.mpr hcold)]
    exact hunclassified (if_pos hcold)
  · rw [if_neg (mt hwarm.mp hcold)]
    have hslope := normalizedSlope_eq hfit h.logs h.returns (by
      unfold firstLabelled at hcold
      omega)
    have hlabel : lastLabel num config (cs ++ [c]) = _ := if_neg hcold
    split
    · rename_i adx plusDi minusDi hadx hplus hminus
      rw [hadx, hplus, hminus] at hlabel
      dsimp only at hlabel ⊢
      rw [hslope, stateOf_eq_label]
      have henter := enter_tracks hlabel h.states
      obtain ⟨ls, tc, t, hframe⟩ := enter_frame engine _
      rw [hframe] at henter ⊢
      obtain ⟨hlast, htc, ht⟩ := henter
      dsimp only at hlast htc ht ⊢
      refine ⟨?_, ?_⟩
      · rw [reportOf, hlabel, hadx, hplus, hminus, htc, ht, h.previous.count]
        rfl
      · exact {
          returns := ⟨h.returns.1, h.returns.2, h.returns.3⟩
          logs := ⟨h.logs.1, h.logs.2, h.logs.3⟩
          ranges := ⟨h.ranges.1, h.ranges.2, h.ranges.3⟩
          dx := h.dx
          states := ⟨hlast, htc, ht⟩
          previous := ⟨h.previous.1, h.previous.2, h.previous.3, h.previous.4⟩ }
    · rename_i hmissing
      refine hunclassified (hlabel.trans ?_)
      split
      · rename_i hadx hplus hminus
        exact (hmissing _ _ _ hadx hplus hminus).elim
      · rfl

/-! ## Runs -/

section

theorem init_tracks : Tracks num config [] (init config) where
  returns := ⟨lastN_nil.symm, rfl, rfl⟩
  logs := ⟨lastN_nil.symm, rfl, rfl⟩
  ranges := ⟨lastN_nil.symm, lastN_nil.symm, lastN_nil.symm⟩
  dx := by
    have hnil : dxs config.adxPeriod ([] : List (Candle F)) = [] :=
      eq_nil_of_length_eq_zero (length_dxs (period_pos config) [])
    rw [TracksDx, hnil, drop_nil, lastN_nil]
    rfl
  states := ⟨rfl, rfl, rfl⟩
  previous := ⟨rfl, rfl, rfl, rfl⟩

variable [IsStrictOrderedRing F]

theorem update_tracks (hfit : num.FitsLine) (hurstRefreshEvery : Nat)
    (h : Tracks num config cs engine) :
    let result := engine.update num config hurstRefreshEvery c
    (∃ hurst, result.1 = reportOf num config (cs ++ [c]) hurst) ∧
      Tracks num config (cs ++ [c]) result.2 := by
  have hmidway := pushPrices_tracks (c := c) h
  dsimp only
  unfold update
  rw [indicators_tracks hmidway]
  dsimp only
  have hindices : TracksIndices num config cs c (advance num
      { engine.pushPrices num config c with
        dxValues := lastN config.adxPeriod
          ((dxs config.adxPeriod (cs ++ [c])).drop (config.adxPeriod - 1)) } hurstRefreshEvery c) :=
    { returns := ⟨hmidway.returns.1, hmidway.returns.2, hmidway.returns.3⟩
      logs := ⟨hmidway.logs.1, hmidway.logs.2, hmidway.logs.3⟩
      ranges := ⟨hmidway.ranges.1, hmidway.ranges.2, hmidway.ranges.3⟩
      dx := rfl
      states := ⟨hmidway.states.1, hmidway.states.2, hmidway.states.3⟩
      previous := by
        have hlast : (cs ++ [c]).getLast? = some c := getLast?_concat
        have hcount : (engine.pushPrices num config c).count = cs.length := hmidway.previous.count
        refine ⟨?_, ?_, ?_, ?_⟩
        · rw [length_append, ← hcount]
          rfl
        all_goals rw [hlast]; rfl }
  obtain ⟨hreport, htracks⟩ := classify_tracks hfit hindices
  exact ⟨⟨_, hreport⟩, htracks⟩

/-- **The run.** -/
theorem feed_tracks (hfit : num.FitsLine) (hurstRefreshEvery : Nat) (cs : List (Candle F)) :
    Tracks num config cs (feed num config hurstRefreshEvery cs) := by
  induction cs using reverseRecOn with
  | nil => exact init_tracks
  | append_singleton cs c ih =>
    rw [feed, foldl_append]
    exact (update_tracks hfit hurstRefreshEvery ih).2

end

end Agreement

end Qros.Orchestration.Regime
