import Mathlib.Algebra.Order.BigOperators.Group.List
import Qros.Orchestration.RegimeDetection

/-!
# The series of the batch detector, candle by candle

No series looks ahead: one more candle appends one more entry to each, and the entry is a
function of the last values.  So the labels of a longer sequence begin with those of a
shorter one (`labels_concat`).
-/

namespace Qros.Orchestration.Regime

open Qros.Lib List

section Series

variable {F : Type} [Field F] [LinearOrder F]
variable {f : Option (Candle F) → Candle F → F} {cs : List (Candle F)} {c : Candle F}
variable {period : Nat}

theorem withPrevious_concat :
    withPrevious (cs ++ [c]) = withPrevious cs ++ [(cs.getLast?, c)] := by
  have h (previous : Option (Candle F)) : (previous :: (cs ++ [c]).map some).zip (cs ++ [c]) =
      (previous :: cs.map some).zip cs ++ [(cs.getLast?.or previous, c)] := by
    induction cs generalizing previous with
    | nil => rfl
    | cons d cs ih =>
      rw [cons_append, map_cons, zip_cons_cons, ih, map_cons,
        zip_cons_cons, cons_append]
      cases cs with
      | nil => rfl
      | cons e cs => rw [getLast?_cons_cons, getLast?_cons]; rfl
  rw [withPrevious, h none, Option.or_none]
  rfl

theorem series_concat : series f (cs ++ [c]) = series f cs ++ [f cs.getLast? c] := by
  rw [series, withPrevious_concat, map_append]
  rfl

theorem length_series : (series f cs).length = cs.length := by
  rw [series, length_map, withPrevious, length_zip, length_cons, length_map]
  omega

/-- The mean of the last values, if there are as many as the period. -/
def lastMean (period : Nat) (xs : List F) : Option F :=
  if xs.length < period then none else some (mean (lastN period xs))

omit [LinearOrder F] in
theorem meanOfAll_map_some (xs : List F) : meanOfAll (xs.map some) = some (mean xs) := by
  have hall : (xs.map some).all Option.isSome = true := by simp
  have hreduce : (xs.map some).reduceOption = xs := by
    rw [List.reduceOption, filterMap_map]
    exact filterMap_some
  rw [meanOfAll, if_pos hall, hreduce]

omit [LinearOrder F] in
theorem rollingMean_concat (hp : 0 < period) (xs : List (Option F)) (x : Option F) :
    rollingMean period (xs ++ [x]) = rollingMean period xs ++
      [if xs.length + 1 < period then none else meanOfAll (lastN period (xs ++ [x]))] :=
  rolling_concat hp xs x

omit [LinearOrder F] in
theorem length_rollingMean (hp : 0 < period) (xs : List (Option F)) :
    (rollingMean period xs).length = xs.length :=
  length_rolling hp

omit [LinearOrder F] in
theorem rollingMean_some_concat (hp : 0 < period) (xs : List F) (x : F) :
    rollingMean period ((xs ++ [x]).map some) =
      rollingMean period (xs.map some) ++ [lastMean period (xs ++ [x])] := by
  rw [map_append, map_singleton, rollingMean_concat hp, length_map, lastMean,
    length_append, length_singleton]
  have hmap : xs.map some ++ [some x] = (xs ++ [x]).map some := by
    rw [map_append, map_singleton]
  rw [hmap, lastN_map, meanOfAll_map_some]

def lastDirectional (f : Option (Candle F) → Candle F → F) (period : Nat) (cs : List (Candle F)) :
    Option F :=
  directional (lastMean period (series f cs)) (lastMean period (series trueRange cs))

theorem length_directionals (hp : 0 < period) (f : Option (Candle F) → Candle F → F)
    (cs : List (Candle F)) : (directionals f period cs).length = cs.length := by
  rw [directionals, length_zipWith, length_rollingMean hp, length_rollingMean hp,
    length_map, length_map, length_series, length_series, min_self]

theorem directionals_concat (hp : 0 < period) :
    directionals f period (cs ++ [c]) =
      directionals f period cs ++ [lastDirectional f period (cs ++ [c])] := by
  rw [directionals, lastDirectional, series_concat, series_concat, rollingMean_some_concat hp,
    rollingMean_some_concat hp, zipWith_append]
  · rfl
  · rw [length_rollingMean hp, length_rollingMean hp, length_map, length_map,
      length_series, length_series]

def dxs (period : Nat) (cs : List (Candle F)) : List (Option F) :=
  List.zipWith directionalIndex (directionals plusDm period cs) (directionals minusDm period cs)

def lastDx (period : Nat) (cs : List (Candle F)) : Option F :=
  directionalIndex (lastDirectional plusDm period cs) (lastDirectional minusDm period cs)

theorem length_dxs (hp : 0 < period) (cs : List (Candle F)) :
    (dxs period cs).length = cs.length := by
  rw [dxs, length_zipWith, length_directionals hp, length_directionals hp, min_self]

theorem dxs_concat (hp : 0 < period) :
    dxs period (cs ++ [c]) = dxs period cs ++ [lastDx period (cs ++ [c])] := by
  rw [dxs, directionals_concat hp, directionals_concat hp, zipWith_append]
  · rfl
  · rw [length_directionals hp, length_directionals hp]

def lastAdx (period : Nat) (cs : List (Candle F)) : Option F :=
  if cs.length < period then none else meanOfAll (lastN period (dxs period cs))

theorem adx_concat (hp : 0 < period) :
    (adxAndDi (cs ++ [c]) period).adx =
      (adxAndDi cs period).adx ++ [lastAdx period (cs ++ [c])] := by
  change rollingMean period (dxs period (cs ++ [c])) = rollingMean period (dxs period cs) ++ _
  rw [dxs_concat hp, rollingMean_concat hp, length_dxs hp, lastAdx, length_append,
    length_singleton, dxs_concat hp]

theorem length_adx (hp : 0 < period) (cs : List (Candle F)) :
    (adxAndDi cs period).adx.length = cs.length :=
  (length_rollingMean hp _).trans (length_dxs hp cs)

/-! ## Labels -/

variable {num : Numerics F} {config : RegimeConfig F}

theorem period_pos (config : RegimeConfig F) : 0 < config.adxPeriod :=
  (Nat.succ_pos 1).trans_le config.adxPeriod_ok

theorem lookback_pos (config : RegimeConfig F) : 0 < config.lookback :=
  (Nat.succ_pos 39).trans_le config.lookback_ok

def logs (num : Numerics F) (cs : List (Candle F)) : List F := cs.map fun c ↦ num.log c.close

def lastLabel (num : Numerics F) (config : RegimeConfig F) (cs : List (Candle F)) : Option State :=
  if cs.length ≤ firstLabelled config then none
  else
    match lastAdx config.adxPeriod cs, lastDirectional plusDm config.adxPeriod cs,
      lastDirectional minusDm config.adxPeriod cs with
    | some adx, some plusDi, some minusDi =>
      some (label config adx (slopePerBar num (lastN config.lookback (logs num cs))) plusDi minusDi)
    | _, _, _ => none

theorem logWindow_last (h : config.lookback ≤ cs.length + 1) :
    logWindow num config (cs ++ [c]) cs.length = lastN config.lookback (logs num (cs ++ [c])) := by
  rw [logWindow, window, lastN, logs, length_map, length_append, length_singleton]
  rw [take_of_length_le]
  rw [length_drop, length_map, length_append, length_singleton]
  omega

theorem logWindow_concat {i : Nat} (hi : i < cs.length) (h : config.lookback ≤ i + 1) :
    logWindow num config (cs ++ [c]) i = logWindow num config cs i := by
  rw [logWindow, logWindow, map_append, ← window_take (t := cs.length) (by omega),
    take_left' (length_map _)]

theorem labelAt_concat {i : Nat} (hi : i < cs.length) :
    labelAt num config (cs ++ [c]) i = labelAt num config cs i := by
  have hp := period_pos config
  unfold labelAt
  by_cases hwarm : i < firstLabelled config
  · rw [if_pos hwarm, if_pos hwarm]
  · rw [if_neg hwarm, if_neg hwarm]
    have hlookback : config.lookback ≤ i + 1 := by
      unfold firstLabelled at hwarm
      omega
    have hadx : (adxAndDi (cs ++ [c]) config.adxPeriod).adx[i]? =
        (adxAndDi cs config.adxPeriod).adx[i]? := by
      rw [adx_concat hp, getElem?_append_left (by rw [length_adx hp]; exact hi)]
    have hdi (f : Option (Candle F) → Candle F → F) :
        (directionals f config.adxPeriod (cs ++ [c]))[i]? =
          (directionals f config.adxPeriod cs)[i]? := by
      rw [directionals_concat hp,
        getElem?_append_left (by rw [length_directionals hp]; exact hi)]
    dsimp only
    rw [hadx, logWindow_concat hi hlookback]
    simp only [adxAndDi, hdi]

theorem labelAt_last :
    labelAt num config (cs ++ [c]) cs.length = lastLabel num config (cs ++ [c]) := by
  have hp := period_pos config
  unfold labelAt lastLabel
  rw [length_append, length_singleton]
  by_cases hwarm : cs.length < firstLabelled config
  · rw [if_pos hwarm, if_pos (Nat.succ_le_of_lt hwarm)]
  · rw [if_neg hwarm, if_neg (mt Nat.lt_of_succ_le hwarm)]
    have hlookback : config.lookback ≤ cs.length + 1 := by
      unfold firstLabelled at hwarm
      omega
    have hadx : (adxAndDi (cs ++ [c]) config.adxPeriod).adx[cs.length]? =
        some (lastAdx config.adxPeriod (cs ++ [c])) := by
      rw [adx_concat hp, ← length_adx hp cs, getElem?_concat_length]
    have hdi (f : Option (Candle F) → Candle F → F) :
        (directionals f config.adxPeriod (cs ++ [c]))[cs.length]? =
          some (lastDirectional f config.adxPeriod (cs ++ [c])) := by
      rw [directionals_concat hp, ← length_directionals hp f cs,
        getElem?_concat_length]
    dsimp only
    rw [hadx, logWindow_last hlookback]
    simp only [adxAndDi, hdi]
    rfl

theorem labels_concat :
    labels num config (cs ++ [c]) = labels num config cs ++ [lastLabel num config (cs ++ [c])] := by
  rw [labels, labels, length_append, length_singleton, range_succ, map_append,
    map_singleton, labelAt_last]
  congr 1
  exact map_congr_left fun i hi ↦ labelAt_concat (mem_range.mp hi)

theorem length_labels (num : Numerics F) (config : RegimeConfig F) (cs : List (Candle F)) :
    (labels num config cs).length = cs.length := by
  rw [labels, length_map, length_range]

end Series

end Qros.Orchestration.Regime
