import Qros.Orchestration.VectorizedBacktest

/-!
# What a signal score depends on

`windowScore` is the score of the last bar of a window of `lookback + 1` bars, and
both pipelines of the source roll it along the series: `causalSignalScore_eq` for
any lookback, `gridScore_eq` for a lookback shorter than the series.  That a
score does not look ahead is then a fact about rolling functions.

A lookback as long as the series is where the two part.  `_causal_signal_score`
returns an array of `nan`; in `run_grid` the roles of the two arguments of
`np.convolve` are swapped and its result does not fit the slice it is assigned to.
-/

namespace Qros.Orchestration

open Qros.Lib List
open NumpyFloat (nan nanToNum dot)

set_option linter.unusedSectionVars false

variable {F : Type} [NumpyFloat F] [Zero F] [One F] [Sub F] [Div F] [LT F] [DecidableLT F]

/-! ## Arrays -/

section

variable {a v : List F}

theorem convolveValid_eq (hv : 0 < v.length) (hle : v.length ≤ a.length) :
    convolveValid a v = .ok ((windows v.length a).map fun w ↦ dot w v.reverse) := by
  unfold convolveValid
  rw [if_neg (by omega)]
  show (if a.length = 0 then _ else if v.length = 0 then _ else _) = _
  rw [if_neg (by omega), if_neg (by omega)]

theorem convolveValid_swap (ha : 0 < a.length) (hlt : a.length < v.length) :
    convolveValid a v = .ok ((windows a.length v).map fun w ↦ dot w a.reverse) := by
  unfold convolveValid
  rw [if_pos hlt]
  show (if v.length = 0 then _ else if a.length = 0 then _ else _) = _
  rw [if_neg (by omega), if_neg (by omega)]

@[simp]
theorem length_ones (k : Nat) : (ones k : List F).length = k := length_replicate

theorem assignFrom_eq {k : Nat} {ys xs : List F} (h : ys.length = xs.length - k) :
    assignFrom k ys xs = .ok (xs.take k ++ ys) := if_pos h

theorem assignFrom_ne_ok {k : Nat} {ys xs zs : List F} (hk : xs.length ≤ k) (h : 2 ≤ ys.length) :
    assignFrom k ys xs ≠ .ok zs := by
  unfold assignFrom
  rw [if_neg (by omega)]
  match ys, h with
  | _ :: _ :: _, _ => exact nofun

@[simp]
theorem length_closeMoves (close : List F) (k : Nat) :
    (closeMoves close k).length = close.length - k := by
  rw [closeMoves, length_zipWith, length_drop, List.rdrop, length_take]
  omega

theorem getElem?_closeMoves {close : List F} {k j : Nat} {x y : F} (hx : close[j]? = some x)
    (hy : close[j + k]? = some y) : (closeMoves close k)[j]? = some (y - x) := by
  have hlt : j + k < close.length := (List.getElem?_eq_some_iff.mp hy).1
  rw [closeMoves, getElem?_zipWith, getElem?_drop, Nat.add_comm k, hy, List.rdrop,
    List.getElem?_take, if_pos (by omega), hx]

end

/-! ## The mean of the ATRs -/

def windowScale (atrs : List F) : F :=
  dot (atrs.map nanToNum) (ones atrs.length).reverse /
    positiveOrNan (dot (atrs.map fun x ↦ if NumpyFloat.isfinite x then (1 : F) else 0)
      (ones atrs.length).reverse)

theorem priorScale_eq {atr : List F} {k : Nat} (hk : 0 < k) (hlt : k < atr.length) :
    priorScale atr k = .ok ((windows k (atr.rdrop 1)).map windowScale) := by
  have hlen : (atr.rdrop 1).length = atr.length - 1 := by
    rw [List.rdrop, length_take]
    omega
  dsimp only [priorScale]
  rw [convolveValid_eq (by simpa using hk) (by simp only [length_ones, length_map]; omega),
    convolveValid_eq (by simpa using hk) (by simp only [length_ones, length_map]; omega)]
  show Except.ok _ = _
  congr 1
  apply ext_getElem?
  intro i
  simp only [getElem?_zipWith, getElem?_map, getElem?_windows, length_ones,
    length_map, window_map, map_map]
  by_cases hi : i < (atr.rdrop 1).length + 1 - k
  · have hwin : (window k (atr.rdrop 1) i).length = k := by
      rw [length_window]
      omega
    simp only [if_pos hi, Option.map_some, windowScale, hwin]
    rfl
  · simp only [if_neg hi, Option.map_none]

theorem length_priorScale_of_long {atr scale : List F} {k : Nat} (hn : 2 ≤ atr.length)
    (hle : atr.length ≤ k) (h : priorScale atr k = .ok scale) : 2 ≤ scale.length := by
  have hlen : (atr.rdrop 1).length = atr.length - 1 := by
    rw [List.rdrop, length_take]
    omega
  dsimp only [priorScale] at h
  rw [convolveValid_swap (by rw [length_map]; omega)
      (by rw [length_map, length_ones]; omega),
    convolveValid_swap (by rw [length_map, length_map]; omega)
      (by rw [length_map, length_map, length_ones]; omega)] at h
  cases h
  simp only [length_zipWith, length_map, length_windows, length_ones]
  omega

/-! ## The score of a window -/

def scoreBars (close atr : List F) (timestamps : List Int) : List (F × F × Int) :=
  close.zip (atr.zip timestamps)

/-- The move over a window by the mean of the ATRs before its last bar, unless there is a gap. -/
def windowScore (bars : List (F × F × Int)) : F :=
  match (bars.map fun b ↦ b.1).head?, (bars.map fun b ↦ b.1).getLast? with
  | some first, some last =>
    if (bars.map fun b ↦ b.2.2).IsChain Follows then
      (last - first) / positiveOrNan (windowScale (bars.map fun b ↦ b.2.1).dropLast)
    else nan
  | _, _ => nan

def scores (close atr : List F) (timestamps : List Int) (lookback : Nat) : List F :=
  rolling (lookback + 1) nan windowScore (scoreBars close atr timestamps)

section Scores

variable {close atr : List F} {timestamps : List Int} {k : Nat}

theorem take_scoreBars (t : Nat) : (scoreBars close atr timestamps).take t =
    scoreBars (close.take t) (atr.take t) (timestamps.take t) := by
  rw [scoreBars, List.zip, take_zipWith, List.zip, take_zipWith]
  rfl

theorem take_scores (t : Nat) : (scores close atr timestamps k).take t =
    scores (close.take t) (atr.take t) (timestamps.take t) k := by
  rw [scores, take_rolling (Nat.succ_pos k), take_scoreBars]
  rfl

theorem window_scoreBars {j : Nat} : window k (scoreBars close atr timestamps) j =
    scoreBars (window k close j) (window k atr j) (window k timestamps j) := by
  rw [scoreBars, List.zip, window_zipWith, List.zip, window_zipWith]
  rfl

section Lengths

variable (hatr : close.length = atr.length) (hts : atr.length = timestamps.length)

include hatr hts

theorem length_scoreBars : (scoreBars close atr timestamps).length = close.length := by
  rw [scoreBars, length_zip, length_zip]
  omega

theorem closes_scoreBars : (scoreBars close atr timestamps).map (fun b ↦ b.1) = close :=
  map_fst_zip (by rw [length_zip]; omega)

theorem atrs_scoreBars : (scoreBars close atr timestamps).map (fun b ↦ b.2.1) = atr := by
  have hsnd : (scoreBars close atr timestamps).map (fun b ↦ b.2) = atr.zip timestamps :=
    map_snd_zip (by rw [length_zip]; omega)
  have := congrArg (List.map Prod.fst) hsnd
  rw [map_map, map_fst_zip (by omega)] at this
  exact this

theorem timestamps_scoreBars :
    (scoreBars close atr timestamps).map (fun b ↦ b.2.2) = timestamps := by
  have hsnd : (scoreBars close atr timestamps).map (fun b ↦ b.2) = atr.zip timestamps :=
    map_snd_zip (by rw [length_zip]; omega)
  have := congrArg (List.map Prod.snd) hsnd
  rw [map_map, map_snd_zip (by omega)] at this
  exact this

theorem windowScore_window {j : Nat} {x y : F} (hx : close[j]? = some x)
    (hy : close[j + k]? = some y) :
    windowScore (window (k + 1) (scoreBars close atr timestamps) j) =
      if (window (k + 1) timestamps j).IsChain Follows then
        (y - x) / positiveOrNan (windowScale (window k atr j))
      else nan := by
  have hlt : j + k < close.length := (List.getElem?_eq_some_iff.mp hy).1
  have hclose : (window (k + 1) close j).length = k + 1 := by
    rw [length_window]
    omega
  have hwatr : (window (k + 1) close j).length = (window (k + 1) atr j).length := by
    rw [length_window, length_window, hatr]
  have hwts : (window (k + 1) atr j).length = (window (k + 1) timestamps j).length := by
    rw [length_window, length_window, hts]
  have hhead : (window (k + 1) close j).head? = some x := by
    rw [head?_eq_getElem?, window, List.getElem?_take, if_pos (Nat.succ_pos k),
      getElem?_drop, Nat.add_zero, hx]
  have hlast : (window (k + 1) close j).getLast? = some y := by
    rw [getLast?_eq_getElem?, hclose, Nat.add_sub_cancel, window, List.getElem?_take,
      if_pos (Nat.lt_succ_self k), getElem?_drop, hy]
  unfold windowScore
  rw [window_scoreBars, closes_scoreBars hwatr hwts, atrs_scoreBars hwatr hwts,
    timestamps_scoreBars hwatr hwts, hhead, hlast, dropLast_window (by omega)]

theorem getElem?_quotient {j : Nat} {x y : F} (hx : close[j]? = some x)
    (hy : close[j + k]? = some y) :
    (List.zipWith (· / ·) (closeMoves close k)
      (((windows k (atr.rdrop 1)).map windowScale).map positiveOrNan))[j]? =
      some ((y - x) / positiveOrNan (windowScale (window k atr j))) := by
  have hlt : j + k < close.length := (List.getElem?_eq_some_iff.mp hy).1
  have hlen : (atr.rdrop 1).length = atr.length - 1 := by
    rw [List.rdrop, length_take]
    omega
  rw [getElem?_zipWith, getElem?_closeMoves hx hy, getElem?_map, getElem?_map,
    getElem?_windows, if_pos (by omega), List.rdrop, window_take (by omega)]
  rfl

theorem getElem?_crossesGap {j : Nat} (h : j + k < close.length) :
    (crossesGap (gapPrefix timestamps) close.length k)[j + k]? =
      some (decide (¬ (window (k + 1) timestamps j).IsChain Follows)) := by
  have hne : timestamps ≠ [] := by
    rintro rfl
    rw [length_nil] at hts
    omega
  rw [crossesGap, getElem?_map, getElem?_range h, Option.map_some,
    Nat.add_sub_cancel]
  congr 1
  rw [decide_eq_decide, gapPrefix, ← mem_window_breaks_iff]
  exact countsTo_lt_iff (by rw [length_breaks hne]; omega)

theorem maskNan_eq :
    maskNan (crossesGap (gapPrefix timestamps) close.length k)
      (List.replicate k nan ++ List.zipWith (· / ·) (closeMoves close k)
        (((windows k (atr.rdrop 1)).map windowScale).map positiveOrNan)) =
      scores close atr timestamps k := by
  apply ext_getElem?
  intro i
  rw [maskNan, getElem?_zipWith, scores, getElem?_rolling (Nat.succ_pos k),
    length_scoreBars hatr hts]
  by_cases hi : i < close.length
  · rw [if_pos hi]
    by_cases hpad : i < k
    · rw [if_pos (by omega), getElem?_append_left (by rwa [length_replicate]),
        getElem?_replicate, if_pos hpad, crossesGap, getElem?_map, getElem?_range hi]
      exact congrArg some (ite_self nan)
    · obtain ⟨j, rfl⟩ := Nat.exists_eq_add_of_le' (Nat.le_of_not_lt hpad)
      have hx := getElem?_eq_getElem (show j < close.length by omega)
      have hy := getElem?_eq_getElem hi
      have hsub : j + k + 1 - (k + 1) = j := by omega
      rw [if_neg (by omega), getElem?_append_right (by rw [length_replicate]; omega),
        length_replicate, Nat.add_sub_cancel, getElem?_quotient hatr hts hx hy,
        getElem?_crossesGap hatr hts hi, hsub, windowScore_window hatr hts hx hy]
      by_cases hchain : (window (k + 1) timestamps j).IsChain Follows
      · simp [hchain]
      · simp [hchain]
  · rw [if_neg hi, crossesGap, getElem?_map,
      getElem?_eq_none (by rw [length_range]; omega)]
    rfl

end Lengths

end Scores

/-! ## The two pipelines -/

section

variable {close atr : List F} {timestamps : List Int} {lookback : Int}

theorem scores_of_short {k : Nat} (hatr : close.length = atr.length)
    (hts : atr.length = timestamps.length) (hle : close.length ≤ k) :
    scores close atr timestamps k = List.replicate close.length nan := by
  have hnone : close.length + 1 - (k + 1) = 0 := by omega
  rw [scores, rolling, windows, length_scoreBars hatr hts, Nat.add_sub_cancel, Nat.min_eq_right hle,
    hnone]
  exact append_nil _

theorem causalSignalScore_eq (hlookback : 1 ≤ lookback) (hatr : close.length = atr.length)
    (hts : atr.length = timestamps.length) :
    causalSignalScore close atr timestamps lookback =
      .ok (scores close atr timestamps lookback.toNat) := by
  dsimp only [causalSignalScore]
  rw [require, if_pos hlookback, require, if_pos ⟨hatr, hts⟩]
  show (if close.length ≤ lookback.toNat then _ else _ : Except String (List F)) = _
  by_cases hle : close.length ≤ lookback.toNat
  · rw [if_pos hle, scores_of_short hatr hts hle]
    rfl
  · have hlen : (atr.rdrop 1).length = atr.length - 1 := by
      rw [List.rdrop, length_take]
      omega
    rw [if_neg hle, priorScale_eq (by omega) (by omega)]
    show (assignFrom _ _ _ >>= _) = _
    rw [assignFrom_eq (by
      simp only [length_zipWith, length_closeMoves, length_map, length_windows,
        length_replicate]
      omega)]
    show Except.ok _ = _
    rw [take_replicate, Nat.min_eq_left (by omega), maskNan_eq hatr hts]

theorem gridScore_eq [LawfulNumpyFloat F] (hlookback : 1 ≤ lookback)
    (hlt : lookback < close.length) (hatr : close.length = atr.length)
    (hts : atr.length = timestamps.length) :
    gridScore close atr (gapPrefix timestamps) lookback =
      .ok (scores close atr timestamps lookback.toNat) := by
  have hlen : (atr.rdrop 1).length = atr.length - 1 := by
    rw [List.rdrop, length_take]
    omega
  dsimp only [gridScore]
  rw [assignFrom_eq (by rw [length_closeMoves, length_replicate]),
    priorScale_eq (by omega) (by omega)]
  show (assignFrom _ _ _ >>= _) = _
  rw [assignFrom_eq (by
    simp only [length_map, length_windows, length_replicate]
    omega)]
  show Except.ok _ = _
  -- in front of the lookback both arrays are `nan`, and so is their quotient
  rw [take_replicate, Nat.min_eq_left (by omega), map_append, zipWith_append
    (by simp), map_replicate, zipWith_replicate, Nat.min_self,
    LawfulNumpyFloat.nan_div, maskNan_eq hatr hts]

theorem gridScore_ne_ok {s : List F} {gaps : List Int} (hn : 2 ≤ close.length)
    (hatr : close.length = atr.length) (hle : close.length ≤ lookback.toNat) :
    gridScore close atr gaps lookback ≠ .ok s := by
  intro h
  dsimp only [gridScore] at h
  obtain ⟨move, _, h⟩ := bind_eq_ok.mp h
  obtain ⟨scale, hscale, h⟩ := bind_eq_ok.mp h
  obtain ⟨scale', hassign, h⟩ := bind_eq_ok.mp h
  exact assignFrom_ne_ok (by rwa [length_replicate])
    (length_priorScale_of_long (by omega) (by omega) hscale) hassign

end

end Qros.Orchestration
