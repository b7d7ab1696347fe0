import Mathlib.Algebra.Order.BigOperators.Group.List
import Qros.Quant.Market.Container

/-!
# Aggregation of candles

`include/quant/market/timeframe_aggregator.h`, `src/market/timeframe_aggregator.cpp`.
The candles are grouped by their position in the series, and the group is stamped
with the start of the interval its first candle falls into.
-/

universe u

namespace Qros.Quant

open Qros.Lib List

/-- `std::chrono::seconds`, in the nanoseconds of a `TimePoint`. -/
def seconds (n : Int) : Int := n * 1000000000

/-- `align_timestamp`; the divisions of the source cut off towards zero. -/
def alignTimestamp (tp : TimePoint) (minutes : Int) : TimePoint :=
  let secs := toSeconds tp
  let periodSecs := minutes * 60
  if periodSecs ≤ 0 then tp else seconds (secs.tdiv periodSecs * periodSecs)

def minutesBetween (fromTf toTf : Timeframe) : Int :=
  let fromMin := timeframeMinutes fromTf
  let toMin := timeframeMinutes toTf
  if fromMin = 0 ∨ toMin < fromMin then 0
  else if toMin.tmod fromMin ≠ 0 then 0
  else toMin.tdiv fromMin

section Aggregate

variable {F : Type u} [Zero F] [LT F] [DecidableLT F] [Add F] [Mul F] [Div F] [OfNat F 3]

/-- The body of the loop of `aggregate_impl`, for the candles from `i` to `end`. -/
def aggregateChunk (cs : List (Candle F)) : Candle F :=
  let first := cs.headD default
  let volume := cs.foldl (fun v c ↦ v + c.volume) 0
  let vwapNumer := cs.foldl (fun v c ↦ v + (c.high + c.low + c.close) / 3 * c.volume) 0
  { timestamp := first.timestamp
    «open» := first.open
    high := cs.foldl (fun h c ↦ stdMax h c.high) first.high
    low := cs.foldl (fun l c ↦ stdMin l c.low) first.low
    close := (cs.getLastD default).close
    volume := volume
    tradeCount := cs.foldl (fun n c ↦ n + c.tradeCount) 0
    vwap := if 0 < volume then vwapNumer / volume else 0
    timeframe := first.timeframe }

def aggregateImpl (cs : List (Candle F)) (chunkSize : Nat) : List (Candle F) :=
  (chunks chunkSize cs).map aggregateChunk

variable [LE F] [DecidableLE F]

def aggregate (source : OHLCVContainer F) (targetTf : Timeframe) : Result (OHLCVContainer F) :=
  if source.candles = [] then
    .error ⟨.insufficientData, "source container is empty"⟩
  else
    let factor := (minutesBetween source.timeframe targetTf).toNat
    if factor = 0 then
      .error ⟨.invalidArgument, "cannot aggregate " ++ String.ofList (timeframeName source.timeframe) ++
        " -> " ++ String.ofList (timeframeName targetTf)⟩
    else
      let aggregated := (aggregateImpl source.candles factor).map fun c ↦
        { c with
          timestamp := alignTimestamp c.timestamp (timeframeMinutes targetTf)
          timeframe := targetTf }
      (OHLCVContainer.new source.symbol targetTf).appendBatch aggregated

end Aggregate

/-! ## Intervals -/

def period (tf : Timeframe) : Int := minutes (timeframeMinutes tf)

theorem period_pos (tf : Timeframe) : 0 < period tf := by
  have := timeframeMinutes_pos tf
  unfold period minutes
  omega

theorem tdiv_tdiv {a b : Int} (ha : 0 ≤ a) (t : Int) :
    (t.tdiv a).tdiv b = t.tdiv (a * b) := by
  have hnonneg : ∀ u : Int, 0 ≤ u → (u.tdiv a).tdiv b = u.tdiv (a * b) := by
    intro u hu
    rw [Int.tdiv_eq_ediv_of_nonneg hu, Int.tdiv_eq_ediv_of_nonneg (Int.ediv_nonneg hu ha),
      Int.tdiv_eq_ediv_of_nonneg hu, Int.ediv_ediv_of_nonneg ha]
  rcases Int.le_total 0 t with ht | ht
  · exact hnonneg t ht
  · have h := hnonneg (-t) (by omega)
    rw [Int.neg_tdiv, Int.neg_tdiv, Int.neg_tdiv] at h
    exact Int.neg_inj.mp h

theorem alignTimestamp_eq (tp : TimePoint) (tf : Timeframe) :
    alignTimestamp tp (timeframeMinutes tf) = tp.tdiv (period tf) * period tf := by
  have hpos := timeframeMinutes_pos tf
  have hperiod : period tf = 1000000000 * (timeframeMinutes tf * 60) := by
    unfold period minutes
    omega
  rw [alignTimestamp, if_neg (by omega), toSeconds, seconds, tdiv_tdiv (by omega), ← hperiod, hperiod]
  ring

/-- Cutting off towards zero gives the start of the interval from the epoch on, and before it
only at the start itself. -/
theorem tdiv_mul_le_iff {t d : Int} (hd : 0 < d) : t.tdiv d * d ≤ t ↔ 0 ≤ t ∨ d ∣ t := by
  rw [Int.tdiv_eq_ediv, Int.sign_eq_one_of_pos hd]
  have hsplit := Int.mul_ediv_add_emod t d
  have hnonneg := Int.emod_nonneg t hd.ne'
  have hlt := Int.emod_lt_of_pos t hd
  have hcomm := mul_comm (t / d) d
  split
  · exact iff_of_true (by rw [add_zero]; omega) ‹_›
  · refine iff_of_false ?_ ‹_›
    rw [add_mul, one_mul]
    omega

theorem tdiv_eq_of_le {t d : Int} (h : 0 ≤ t ∨ d ∣ t) : t.tdiv d = t / d := by
  rw [Int.tdiv_eq_ediv, if_pos h, add_zero]

theorem mem_interval_iff {q t d : Int} (hd : 0 < d) : q * d ≤ t ∧ t < q * d + d ↔ t / d = q := by
  rw [Int.ediv_eq_iff_of_pos hd]

/-- The time stamps `ts` are in step with the intervals of length `d`: counted from the first,
a time stamp is in another interval than the one before it just at the multiples of `k`, and
those before the epoch are starts of intervals. -/
structure InStep (k : Nat) (d : Int) (ts : List Int) : Prop where
  starts : ∀ i (_ : i < ts.length), k ∣ i → 0 ≤ ts[i] ∨ d ∣ ts[i]
  changes : ∀ i (_ : i + 1 < ts.length), k ∣ i + 1 ↔ ts[i] / d ≠ ts[i + 1] / d

section InStep

variable {k : Nat} {d : Int} {ts : List Int}

instance : Decidable (InStep k d ts) :=
  decidable_of_iff
    ((∀ i < ts.length, k ∣ i → 0 ≤ ts.getD i 0 ∨ d ∣ ts.getD i 0) ∧
      ∀ i < ts.length - 1, k ∣ i + 1 ↔ ts.getD i 0 / d ≠ ts.getD (i + 1) 0 / d) <| by
    constructor
    · rintro ⟨hstarts, hchanges⟩
      refine ⟨fun i hi ↦ ?_, fun i hi ↦ ?_⟩
      · simpa [hi] using hstarts i hi
      · simpa [hi, Nat.lt_of_succ_lt hi] using hchanges i (by omega)
    · rintro ⟨hstarts, hchanges⟩
      refine ⟨fun i hi ↦ ?_, fun i hi ↦ ?_⟩
      · simpa [hi] using hstarts i hi
      · have hi : i + 1 < ts.length := by omega
        simpa [hi, Nat.lt_of_succ_lt hi] using hchanges i hi

variable {i i' : Nat}

theorem quotient_mono (hts : ts.Pairwise (· < ·)) (hd : 0 < d) (hle : i ≤ i')
    (hi' : i' < ts.length) : ts[i] / d ≤ ts[i'] / d := by
  rcases Nat.eq_or_lt_of_le hle with rfl | hlt
  · exact le_rfl
  · exact Int.ediv_le_ediv hd (pairwise_iff_getElem.mp hts i i' (hlt.trans hi') hi' hlt).le

theorem InStep.quotient_eq (h : InStep k d ts) (hle : i ≤ i') (hi' : i' < ts.length)
    (hsame : i / k = i' / k) : ts[i] / d = ts[i'] / d := by
  induction i', hle using Nat.le_induction with
  | base => rfl
  | succ m hm ih =>
    have hmid : i / k = m / k :=
      le_antisymm (Nat.div_le_div_right hm) (hsame ▸ Nat.div_le_div_right (Nat.le_succ m))
    have hdvd : ¬ k ∣ m + 1 := by
      intro hdvd
      have := Nat.succ_div_of_dvd hdvd
      omega
    exact (ih (by omega) hmid).trans (not_not.mp ((h.changes m hi').not.mp hdvd))

theorem InStep.quotient_lt (h : InStep k d ts) (hts : ts.Pairwise (· < ·)) (hd : 0 < d)
    (hk : 0 < k) (hi : i < ts.length) (hi' : i' < ts.length) (hlt : i / k < i' / k) :
    ts[i] / d < ts[i'] / d := by
  -- The chunk of `i'` starts at a multiple of `k` beyond `i`.
  obtain ⟨m, hm⟩ : ∃ m, i' / k * k = m + 1 :=
    Nat.exists_eq_succ_of_ne_zero (Nat.mul_ne_zero (Nat.ne_zero_of_lt hlt) hk.ne')
  have him : i ≤ m := by
    have := (Nat.div_lt_iff_lt_mul hk).mp hlt
    omega
  have hmi' : m + 1 ≤ i' := hm ▸ Nat.div_mul_le_self i' k
  have hchange := (h.changes m (by omega)).mp ⟨i' / k, by rw [← hm, Nat.mul_comm]⟩
  calc ts[i] / d ≤ ts[m] / d := quotient_mono hts hd him (by omega)
    _ < ts[m + 1] / d := lt_of_le_of_ne (quotient_mono hts hd (Nat.le_succ m) (by omega)) hchange
    _ ≤ ts[i'] / d := quotient_mono hts hd hmi' hi'

theorem InStep.quotient_eq_iff (h : InStep k d ts) (hts : ts.Pairwise (· < ·)) (hd : 0 < d)
    (hk : 0 < k) (hi : i < ts.length) (hi' : i' < ts.length) :
    ts[i] / d = ts[i'] / d ↔ i / k = i' / k := by
  constructor
  · intro heq
    by_contra hne
    rcases Nat.lt_or_gt_of_ne hne with hlt | hlt
    · exact absurd heq (h.quotient_lt hts hd hk hi hi' hlt).ne
    · exact absurd heq (h.quotient_lt hts hd hk hi' hi hlt).ne'
  · intro heq
    rcases Nat.le_total i i' with hle | hle
    · exact h.quotient_eq hle hi' heq
    · exact (h.quotient_eq hle hi heq.symm).symm

/-- Time stamps are in step just when each interval, as it is aligned for the first time stamp
of a chunk, has the time stamps of that chunk. -/
theorem inStep_iff (hts : ts.Pairwise (· < ·)) (hd : 0 < d) (hk : 0 < k) :
    InStep k d ts ↔ ∀ j (hj : j * k < ts.length) i (hi : i < ts.length),
      (ts[j * k].tdiv d * d ≤ ts[i] ∧ ts[i] < ts[j * k].tdiv d * d + d) ↔ i / k = j := by
  constructor
  · intro h j hj i hi
    rw [tdiv_eq_of_le (h.starts _ hj (Nat.dvd_mul_left k j)), mem_interval_iff hd,
      h.quotient_eq_iff hts hd hk hi hj, Nat.mul_div_cancel j hk]
  · intro h
    refine ⟨fun i hi ⟨j, hj⟩ ↦ ?_, fun i hi ↦ ?_⟩
    · obtain rfl : i = j * k := by rw [hj, Nat.mul_comm]
      exact (tdiv_mul_le_iff hd).mp ((h j hi _ hi).mpr (Nat.mul_div_cancel j hk)).1
    · have hj : i / k * k < ts.length := (Nat.div_mul_le_self i k).trans_lt (by omega)
      have hnow := (mem_interval_iff hd).mp ((h (i / k) hj i (by omega)).mpr rfl)
      have hnext := h (i / k) hj (i + 1) hi
      rw [mem_interval_iff hd, ← hnow, Nat.succ_div] at hnext
      split at hnext
      · exact iff_of_true ‹_› fun heq ↦ by have := hnext.mp heq.symm; omega
      · exact iff_of_false ‹_› (not_not.mpr (hnext.mpr (by omega)).symm)

end InStep

/-! ## What an aggregated candle says -/

section

variable {F : Type u} [LinearOrder F]

theorem foldl_stdMax_spec {α : Type u} (f : α → F) (h : F) (cs : List α) :
    h ≤ cs.foldl (fun h c ↦ stdMax h (f c)) h ∧
      (∀ c ∈ cs, f c ≤ cs.foldl (fun h c ↦ stdMax h (f c)) h) ∧
      (cs.foldl (fun h c ↦ stdMax h (f c)) h = h ∨
        ∃ c ∈ cs, f c = cs.foldl (fun h c ↦ stdMax h (f c)) h) := by
  induction cs generalizing h with
  | nil => exact ⟨le_rfl, by simp, .inl rfl⟩
  | cons c cs ih =>
    rw [foldl_cons, stdMax_eq_max]
    obtain ⟨hge, hall, hattained⟩ := ih (max h (f c))
    refine ⟨(le_max_left _ _).trans hge, fun c' hc' ↦ ?_, ?_⟩
    · rcases mem_cons.mp hc' with rfl | hc'
      · exact (le_max_right _ _).trans hge
      · exact hall c' hc'
    · rcases hattained with heq | ⟨c', hc', heq⟩
      · rcases max_choice h (f c) with hmax | hmax
        · exact .inl (heq.trans hmax)
        · exact .inr ⟨c, mem_cons_self, (heq.trans hmax).symm⟩
      · exact .inr ⟨c', mem_cons_of_mem c hc', heq⟩

theorem foldl_stdMin_spec {α : Type u} (f : α → F) (l : F) (cs : List α) :
    cs.foldl (fun l c ↦ stdMin l (f c)) l ≤ l ∧
      (∀ c ∈ cs, cs.foldl (fun l c ↦ stdMin l (f c)) l ≤ f c) ∧
      (cs.foldl (fun l c ↦ stdMin l (f c)) l = l ∨
        ∃ c ∈ cs, f c = cs.foldl (fun l c ↦ stdMin l (f c)) l) := by
  induction cs generalizing l with
  | nil => exact ⟨le_rfl, by simp, .inl rfl⟩
  | cons c cs ih =>
    rw [foldl_cons, stdMin_eq_min]
    obtain ⟨hle, hall, hattained⟩ := ih (min l (f c))
    refine ⟨hle.trans (min_le_left _ _), fun c' hc' ↦ ?_, ?_⟩
    · rcases mem_cons.mp hc' with rfl | hc'
      · exact hle.trans (min_le_right _ _)
      · exact hall c' hc'
    · rcases hattained with heq | ⟨c', hc', heq⟩
      · rcases min_choice l (f c) with hmin | hmin
        · exact .inl (heq.trans hmin)
        · exact .inr ⟨c, mem_cons_self, (heq.trans hmin).symm⟩
      · exact .inr ⟨c', mem_cons_of_mem c hc', heq⟩

end

theorem foldl_volume {F : Type u} [Field F] (cs : List (Candle F)) :
    cs.foldl (fun v c ↦ v + c.volume) 0 = (cs.map Candle.volume).sum := by
  rw [sum_eq_foldl, foldl_map]

section Summary

variable {F : Type u} [Field F] [LinearOrder F]

/-- The prices and the volume of `a` are those of the candles `cs` taken together. -/
structure Summarises (a : Candle F) (cs : List (Candle F)) : Prop where
  opens : cs.head?.map Candle.open = some a.open
  highest : (∀ c ∈ cs, c.high ≤ a.high) ∧ ∃ c ∈ cs, c.high = a.high
  lowest : (∀ c ∈ cs, a.low ≤ c.low) ∧ ∃ c ∈ cs, c.low = a.low
  closes : cs.getLast?.map Candle.close = some a.close
  volume : a.volume = (cs.map Candle.volume).sum

theorem aggregateChunk_summarises {cs : List (Candle F)} (hne : cs ≠ []) :
    Summarises (aggregateChunk cs) cs := by
  obtain ⟨first, rest, rfl⟩ := exists_cons_of_ne_nil hne
  obtain ⟨-, hmax, hmax'⟩ := foldl_stdMax_spec Candle.high first.high (first :: rest)
  obtain ⟨-, hmin, hmin'⟩ := foldl_stdMin_spec Candle.low first.low (first :: rest)
  refine ⟨rfl, ⟨hmax, ?_⟩, ⟨hmin, ?_⟩, ?_, foldl_volume (first :: rest)⟩
  · exact hmax'.elim (fun heq ↦ ⟨first, mem_cons_self, heq.symm⟩) id
  · exact hmin'.elim (fun heq ↦ ⟨first, mem_cons_self, heq.symm⟩) id
  · change _ = some ((first :: rest).getLastD default).close
    rw [getLastD_eq_getLast?, getLast?_cons]
    rfl

variable [IsStrictOrderedRing F]

theorem aggregateChunk_valid {cs : List (Candle F)} (hne : cs ≠ [])
    (hvalid : ∀ c ∈ cs, c.isValid = true) : (aggregateChunk cs).isValid = true := by
  obtain ⟨hopen, ⟨hhigh, -⟩, ⟨hlow, -⟩, hclose, hvolume⟩ := aggregateChunk_summarises hne
  obtain ⟨first, hfirst, hopen⟩ := Option.map_eq_some_iff.mp hopen
  obtain ⟨last, hlast, hclose⟩ := Option.map_eq_some_iff.mp hclose
  have hmem := mem_of_head? hfirst
  have hmem' := mem_of_getLast? hlast
  have hf := hvalid first hmem
  have hl := hvalid last hmem'
  simp only [Candle.isValid, Bool.and_eq_true, Bool.or_eq_true, decide_eq_true_eq] at hf hl ⊢
  obtain ⟨⟨⟨⟨⟨⟨hf₁, hf₂⟩, hf₃⟩, hf₄⟩, hf₅⟩, hf₆⟩, hpos⟩ := hf
  obtain ⟨⟨⟨⟨⟨⟨hl₁, hl₂⟩, hl₃⟩, hl₄⟩, hl₅⟩, hl₆⟩, -⟩ := hl
  have hh := hhigh first hmem
  have hh' := hhigh last hmem'
  have hw := hlow first hmem
  have hw' := hlow last hmem'
  have hvolume : 0 ≤ (aggregateChunk cs).volume := by
    rw [hvolume]
    refine sum_nonneg fun v hv ↦ ?_
    obtain ⟨c, hc, rfl⟩ := mem_map.mp hv
    have := hvalid c hc
    simp only [Candle.isValid, Bool.and_eq_true, decide_eq_true_eq] at this
    exact this.1.2
  rw [← hopen, ← hclose]
  refine ⟨⟨⟨⟨⟨⟨?_, ?_⟩, ?_⟩, ?_⟩, ?_⟩, hvolume⟩, .inl (.inl (.inl ?_))⟩
  · exact hw.trans (hf₁.trans hh)
  · exact hf₂.trans hh
  · exact hl₃.trans hh'
  · exact hw.trans hf₄
  · exact hw'.trans hl₅
  · rcases hpos with ((hpos | hpos) | hpos) | hpos
    · exact hpos.trans_le hh
    · exact hpos.trans_le (hf₁.trans hh)
    · exact hpos.trans_le (hf₂.trans hh)
    · exact hpos.trans_le (hf₃.trans hh)

end Summary

theorem minutesBetween_eq {fromTf toTf : Timeframe}
    (hlt : timeframeMinutes fromTf < timeframeMinutes toTf) :
    minutesBetween fromTf toTf = if timeframeMinutes toTf % timeframeMinutes fromTf = 0 then
      timeframeMinutes toTf / timeframeMinutes fromTf else 0 := by
  have hpos := timeframeMinutes_pos fromTf
  rw [minutesBetween, if_neg (by omega), Int.tmod_eq_emod_of_nonneg (hpos.trans hlt).le,
    Int.tdiv_eq_ediv_of_nonneg (hpos.trans hlt).le, ite_not]

theorem one_le_ratio {fromTf toTf : Timeframe}
    (hlt : timeframeMinutes fromTf < timeframeMinutes toTf) :
    1 ≤ timeframeMinutes toTf / timeframeMinutes fromTf :=
  (Int.le_ediv_iff_mul_le (timeframeMinutes_pos fromTf)).mpr (by omega)

/-! ## When the groups are the intervals -/

section

variable {F : Type u} [Field F] [LinearOrder F]

/-- The source candles each aggregated candle is made of. -/
def contributors (source : OHLCVContainer F) (targetTf : Timeframe) : List (List (Candle F)) :=
  chunks (minutesBetween source.timeframe targetTf).toNat source.candles

def withinInterval (source : OHLCVContainer F) (targetTf : Timeframe) (start : TimePoint) :
    List (Candle F) :=
  source.candles.filter fun c ↦
    decide (start ≤ c.timestamp) && decide (c.timestamp < start + period targetTf)

/-- **Aggregation as it should be**: every source candle contributes to one aggregated candle,
and an aggregated candle summarises exactly the source candles of the interval it is stamped
with. -/
def AggregatesRightly (source : OHLCVContainer F) (targetTf : Timeframe) : Prop :=
  match aggregate source targetTf with
  | .error _ => source.candles = []
  | .ok result =>
    (contributors source targetTf).flatten = source.candles ∧
      List.Forall₂ (fun a group ↦
        group = withinInterval source targetTf a.timestamp ∧ Summarises a group)
        result.candles (contributors source targetTf)

/-- What `aggregate` makes of a chunk. -/
def stamped (targetTf : Timeframe) (cs : List (Candle F)) : Candle F :=
  { aggregateChunk cs with
    timestamp := alignTimestamp (aggregateChunk cs).timestamp (timeframeMinutes targetTf)
    timeframe := targetTf }

variable {source : OHLCVContainer F} {targetTf : Timeframe}

theorem stamped_timestamp {k : Nat} (hk : 0 < k) {j : Nat} (hj : j * k < source.candles.length) :
    (stamped targetTf (chunk k source.candles j)).timestamp =
      (source.candles[j * k].timestamp).tdiv (period targetTf) * period targetTf := by
  change alignTimestamp (((chunk k source.candles j).headD default).timestamp) _ = _
  rw [alignTimestamp_eq, headD_eq_head?_getD, head?_chunk hk, getElem?_eq_getElem hj]
  rfl

theorem groups_iff_inStep (h : Series source.candles) {k : Nat} (hk : 0 < k) :
    List.Forall₂ (fun a group ↦
        group = withinInterval source targetTf a.timestamp ∧ Summarises a group)
        ((chunks k source.candles).map (stamped targetTf)) (chunks k source.candles) ↔
      InStep k (period targetTf) (source.candles.map Candle.timestamp) := by
  have hnodup : source.candles.Nodup := by
    refine h.increasing.imp fun hlt heq ↦ ?_
    rw [heq] at hlt
    exact lt_irrefl _ hlt
  have hts : (source.candles.map Candle.timestamp).Pairwise (· < ·) :=
    pairwise_map.mpr h.increasing
  rw [forall₂_map_left_iff, forall₂_same, inStep_iff hts (period_pos targetTf) hk]
  have hgroup : ∀ j (hj : j * k < source.candles.length),
      (chunk k source.candles j = withinInterval source targetTf
          (stamped targetTf (chunk k source.candles j)).timestamp ∧
        Summarises (stamped targetTf (chunk k source.candles j)) (chunk k source.candles j)) ↔
      ∀ i (hi : i < source.candles.length),
        (source.candles[j * k].timestamp.tdiv (period targetTf) * period targetTf ≤
            source.candles[i].timestamp ∧
          source.candles[i].timestamp <
            source.candles[j * k].timestamp.tdiv (period targetTf) * period targetTf +
              period targetTf) ↔ i / k = j := by
    intro j hj
    obtain ⟨hopens, hhigh, hlow, hclose, hvolume⟩ := aggregateChunk_summarises (chunk_ne_nil hk hj)
    rw [and_iff_left ⟨hopens, hhigh, hlow, hclose, hvolume⟩, withinInterval,
      chunk_eq_filter_iff hk hnodup, stamped_timestamp hk hj]
    simp only [Bool.and_eq_true, decide_eq_true_eq]
  simp only [mem_chunks_iff hk, forall_exists_index, and_imp, length_map, getElem_map]
  constructor
  · intro hall j hj i hi
    exact (hgroup j hj).mp (hall _ j hj rfl) i hi
  · rintro hall group j hj rfl
    exact (hgroup j hj).mpr fun i hi ↦ hall j hj i hi

variable [IsStrictOrderedRing F]

theorem series_stamped (h : Series source.candles) {k : Nat} (hk : 0 < k)
    (hstep : InStep k (period targetTf) (source.candles.map Candle.timestamp)) :
    Series ((chunks k source.candles).map (stamped targetTf)) := by
  have hts : (source.candles.map Candle.timestamp).Pairwise (· < ·) :=
    pairwise_map.mpr h.increasing
  refine ⟨fun a ha ↦ ?_, ?_⟩
  · obtain ⟨group, hgroup, rfl⟩ := mem_map.mp ha
    obtain ⟨j, hj, rfl⟩ := (mem_chunks_iff hk).mp hgroup
    refine aggregateChunk_valid (chunk_ne_nil hk hj) fun c hc ↦ h.valid c ?_
    exact mem_of_mem_drop (mem_of_mem_take hc)
  · rw [chunks, map_map, pairwise_map]
    refine pairwise_lt_range.imp_of_mem fun {j j'} hj hj' hlt ↦ ?_
    rw [mem_range, lt_chunkCount_iff hk] at hj hj'
    have hchunk : j * k / k < j' * k / k := by
      rwa [Nat.mul_div_cancel j hk, Nat.mul_div_cancel j' hk]
    have hq := hstep.quotient_lt hts (period_pos targetTf) hk (by rwa [length_map])
      (by rwa [length_map]) hchunk
    have hs := hstep.starts (j * k) (by rwa [length_map]) (Nat.dvd_mul_left k j)
    have hs' := hstep.starts (j' * k) (by rwa [length_map]) (Nat.dvd_mul_left k j')
    rw [getElem_map] at hq hs hs'
    rw [getElem_map] at hq
    change (stamped targetTf _).timestamp < (stamped targetTf _).timestamp
    rw [stamped_timestamp hk hj, stamped_timestamp hk hj', tdiv_eq_of_le hs, tdiv_eq_of_le hs']
    exact Int.mul_lt_mul_of_pos_right hq (period_pos targetTf)

theorem aggregatesRightly_iff_inStep (h : Series source.candles) (hnil : source.candles ≠ [])
    (hlt : timeframeMinutes source.timeframe < timeframeMinutes targetTf)
    (hdvd : timeframeMinutes targetTf % timeframeMinutes source.timeframe = 0) :
    AggregatesRightly source targetTf ↔
      InStep (timeframeMinutes targetTf / timeframeMinutes source.timeframe).toNat
        (period targetTf) (source.candles.map Candle.timestamp) := by
  have hmin := minutesBetween_eq hlt
  have hratio := one_le_ratio hlt
  rw [if_pos hdvd] at hmin
  rw [AggregatesRightly, contributors, aggregate, if_neg hnil, hmin]
  generalize hk : (timeframeMinutes targetTf / timeframeMinutes source.timeframe).toNat = k
  have hpos : 0 < k := by omega
  have hsame : (aggregateImpl source.candles k).map (fun c ↦
      { c with
        timestamp := alignTimestamp c.timestamp (timeframeMinutes targetTf)
        timeframe := targetTf }) = (chunks k source.candles).map (stamped targetTf) :=
    map_map
  dsimp only
  rw [if_neg hpos.ne', hsame, ← groups_iff_inStep h hpos]
  have hbatch : (∃ result, (OHLCVContainer.new source.symbol targetTf).appendBatch
      ((chunks k source.candles).map (stamped targetTf)) = .ok result) ↔ _ :=
    OHLCVContainer.appendBatch_ok_iff (Series.nil (F := F))
  cases happend : (OHLCVContainer.new source.symbol targetTf).appendBatch
      ((chunks k source.candles).map (stamped targetTf)) with
  | error e =>
    refine iff_of_false hnil fun hgroups ↦ ?_
    have hseries := series_stamped h hpos ((groups_iff_inStep h hpos).mp hgroups)
    obtain ⟨result, hok⟩ := hbatch.mpr hseries
    rw [happend] at hok
    cases hok
  | ok result =>
    have hcandles := OHLCVContainer.candles_appendBatch happend
    dsimp only
    rw [hcandles]
    exact and_iff_right (flatten_chunks hpos)

/-- **When aggregation is right.**  Just when there is nothing to aggregate, or the target is a
multiple of the source timeframe and the candles are in step with its intervals: every interval
but the last that has a candle has a full number of them, and none starts before the epoch
unless at the interval's own start. -/
theorem aggregatesRightly_iff (source : OHLCVContainer F) (targetTf : Timeframe)
    (h : Series source.candles)
    (hlt : timeframeMinutes source.timeframe < timeframeMinutes targetTf) :
    AggregatesRightly source targetTf ↔ source.candles = [] ∨
      (timeframeMinutes targetTf % timeframeMinutes source.timeframe = 0 ∧
        InStep (timeframeMinutes targetTf / timeframeMinutes source.timeframe).toNat
          (period targetTf) (source.candles.map Candle.timestamp)) := by
  by_cases hnil : source.candles = []
  · refine iff_of_true ?_ (.inl hnil)
    rw [AggregatesRightly, aggregate, if_pos hnil]
    exact hnil
  rw [or_iff_right hnil]
  by_cases hdvd : timeframeMinutes targetTf % timeframeMinutes source.timeframe = 0
  · rw [and_iff_right hdvd]
    exact aggregatesRightly_iff_inStep h hnil hlt hdvd
  · have hmin := minutesBetween_eq hlt
    rw [if_neg hdvd] at hmin
    refine iff_of_false ?_ fun h ↦ hdvd h.1
    rw [AggregatesRightly, aggregate, if_neg hnil, hmin]
    exact hnil

end

section Sample

private def minuteBar (n : Int) : Candle ℚ := ⟨minutes n, 1, 2, 1, 2, 10, 1, 0, .m1⟩

private def minuteBars (ns : List Int) : OHLCVContainer ℚ :=
  ⟨['X', 'A', 'U'], .m1, ns.map minuteBar, .empty⟩

/-- Two bars of one minute, at 00:04 and 00:05: they become one candle of five minutes,
stamped 00:00. -/
theorem aggregate_misses_interval : ¬ AggregatesRightly (minuteBars [4, 5]) .m5 := by
  rw [aggregatesRightly_iff_inStep ⟨by decide +kernel, by decide⟩ (by decide) (by decide) (by decide)]
  decide +kernel

private def sixBars : OHLCVContainer ℚ := minuteBars [0, 1, 2, 3, 4, 5]

private theorem sixBars_series : Series sixBars.candles := ⟨by decide +kernel, by decide +kernel⟩

/-- Five bars in the first interval and one in the next. -/
theorem aggregatesRightly_sample : AggregatesRightly sixBars .m5 :=
  (aggregatesRightly_iff sixBars .m5 sixBars_series (by decide)).mpr
    (.inr ⟨by decide, by decide +kernel⟩)

end Sample

end Qros.Quant
