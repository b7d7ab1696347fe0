import Qros.Lib.Machine
import Qros.Quant.Market.Candle
import Qros.Quant.Market.TimeIndex

/-!
# OHLCV containers

`include/quant/market/ohlcv_container.h`, `src/market/ohlcv_container.cpp`: a series
that is built by appending.

The index is kept beside the candles: each append adds to it and marks it as unsorted,
and a query sorts it, also in a `const` container.  The calls of a container, refused or
not, are a machine here, and `Indexed` is its invariant.
-/

universe u

namespace Qros.Quant

open Qros.Lib List

structure OHLCVContainer (F : Type u) where
  symbol : List Char
  timeframe : Timeframe
  candles : List (Candle F)
  index : TimeIndex

namespace OHLCVContainer

variable {F : Type u}

def new (symbol : List Char) (tf : Timeframe) : OHLCVContainer F := ⟨symbol, tf, [], .empty⟩

variable [Zero F] [LE F] [LT F] [DecidableLE F] [DecidableLT F]

def append (container : OHLCVContainer F) (candle : Candle F) : Result (OHLCVContainer F) :=
  if !candle.isValid then
    .error ⟨.invalidArgument, "invalid candle data"⟩
  else if container.candles ≠ [] ∧
      candle.timestamp ≤ (container.candles.getLastD default).timestamp then
    .error ⟨.invalidArgument, "timestamp must be increasing"⟩
  else
    .ok { container with
      candles := container.candles ++ [candle]
      index := container.index.add candle.timestamp container.candles.length }

/-- `append_batch` with the container that it leaves: the candles before the one that is
refused stay in it. -/
def appendUntil (container : OHLCVContainer F) :
    List (Candle F) → Result Unit × OHLCVContainer F
  | [] => (.ok (), container)
  | c :: cs =>
    match container.append c with
    | .error e => (.error e, container)
    | .ok container' => container'.appendUntil cs

def appendBatch (container : OHLCVContainer F) (cs : List (Candle F)) : Result (OHLCVContainer F) :=
  cs.foldlM append container

variable {candle : Candle F} {container : OHLCVContainer F}

theorem append_eq_ok_iff {container container' : OHLCVContainer F} (h : Series container.candles) :
    container.append candle = .ok container' ↔
      Series (container.candles ++ [candle]) ∧
        container' = { container with
          candles := container.candles ++ [candle]
          index := container.index.add candle.timestamp container.candles.length } := by
  have hlast : container.candles ≠ [] →
      container.candles.getLast? = some (container.candles.getLastD default) := by
    intro hne
    rw [getLast?_eq_some_getLast hne, getLastD_eq_getLast?,
      getLast?_eq_some_getLast hne, Option.getD_some]
  rw [append, series_concat_iff h]
  by_cases hvalid : candle.isValid = true
  · rw [if_neg (by rw [hvalid]; decide)]
    by_cases hle : container.candles ≠ [] ∧
        candle.timestamp ≤ (container.candles.getLastD default).timestamp
    · rw [if_pos hle]
      refine iff_of_false (fun heq ↦ by cases heq) fun hall ↦ ?_
      exact absurd hle.2 (not_le.mpr (hall.1.2 _ (hlast hle.1)))
    · rw [if_neg hle, Except.ok.injEq, eq_comm]
      refine (and_iff_right ⟨hvalid, fun last hsome ↦ ?_⟩).symm
      have hne : container.candles ≠ [] := ne_nil_of_mem (mem_of_getLast? hsome)
      rw [Option.some.inj (hsome.symm.trans (hlast hne))]
      exact not_le.mp fun h ↦ hle ⟨hne, h⟩
  · rw [if_pos (by simpa using hvalid)]
    exact iff_of_false (fun heq ↦ by cases heq) fun hall ↦ hvalid hall.1.1

theorem appendBatch_ok_iff (h : Series container.candles) {cs : List (Candle F)} :
    (∃ container', container.appendBatch cs = .ok container') ↔ Series
    (container.candles ++ cs) := by
  induction cs generalizing container with
  | nil =>
    rw [append_nil]
    exact iff_of_true ⟨container, rfl⟩ h
  | cons c cs ih =>
    rw [append_cons, appendBatch, foldlM_cons]
    cases happend : container.append c with
    | error e =>
      refine iff_of_false (by rintro ⟨_, heq⟩; cases heq) fun hs ↦ ?_
      rw [(append_eq_ok_iff h).mpr ⟨hs.of_append, rfl⟩] at happend
      cases happend
    | ok container' =>
      obtain ⟨hs, rfl⟩ := (append_eq_ok_iff h).mp happend
      exact ih hs

theorem candles_appendBatch {container container' : OHLCVContainer F} {cs : List (Candle F)}
    (h : container.appendBatch cs = .ok container') :
    container'.candles = container.candles ++ cs := by
  induction cs generalizing container with
  | nil =>
    cases h
    exact (append_nil _).symm
  | cons c cs ih =>
    rw [appendBatch, foldlM_cons] at h
    unfold append at h
    split at h
    · cases h
    · split at h
      · cases h
      · rw [append_cons]
        exact ih h

/-! ## Queries -/

section

omit [Zero F] [LE F] [LT F] [DecidableLE F] [DecidableLT F]

def findIndex (container : OHLCVContainer F) (tp : TimePoint) : Option Nat × OHLCVContainer F :=
  let (i, index) := container.index.find tp
  (i, { container with index := index })

/-- One round of the loop of `range`. -/
def pushAt (result : OHLCVContainer F) (entry : Candle F × Nat) : OHLCVContainer F :=
  { result with
    candles := result.candles ++ [entry.1]
    index := result.index.add entry.1.timestamp entry.2 }

/-- `range`: the candles at `start ≤ i < stop`, numbered from `0`. -/
def range (container : OHLCVContainer F) (start stop : Nat) : OHLCVContainer F :=
  let result := new container.symbol container.timeframe
  if container.candles.length ≤ start then result
  else
    let stop := min stop container.candles.length
    ((container.candles.drop start).take (stop - start)).zipIdx.foldl pushAt result

/-- `range_by_time`, and the container with its index sorted. -/
def rangeByTime (container : OHLCVContainer F) (start stop : TimePoint) :
    OHLCVContainer F × OHLCVContainer F :=
  let ((lo, hi), index) := container.index.range start stop
  (container.range lo hi, { container with index := index })

def clear (container : OHLCVContainer F) : OHLCVContainer F :=
  { container with candles := [], index := container.index.clear }

theorem foldl_pushAt (entries : List (Candle F × Nat)) (result : OHLCVContainer F) :
    (entries.foldl pushAt result).candles = result.candles ++ entries.map Prod.fst ∧
      (entries.foldl pushAt result).index.entries =
        result.index.entries ++ entries.map fun e ↦ (e.1.timestamp, e.2) := by
  induction entries generalizing result with
  | nil => simp
  | cons e entries ih =>
    obtain ⟨hcandles, hentries⟩ := ih (result.pushAt e)
    rw [foldl_cons, hcandles, hentries]
    simp [pushAt, TimeIndex.add]

theorem candles_range (container : OHLCVContainer F) (start stop : Nat) :
    (container.range start stop).candles = (container.candles.drop start).take (stop - start) := by
  unfold range
  dsimp only
  split
  · rename_i hle
    rw [drop_of_length_le hle, take_nil]
    rfl
  · rw [(foldl_pushAt _ _).1, zipIdx_map_fst]
    refine (nil_append _).trans (take_eq_take_iff.mpr ?_)
    rw [length_drop]
    omega

end

/-! ## Calls -/

/-- The calls that write to a container, queries included. -/
inductive Call (F : Type u) where
  | append (candle : Candle F)
  | appendBatch (candles : List (Candle F))
  | clear
  | findIndex (tp : TimePoint)
  | rangeByTime (start stop : TimePoint)

inductive Answer (F : Type u) where
  | done (result : Result Unit)
  | index (i : Option Nat)
  | range (container : OHLCVContainer F)

def call (container : OHLCVContainer F) : Call F → Answer F × OHLCVContainer F
  | .append candle =>
    match container.append candle with
    | .error e => (.done (.error e), container)
    | .ok container' => (.done (.ok ()), container')
  | .appendBatch cs =>
    let (result, container) := container.appendUntil cs
    (.done result, container)
  | .clear => (.done (.ok ()), container.clear)
  | .findIndex tp =>
    let (i, container) := container.findIndex tp
    (.index i, container)
  | .rangeByTime start stop =>
    let (result, container) := container.rangeByTime start stop
    (.range result, container)

variable (F) in
def calls (symbol : List Char) (tf : Timeframe) : Machine (OHLCVContainer F) (Call F) (Answer F) where
  init := new symbol tf
  step := fun c container ↦ container.call c

/-- The candles after `cs` are offered in turn, up to the first that does not continue
the series. -/
def extend (stored : List (Candle F)) : List (Candle F) → List (Candle F)
  | [] => stored
  | c :: cs =>
    if c.isValid = true ∧ ∀ last ∈ stored.getLast?, last.timestamp < c.timestamp then
      extend (stored ++ [c]) cs
    else stored

/-- What the calls of a run have stored, without an index. -/
def accepted (stored : List (Candle F)) : Call F → List (Candle F)
  | .append candle => extend stored [candle]
  | .appendBatch cs => extend stored cs
  | .clear => []
  | .findIndex _ => stored
  | .rangeByTime _ _ => stored

/-- The index has the time stamps of the candles with their positions. -/
structure Indexed (container : OHLCVContainer F) : Prop where
  series : Series container.candles
  entries : container.index.entries = (container.candles.map Candle.timestamp).zipIdx

theorem indexed_new (symbol : List Char) (tf : Timeframe) :
    Indexed (new symbol tf : OHLCVContainer F) := ⟨Series.nil, rfl⟩

theorem Indexed.increasing (h : Indexed container) :
    (container.candles.map Candle.timestamp).Pairwise (· < ·) :=
  pairwise_map.mpr h.series.increasing

theorem Indexed.sorted (h : Indexed container) :
    container.index.entries.Pairwise (fun a b ↦ a.1 < b.1) := by
  rw [h.entries]
  exact TimeIndex.pairwise_zipIdx h.increasing

theorem Indexed.append {container container' : OHLCVContainer F} (h : Indexed container)
    (happend : container.append candle = .ok container') :
    Indexed container' := by
  obtain ⟨hseries, rfl⟩ := (append_eq_ok_iff h.series).mp happend
  refine ⟨hseries, ?_⟩
  change container.index.entries ++ [_] = _
  rw [h.entries, map_append, zipIdx_append, length_map, Nat.zero_add]
  rfl

theorem extend_of_append {container container' : OHLCVContainer F} (h : Indexed container)
    (happend : container.append candle = .ok container') (cs : List (Candle F)) :
    extend container.candles (candle :: cs) = extend container'.candles cs := by
  obtain ⟨hseries, rfl⟩ := (append_eq_ok_iff h.series).mp happend
  exact if_pos ((series_concat_iff h.series).mp hseries)

theorem extend_of_refused (h : Indexed container) {e : Error}
    (happend : container.append candle = .error e) (cs : List (Candle F)) :
    extend container.candles (candle :: cs) = container.candles := by
  refine if_neg fun hcontinues ↦ ?_
  rw [(append_eq_ok_iff h.series).mpr ⟨(series_concat_iff h.series).mpr hcontinues, rfl⟩] at happend
  cases happend

theorem Indexed.appendUntil (h : Indexed container) (cs : List (Candle F)) :
    Indexed (container.appendUntil cs).2 ∧
      (container.appendUntil cs).2.candles = extend container.candles cs := by
  induction cs generalizing container with
  | nil => exact ⟨h, rfl⟩
  | cons c cs ih =>
    rw [OHLCVContainer.appendUntil]
    cases happend : container.append c with
    | error e => exact ⟨h, (extend_of_refused h happend cs).symm⟩
    | ok container' =>
      rw [extend_of_append h happend cs]
      exact ih (h.append happend)

theorem Indexed.call (h : Indexed container) (c : Call F) :
    Indexed (container.call c).2 ∧ (container.call c).2.candles = accepted container.candles c := by
  cases c with
  | append candle =>
    dsimp only [OHLCVContainer.call, accepted]
    cases happend : container.append candle with
    | error e => exact ⟨h, (extend_of_refused h happend []).symm⟩
    | ok container' => exact ⟨h.append happend, (extend_of_append h happend []).symm⟩
  | appendBatch cs => exact h.appendUntil cs
  | clear => exact ⟨⟨Series.nil, rfl⟩, rfl⟩
  | findIndex tp => exact ⟨⟨h.series, (TimeIndex.find_entries h.sorted tp).trans h.entries⟩, rfl⟩
  | rangeByTime start stop =>
    exact ⟨⟨h.series, (TimeIndex.range_entries h.sorted start stop).trans h.entries⟩, rfl⟩

theorem indexed_after (symbol : List Char) (tf : Timeframe) (is : List (Call F)) :
    Indexed ((calls F symbol tf).after is) ∧
      ((calls F symbol tf).after is).candles = is.foldl accepted [] := by
  induction is using reverseRecOn with
  | nil => exact ⟨indexed_new symbol tf, rfl⟩
  | append_singleton is c ih =>
    obtain ⟨hindexed, hcandles⟩ := ih
    rw [Machine.after_concat, foldl_concat, ← hcandles]
    exact hindexed.call c

theorem Indexed.rangeByTime (h : Indexed container) (start stop : TimePoint) :
    (container.rangeByTime start stop).1.candles =
      container.candles.filter fun c ↦ decide (start ≤ c.timestamp) && decide
      (c.timestamp ≤ stop) :=
  (candles_range container _ _).trans
    (TimeIndex.slice_range h.entries h.increasing start stop)

theorem Indexed.findIndex (h : Indexed container) (tp : TimePoint) (i : Nat) :
    (container.findIndex tp).1 = some i ↔
      (container.candles[i]?).map Candle.timestamp = some tp := by
  rw [← getElem?_map]
  exact TimeIndex.lookup_eq_some_iff ((TimeIndex.ready_entries h.sorted).trans h.entries)
    h.increasing

/-- After any calls, accepted or refused, the container has the candles it has accepted
since it was last cleared, a range of time gives just those in it, in their order, and
the index of a time is where a candle with this time stands. -/
theorem queries_exact (symbol : List Char) (tf : Timeframe) (is : List (Call F)) :
    let container := (calls F symbol tf).after is
    container.candles = is.foldl accepted [] ∧
      (∀ start stop, (container.rangeByTime start stop).1.candles =
        container.candles.filter fun c ↦
          decide (start ≤ c.timestamp) && decide (c.timestamp ≤ stop)) ∧
      ∀ tp i, (container.findIndex tp).1 = some i ↔
        (container.candles[i]?).map Candle.timestamp = some tp := by
  intro container
  obtain ⟨hindexed, hcandles⟩ := indexed_after symbol tf is
  exact ⟨hcandles, hindexed.rangeByTime, hindexed.findIndex⟩

end OHLCVContainer

end Qros.Quant
