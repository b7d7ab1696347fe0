import Qros.Lib.Checks
import Qros.Python.Datetime

/-!
# The iterator over a dataset

`HistoricalIterator` of `data_engine/iterator.py`.  A record is of an arbitrary type with a
timestamp, as every record class has one, and times are in UTC.

The index keeps the order of the dataset, so the iteration is in order for sorted records only,
and the windows go up from the first index to the last: backwards there are none
(`iterates_iff`).
-/

namespace Qros.DataEngine.Iterator

open Qros.Lib Qros.Python List

/-! ## The iterator -/

structure HistoricalIterator (R : Type) where
  records : List R
  startTime : Option Utc
  endTime : Option Utc
  reverse : Bool
  asOf : Option Utc
  index : Nat
  indices : List (Fin records.length)

section Source

variable {R : Type} (timestamp : R → Utc)

/-- The filters of `_build_index`. -/
def isVisible (startTime endTime asOf : Option Utc) (record : R) : Bool :=
  startTime.all (fun start ↦ decide (start ≤ timestamp record)) &&
    endTime.all (fun stop ↦ decide (timestamp record ≤ stop)) &&
    asOf.all fun cutoff ↦ decide (timestamp record ≤ cutoff)

def buildIndex (records : List R) (startTime endTime : Option Utc) (reverse : Bool)
    (asOf : Option Utc) : List (Fin records.length) :=
  let indices := (List.finRange records.length).filter fun i ↦
    isVisible timestamp startTime endTime asOf (records.get i)
  if reverse then indices.reverse else indices

/-- `__init__`. -/
def HistoricalIterator.new (records : List R) (startTime endTime : Option Utc) (reverse : Bool)
    (asOf : Option Utc) : HistoricalIterator R where
  records
  startTime
  endTime
  reverse
  asOf
  index := 0
  indices := buildIndex timestamp records startTime endTime reverse asOf

/-- `window_duration`, which is positive. -/
def Duration : Type := { d : Int // 0 < d }

/-- `step or window_duration`, in microseconds; the step may be left out. -/
def stepOr (step : Option Int) (duration : Duration) : Int :=
  match step with
  | none => duration.val
  | some s => if s = 0 then duration.val else s

theorem stepOr_ne_zero (step : Option Int) (duration : Duration) : stepOr step duration ≠ 0 := by
  have hpos := duration.property
  unfold stepOr
  split
  · omega
  · split <;> omega

/-- How often a loop with this step can go on. -/
def remaining (step : Int) (last current : Utc) : Nat :=
  if 0 < step then (last.micros - current.micros + 1).toNat
  else (current.micros + 62135596800000001).toNat

theorem remaining_lt {step : Int} (hstep : step ≠ 0) {last current next : Utc}
    (hle : current ≤ last) (hnext : current.add step = .ok next) :
    remaining step last next < remaining step last current := by
  have hmicros := Utc.add_eq_ok.mp hnext
  have hmin : -62135596800000000 ≤ next.micros := next.property.1
  rw [Utc.le_iff] at hle
  unfold remaining
  split <;> omega

def window (records : List R) (current windowEnd : Utc) : List R :=
  records.filter fun record ↦
    decide (current ≤ timestamp record) && decide (timestamp record < windowEnd)

/-- The loop of `time_windows` over the records of the index. -/
def windowsFrom (records : List R) (duration step : Int) (hstep : step ≠ 0)
    (last current : Utc) : Except String (List (List R)) :=
  if _hle : current ≤ last then
    match current.add duration with
    | .error e => .error e
    | .ok windowEnd =>
      match _hnext : current.add step with
      | .error e => .error e
      | .ok next => do
          let later ← windowsFrom records duration step hstep last next
          let found := window timestamp records current windowEnd
          return if found = [] then later else found :: later
  else .ok []
termination_by remaining step last current
decreasing_by exact remaining_lt hstep _hle _hnext

namespace HistoricalIterator

variable (iterator : HistoricalIterator R)

def indexed : List R := iterator.indices.map iterator.records.get

/-- `__next__`; there is no value where it raises `StopIteration`. -/
def next : Option (R × HistoricalIterator R) :=
  if h : iterator.index < iterator.indices.length then
    some (iterator.records.get (iterator.indices.get ⟨iterator.index, h⟩),
      { iterator with index := iterator.index + 1 })
  else none

/-- `to_list`: what `next` gives until it stops. -/
def toList (iterator : HistoricalIterator R) : List R :=
  match _h : iterator.next with
  | none => []
  | some (record, later) => record :: later.toList
termination_by iterator.indices.length - iterator.index
decreasing_by
  unfold next at _h
  split at _h
  · cases _h
    change iterator.indices.length - (iterator.index + 1) < _
    omega
  · cases _h

def timeWindows (duration : Duration) (step : Option Int) : Except String (List (List R)) :=
  match iterator.indexed with
  | [] => .ok []
  | first :: later =>
    windowsFrom timestamp (first :: later) duration.val (stepOr step duration)
      (stepOr_ne_zero step duration)
      (timestamp ((first :: later).getLast (cons_ne_nil first later))) (timestamp first)

end HistoricalIterator

end Source

/-! ## What is seen -/

section

variable {R : Type} {timestamp : R → Utc}

/-- The records that the filters let through, as they are stored. -/
def visible (timestamp : R → Utc) (records : List R) (startTime endTime asOf : Option Utc) :
    List R :=
  records.filter (isVisible timestamp startTime endTime asOf)

variable {iterator : HistoricalIterator R}

theorem next_of_lt (h : iterator.index < iterator.indices.length) :
    iterator.next = some (iterator.records.get (iterator.indices.get ⟨iterator.index, h⟩),
      { iterator with index := iterator.index + 1 }) := by
  rw [HistoricalIterator.next, dif_pos h]

theorem next_of_le (h : iterator.indices.length ≤ iterator.index) : iterator.next = none := by
  rw [HistoricalIterator.next, dif_neg (not_lt.mpr h)]

theorem toList_of_none (h : iterator.next = none) :
    iterator.toList = [] := by
  rw [HistoricalIterator.toList]
  split
  · rfl
  · rename_i hnext
    rw [h] at hnext
    cases hnext

theorem toList_of_some {iterator later : HistoricalIterator R} {record : R}
    (h : iterator.next = some (record, later)) : iterator.toList = record :: later.toList := by
  rw [HistoricalIterator.toList]
  split
  · rename_i hnext
    rw [h] at hnext
    cases hnext
  · rename_i hnext
    rw [h] at hnext
    cases hnext
    rfl

theorem toList_eq_drop (iterator : HistoricalIterator R) :
    iterator.toList = iterator.indexed.drop iterator.index := by
  induction iterator using HistoricalIterator.toList.induct with
  | case1 iterator hnext =>
    have hend : iterator.indices.length ≤ iterator.index := by
      by_contra hlt
      rw [next_of_lt (not_le.mp hlt)] at hnext
      cases hnext
    rw [toList_of_none hnext, HistoricalIterator.indexed,
      drop_eq_nil_of_le (by rwa [length_map])]
  | case2 iterator record later hnext ih =>
    have hlt : iterator.index < iterator.indices.length := by
      by_contra hend
      rw [next_of_le (not_lt.mp hend)] at hnext
      cases hnext
    have hlength : iterator.index < iterator.indexed.length := by
      rwa [HistoricalIterator.indexed, length_map]
    rw [toList_of_some hnext, ih, drop_eq_getElem_cons hlength]
    rw [next_of_lt hlt] at hnext
    cases hnext
    refine congrArg₂ _ ?_ rfl
    exact (getElem_map iterator.records.get).symm

theorem map_get_filter (records : List R) (p : R → Bool) :
    ((List.finRange records.length).filter fun i ↦ p (records.get i)).map records.get =
      records.filter p := by
  conv_rhs => rw [← map_get_finRange records, filter_map]
  rfl

theorem indexed_new (timestamp : R → Utc) (records : List R) (startTime endTime : Option Utc)
    (reverse : Bool)
    (asOf : Option Utc) :
    (HistoricalIterator.new timestamp records startTime endTime reverse asOf).indexed =
      if reverse then (visible timestamp records startTime endTime asOf).reverse
      else visible timestamp records startTime endTime asOf := by
  change (buildIndex timestamp records startTime endTime reverse asOf).map records.get = _
  unfold buildIndex visible
  cases reverse with
  | false => exact map_get_filter records _
  | true =>
    change ((List.filter _ _).reverse).map records.get = _
    rw [map_reverse, map_get_filter records]
    rfl

theorem toList_new (records : List R) (startTime endTime : Option Utc) (reverse : Bool)
    (asOf : Option Utc) :
    (HistoricalIterator.new timestamp records startTime endTime reverse asOf).toList =
      if reverse then (visible timestamp records startTime endTime asOf).reverse
      else visible timestamp records startTime endTime asOf := by
  rw [toList_eq_drop, indexed_new]
  rfl

end

/-! ## The loop over the windows -/

/-- The number of microseconds is that of a `datetime`. -/
def IsDatetime (t : Int) : Prop := ∃ u : Utc, u.micros = t

theorem isDatetime_iff {t : Int} :
    IsDatetime t ↔ -62135596800000000 ≤ t ∧ t ≤ 253402300799999999 := by
  constructor
  · rintro ⟨u, rfl⟩
    exact u.property
  · intro h
    exact ⟨⟨t, h⟩, rfl⟩

theorem IsDatetime.between {s t u : Int} (hs : IsDatetime s) (hu : IsDatetime u) (hst : s ≤ t)
    (htu : t ≤ u) : IsDatetime t := by
  rw [isDatetime_iff] at hs hu ⊢
  omega

def lastStart (step : Int) (first last : Utc) : Int :=
  first.micros + (last.micros - first.micros) / step * step

/-- The last window ends, and the one behind it would start, at a `datetime`. -/
def Reaches (duration step : Int) (first last : Utc) : Prop :=
  IsDatetime (lastStart step first last + duration) ∧
    IsDatetime (lastStart step first last + step)

section Loop

variable {R : Type} {timestamp : R → Utc} {records : List R} {duration step : Int}
  {hstep : step ≠ 0} {last current : Utc} {windows : List (List R)}

theorem windowsFrom_of_lt (h : last < current) :
    windowsFrom timestamp records duration step hstep last current = .ok [] := by
  rw [windowsFrom, dif_neg (not_le.mpr h)]

theorem windowsFrom_of_le (h : current ≤ last) :
    windowsFrom timestamp records duration step hstep last current =
      (do let windowEnd ← current.add duration
          let next ← current.add step
          let later ← windowsFrom timestamp records duration step hstep last next
          let found := window timestamp records current windowEnd
          return if found = [] then later else found :: later) := by
  rw [windowsFrom, dif_pos h]
  cases current.add duration with
  | error e => rfl
  | ok windowEnd =>
    change (match _h : current.add step with | .error e => _ | .ok next => _) = _
    split <;> rename_i hadd <;> rw [hadd] <;> rfl

theorem exists_of_windowsFrom (hle : current ≤ last)
    (h : windowsFrom timestamp records duration step hstep last current = .ok windows) :
    ∃ windowEnd next later, windowEnd.micros = current.micros + duration ∧
      next.micros = current.micros + step ∧
      windowsFrom timestamp records duration step hstep last next = .ok later ∧
      windows.flatten = window timestamp records current windowEnd ++ later.flatten := by
  rw [windowsFrom_of_le hle] at h
  obtain ⟨windowEnd, hend, h⟩ := bind_eq_ok.mp h
  obtain ⟨next, hnext, h⟩ := bind_eq_ok.mp h
  obtain ⟨later, hlater, hreturn⟩ := bind_eq_ok.mp h
  refine ⟨windowEnd, next, later, Utc.add_eq_ok.mp hend, Utc.add_eq_ok.mp hnext, hlater, ?_⟩
  cases hreturn
  split
  · rename_i hnil
    rw [hnil, nil_append]
  · rw [flatten_cons]

theorem windowsFrom_isOk_iff_next (hle : current ≤ last) :
    (∃ windows, windowsFrom timestamp records duration step hstep last current = .ok windows) ↔
      IsDatetime (current.micros + duration) ∧
        ∃ next : Utc, next.micros = current.micros + step ∧
          ∃ later, windowsFrom timestamp records duration step hstep last next = .ok later := by
  constructor
  · rintro ⟨windows, h⟩
    obtain ⟨windowEnd, next, later, hend, hnext, hlater, -⟩ := exists_of_windowsFrom hle h
    exact ⟨⟨windowEnd, hend⟩, next, hnext, later, hlater⟩
  · rintro ⟨⟨windowEnd, hend⟩, next, hnext, later, hlater⟩
    rw [windowsFrom_of_le hle]
    exact ⟨_, bind_eq_ok.mpr ⟨windowEnd, Utc.add_eq_ok.mpr hend,
      bind_eq_ok.mpr ⟨next, Utc.add_eq_ok.mpr hnext, bind_eq_ok.mpr ⟨later, hlater, rfl⟩⟩⟩⟩

theorem lastStart_next {next : Utc} (hstep : step ≠ 0)
    (hnext : next.micros = current.micros + step) :
    lastStart step next last = lastStart step current last := by
  have hdiff : last.micros - current.micros = last.micros - next.micros + 1 * step := by omega
  unfold lastStart
  rw [hdiff, Int.add_mul_ediv_right _ _ hstep, add_mul, one_mul]
  omega

theorem lastStart_of_last (hle : current ≤ last) (hlt : last.micros < current.micros + step) :
    lastStart step current last = current.micros := by
  rw [Utc.le_iff] at hle
  rw [lastStart, Int.ediv_eq_zero_of_lt (by omega) (by omega), zero_mul, add_zero]

theorem le_lastStart (hpos : 0 < step) (hle : current ≤ last) :
    current.micros ≤ lastStart step current last := by
  rw [Utc.le_iff] at hle
  have hquotient : 0 ≤ (last.micros - current.micros) / step :=
    Int.ediv_nonneg (by omega) (by omega)
  have := mul_nonneg hquotient hpos.le
  unfold lastStart
  omega

theorem reaches_iff_next (hpos : 0 < step) (hduration : 0 < duration) (hle : current ≤ last) :
    Reaches duration step current last ↔
      IsDatetime (current.micros + duration) ∧
        ∃ next : Utc, next.micros = current.micros + step ∧
          (next ≤ last → Reaches duration step next last) := by
  constructor
  · rintro ⟨hend, hstart⟩
    have hstarts := le_lastStart hpos hle
    refine ⟨.between ⟨current, rfl⟩ hend (by omega) (by omega), ?_⟩
    obtain ⟨next, hnext⟩ : IsDatetime (current.micros + step) :=
      .between ⟨current, rfl⟩ hstart (by omega) (by omega)
    refine ⟨next, hnext, fun _ ↦ ?_⟩
    rw [Reaches, lastStart_next hpos.ne' hnext]
    exact ⟨hend, hstart⟩
  · rintro ⟨hend, next, hnext, hlater⟩
    by_cases hover : next ≤ last
    · have hreaches := hlater hover
      rwa [Reaches, lastStart_next hpos.ne' hnext] at hreaches
    · rw [Utc.le_iff] at hover
      rw [Reaches, lastStart_of_last hle (by omega)]
      exact ⟨hend, next, hnext⟩

/-- **The loop ends** exactly when it does not leave the times on the way. -/
theorem windowsFrom_isOk_iff (hpos : 0 < step) (hduration : 0 < duration) :
    (∃ windows, windowsFrom timestamp records duration step hstep last current = .ok windows) ↔
      (current ≤ last → Reaches duration step current last) := by
  induction hn : remaining step last current using Nat.strong_induction_on
    generalizing current with
  | _ n ih =>
    by_cases hle : current ≤ last
    · rw [windowsFrom_isOk_iff_next hle, forall_prop_of_true hle,
        reaches_iff_next hpos hduration hle]
      refine and_congr_right fun _ ↦ exists_congr fun next ↦ and_congr_right fun hnext ↦ ?_
      exact ih _ (hn ▸ remaining_lt hstep hle (Utc.add_eq_ok.mpr hnext)) rfl
    · rw [windowsFrom_of_lt (not_le.mp hle)]
      exact ⟨fun _ h ↦ absurd h hle, fun _ ↦ ⟨_, rfl⟩⟩

theorem windowsFrom_ne_ok (hneg : step < 0) (hle : current ≤ last) :
    windowsFrom timestamp records duration step hstep last current ≠ .ok windows := by
  intro h
  induction hn : remaining step last current using Nat.strong_induction_on
    generalizing current windows with
  | _ n ih =>
    obtain ⟨windowEnd, next, later, -, hnext, hlater, -⟩ := exists_of_windowsFrom hle h
    have hnextle : next ≤ last := by
      rw [Utc.le_iff] at hle ⊢
      omega
    exact ih _ (hn ▸ remaining_lt hstep hle (Utc.add_eq_ok.mpr hnext)) hnextle hlater rfl

theorem window_append_perm {next : Utc} (hnext : current ≤ next) :
    (window timestamp records current next ++
      records.filter fun record ↦ decide (next ≤ timestamp record)).Perm
        (records.filter fun record ↦ decide (current ≤ timestamp record)) := by
  have hsplit := filter_append_perm (fun record ↦ decide (timestamp record < next))
    (records.filter fun record ↦ decide (current ≤ timestamp record))
  rw [filter_filter, filter_filter] at hsplit
  refine (List.Perm.of_eq ?_).trans hsplit
  congr 1
  · refine filter_congr fun record _ ↦ ?_
    rw [Bool.and_comm]
  · refine filter_congr fun record _ ↦ ?_
    rw [Bool.eq_iff_iff]
    simp only [decide_eq_true_eq, Bool.and_eq_true, Bool.not_eq_true', decide_eq_false_iff_not,
      not_lt]
    exact ⟨fun h ↦ ⟨h, hnext.trans h⟩, And.left⟩

/-- **Windows that follow each other hold every record once.** -/
theorem flatten_windowsFrom (hpos : 0 < step) (hlast : ∀ record ∈ records, timestamp record ≤ last)
    (h : windowsFrom timestamp records step step hstep last current = .ok windows) :
    windows.flatten.Perm (records.filter fun record ↦ decide (current ≤ timestamp record)) := by
  induction hn : remaining step last current using Nat.strong_induction_on
    generalizing current windows with
  | _ n ih =>
    by_cases hle : current ≤ last
    · obtain ⟨windowEnd, next, later, hend, hnext, hlater, hflatten⟩ :=
        exists_of_windowsFrom hle h
      obtain rfl : windowEnd = next := Utc.micros_injective (hend.trans hnext.symm)
      have hrest := ih _ (hn ▸ remaining_lt hstep hle (Utc.add_eq_ok.mpr hnext)) hlater rfl
      have hforward : current ≤ windowEnd := by
        rw [Utc.le_iff]
        omega
      rw [hflatten]
      exact (hrest.append_left _).trans (window_append_perm hforward)
    · rw [windowsFrom_of_lt (not_le.mp hle)] at h
      cases h
      rw [filter_eq_nil_iff.mpr fun record hrecord hcurrent ↦
        hle ((of_decide_eq_true hcurrent).trans (hlast record hrecord))]
      exact .refl []

end Loop

/-! ## The windows -/

section

variable {R : Type} {timestamp : R → Utc} {iterator : HistoricalIterator R} {first last : R}
  {duration : Duration} {step : Option Int}

theorem timeWindows_of_nil (h : iterator.indexed = []) :
    iterator.timeWindows timestamp duration step = .ok [] := by
  rw [HistoricalIterator.timeWindows, h]

theorem timeWindows_eq (hfirst : iterator.indexed.head? = some first)
    (hlast : iterator.indexed.getLast? = some last) :
    iterator.timeWindows timestamp duration step =
      windowsFrom timestamp iterator.indexed duration.val (stepOr step duration)
        (stepOr_ne_zero step duration) (timestamp last) (timestamp first) := by
  unfold HistoricalIterator.timeWindows
  cases hindexed : iterator.indexed with
  | nil =>
    rw [hindexed] at hfirst
    cases hfirst
  | cons record later =>
    rw [hindexed] at hfirst hlast
    rw [getLast?_eq_getLast_of_ne_nil (cons_ne_nil record later)] at hlast
    cases hfirst
    cases hlast
    rfl

/-- The windows end, with the step that is asked for and a first record that is not behind the
last one. -/
theorem timeWindows_isOk_iff (hfirst : iterator.indexed.head? = some first)
    (hlast : iterator.indexed.getLast? = some last) (hle : timestamp first ≤ timestamp last) :
    (∃ windows, iterator.timeWindows timestamp duration step = .ok windows) ↔
      0 < stepOr step duration ∧
        Reaches duration.val (stepOr step duration) (timestamp first) (timestamp last) := by
  rw [timeWindows_eq hfirst hlast]
  rcases lt_or_gt_of_ne (stepOr_ne_zero step duration) with hneg | hpos
  · refine iff_of_false ?_ fun h ↦ lt_asymm hneg h.1
    rintro ⟨windows, h⟩
    exact windowsFrom_ne_ok hneg hle h
  · rw [windowsFrom_isOk_iff hpos duration.property, forall_prop_of_true hle, and_iff_right hpos]

theorem flatten_timeWindows (hfirst : iterator.indexed.head? = some first)
    (hlast : iterator.indexed.getLast? = some last)
    (hbounds : ∀ record ∈ iterator.indexed,
      timestamp first ≤ timestamp record ∧ timestamp record ≤ timestamp last)
    {windows : List (List R)} (h : iterator.timeWindows timestamp duration none = .ok windows) :
    windows.flatten.Perm iterator.indexed := by
  rw [timeWindows_eq hfirst hlast] at h
  have hperm := flatten_windowsFrom duration.property
    (fun record hrecord ↦ (hbounds record hrecord).2) h
  rwa [filter_eq_self.mpr fun record hrecord ↦
    decide_eq_true (hbounds record hrecord).1] at hperm

/-- The windows end, and those of the default step hold each of the records once. -/
structure Partitions (timestamp : R → Utc) (iterator : HistoricalIterator R) (duration : Duration)
    (step : Option Int) (records : List R) : Prop where
  ends : ∃ windows, iterator.timeWindows timestamp duration step = .ok windows
  covers : ∃ windows, iterator.timeWindows timestamp duration none = .ok windows ∧
    windows.flatten.Perm records

theorem partitions_of_nil (h : iterator.indexed = []) :
    Partitions timestamp iterator duration step [] :=
  ⟨⟨[], timeWindows_of_nil h⟩, [], timeWindows_of_nil h, .refl []⟩

theorem partitions_iff (hfirst : iterator.indexed.head? = some first)
    (hlast : iterator.indexed.getLast? = some last)
    (hbounds : ∀ record ∈ iterator.indexed,
      timestamp first ≤ timestamp record ∧ timestamp record ≤ timestamp last)
    {records : List R} (hperm : iterator.indexed.Perm records) :
    Partitions timestamp iterator duration step records ↔
      0 < stepOr step duration ∧
        Reaches duration.val (stepOr step duration) (timestamp first) (timestamp last) ∧
        Reaches duration.val duration.val (timestamp first) (timestamp last) := by
  have hle : timestamp first ≤ timestamp last :=
    (hbounds last (mem_of_getLast? hlast)).1
  have hstep : (∃ windows, iterator.timeWindows timestamp duration step = .ok windows) ↔ _ :=
    timeWindows_isOk_iff hfirst hlast hle
  have hdefault : (∃ windows, iterator.timeWindows timestamp duration none = .ok windows) ↔ _ :=
    timeWindows_isOk_iff hfirst hlast hle
  constructor
  · rintro ⟨hends, windows, h, -⟩
    obtain ⟨hpos, hreaches⟩ := hstep.mp hends
    exact ⟨hpos, hreaches, (hdefault.mp ⟨windows, h⟩).2⟩
  · rintro ⟨hpos, hreaches, hreaches'⟩
    obtain ⟨windows, h⟩ := hdefault.mpr ⟨duration.property, hreaches'⟩
    exact ⟨hstep.mpr ⟨hpos, hreaches⟩, windows, h,
      (flatten_timeWindows hfirst hlast hbounds h).trans hperm⟩

theorem timeWindows_of_lt (hfirst : iterator.indexed.head? = some first)
    (hlast : iterator.indexed.getLast? = some last) (hlt : timestamp last < timestamp first) :
    iterator.timeWindows timestamp duration step = .ok [] := by
  rw [timeWindows_eq hfirst hlast, windowsFrom_of_lt hlt]

end

/-! ## Iteration in order -/

section

variable {R : Type} (timestamp : R → Utc)

/-- The iteration is in order and the windows partition the records. -/
structure Iterates (records : List R) (startTime endTime : Option Utc) (reverse : Bool)
    (asOf : Option Utc) (duration : Duration) (step : Option Int) : Prop where
  exact : (HistoricalIterator.new timestamp records startTime endTime reverse asOf).toList.Perm
    (visible timestamp records startTime endTime asOf)
  ordered : (HistoricalIterator.new timestamp records startTime endTime reverse
    asOf).toList.Pairwise fun a b ↦
      if reverse then timestamp b ≤ timestamp a else timestamp a ≤ timestamp b
  windows : Partitions timestamp
    (HistoricalIterator.new timestamp records startTime endTime reverse asOf) duration step
    (visible timestamp records startTime endTime asOf)

/-- The records are stored in the order of their times. -/
def Stored (records : List R) : Prop :=
  records.Pairwise fun a b ↦ timestamp a ≤ timestamp b

variable {timestamp}

theorem Stored.bounds {records : List R} (h : Stored timestamp records) {first last : R}
    (hfirst : records.head? = some first) (hlast : records.getLast? = some last) :
    ∀ record ∈ records, timestamp first ≤ timestamp record ∧ timestamp record ≤ timestamp last := by
  intro record hrecord
  constructor
  · obtain ⟨later, rfl⟩ := head?_eq_some_iff.mp hfirst
    rcases mem_cons.mp hrecord with rfl | hlater
    · exact le_rfl
    · exact (pairwise_cons.mp h).1 record hlater
  · obtain ⟨earlier, rfl⟩ := getLast?_eq_some_iff.mp hlast
    rcases mem_append.mp hrecord with hearlier | hrecord
    · exact (pairwise_append.mp h).2.2 record hearlier last (mem_singleton_self last)
    · rw [mem_singleton.mp hrecord]

section New

variable {records : List R} {startTime endTime asOf : Option Utc} {reverse : Bool}

theorem toList_perm :
    (HistoricalIterator.new timestamp records startTime endTime reverse asOf).toList.Perm
      (visible timestamp records startTime endTime asOf) := by
  rw [toList_new]
  cases reverse with
  | false => exact .refl _
  | true => exact reverse_perm _

theorem ordered_iff :
    ((HistoricalIterator.new timestamp records startTime endTime reverse
      asOf).toList.Pairwise fun a b ↦
        if reverse then timestamp b ≤ timestamp a else timestamp a ≤ timestamp b) ↔
      Stored timestamp (visible timestamp records startTime endTime asOf) := by
  rw [toList_new]
  cases reverse with
  | false => exact Iff.rfl
  | true => exact pairwise_reverse

theorem new_partitions_iff {duration : Duration} {step : Option Int} {first last : R}
    (hstored : Stored timestamp (visible timestamp records startTime endTime asOf))
    (hfirst : (visible timestamp records startTime endTime asOf).head? = some first)
    (hlast : (visible timestamp records startTime endTime asOf).getLast? = some last) :
    Partitions timestamp
        (HistoricalIterator.new timestamp records startTime endTime reverse asOf) duration step
        (visible timestamp records startTime endTime asOf) ↔
      (reverse = true → timestamp first = timestamp last) ∧ 0 < stepOr step duration ∧
        Reaches duration.val (stepOr step duration) (timestamp first) (timestamp last) ∧
        Reaches duration.val duration.val (timestamp first) (timestamp last) := by
  have hindexed := indexed_new timestamp records startTime endTime reverse asOf
  have hbounds := hstored.bounds hfirst hlast
  cases reverse with
  | false =>
    rw [if_neg Bool.false_ne_true] at hindexed
    rw [partitions_iff (hindexed ▸ hfirst) (hindexed ▸ hlast) (hindexed ▸ hbounds)
      (.of_eq hindexed)]
    exact (and_iff_right fun hreverse ↦ by cases hreverse).symm
  | true =>
    rw [if_pos rfl] at hindexed
    rw [forall_prop_of_true rfl]
    have hfirst' := hindexed ▸ head?_reverse.trans hlast
    have hlast' := hindexed ▸ getLast?_reverse.trans hfirst
    rcases (hbounds last (mem_of_getLast? hlast)).1.lt_or_eq with hlt | heq
    · -- the first record of the index is the latest, so there are no windows
      refine iff_of_false ?_ fun h ↦ hlt.ne h.1
      rintro ⟨-, windows, h, hperm⟩
      rw [timeWindows_of_lt hfirst' hlast' hlt] at h
      cases h
      rw [← hperm.nil_eq] at hfirst
      cases hfirst
    · have hreversed : ∀ record ∈ (HistoricalIterator.new timestamp records startTime endTime
          true asOf).indexed, timestamp last ≤ timestamp record ∧
            timestamp record ≤ timestamp first := by
        intro record hrecord
        rw [hindexed, mem_reverse] at hrecord
        have hbound := hbounds record hrecord
        rw [heq] at hbound ⊢
        exact hbound
      rw [partitions_iff hfirst' hlast' hreversed (hindexed ▸ reverse_perm _),
        and_iff_right heq, heq]

end New

/-- **The iterator iterates in order and its windows partition the records** exactly when the
records that are visible are stored in order, a reversed iteration sees one time only, the step
is positive and the windows stay within the times. -/
theorem iterates_iff (records : List R) (startTime endTime : Option Utc) (reverse : Bool)
    (asOf : Option Utc) (duration : Duration) (step : Option Int) :
    Iterates timestamp records startTime endTime reverse asOf duration step ↔
      Stored timestamp (visible timestamp records startTime endTime asOf) ∧
        ∀ first last, (visible timestamp records startTime endTime asOf).head? = some first →
          (visible timestamp records startTime endTime asOf).getLast? = some last →
            (reverse = true → timestamp first = timestamp last) ∧
              0 < stepOr step duration ∧
              Reaches duration.val (stepOr step duration) (timestamp first) (timestamp last) ∧
              Reaches duration.val duration.val (timestamp first) (timestamp last) := by
  constructor
  · rintro ⟨-, hordered, hwindows⟩
    have hstored := ordered_iff.mp hordered
    exact ⟨hstored, fun first last hfirst hlast ↦
      (new_partitions_iff hstored hfirst hlast).mp hwindows⟩
  · rintro ⟨hstored, hends⟩
    refine ⟨toList_perm, ordered_iff.mpr hstored, ?_⟩
    cases hvisible : visible timestamp records startTime endTime asOf with
    | nil =>
      refine partitions_of_nil ?_
      rw [indexed_new, hvisible, reverse_nil, ite_self]
    | cons first later =>
      rw [← hvisible]
      have hfirst : (visible timestamp records startTime endTime asOf).head? = some first := by
        rw [hvisible, head?_cons]
      have hlast := getLast?_eq_some_getLast (hvisible ▸ cons_ne_nil first later)
      exact (new_partitions_iff hstored hfirst hlast).mpr (hends first _ hfirst hlast)

end

theorem minute_ok :
    -62135596800000000 ≤ (60000000 : Int) ∧ (60000000 : Int) ≤ 253402300799999999 := by omega

def epoch : Utc := ⟨0, Utc.epoch_ok⟩

def minute : Utc := ⟨60000000, minute_ok⟩

theorem hour_pos : (0 : Int) < 3600000000 := by omega

def hour : Duration := ⟨3600000000, hour_pos⟩

/-- Records that are stored in another order, a reversed iteration and a step back. -/
theorem iterates_fails :
    ¬ Iterates id [minute, epoch] none none false none hour none ∧
      ¬ Iterates id [epoch, minute] none none true none hour none ∧
      ¬ Iterates id [epoch, minute] none none false none hour (some (-3600000000)) := by
  refine ⟨fun h ↦ ?_, fun h ↦ ?_, fun h ↦ ?_⟩
  · have hordered := ordered_iff.mp h.ordered
    exact absurd (rel_of_pairwise_cons hordered (mem_singleton_self epoch)) (by decide)
  · obtain ⟨-, windows, hok, hperm⟩ := h.windows
    rw [timeWindows_of_lt rfl rfl (by decide : epoch < minute)] at hok
    cases hok
    cases hperm.nil_eq
  · obtain ⟨⟨windows, hok⟩, -⟩ := h.windows
    exact absurd ((timeWindows_isOk_iff rfl rfl (by decide : epoch ≤ minute)).mp ⟨windows, hok⟩).1
      (by decide)

end Qros.DataEngine.Iterator
