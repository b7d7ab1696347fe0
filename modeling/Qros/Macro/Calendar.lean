import Qros.Lib.KeySort
import Qros.Lib.Stepping
import Qros.Python.Datetime

/-!
# The economic calendar

`macro/time/calendar.py`: the trading days around a time, and the occurrences of a pattern.  The
searches for a trading day go from midnight to midnight until the range of times ends
(`seekTradingDay_eq_ok`).  The occurrences of a pattern have places in closed form
(`getNextOccurrence_eq_ok`), from which it follows when they are as far apart as the pattern says
(`calendar_isRight_iff`).
-/

namespace Qros.Macro

open Qros.Lib Qros.Lib.Calendar Qros.Lib.KeySort Qros.Lib.Stepping Qros.Python

/-! ## Times -/

/-- `TimeNormalizer.to_utc`: a naive time is taken as UTC. -/
def toUtc (dt : Datetime) : Except String Utc := dt.clock.add (-dt.offset.getD 0)

theorem toUtc_eq_ok {dt : Datetime} {t : Utc} : toUtc dt = .ok t ↔ t.micros = dt.instant := by
  rw [toUtc, Utc.add_eq_ok, Datetime.instant, sub_eq_add_neg]

@[simp]
theorem toUtc_utc (t : Utc) : toUtc ⟨t, some 0⟩ = .ok t :=
  toUtc_eq_ok.mpr (sub_zero t.micros).symm

/-- The instant is in the range of times. -/
def InRange (d : Datetime) : Prop :=
  -62135596800000000 ≤ d.instant ∧ d.instant ≤ 253402300799999999

theorem inRange_iff {d : Datetime} : InRange d ↔ ∃ t, toUtc d = .ok t := by
  simp only [toUtc_eq_ok]
  constructor
  · rintro ⟨h₁, h₂⟩
    exact Utc.exists_micros h₁ h₂
  · rintro ⟨t, ht⟩
    unfold InRange
    rw [← ht]
    exact t.bounds

def timedeltaDays (days : Int) : Except String Int :=
  if -999999999 ≤ days ∧ days ≤ 999999999 then .ok (days * 86400000000)
  else .error s!"days={days}; must have magnitude <= 999999999"

theorem add_timedeltaDays_eq_ok {t u : Utc} {days : Int} :
    (timedeltaDays days >>= t.add) = .ok u ↔ u.micros = t.micros + days * 86400000000 := by
  unfold timedeltaDays
  split
  · exact Utc.add_eq_ok
  · -- Such a number of days leads out of the range from everywhere.
    refine iff_of_false (fun h ↦ by cases h) fun h ↦ ?_
    have ht := Utc.bounds t
    have hu := Utc.bounds u
    omega

theorem steps_add {t u : Utc} {d : Int} {n : Nat} :
    steps (fun t ↦ Utc.add t d) n t = .ok u ↔ u.micros = t.micros + n * d := by
  induction n generalizing t with
  | zero =>
    rw [steps, Nat.cast_zero, zero_mul, add_zero]
    exact ⟨fun h ↦ congrArg Utc.micros (Except.ok.inj h).symm,
      fun h ↦ congrArg Except.ok (Utc.micros_injective h.symm)⟩
  | succ n ih =>
    simp only [steps_succ_eq_ok, Utc.add_eq_ok, ih]
    have hsum : ((n + 1 : Nat) : Int) * d = d + n * d := by
      push_cast
      ring
    constructor
    · rintro ⟨b, hb, hu⟩
      rw [hu, hb, hsum]
      ring
    · intro hu
      -- The first place is between the ends.
      have ht := Utc.bounds t
      have hu' := Utc.bounds u
      have hsign : 0 ≤ d ∧ 0 ≤ (n : Int) * d ∨ d ≤ 0 ∧ (n : Int) * d ≤ 0 := by
        rcases le_total 0 d with hd | hd
        · exact .inl ⟨hd, mul_nonneg n.cast_nonneg hd⟩
        · exact .inr ⟨hd, mul_nonpos_of_nonneg_of_nonpos n.cast_nonneg hd⟩
      obtain ⟨b, hb⟩ := @Utc.exists_micros (t.micros + d) (by omega) (by omega)
      exact ⟨b, hb, by omega⟩

/-! ## Trading days -/

structure MarketHoliday where
  date : Datetime

structure EconomicCalendar where
  holidays : List MarketHoliday

/-- Naive and aware times do not compare. -/
def Comparable (dates : List Datetime) : Prop :=
  (∀ d ∈ dates, d.offset.isNone = true) ∨ ∀ d ∈ dates, d.offset.isSome = true

instance decidableComparable (dates : List Datetime) : Decidable (Comparable dates) :=
  inferInstanceAs (Decidable (_ ∨ _))

namespace EconomicCalendar

def postInit (holidays : List MarketHoliday) : Except String EconomicCalendar :=
  if Comparable (holidays.map (·.date)) then .ok ⟨stableSortBy (·.date.instant) holidays⟩
  else .error "can't compare offset-naive and offset-aware datetimes"

variable (c : EconomicCalendar)

def addHoliday (holiday : MarketHoliday) : Except String EconomicCalendar :=
  postInit (c.holidays ++ [holiday])

def isHoliday (date : Datetime) : Except String Bool := do
  let dateOnly ← toUtc date
  return c.holidays.any fun holiday ↦ decide (holiday.date.clock.day = dateOnly.day)

def isTradingDay (date : Datetime) : Except String Bool := do
  let utcDt ← toUtc date
  if weekday utcDt.day ≥ 5 then return false
  if ← c.isHoliday date then return false
  return true

variable {t u : Utc}

theorem rank_add_lt (h : t.add 86400000000 = .ok u) :
    (253402300799999999 - u.micros).toNat < (253402300799999999 - t.micros).toNat := by
  have hu := Utc.bounds u
  rw [Utc.add_eq_ok] at h
  omega

theorem rank_sub_lt (h : t.add (-86400000000) = .ok u) :
    (u.micros + 62135596800000000).toNat < (t.micros + 62135596800000000).toNat := by
  have hu := Utc.bounds u
  rw [Utc.add_eq_ok] at h
  omega

def getNextTradingDay (fromDate : Datetime) : Except String Utc := do
  let current ← toUtc fromDate
  seek (fun t ↦ Utc.add t 86400000000) (fun t ↦ c.isTradingDay ⟨t, some 0⟩) _ rank_add_lt
    (current.midnight)

def getPreviousTradingDay (fromDate : Datetime) : Except String Utc := do
  let current ← toUtc fromDate
  seek (fun t ↦ Utc.add t (-86400000000)) (fun t ↦ c.isTradingDay ⟨t, some 0⟩) _ rank_sub_lt
    (current.midnight)

/-- The weekdays without a holiday. -/
def TradingDay (holidays : List MarketHoliday) (day : Int) : Prop :=
  weekday day < 5 ∧ ∀ holiday ∈ holidays, holiday.date.clock.day ≠ day

instance decidableTradingDay (holidays : List MarketHoliday) (day : Int) :
    Decidable (TradingDay holidays day) :=
  inferInstanceAs (Decidable (_ ∧ _))

variable {holidays : List MarketHoliday}

theorem tradingDay_of_postInit {c : EconomicCalendar} (h : postInit holidays = .ok c) (day : Int) :
    TradingDay c.holidays day ↔ TradingDay holidays day := by
  unfold postInit at h
  split at h
  · obtain rfl := Except.ok.inj h
    simp only [TradingDay, mem_stableSortBy]
  · cases h

variable {c}

theorem isTradingDay_utc (t : Utc) :
    c.isTradingDay ⟨t, some 0⟩ = .ok (decide (TradingDay c.holidays t.day)) := by
  unfold isTradingDay isHoliday
  rw [toUtc_utc]
  by_cases hweekday : weekday t.day ≥ 5
  · rw [decide_eq_false (fun h ↦ absurd h.1 (not_lt.mpr hweekday))]
    exact if_pos hweekday
  · change (if weekday t.day ≥ 5 then _ else _) = _
    rw [if_neg hweekday]
    cases hany : c.holidays.any fun holiday ↦ decide (holiday.date.clock.day = t.day) with
    | true =>
      obtain ⟨holiday, hmem, hday⟩ := List.any_eq_true.mp hany
      rw [decide_eq_false (fun h ↦ h.2 holiday hmem (of_decide_eq_true hday))]
      change (if (c.holidays.any _ : Bool) = true then _ else _) = _
      rw [if_pos hany]
      rfl
    | false =>
      rw [decide_eq_true ⟨not_le.mp hweekday, fun holiday hmem hday ↦
        absurd (List.any_eq_true.mpr ⟨holiday, hmem, decide_eq_true hday⟩) (by rw [hany]; decide)⟩]
      change (if (c.holidays.any _ : Bool) = true then _ else _) = _
      rw [if_neg (by rw [hany]; decide)]
      rfl

theorem day_timeOfDay_of_midnight {t : Utc} {day : Int} (h : t.micros = day * 86400000000) :
    t.day = day ∧ t.timeOfDay = 0 :=
  Utc.day_timeOfDay (h.trans (add_zero _).symm) le_rfl (by decide)

/-- **The day that a search finds**, going `s` days at a time. -/
theorem seekTradingDay_eq_ok {d s : Int} (hd : d = s * 86400000000) {rank : Utc → Nat}
    {hrank : ∀ {t u}, Utc.add t d = .ok u → rank u < rank t} :
    seek (fun t ↦ Utc.add t d) (fun t ↦ c.isTradingDay ⟨t, some 0⟩) rank hrank t.midnight = .ok u ↔
      ∃ n : Nat, u.micros = (t.day + (n + 1) * s) * 86400000000 ∧
        TradingDay c.holidays (t.day + (n + 1) * s) ∧
        ∀ m < n, ¬ TradingDay c.holidays (t.day + (m + 1) * s) := by
  have hplace : ∀ (n : Nat) (u : Utc), steps (fun t ↦ Utc.add t d) (n + 1) t.midnight = .ok u ↔
      u.micros = (t.day + (n + 1) * s) * 86400000000 := by
    intro n u
    rw [steps_add, Utc.micros_midnight, hd]
    push_cast
    rw [show t.day * 86400000000 + ((n : Int) + 1) * (s * 86400000000) =
      (t.day + (n + 1) * s) * 86400000000 by ring]
  rw [seek_eq_ok]
  refine exists_congr fun n ↦ ?_
  simp only [hplace, isTradingDay_utc, Except.ok.injEq, decide_eq_true_eq, decide_eq_false_iff_not]
  refine and_congr_right fun hu ↦ ?_
  rw [(day_timeOfDay_of_midnight hu).1]
  refine and_congr_right fun _ ↦ ?_
  constructor
  · intro h m hm htrading
    -- The days before are in the range of times too.
    obtain ⟨v, hv⟩ := exists_steps_of_le (Nat.succ_le_succ hm.le) ((hplace n u).mpr hu)
    rw [hplace] at hv
    exact h m hm v hv ((day_timeOfDay_of_midnight hv).1 ▸ htrading)
  · intro h m hm v hv
    rw [(day_timeOfDay_of_midnight hv).1]
    exact h m hm

theorem exists_seekTradingDay {d s : Int} (hd : d = s * 86400000000) (rank : Utc → Nat)
    (hrank : ∀ {t u}, Utc.add t d = .ok u → rank u < rank t) {t : Utc} {n : Nat}
    (htrading : TradingDay c.holidays (t.day + (n + 1) * s))
    (hrange : -719162 ≤ t.day + (n + 1) * s ∧ t.day + (n + 1) * s ≤ 2932896) :
    ∃ u, seek (fun t ↦ Utc.add t d) (fun t ↦ c.isTradingDay ⟨t, some 0⟩) rank hrank t.midnight =
      .ok u := by
  have hex : ∃ n : Nat, TradingDay c.holidays (t.day + (n + 1) * s) := ⟨n, htrading⟩
  have hle : Nat.find hex ≤ n := Nat.find_min' hex htrading
  have ht := t.bounds
  have hsum : ((Nat.find hex : Int) + 1) * s + (n - Nat.find hex) * s = (n + 1) * s := by ring
  have hsign : 0 ≤ ((Nat.find hex : Int) + 1) * s ∧ 0 ≤ ((n : Int) - Nat.find hex) * s ∨
      ((Nat.find hex : Int) + 1) * s ≤ 0 ∧ ((n : Int) - Nat.find hex) * s ≤ 0 := by
    rcases le_total 0 s with hs | hs
    · exact .inl ⟨mul_nonneg (by omega) hs, mul_nonneg (by omega) hs⟩
    · exact .inr ⟨mul_nonpos_of_nonneg_of_nonpos (by omega) hs,
        mul_nonpos_of_nonneg_of_nonpos (by omega) hs⟩
  have hday : -719162 ≤ t.day ∧ t.day ≤ 2932896 := by
    unfold Utc.day
    omega
  obtain ⟨u, hu⟩ := @Utc.exists_micros ((t.day + (Nat.find hex + 1) * s) * 86400000000)
    (by omega) (by omega)
  exact ⟨u, (seekTradingDay_eq_ok hd).mpr ⟨_, hu, Nat.find_spec hex, fun m ↦ Nat.find_min hex⟩⟩

/-- `get_next_trading_day` returns midnight of the earliest trading day after the day of `d`. -/
def NextIsRight (c : EconomicCalendar) (holidays : List MarketHoliday) (d : Datetime) : Prop :=
  ∃ t, c.getNextTradingDay d = .ok t ∧ t.timeOfDay = 0 ∧
    IsLeast {day | TradingDay holidays day ∧ d.instant / 86400000000 < day} t.day

/-- `get_previous_trading_day` returns midnight of the latest trading day before the day of `d`. -/
def PreviousIsRight (c : EconomicCalendar) (holidays : List MarketHoliday) (d : Datetime) : Prop :=
  ∃ t, c.getPreviousTradingDay d = .ok t ∧ t.timeOfDay = 0 ∧
    IsGreatest {day | TradingDay holidays day ∧ day < d.instant / 86400000000} t.day

theorem nextIsRight_iff (hc : postInit holidays = .ok c) (d : Datetime) :
    c.NextIsRight holidays d ↔ InRange d ∧
      ∃ day ≤ 2932896, TradingDay holidays day ∧ d.instant / 86400000000 < day := by
  have hone : (86400000000 : Int) = 1 * 86400000000 := rfl
  simp only [NextIsRight, ← tradingDay_of_postInit hc]
  constructor
  · rintro ⟨u, hu, -, ⟨htrading, hlt⟩, -⟩
    obtain ⟨t, ht, -⟩ := bind_eq_ok.mp hu
    have hbounds := u.bounds
    refine ⟨inRange_iff.mpr ⟨t, ht⟩, u.day, ?_, htrading, hlt⟩
    unfold Utc.day
    omega
  · rintro ⟨hrange, day, hday, htrading, hlt⟩
    obtain ⟨t, ht⟩ := inRange_iff.mp hrange
    rw [← toUtc_eq_ok.mp ht] at hlt ⊢
    change t.day < day at hlt
    have ht' := t.bounds
    have hn : t.day + (((day - t.day - 1).toNat : Int) + 1) * 1 = day := by omega
    obtain ⟨u, hu⟩ := exists_seekTradingDay (c := c) hone _ rank_add_lt (t := t)
      (n := (day - t.day - 1).toNat) (hn.symm ▸ htrading)
      ⟨by rw [hn]; unfold Utc.day at hlt; omega, by rw [hn]; exact hday⟩
    refine ⟨u, bind_eq_ok.mpr ⟨t, ht, hu⟩, ?_⟩
    obtain ⟨n, hu, htrading, hbefore⟩ := (seekTradingDay_eq_ok hone).mp hu
    obtain ⟨huday, hutime⟩ := day_timeOfDay_of_midnight hu
    refine ⟨hutime, ⟨huday ▸ htrading, ?_⟩, fun k hk ↦ ?_⟩
    · change t.day < u.day
      omega
    · obtain ⟨hk, htk⟩ := hk
      change t.day < k at htk
      by_contra hlt
      refine hbefore (k - t.day - 1).toNat (by omega) ?_
      rwa [show t.day + (((k - t.day - 1).toNat : Int) + 1) * 1 = k by omega]

theorem previousIsRight_iff (hc : postInit holidays = .ok c) (d : Datetime) :
    c.PreviousIsRight holidays d ↔ InRange d ∧
      ∃ day ≥ -719162, TradingDay holidays day ∧ day < d.instant / 86400000000 := by
  have hone : (-86400000000 : Int) = -1 * 86400000000 := rfl
  simp only [PreviousIsRight, ← tradingDay_of_postInit hc]
  constructor
  · rintro ⟨u, hu, -, ⟨htrading, hlt⟩, -⟩
    obtain ⟨t, ht, -⟩ := bind_eq_ok.mp hu
    have hbounds := u.bounds
    refine ⟨inRange_iff.mpr ⟨t, ht⟩, u.day, ?_, htrading, hlt⟩
    unfold Utc.day
    omega
  · rintro ⟨hrange, day, hday, htrading, hlt⟩
    obtain ⟨t, ht⟩ := inRange_iff.mp hrange
    rw [← toUtc_eq_ok.mp ht] at hlt ⊢
    change day < t.day at hlt
    have ht' := t.bounds
    have hn : t.day + (((t.day - day - 1).toNat : Int) + 1) * -1 = day := by omega
    obtain ⟨u, hu⟩ := exists_seekTradingDay (c := c) hone _ rank_sub_lt (t := t)
      (n := (t.day - day - 1).toNat) (hn.symm ▸ htrading)
      ⟨by rw [hn]; exact hday, by rw [hn]; unfold Utc.day at hlt; omega⟩
    refine ⟨u, bind_eq_ok.mpr ⟨t, ht, hu⟩, ?_⟩
    obtain ⟨n, hu, htrading, hbefore⟩ := (seekTradingDay_eq_ok hone).mp hu
    obtain ⟨huday, hutime⟩ := day_timeOfDay_of_midnight hu
    refine ⟨hutime, ⟨huday ▸ htrading, ?_⟩, fun k hk ↦ ?_⟩
    · change u.day < t.day
      omega
    · obtain ⟨hk, htk⟩ := hk
      change k < t.day at htk
      by_contra hlt
      refine hbefore (t.day - k - 1).toNat (by omega) ?_
      rwa [show t.day + (((t.day - k - 1).toNat : Int) + 1) * -1 = k by omega]

end EconomicCalendar

/-! ## Occurrences -/

structure RecurringEventPattern where
  patternType : String
  interval : Int

namespace RecurringEventPattern

variable (pattern : RecurringEventPattern)

def getNextOccurrence (fromDate : Datetime) : Except String Utc := do
  let current ← toUtc fromDate
  if pattern.patternType = "daily" then timedeltaDays pattern.interval >>= current.add
  else if pattern.patternType = "weekly" then
    let daysUntil := (7 - weekday current.day + pattern.interval * 7) % 7
    let daysUntil := if daysUntil = 0 then 7 else daysUntil
    timedeltaDays daysUntil >>= current.add
  else if pattern.patternType = "monthly" then
    let date := civilFromDays current.day
    let month := date.month + pattern.interval
    let year := date.year + (month - 1) / 12
    let month := (month - 1) % 12 + 1
    let day := min date.day 28
    match current.replaceDate year month day with
    | .ok t => .ok t
    | .error _ => current.replaceDate year month 28
  else timedeltaDays 30 >>= current.add

end RecurringEventPattern

def EconomicCalendar.getRecurringOccurrences (_c : EconomicCalendar)
    (pattern : RecurringEventPattern) (fromDate toDate : Datetime) (maxOccurrences : Int) :
    Except String (List Utc) := do
  let current ← toUtc fromDate
  let endUtc ← toUtc toDate
  collect (fun current ↦ pattern.getNextOccurrence ⟨current, some 0⟩)
    (fun current ↦ decide (current.micros ≤ endUtc.micros)) maxOccurrences.toNat current

namespace RecurringEventPattern

variable (pattern : RecurringEventPattern) (start : Utc)

def startDay : Int := (civilFromDays start.day).day

/-- The place of the `j`th occurrence, in microseconds. -/
def place (j : Nat) : Int :=
  if pattern.patternType = "daily" then start.micros + j * (pattern.interval * 86400000000)
  else if pattern.patternType = "weekly" then
    -- After the start, a Monday in each week.
    start.micros + (if j = 0 then 0 else 7 * j - weekday start.day) * 86400000000
  else
    -- After the start, a day that is in every month.
    daysFromCivil (ofMonth (monthIndex start.day + j * pattern.interval)
      (if j = 0 then startDay start else min (startDay start) 28)) * 86400000000 + start.timeOfDay

/-- The types of pattern with a rule of their own. -/
def HasRule : Prop :=
  pattern.patternType = "daily" ∨ pattern.patternType = "weekly" ∨ pattern.patternType = "monthly"

theorem startDay_bounds : 1 ≤ startDay start ∧ startDay start ≤ 31 :=
  (civilFromDays_bounds start.day).2

variable {pattern start}

theorem place_zero : pattern.place start 0 = start.micros := by
  unfold place
  split
  · rw [Nat.cast_zero, zero_mul, add_zero]
  · split
    · rw [if_pos rfl, zero_mul, add_zero]
    · rw [if_pos rfl, Nat.cast_zero, zero_mul, add_zero, startDay, ofMonth_monthIndex,
        daysFromCivil_civilFromDays]
      unfold Utc.day Utc.timeOfDay
      omega

theorem civilFromDays_of_place {j : Nat} {t : Utc} (hdaily : pattern.patternType ≠ "daily")
    (hweekly : pattern.patternType ≠ "weekly") (ht : t.micros = pattern.place start j) :
    t.timeOfDay = start.timeOfDay ∧
      civilFromDays t.day = ofMonth (monthIndex start.day + j * pattern.interval)
        (if j = 0 then startDay start else min (startDay start) 28) := by
  rw [place, if_neg hdaily, if_neg hweekly] at ht
  have htod := start.timeOfDay_bounds
  obtain ⟨hday, htime⟩ := Utc.day_timeOfDay ht htod.1 htod.2
  refine ⟨htime, ?_⟩
  rw [hday]
  cases j with
  | zero =>
    rw [if_pos rfl, Nat.cast_zero, zero_mul, add_zero, startDay, ofMonth_monthIndex,
      daysFromCivil_civilFromDays]
  | succ j =>
    have := startDay_bounds start
    rw [if_neg j.succ_ne_zero]
    exact civilFromDays_daysFromCivil_ofMonth (by omega) (by omega)

theorem monthIndex_of_place {j : Nat} {t : Utc} (hdaily : pattern.patternType ≠ "daily")
    (hweekly : pattern.patternType ≠ "weekly") (ht : t.micros = pattern.place start j) :
    monthIndex t.day = monthIndex start.day + j * pattern.interval := by
  rw [monthIndex, (civilFromDays_of_place hdaily hweekly ht).2, ofMonth]
  dsimp only
  omega

theorem replaceDate_or {t u : Utc} {k : Int} (hk : 0 < k) :
    (match t.replaceDate ((civilFromDays t.day).year + ((civilFromDays t.day).month + k - 1) / 12)
        (((civilFromDays t.day).month + k - 1) % 12 + 1) (min (civilFromDays t.day).day 28) with
      | .ok t => .ok t
      | .error _ =>
        t.replaceDate ((civilFromDays t.day).year + ((civilFromDays t.day).month + k - 1) / 12)
          (((civilFromDays t.day).month + k - 1) % 12 + 1) 28) = (.ok u : Except String Utc) ↔
      u.micros = daysFromCivil (ofMonth (monthIndex t.day + k) (min (civilFromDays t.day).day 28)) *
        86400000000 + t.timeOfDay := by
  have hyear : (civilFromDays t.day).year + ((civilFromDays t.day).month + k - 1) / 12 =
      (monthIndex t.day + k) / 12 := by
    unfold monthIndex
    omega
  have hmonth : ((civilFromDays t.day).month + k - 1) % 12 + 1 =
      (monthIndex t.day + k) % 12 + 1 := by
    unfold monthIndex
    omega
  obtain ⟨d, hd⟩ : ∃ d, d = min (civilFromDays t.day).day 28 := ⟨_, rfl⟩
  have hbounds : 1 ≤ d ∧ d ≤ 28 := by
    have := (civilFromDays_bounds t.day).2
    omega
  have hreplace : ∀ {d : Int}, 1 ≤ d → d ≤ 28 → ∀ u,
      t.replaceDate ((monthIndex t.day + k) / 12) ((monthIndex t.day + k) % 12 + 1) d = .ok u ↔
        u.micros = daysFromCivil (ofMonth (monthIndex t.day + k) d) * 86400000000 + t.timeOfDay :=
    fun h₁ h₂ u ↦ @Utc.replaceDate_eq_ok t u (ofMonth (monthIndex t.day + k) _)
      (civilFromDays_daysFromCivil_ofMonth h₁ h₂)
  rw [hyear, hmonth, ← hd]
  cases hfirst : t.replaceDate ((monthIndex t.day + k) / 12) ((monthIndex t.day + k) % 12 + 1) d with
  | ok v => rw [← hreplace hbounds.1 hbounds.2 u, hfirst]
  | error e =>
    dsimp only
    rw [hreplace (by decide) le_rfl u]
    have hnone : ∀ v : Utc, v.micros ≠ daysFromCivil (ofMonth (monthIndex t.day + k) d) *
        86400000000 + t.timeOfDay := by
      intro v hv
      cases hfirst.symm.trans ((hreplace hbounds.1 hbounds.2 v).mpr hv)
    refine iff_of_false (fun hu ↦ ?_) (hnone u)
    have hlater : t.day < daysFromCivil (ofMonth (monthIndex t.day + k) d) := by
      refine monthIndex_mono.reflect_lt ?_
      rw [monthIndex_daysFromCivil_ofMonth hbounds.1 hbounds.2]
      omega
    have hday := daysFromCivil_ofMonth (monthIndex t.day + k) d
    have hday' := daysFromCivil_ofMonth (monthIndex t.day + k) 28
    have ht := t.bounds
    have hu' := u.bounds
    have htime := t.timeOfDay_bounds
    have hsum : t.micros = t.day * 86400000000 + t.timeOfDay := by
      unfold Utc.day Utc.timeOfDay
      omega
    obtain ⟨v, hv⟩ := @Utc.exists_micros (daysFromCivil (ofMonth (monthIndex t.day + k) d) *
      86400000000 + t.timeOfDay) (by omega) (by omega)
    exact hnone v hv

/-- **One step**: from each place to the next. -/
theorem getNextOccurrence_eq_ok (hrule : pattern.HasRule) (hinterval : 0 < pattern.interval)
    {j : Nat} {t u : Utc} (ht : t.micros = pattern.place start j) :
    pattern.getNextOccurrence ⟨t, some 0⟩ = .ok u ↔ u.micros = pattern.place start (j + 1) := by
  unfold getNextOccurrence
  rw [toUtc_utc]
  change (if pattern.patternType = "daily" then _ else _) = _ ↔ _
  by_cases hdaily : pattern.patternType = "daily"
  · rw [if_pos hdaily, add_timedeltaDays_eq_ok, ht, place, place, if_pos hdaily, if_pos hdaily]
    push_cast
    rw [add_mul, one_mul, add_assoc]
  rw [if_neg hdaily]
  by_cases hweekly : pattern.patternType = "weekly"
  · rw [if_pos hweekly, add_timedeltaDays_eq_ok]
    rw [place, if_neg hdaily, if_pos hweekly] at ht ⊢
    obtain ⟨x, hx⟩ : ∃ x : Int, x = if j = 0 then 0 else 7 * j - weekday start.day := ⟨_, rfl⟩
    rw [← hx] at ht
    -- From a Monday it is a week to the next.
    have hday : t.day = start.day + x := by
      unfold Utc.day
      omega
    have huntil : (if (7 - weekday t.day + pattern.interval * 7) % 7 = 0 then 7
        else (7 - weekday t.day + pattern.interval * 7) % 7) = 7 * (j + 1) - weekday start.day - x := by
      rw [hday, hx]
      unfold weekday
      cases j with
      | zero =>
        rw [if_pos rfl]
        split <;> omega
      | succ j =>
        rw [if_neg j.succ_ne_zero]
        push_cast
        split <;> omega
    rw [huntil, ht, if_neg j.succ_ne_zero]
    push_cast
    rw [show start.micros + x * 86400000000 + (7 * (j + 1) - weekday start.day - x) * 86400000000 =
      start.micros + (7 * (j + 1) - weekday start.day) * 86400000000 by ring]
  rw [if_neg hweekly, if_pos (hrule.resolve_left hdaily |>.resolve_left hweekly)]
  obtain ⟨htime, hcivil⟩ := civilFromDays_of_place hdaily hweekly ht
  refine (replaceDate_or hinterval).trans ?_
  have hindex := monthIndex_of_place hdaily hweekly ht
  have hday : min (civilFromDays t.day).day 28 = min (startDay start) 28 := by
    rw [hcivil, ofMonth]
    dsimp only
    split
    · rfl
    · rw [min_assoc, min_self]
  rw [place, if_neg hdaily, if_neg hweekly, if_neg j.succ_ne_zero, htime, hindex, hday]
  push_cast
  rw [add_mul, one_mul, add_assoc]

theorem place_strictMono (hinterval : 0 < pattern.interval) : StrictMono (pattern.place start) := by
  refine strictMono_nat_of_lt_succ fun j ↦ ?_
  by_cases hdaily : pattern.patternType = "daily"
  · rw [place, place, if_pos hdaily, if_pos hdaily]
    push_cast
    rw [add_mul]
    omega
  by_cases hweekly : pattern.patternType = "weekly"
  · rw [place, place, if_neg hdaily, if_neg hdaily, if_pos hweekly, if_pos hweekly,
      if_neg j.succ_ne_zero]
    push_cast
    unfold weekday
    split <;> omega
  · rw [place, place, if_neg hdaily, if_neg hdaily, if_neg hweekly, if_neg hweekly,
      if_neg j.succ_ne_zero]
    have hbounds := startDay_bounds start
    -- The month is later, whatever the day.
    have hmonth : monthIndex (daysFromCivil (ofMonth (monthIndex start.day + j * pattern.interval)
        (if j = 0 then startDay start else min (startDay start) 28))) =
        monthIndex start.day + j * pattern.interval := by
      by_cases hj : j = 0
      · rw [if_pos hj, hj, Nat.cast_zero, zero_mul, add_zero, startDay, ofMonth_monthIndex,
          daysFromCivil_civilFromDays]
      · rw [if_neg hj]
        exact monthIndex_daysFromCivil_ofMonth (by omega) (by omega)
    have hnext : monthIndex (daysFromCivil (ofMonth (monthIndex start.day +
        (j + 1 : Nat) * pattern.interval) (min (startDay start) 28))) =
        monthIndex start.day + (j * pattern.interval + pattern.interval) := by
      rw [monthIndex_daysFromCivil_ofMonth (by omega) (by omega)]
      push_cast
      ring
    have hlt := monthIndex_mono.reflect_lt (hmonth.trans_lt
      ((Int.add_lt_add_left (Int.lt_add_of_pos_right _ hinterval) _).trans_eq hnext.symm))
    omega

/-! ### What is right -/

def IsDate (date : Civil) : Prop := civilFromDays (daysFromCivil date) = date

variable (pattern start) in
/-- The distance of neighbours: so many days, weeks or months, on the day of the start in each
month that has it. -/
def Apart (t u : Utc) : Prop :=
  if pattern.patternType = "daily" then u.micros = t.micros + pattern.interval * 86400000000
  else if pattern.patternType = "weekly" then
    u.micros = t.micros + 7 * pattern.interval * 86400000000
  else
    monthIndex u.day = monthIndex t.day + pattern.interval ∧ u.timeOfDay = t.timeOfDay ∧
      (IsDate (ofMonth (monthIndex u.day) (startDay start)) →
        (civilFromDays u.day).day = startDay start)

variable (pattern) in
/-- `get_recurring_occurrences` returns increasing times in the range, as far apart as they should
be. -/
def OccurrencesAreRight (c : EconomicCalendar) (fromDate toDate : Datetime) (maxOccurrences : Int) :
    Prop :=
  ∃ start l, toUtc fromDate = .ok start ∧
    c.getRecurringOccurrences pattern fromDate toDate maxOccurrences = .ok l ∧
    l.Pairwise (· < ·) ∧ (∀ t ∈ l, fromDate.instant ≤ t.micros ∧ t.micros ≤ toDate.instant) ∧
    l.IsChain (pattern.Apart start)

variable (pattern start) in
/-- What the weekly and the monthly rule need of the start. -/
def Regular (stop maxOccurrences : Int) : Prop :=
  if pattern.patternType = "daily" then True
  else if pattern.patternType = "weekly" then
    -- A second occurrence is the next Monday.
    1 < maxOccurrences → start.micros + (7 - weekday start.day) * 86400000000 ≤ stop →
      weekday start.day = 0 ∧ pattern.interval = 1
  else
    -- From the second occurrence on, days after the 28th are lost.
    ∀ j : Nat, 0 < j → j < maxOccurrences → pattern.place start j ≤ stop →
      IsDate (ofMonth (monthIndex start.day + j * pattern.interval) (startDay start)) →
      startDay start ≤ 28

variable (pattern) in
/-- The times are in the range of times, the one after the last occurrence as well, and the rule
has what it needs of the start. -/
def Suits (fromDate toDate : Datetime) (maxOccurrences : Int) : Prop :=
  ∃ start, toUtc fromDate = .ok start ∧ InRange toDate ∧
    (∀ j : Nat, j < maxOccurrences → pattern.place start j ≤ toDate.instant →
      pattern.place start (j + 1) ≤ 253402300799999999) ∧
    pattern.Regular start toDate.instant maxOccurrences

theorem regular_iff (hinterval : 0 < pattern.interval) {stop : Int}
    {maxOccurrences : Int} (hstop : stop ≤ 253402300799999999) :
    pattern.Regular start stop maxOccurrences ↔
      ∀ (j : Nat) (t u : Utc), j + 1 < maxOccurrences.toNat → pattern.place start (j + 1) ≤ stop →
        t.micros = pattern.place start j → u.micros = pattern.place start (j + 1) →
        pattern.Apart start t u := by
  unfold Regular
  by_cases hdaily : pattern.patternType = "daily"
  · rw [if_pos hdaily]
    refine iff_of_true trivial fun j t u _ _ ht hu ↦ ?_
    rw [place, if_pos hdaily] at ht hu
    rw [Apart, if_pos hdaily, ht, hu]
    push_cast
    ring
  rw [if_neg hdaily]
  by_cases hweekly : pattern.patternType = "weekly"
  · rw [if_pos hweekly]
    have hplace : ∀ j : Nat, pattern.place start (j + 1) =
        start.micros + (7 * (j + 1) - weekday start.day) * 86400000000 := by
      intro j
      rw [place, if_neg hdaily, if_pos hweekly, if_neg j.succ_ne_zero]
      push_cast
      rfl
    have hapart : ∀ t u, pattern.Apart start t u ↔
        u.micros = t.micros + 7 * pattern.interval * 86400000000 := by
      intro t u
      rw [Apart, if_neg hdaily, if_pos hweekly]
    constructor
    · intro hregular j t u hj hle ht hu
      rw [hplace] at hle hu
      obtain ⟨hmonday, hone⟩ := hregular (by omega) (by omega)
      rw [hapart, hu, hone, hmonday]
      cases j with
      | zero =>
        rw [ht, place_zero]
        omega
      | succ j =>
        rw [ht, hplace, hmonday]
        push_cast
        ring
    · intro h hmax hle
      have hstart := start.bounds
      have hweekday : weekday start.day < 7 ∧ 0 ≤ weekday start.day := by
        unfold weekday
        omega
      obtain ⟨u, hu⟩ := @Utc.exists_micros
        (start.micros + (7 - weekday start.day) * 86400000000) (by omega) (by omega)
      have h := (hapart _ _).mp (h 0 start u (by omega) (by rw [hplace]; simpa using hle)
        place_zero.symm (by rw [hplace, hu]; push_cast; ring))
      omega
  · rw [if_neg hweekly]
    have hapart : ∀ {j : Nat} {t u : Utc}, t.micros = pattern.place start j →
        u.micros = pattern.place start (j + 1) → (pattern.Apart start t u ↔
          (IsDate (ofMonth (monthIndex start.day + (j + 1 : Nat) * pattern.interval)
            (startDay start)) → startDay start ≤ 28)) := by
      intro j t u ht hu
      obtain ⟨htime, hcivil⟩ := civilFromDays_of_place hdaily hweekly ht
      obtain ⟨htime', hcivil'⟩ := civilFromDays_of_place hdaily hweekly hu
      rw [Apart, if_neg hdaily, if_neg hweekly, monthIndex_of_place hdaily hweekly ht,
        monthIndex_of_place hdaily hweekly hu, htime, htime', hcivil', if_neg j.succ_ne_zero, ofMonth]
      have hindex : monthIndex start.day + ((j + 1 : Nat) : Int) * pattern.interval =
          monthIndex start.day + j * pattern.interval + pattern.interval := by
        push_cast
        ring
      simp only [hindex, true_and, min_eq_left_iff, ofMonth]
    constructor
    · intro hregular j t u hj hle ht hu
      exact (hapart ht hu).mpr (hregular (j + 1) j.succ_pos (by omega) hle)
    · intro h j hj hmax hle
      obtain ⟨j, rfl⟩ : ∃ i, j = i + 1 := Nat.exists_eq_succ_of_ne_zero hj.ne'
      have hmono : Monotone (pattern.place start) := (place_strictMono hinterval).monotone
      have hzero := hmono j.zero_le
      have hsucc := hmono (Nat.le_add_right j 1)
      have hstart := start.bounds
      rw [place_zero] at hzero
      obtain ⟨t, ht⟩ := @Utc.exists_micros (pattern.place start j) (by omega) (by omega)
      obtain ⟨u, hu⟩ := @Utc.exists_micros (pattern.place start (j + 1)) (by omega) (by omega)
      exact (hapart ht hu).mp (h j t u (by omega) hle ht hu)

/-- **When the occurrences are right.** -/
theorem occurrencesAreRight_iff (hrule : pattern.HasRule) (hinterval : 0 < pattern.interval)
    (c : EconomicCalendar) (fromDate toDate : Datetime) (maxOccurrences : Int) :
    pattern.OccurrencesAreRight c fromDate toDate maxOccurrences ↔
      pattern.Suits fromDate toDate maxOccurrences := by
  refine exists_congr fun start ↦ ?_
  rw [exists_and_left]
  refine and_congr_right fun hstart ↦ ?_
  have hmono : StrictMono (pattern.place start) := place_strictMono hinterval
  have hnext : ∀ (j : Nat) (t u : Utc), t.micros = pattern.place start j →
      (pattern.getNextOccurrence ⟨t, some 0⟩ = .ok u ↔ u.micros = pattern.place start (j + 1)) :=
    fun j t u ↦ getNextOccurrence_eq_ok hrule hinterval
  have hrun : ∀ l, c.getRecurringOccurrences pattern fromDate toDate maxOccurrences = .ok l ↔
      InRange toDate ∧ collect (fun current ↦ pattern.getNextOccurrence ⟨current, some 0⟩)
        (fun current ↦ decide (current.micros ≤ toDate.instant)) maxOccurrences.toNat start =
          .ok l := by
    intro l
    rw [EconomicCalendar.getRecurringOccurrences, hstart]
    change (toUtc toDate >>= _) = _ ↔ _
    rw [bind_eq_ok, inRange_iff]
    constructor
    · rintro ⟨stop, hstop, hl⟩
      rw [toUtc_eq_ok.mp hstop] at hl
      exact ⟨⟨stop, hstop⟩, hl⟩
    · rintro ⟨⟨stop, hstop⟩, hl⟩
      refine ⟨stop, hstop, ?_⟩
      rw [toUtc_eq_ok.mp hstop]
      exact hl
  simp only [hrun]
  constructor
  · rintro ⟨l, ⟨hrange, hl⟩, -, -, hchain⟩
    refine ⟨hrange, fun j hj hle ↦ ?_, (regular_iff hinterval hrange.2).mpr ?_⟩
    · obtain ⟨u, hu⟩ := (exists_collect hmono.monotone place_zero.symm hnext).mp ⟨l, hl⟩ j (by omega) hle
      rw [← hu]
      exact u.bounds.2
    · exact (isChain_collect hmono.monotone Utc.micros_injective place_zero.symm hnext hl).mp hchain
  · rintro ⟨hrange, hnone, hregular⟩
    obtain ⟨l, hl⟩ := (exists_collect (n := maxOccurrences.toNat) hmono.monotone
        place_zero.symm hnext).mpr fun j hj hle ↦
      Utc.exists_micros (by
        have := start.bounds.1
        have := hmono.monotone (j + 1).zero_le
        rw [place_zero] at this
        omega) (hnone j (by omega) hle)
    have hget := fun {j : Nat} {u : Utc} ↦ getElem?_collect hmono.monotone Utc.micros_injective
      place_zero.symm hnext hl (j := j) (u := u)
    refine ⟨l, ⟨hrange, hl⟩, ?_, fun t ht ↦ ?_,
      (isChain_collect hmono.monotone Utc.micros_injective place_zero.symm hnext hl).mpr
        ((regular_iff hinterval hrange.2).mp hregular)⟩
    · rw [List.pairwise_iff_getElem]
      intro i j hi hj hij
      obtain ⟨-, -, ht⟩ := hget.mp (List.getElem?_eq_getElem hi)
      obtain ⟨-, -, hu⟩ := hget.mp (List.getElem?_eq_getElem hj)
      rw [Utc.lt_iff, ht, hu]
      exact hmono hij
    · obtain ⟨j, ht⟩ := List.mem_iff_getElem?.mp ht
      obtain ⟨-, hle, ht⟩ := hget.mp ht
      have hzero := hmono.monotone j.zero_le
      rw [place_zero, toUtc_eq_ok.mp hstart] at hzero
      exact ⟨ht ▸ hzero, ht ▸ hle⟩

end RecurringEventPattern

/-- **When the calendar is right**: the trading days next to each time, and the occurrences of each
pattern in each range. -/
theorem calendar_isRight_iff {holidays : List MarketHoliday} {c : EconomicCalendar}
    (hc : EconomicCalendar.postInit holidays = .ok c) {pattern : RecurringEventPattern}
    (hrule : pattern.HasRule) (hinterval : 0 < pattern.interval) (d fromDate toDate : Datetime)
    (maxOccurrences : Int) :
    (c.NextIsRight holidays d ↔ InRange d ∧ ∃ day ≤ 2932896,
      EconomicCalendar.TradingDay holidays day ∧ d.instant / 86400000000 < day) ∧
    (c.PreviousIsRight holidays d ↔ InRange d ∧ ∃ day ≥ -719162,
      EconomicCalendar.TradingDay holidays day ∧ day < d.instant / 86400000000) ∧
    (pattern.OccurrencesAreRight c fromDate toDate maxOccurrences ↔
      pattern.Suits fromDate toDate maxOccurrences) :=
  ⟨EconomicCalendar.nextIsRight_iff hc d, EconomicCalendar.previousIsRight_iff hc d,
    RecurringEventPattern.occurrencesAreRight_iff hrule hinterval c fromDate toDate maxOccurrences⟩

def midnightOf (day : Int) (h : -719162 ≤ day ∧ day ≤ 2932896) : Datetime :=
  ⟨⟨day * 86400000000, by omega⟩, some 0⟩

/-- The Monday after Friday, 5 January 2024 is a holiday. -/
theorem monday_holiday :
    (⟨[⟨midnightOf 19730 (by decide)⟩]⟩ : EconomicCalendar).NextIsRight
        [⟨midnightOf 19730 (by decide)⟩] (midnightOf 19727 (by decide)) ∧
      (⟨"weekly", 1⟩ : RecurringEventPattern).OccurrencesAreRight
        ⟨[⟨midnightOf 19730 (by decide)⟩]⟩ (midnightOf 19730 (by decide))
        (midnightOf 19760 (by decide)) 100 := by
  have hright := @calendar_isRight_iff [⟨midnightOf 19730 (by decide)⟩] _ rfl ⟨"weekly", 1⟩
    (.inr (.inl rfl)) (by decide) (midnightOf 19727 (by decide)) (midnightOf 19730 (by decide))
    (midnightOf 19760 (by decide)) 100
  refine ⟨hright.1.mpr ⟨⟨by decide, by decide⟩, 19731, by decide, by decide, by decide⟩,
    hright.2.2.mpr ⟨_, toUtc_utc _, ⟨by decide, by decide⟩, fun j _ hle ↦ ?_, ?_⟩⟩
  · unfold RecurringEventPattern.place at hle ⊢
    rw [if_neg (by decide), if_pos rfl] at hle ⊢
    change 1704672000000000 + (if j = 0 then 0 else 7 * (j : Int) - 0) * 86400000000 ≤
      (1707264000000000 : Int) at hle
    change 1704672000000000 + (if j + 1 = 0 then 0 else 7 * ((j + 1 : Nat) : Int) - 0) *
      86400000000 ≤ (253402300799999999 : Int)
    rw [if_neg j.succ_ne_zero]
    push_cast
    split at hle <;> omega
  · unfold RecurringEventPattern.Regular
    rw [if_neg (by decide), if_pos rfl]
    exact fun _ _ ↦ ⟨rfl, rfl⟩

/-- Every second week is every week. -/
theorem second_week_not_right :
    ¬ (⟨"weekly", 2⟩ : RecurringEventPattern).OccurrencesAreRight ⟨[]⟩
      (midnightOf 19723 (by decide)) (midnightOf 19735 (by decide)) 100 := by
  rintro ⟨start, l, hstart, hl, -, -, hchain⟩
  obtain rfl := Except.ok.inj (hstart.symm.trans (toUtc_utc _))
  have hl' : (⟨[]⟩ : EconomicCalendar).getRecurringOccurrences ⟨"weekly", 2⟩
      (midnightOf 19723 (by decide)) (midnightOf 19735 (by decide)) 100 =
      .ok [(midnightOf 19723 (by decide)).clock, (midnightOf 19730 (by decide)).clock] := by
    rfl
  obtain rfl := Except.ok.inj (hl.symm.trans hl')
  have hapart := (List.isChain_cons_cons.mp hchain).1
  unfold RecurringEventPattern.Apart at hapart
  rw [if_neg (by decide), if_pos rfl] at hapart
  exact absurd hapart (by decide)

end Qros.Macro
