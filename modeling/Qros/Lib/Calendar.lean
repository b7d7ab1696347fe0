import Mathlib.Tactic.Ring
import Mathlib.Algebra.Order.SuccPred
import Mathlib.Data.Int.ConditionallyCompleteOrder

/-!
# The proleptic Gregorian calendar

Days are counted from 1970-01-01.  `civilFromDays` turns a day number into a
year, month and day of month, and `daysFromCivil` is its left inverse, so that
two day numbers with the same date are equal.  Both work in 400-year eras of
`146097` days whose years begin on 1 March, which puts the leap day last: an era
splits into centuries of `36524` days, four-year cycles of `1461` and years of
`365`, the last of each kind being one day longer.
-/

namespace Qros.Lib.Calendar

/-- A calendar date. -/
@[ext]
structure Civil where
  year : Int
  month : Int
  day : Int
deriving DecidableEq

structure EraDay where
  century : Int
  cycle : Int
  year : Int
  doy : Int

def eraDay (doe : Int) : EraDay :=
  let c := min (doe / 36524) 3
  let q := (doe - 36524 * c) / 1461
  let a := min ((doe - 36524 * c - 1461 * q) / 365) 3
  ⟨c, q, a, doe - 36524 * c - 1461 * q - 365 * a⟩

def marchMonth (doy : Int) : Int := (5 * doy + 2) / 153

/-- The date of a day number. -/
def civilFromDays (days : Int) : Civil :=
  let e := eraDay ((days + 719468) % 146097)
  let mp := marchMonth e.doy
  let month := if mp < 10 then mp + 3 else mp - 9
  { year := (days + 719468) / 146097 * 400 + (100 * e.century + 4 * e.cycle + e.year) +
      (if month ≤ 2 then 1 else 0)
    month := month
    day := e.doy - (153 * mp + 2) / 5 + 1 }

/-- The day number of a date. -/
def daysFromCivil (c : Civil) : Int :=
  let y := if c.month ≤ 2 then c.year - 1 else c.year
  let yoe := y % 400
  let mp := if c.month ≤ 2 then c.month + 9 else c.month - 3
  let doy := (153 * mp + 2) / 5 + c.day - 1
  y / 400 * 146097 + (yoe * 365 + yoe / 4 - yoe / 100 + doy) - 719468

theorem eraDay_bounds {doe : Int} (h₀ : 0 ≤ doe) (h₁ : doe < 146097) :
    (0 ≤ (eraDay doe).century ∧ (eraDay doe).century ≤ 3) ∧
      (0 ≤ (eraDay doe).cycle ∧ (eraDay doe).cycle ≤ 24) ∧
      (0 ≤ (eraDay doe).year ∧ (eraDay doe).year ≤ 3) ∧
      (0 ≤ (eraDay doe).doy ∧ (eraDay doe).doy ≤ 365) := by
  simp only [eraDay]
  omega

theorem eraDay_sum (doe : Int) :
    36524 * (eraDay doe).century + 1461 * (eraDay doe).cycle + 365 * (eraDay doe).year +
      (eraDay doe).doy = doe := by
  simp only [eraDay]
  ring

theorem marchMonth_bounds {doy : Int} (h₀ : 0 ≤ doy) (h₁ : doy ≤ 365) :
    0 ≤ marchMonth doy ∧ marchMonth doy ≤ 11 := by
  unfold marchMonth
  omega

theorem civilFromDays_bounds (days : Int) :
    (1 ≤ (civilFromDays days).month ∧ (civilFromDays days).month ≤ 12) ∧
      1 ≤ (civilFromDays days).day ∧ (civilFromDays days).day ≤ 31 := by
  obtain ⟨-, -, -, hd₀, hd₁⟩ := @eraDay_bounds ((days + 719468) % 146097)
    (by omega) (by omega)
  have hm := marchMonth_bounds hd₀ hd₁
  simp only [civilFromDays]
  unfold marchMonth at *
  split <;> omega

/-- The leap days before a year of the era, from its century and cycle. -/
theorem yearOfEra_div {c q a : Int} (hc : 0 ≤ c ∧ c ≤ 3) (hq : 0 ≤ q ∧ q ≤ 24)
    (ha : 0 ≤ a ∧ a ≤ 3) (era : Int) :
    (era * 400 + (100 * c + 4 * q + a)) / 400 = era ∧
      (era * 400 + (100 * c + 4 * q + a)) % 400 = 100 * c + 4 * q + a ∧
      (100 * c + 4 * q + a) / 4 = 25 * c + q ∧ (100 * c + 4 * q + a) / 100 = c := by
  omega

/-- **The date determines the day.** -/
theorem daysFromCivil_civilFromDays (days : Int) :
    daysFromCivil (civilFromDays days) = days := by
  obtain ⟨hc, hq, ha, hd₀, hd₁⟩ := @eraDay_bounds ((days + 719468) % 146097)
    (by omega) (by omega)
  have hsum := eraDay_sum ((days + 719468) % 146097)
  have hm := marchMonth_bounds hd₀ hd₁
  obtain ⟨h₁, h₂, h₃, h₄⟩ := yearOfEra_div hc hq ha ((days + 719468) / 146097)
  simp only [civilFromDays, daysFromCivil]
  -- January and February are months 10 and 11 of the year that began in March.
  by_cases hmp : marchMonth (eraDay ((days + 719468) % 146097)).doy < 10
  · have hmonth : ¬ (marchMonth (eraDay ((days + 719468) % 146097)).doy + 3 ≤ 2) := by omega
    simp only [hmp, hmonth, if_true, if_false, Int.add_zero, Int.add_sub_cancel, h₁, h₂, h₃, h₄]
    omega
  · have hmonth : marchMonth (eraDay ((days + 719468) % 146097)).doy - 9 ≤ 2 := by omega
    simp only [hmp, hmonth, if_true, if_false, Int.add_sub_cancel, Int.sub_add_cancel,
      h₁, h₂, h₃, h₄]
    omega

theorem civilFromDays_injective : Function.Injective civilFromDays :=
  Function.LeftInverse.injective daysFromCivil_civilFromDays

example : civilFromDays 19723 = ⟨2024, 1, 1⟩ := by decide

/-! ## Months in order -/

/-- The days before a year that begins in March, from 1 March of year 0. -/
def yearStart (y : Int) : Int := 365 * y + y / 4 - y / 100 + y / 400

def marchYear (days : Int) : Int :=
  let e := eraDay ((days + 719468) % 146097)
  (days + 719468) / 146097 * 400 + (100 * e.century + 4 * e.cycle + e.year)

theorem yearStart_eq (y : Int) :
    yearStart y = y / 400 * 146097 + (y % 400 * 365 + y % 400 / 4 - y % 400 / 100) := by
  unfold yearStart
  omega

theorem yearStart_succ (y : Int) :
    yearStart y + 365 ≤ yearStart (y + 1) ∧ yearStart (y + 1) ≤ yearStart y + 366 := by
  unfold yearStart
  omega

theorem yearStart_strictMono : StrictMono yearStart :=
  strictMono_int_of_lt_succ fun y ↦ by
    have := yearStart_succ y
    omega

theorem yearStart_of_era {c q a : Int} (hc : 0 ≤ c ∧ c ≤ 3) (hq : 0 ≤ q ∧ q ≤ 24)
    (ha : 0 ≤ a ∧ a ≤ 3) (era : Int) :
    yearStart (era * 400 + (100 * c + 4 * q + a)) =
      146097 * era + (36524 * c + 1461 * q + 365 * a) := by
  unfold yearStart
  omega

theorem yearStart_marchYear (days : Int) :
    yearStart (marchYear days) + (eraDay ((days + 719468) % 146097)).doy = days + 719468 := by
  obtain ⟨hc, hq, ha, -⟩ := @eraDay_bounds ((days + 719468) % 146097) (by omega) (by omega)
  have hsum := eraDay_sum ((days + 719468) % 146097)
  have hstart := yearStart_of_era hc hq ha ((days + 719468) / 146097)
  rw [marchYear]
  omega

theorem eraDay_doy_lt (doe : Int) :
    (eraDay doe).doy < 365 ∨ (eraDay doe).year = 3 ∧
      ((eraDay doe).cycle < 24 ∨ (eraDay doe).century = 3) := by
  simp only [eraDay]
  omega

theorem lt_yearStart_succ (days : Int) : days + 719468 < yearStart (marchYear days + 1) := by
  have hstart := yearStart_marchYear days
  obtain ⟨hc, hq, ha, -, hd⟩ := @eraDay_bounds ((days + 719468) % 146097) (by omega) (by omega)
  rcases eraDay_doy_lt ((days + 719468) % 146097) with hlt | ⟨hyear, hcycle⟩
  · have := yearStart_succ (marchYear days)
    omega
  · have hera : marchYear days = (days + 719468) / 146097 * 400 +
        (100 * (eraDay ((days + 719468) % 146097)).century +
          4 * (eraDay ((days + 719468) % 146097)).cycle + 3) := by
      rw [← hyear]
      rfl
    have hthis := yearStart_of_era hc hq (a := 3) (by omega) ((days + 719468) / 146097)
    rw [← hera] at hthis
    by_cases hlast : (eraDay ((days + 719468) % 146097)).cycle < 24
    · have hnext := yearStart_of_era hc (q := (eraDay ((days + 719468) % 146097)).cycle + 1)
        (by omega) (a := 0) (by omega) ((days + 719468) / 146097)
      have hsucc : marchYear days + 1 = (days + 719468) / 146097 * 400 +
          (100 * (eraDay ((days + 719468) % 146097)).century +
            4 * ((eraDay ((days + 719468) % 146097)).cycle + 1) + 0) := by
        omega
      rw [hsucc]
      omega
    · have hnext := yearStart_of_era (c := 0) (by omega) (q := 0) (by omega) (a := 0) (by omega)
        ((days + 719468) / 146097 + 1)
      have hsucc : marchYear days + 1 =
          ((days + 719468) / 146097 + 1) * 400 + (100 * 0 + 4 * 0 + 0) := by
        omega
      rw [hsucc]
      omega

theorem marchYear_eq {days y : Int} (h : yearStart y ≤ days + 719468)
    (h' : days + 719468 < yearStart (y + 1)) : marchYear days = y := by
  have hlt := lt_yearStart_succ days
  have hstart := yearStart_marchYear days
  obtain ⟨-, -, -, hd, -⟩ := @eraDay_bounds ((days + 719468) % 146097) (by omega) (by omega)
  have hle : marchYear days < y + 1 := yearStart_strictMono.lt_iff_lt.mp (by omega)
  have hge : y < marchYear days + 1 := yearStart_strictMono.lt_iff_lt.mp (by omega)
  omega

def dayOfMarchYear (days : Int) : Int := days + 719468 - yearStart (marchYear days)

theorem dayOfMarchYear_bounds (days : Int) :
    0 ≤ dayOfMarchYear days ∧ dayOfMarchYear days ≤ 365 := by
  have hstart := yearStart_marchYear days
  obtain ⟨-, -, -, hd, hd'⟩ := @eraDay_bounds ((days + 719468) % 146097) (by omega) (by omega)
  unfold dayOfMarchYear
  omega

def monthIndex (days : Int) : Int :=
  (civilFromDays days).year * 12 + ((civilFromDays days).month - 1)

def ofMonth (index day : Int) : Civil := ⟨index / 12, index % 12 + 1, day⟩

theorem ofMonth_monthIndex (days : Int) :
    ofMonth (monthIndex days) (civilFromDays days).day = civilFromDays days := by
  obtain ⟨⟨hm, hm'⟩, -⟩ := civilFromDays_bounds days
  unfold ofMonth monthIndex
  ext
  · dsimp only
    omega
  · dsimp only
    omega
  · rfl

theorem civilFromDays_eq (days : Int) :
    civilFromDays days = ofMonth (marchYear days * 12 + marchMonth (dayOfMarchYear days) + 2)
      (dayOfMarchYear days - (153 * marchMonth (dayOfMarchYear days) + 2) / 5 + 1) := by
  have hdoy : (eraDay ((days + 719468) % 146097)).doy = dayOfMarchYear days := by
    have hstart := yearStart_marchYear days
    unfold dayOfMarchYear
    omega
  obtain ⟨hd, hd'⟩ := dayOfMarchYear_bounds days
  have hm := marchMonth_bounds hd hd'
  unfold ofMonth
  ext
  · simp only [civilFromDays, hdoy, marchYear]
    split <;> omega
  · simp only [civilFromDays, hdoy]
    split <;> omega
  · simp only [civilFromDays, hdoy]

theorem monthIndex_eq (days : Int) :
    monthIndex days = marchYear days * 12 + marchMonth (dayOfMarchYear days) + 2 := by
  rw [monthIndex, civilFromDays_eq, ofMonth]
  dsimp only
  omega

theorem marchYear_mono : Monotone marchYear := by
  intro days days' h
  have hstart := yearStart_marchYear days
  have hlt := lt_yearStart_succ days'
  obtain ⟨-, -, -, hd, -⟩ := @eraDay_bounds ((days + 719468) % 146097) (by omega) (by omega)
  exact Int.lt_add_one_iff.mp (yearStart_strictMono.lt_iff_lt.mp (by omega))

theorem monthIndex_mono : Monotone monthIndex := by
  intro days days' h
  obtain ⟨hd, hd'⟩ := dayOfMarchYear_bounds days
  obtain ⟨he, he'⟩ := dayOfMarchYear_bounds days'
  have hm := marchMonth_bounds hd hd'
  have hn := marchMonth_bounds he he'
  rw [monthIndex_eq, monthIndex_eq]
  rcases (marchYear_mono h).lt_or_eq with hlt | heq
  · omega
  · have hdoy : dayOfMarchYear days ≤ dayOfMarchYear days' := by
      rw [dayOfMarchYear, dayOfMarchYear, heq]
      omega
    have hmonth : marchMonth (dayOfMarchYear days) ≤ marchMonth (dayOfMarchYear days') := by
      unfold marchMonth
      omega
    omega

theorem civilFromDays_daysFromCivil_ofMonth {index day : Int} (h₁ : 1 ≤ day) (h₂ : day ≤ 28) :
    civilFromDays (daysFromCivil (ofMonth index day)) = ofMonth index day := by
  have hdays : daysFromCivil (ofMonth index day) + 719468 =
      yearStart ((index - 2) / 12) + (153 * ((index - 2) % 12) + 2) / 5 + day - 1 := by
    rw [yearStart_eq, daysFromCivil, ofMonth]
    dsimp only
    split
    · have hyear : index / 12 - 1 = (index - 2) / 12 := by omega
      have hmonth : index % 12 + 1 + 9 = (index - 2) % 12 := by omega
      rw [hyear, hmonth]
      omega
    · have hyear : index / 12 = (index - 2) / 12 := by omega
      have hmonth : index % 12 + 1 - 3 = (index - 2) % 12 := by omega
      rw [hyear, hmonth]
      omega
  have hyear : marchYear (daysFromCivil (ofMonth index day)) = (index - 2) / 12 := by
    have := yearStart_succ ((index - 2) / 12)
    exact marchYear_eq (by omega) (by omega)
  have hdoy : dayOfMarchYear (daysFromCivil (ofMonth index day)) =
      (153 * ((index - 2) % 12) + 2) / 5 + day - 1 := by
    rw [dayOfMarchYear, hyear, hdays]
    omega
  have hmonth : marchMonth (dayOfMarchYear (daysFromCivil (ofMonth index day))) =
      (index - 2) % 12 := by
    rw [hdoy, marchMonth]
    omega
  rw [civilFromDays_eq, hmonth, hyear, hdoy]
  congr 1 <;> omega

theorem monthIndex_daysFromCivil_ofMonth {index day : Int} (h₁ : 1 ≤ day) (h₂ : day ≤ 28) :
    monthIndex (daysFromCivil (ofMonth index day)) = index := by
  rw [monthIndex, civilFromDays_daysFromCivil_ofMonth h₁ h₂, ofMonth]
  dsimp only
  omega

theorem daysFromCivil_ofMonth (index day : Int) :
    daysFromCivil (ofMonth index day) = daysFromCivil (ofMonth index 1) + (day - 1) := by
  unfold daysFromCivil ofMonth
  dsimp only
  omega

/-! ## Weekdays -/

/-- The day of the week, of which Monday is `0`; the first day counted is a Thursday. -/
def weekday (days : Int) : Int := (days + 3) % 7

end Qros.Lib.Calendar
