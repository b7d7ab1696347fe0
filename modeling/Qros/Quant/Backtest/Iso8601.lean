import Qros.Quant.Backtest.EventReplay
import Qros.Quant.CharConv

/-!
# ISO 8601 time stamps

`to_iso8601` and `from_iso8601` of `src/backtest/serialization.cpp`.  A time stamp is
printed to the second, and any text that is not a time stamp is read as the epoch.
-/

namespace Qros.Quant

open Qros.Lib.Calendar List

/-- The nanoseconds of `std::chrono::seconds`. -/
abbrev secondLength : Int := 1000000000

def toIso8601 (tp : TimePoint) : List Char :=
  let days := tp / dayLength
  let ymd := civilFromDays days
  let tod := tp - days * dayLength
  zeroPadded 4 ymd.year ++ '-' :: zeroPadded 2 ymd.month ++ '-' :: zeroPadded 2 ymd.day ++
    'T' :: zeroPadded 2 (tod / (3600 * secondLength)) ++
    ':' :: zeroPadded 2 (tod / (60 * secondLength) % 60) ++
    ':' :: zeroPadded 2 (tod / secondLength % 60)

def readLoop : List Char → Int → Int
  | [], v => v
  | c :: cs, v =>
    if c.isDigit = false then -1 else readLoop cs (v * 10 + ((c.toNat - '0'.toNat : Nat) : Int))

def readField (str : List Char) (off len : Nat) : Int := readLoop ((str.drop off).take len) 0

/-- The marks between the fields. -/
def hasIsoMarks (str : List Char) : Bool :=
  str[4]? == some '-' && str[7]? == some '-' && str[10]? == some 'T' && str[13]? == some ':' &&
    str[16]? == some ':'

/-- `from_iso8601`.  Of a date with a month that does not exist `std::chrono` leaves the day
open. -/
def fromIso8601 (str : List Char) : TimePoint :=
  if str.length < 19 then 0
  else
    let y := readField str 0 4
    let mo := readField str 5 2
    let d := readField str 8 2
    let h := readField str 11 2
    let mi := readField str 14 2
    let se := readField str 17 2
    if y < 0 ∨ mo < 0 ∨ d < 0 ∨ h < 0 ∨ mi < 0 ∨ se < 0 then 0
    else if hasIsoMarks str = false then 0
    else daysFromCivil ⟨y, mo, d⟩ * dayLength + h * (3600 * secondLength) + mi * (60 * secondLength) +
      se * secondLength

def WholeSecond (tp : TimePoint) : Prop := tp % secondLength = 0

def InYears (tp : TimePoint) : Prop :=
  0 ≤ (civilFromDays (tp / dayLength)).year ∧ (civilFromDays (tp / dayLength)).year ≤ 9999

def InRange (tp : TimePoint) : Prop := -2 ^ 63 ≤ tp ∧ tp < 2 ^ 63

instance (tp : TimePoint) : Decidable (WholeSecond tp) := by unfold WholeSecond; infer_instance

instance (tp : TimePoint) : Decidable (InYears tp) := by unfold InYears; infer_instance

instance (tp : TimePoint) : Decidable (InRange tp) := by unfold InRange; infer_instance

theorem year_of_era {days : Int} (h₀ : -106752 ≤ days) (h₁ : days ≤ 106751) :
    1600 ≤ (civilFromDays days).year ∧ (civilFromDays days).year ≤ 2400 := by
  obtain ⟨hc, hq, ha, -⟩ := @eraDay_bounds ((days + 719468) % 146097) (by omega) (by omega)
  simp only [civilFromDays]
  split <;> omega

theorem InRange.inYears {tp : TimePoint} (h : InRange tp) : InYears tp := by
  have hdays : -106752 ≤ tp / dayLength ∧ tp / dayLength ≤ 106751 := by
    refine ⟨(Int.le_ediv_iff_mul_le (by decide)).mpr ?_, Int.lt_add_one_iff.mp
      ((Int.ediv_lt_iff_lt_mul (by decide)).mpr ?_)⟩
    · exact le_trans (by decide) h.1
    · exact lt_of_lt_of_le h.2 (by decide)
  obtain ⟨hle, hge⟩ := year_of_era hdays.1 hdays.2
  exact ⟨le_trans (by decide) hle, le_trans hge (by decide)⟩

/-! ## Fields -/

theorem readLoop_digits {cs : List Char} (h : ∀ c ∈ cs, c.isDigit = true) (v : Nat) :
    readLoop cs v = (Nat.ofDigitChars 10 cs v : Nat) := by
  induction cs generalizing v with
  | nil => rfl
  | cons c cs ih =>
    rw [readLoop, if_neg (by simp [h c mem_cons_self]), Nat.ofDigitChars_cons,
      ← ih (fun d hd ↦ h d (mem_cons_of_mem _ hd)), Nat.mul_comm]
    push_cast
    rfl

structure IsField (w : Nat) (n : Int) (text : List Char) : Prop where
  digits : ∀ c ∈ text, c.isDigit = true
  length : text.length = w
  nonneg : 0 ≤ n
  value : readLoop text 0 = n

theorem isField_zeroPadded {w : Nat} {n : Int} (h₀ : 0 ≤ n) (hn : n < 10 ^ w) (hw : 0 < w) :
    IsField w n (zeroPadded w n) := by
  obtain ⟨m, rfl⟩ := Int.eq_ofNat_of_zero_le h₀
  have hm : (natText m).length ≤ w :=
    (Nat.length_toDigits_le_iff (by decide) hw).mpr (by exact_mod_cast hn)
  have htext : zeroPadded w (m : Int) = List.replicate (w - (natText m).length) '0' ++ natText m := by
    rw [zeroPadded, if_neg (Int.not_lt.mpr h₀)]
    rfl
  have hdigits : ∀ c ∈ List.replicate (w - (natText m).length) '0' ++ natText m,
      c.isDigit = true := by
    intro c hc
    rcases mem_append.mp hc with hc | hc
    · rw [eq_of_mem_replicate hc]
      rfl
    · exact isDigit_of_mem_natText hc
  rw [htext]
  refine ⟨hdigits, ?_, h₀, ?_⟩
  · rw [length_append, length_replicate, Nat.sub_add_cancel hm]
  · rw [show (0 : Int) = ((0 : Nat) : Int) from rfl, readLoop_digits hdigits,
      Nat.ofDigitChars_append, Nat.ofDigitChars_replicate_zero, Nat.mul_zero, natText,
      Nat.ofDigitChars_ten_toDigits]

/-- The characters of a time stamp. -/
def isIsoChar (c : Char) : Bool := c.isDigit || c == '-' || c == 'T' || c == ':'

structure IsStamp (text : List Char) (tp : TimePoint) : Prop where
  chars : ∀ c ∈ text, isIsoChar c = true
  length : text.length = 19
  marks : hasIsoMarks text = true
  value : fromIso8601 text = tp

section Fields

variable {y mo d h mi se : Int} {ty tmo td th tmi tse : List Char}

theorem isStamp_fields (hy : IsField 4 y ty) (hmo : IsField 2 mo tmo) (hd : IsField 2 d td)
    (hh : IsField 2 h th) (hmi : IsField 2 mi tmi) (hse : IsField 2 se tse) :
    IsStamp (ty ++ '-' :: tmo ++ '-' :: td ++ 'T' :: th ++ ':' :: tmi ++ ':' :: tse)
      (daysFromCivil ⟨y, mo, d⟩ * dayLength + h * (3600 * secondLength) +
        mi * (60 * secondLength) + se * secondLength) := by
  have hchars : ∀ c ∈ ty ++ '-' :: tmo ++ '-' :: td ++ 'T' :: th ++ ':' :: tmi ++ ':' :: tse,
      isIsoChar c = true := by
    intro c hc
    simp only [mem_append, mem_cons] at hc
    rcases hc with ((((hc | rfl | hc) | rfl | hc) | rfl | hc) | rfl | hc) | rfl | hc
    any_goals rfl
    · simp [isIsoChar, hy.digits c hc]
    · simp [isIsoChar, hmo.digits c hc]
    · simp [isIsoChar, hd.digits c hc]
    · simp [isIsoChar, hh.digits c hc]
    · simp [isIsoChar, hmi.digits c hc]
    · simp [isIsoChar, hse.digits c hc]
  obtain ⟨a₁, a₂, a₃, a₄, rfl⟩ := length_eq_four.mp hy.length
  obtain ⟨b₁, b₂, rfl⟩ := length_eq_two.mp hmo.length
  obtain ⟨c₁, c₂, rfl⟩ := length_eq_two.mp hd.length
  obtain ⟨d₁, d₂, rfl⟩ := length_eq_two.mp hh.length
  obtain ⟨e₁, e₂, rfl⟩ := length_eq_two.mp hmi.length
  obtain ⟨f₁, f₂, rfl⟩ := length_eq_two.mp hse.length
  refine ⟨hchars, rfl, rfl, ?_⟩
  have hfields : fromIso8601 ([a₁, a₂, a₃, a₄] ++ '-' :: [b₁, b₂] ++ '-' :: [c₁, c₂] ++
      'T' :: [d₁, d₂] ++ ':' :: [e₁, e₂] ++ ':' :: [f₁, f₂]) =
      if readLoop [a₁, a₂, a₃, a₄] 0 < 0 ∨ readLoop [b₁, b₂] 0 < 0 ∨ readLoop [c₁, c₂] 0 < 0 ∨
        readLoop [d₁, d₂] 0 < 0 ∨ readLoop [e₁, e₂] 0 < 0 ∨ readLoop [f₁, f₂] 0 < 0 then 0
      else daysFromCivil ⟨readLoop [a₁, a₂, a₃, a₄] 0, readLoop [b₁, b₂] 0, readLoop [c₁, c₂] 0⟩ *
        dayLength + readLoop [d₁, d₂] 0 * (3600 * secondLength) +
        readLoop [e₁, e₂] 0 * (60 * secondLength) + readLoop [f₁, f₂] 0 * secondLength := rfl
  rw [hfields, hy.value, hmo.value, hd.value, hh.value, hmi.value, hse.value, if_neg]
  have := hy.nonneg
  have := hmo.nonneg
  have := hd.nonneg
  have := hh.nonneg
  have := hmi.nonneg
  have := hse.nonneg
  omega

end Fields

/-! ## The round trip -/

theorem wholeSecond_sum {tp : Int} (h : tp % 1000000000 = 0) :
    let tod := tp - tp / 86400000000000 * 86400000000000
    (0 ≤ tod / 3600000000000 ∧ tod / 3600000000000 < 24) ∧
      tp / 86400000000000 * 86400000000000 + tod / 3600000000000 * 3600000000000 +
        tod / 60000000000 % 60 * 60000000000 + tod / 1000000000 % 60 * 1000000000 = tp := by
  dsimp only
  omega

/-- **A printed time stamp is read back.** -/
theorem isStamp_toIso8601 {tp : TimePoint} (hsecond : WholeSecond tp) (hyear : InYears tp) :
    IsStamp (toIso8601 tp) tp := by
  obtain ⟨⟨hm₁, hm₂⟩, hd₁, hd₂⟩ := civilFromDays_bounds (tp / dayLength)
  obtain ⟨⟨hh₀, hh₁⟩, hsum⟩ := wholeSecond_sum hsecond
  have hfields := isStamp_fields (isField_zeroPadded hyear.1 (by have := hyear.2; omega) (by decide))
    (isField_zeroPadded (w := 2) (n := (civilFromDays (tp / dayLength)).month) (by omega) (by omega)
      (by decide))
    (isField_zeroPadded (w := 2) (n := (civilFromDays (tp / dayLength)).day) (by omega) (by omega)
      (by decide))
    (isField_zeroPadded (w := 2) hh₀ (by omega) (by decide))
    (isField_zeroPadded (w := 2) (n := (tp - tp / 86400000000000 * 86400000000000) / 60000000000 % 60)
      (by omega) (by omega) (by decide))
    (isField_zeroPadded (w := 2) (n := (tp - tp / 86400000000000 * 86400000000000) / 1000000000 % 60)
      (by omega) (by omega) (by decide))
  have hday : daysFromCivil ⟨(civilFromDays (tp / dayLength)).year,
      (civilFromDays (tp / dayLength)).month, (civilFromDays (tp / dayLength)).day⟩ = tp / dayLength :=
    daysFromCivil_civilFromDays _
  refine ⟨hfields.chars, hfields.length, hfields.marks, hfields.value.trans ?_⟩
  rw [hday]
  exact hsum

end Qros.Quant
