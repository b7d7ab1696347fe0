import Mathlib.Data.Nat.Digits.Lemmas
import Qros.Lib.Calendar

/-!
# Times

`datetime` values in UTC, as microseconds since 1970, and their texts; and `datetime` values with
any offset.
-/

namespace Qros.Python

open Qros.Lib.Calendar List

/-! ## Digits -/

/-- `%0wd` of a number that is not negative. -/
def padded (w : Nat) (n : Int) : List Char :=
  let digits := Nat.toDigits 10 n.toNat
  List.replicate (w - digits.length) '0' ++ digits

theorem length_padded {w : Nat} {n : Int} (hn : n < 10 ^ w) (hw : 0 < w) :
    (padded w n).length = w := by
  have hlt : n.toNat < 10 ^ w := by
    rw [← Int.ofNat_lt, Int.ofNat_toNat]
    push_cast
    exact max_lt hn (by positivity)
  have hlen : (Nat.toDigits 10 n.toNat).length ≤ w :=
    (Nat.length_toDigits_le_iff (by decide) hw).mpr hlt
  rw [padded, length_append, length_replicate, Nat.sub_add_cancel hlen]

theorem padded_injective {w : Nat} {m n : Int} (hm : 0 ≤ m) (hn : 0 ≤ n)
    (h : padded w m = padded w n) : m = n := by
  have hvalue : ∀ k : Int, Nat.ofDigitChars 10 (padded w k) 0 = k.toNat := by
    intro k
    rw [padded, Nat.ofDigitChars_append, Nat.ofDigitChars_replicate_zero, Nat.mul_zero,
      Nat.ofDigitChars_ten_toDigits]
  have hnat : m.toNat = n.toNat := by rw [← hvalue, ← hvalue, h]
  omega

/-! ## Times in UTC -/

/-- The microseconds from `datetime.min` to `datetime.max`. -/
def Utc : Type :=
  { t : Int // -62135596800000000 ≤ t ∧ t ≤ 253402300799999999 }

namespace Utc

theorem epoch_ok : -62135596800000000 ≤ (0 : Int) ∧ (0 : Int) ≤ 253402300799999999 := by decide

instance : LinearOrder Utc := inferInstanceAs (LinearOrder { _t : Int // _ })

def micros (t : Utc) : Int := t.val

theorem micros_injective : Function.Injective micros := Subtype.val_injective

def add (t : Utc) (d : Int) : Except String Utc :=
  if h : -62135596800000000 ≤ t.micros + d ∧ t.micros + d ≤ 253402300799999999 then
    .ok ⟨_, h⟩
  else .error "date value out of range"

variable {t u : Utc}

theorem lt_iff : t < u ↔ t.micros < u.micros := Iff.rfl

theorem le_iff : t ≤ u ↔ t.micros ≤ u.micros := Iff.rfl

theorem add_eq_ok {d : Int} : t.add d = .ok u ↔ u.micros = t.micros + d := by
  unfold add
  constructor
  · intro h
    split at h
    · cases h
      rfl
    · cases h
  · intro h
    have hbounds := u.property
    change -62135596800000000 ≤ u.micros ∧ u.micros ≤ 253402300799999999 at hbounds
    rw [h] at hbounds
    rw [dif_pos hbounds]
    exact congrArg Except.ok (micros_injective h.symm)

theorem bounds (t : Utc) : -62135596800000000 ≤ t.micros ∧ t.micros ≤ 253402300799999999 :=
  t.property

theorem exists_micros {m : Int} (h₁ : -62135596800000000 ≤ m) (h₂ : m ≤ 253402300799999999) :
    ∃ t : Utc, t.micros = m :=
  ⟨⟨m, h₁, h₂⟩, rfl⟩

def day (t : Utc) : Int := t.micros / 86400000000

/-- The microseconds since midnight. -/
def timeOfDay (t : Utc) : Int := t.micros % 86400000000

theorem day_timeOfDay {t : Utc} {day time : Int} (h : t.micros = day * 86400000000 + time)
    (h₀ : 0 ≤ time) (h₁ : time < 86400000000) : t.day = day ∧ t.timeOfDay = time := by
  unfold Utc.day Utc.timeOfDay
  omega

/-- `t.replace(hour=0, minute=0, second=0, microsecond=0)`. -/
def midnight (t : Utc) : Utc :=
  ⟨t.day * 86400000000, by
    obtain ⟨h₁, h₂⟩ := t.bounds
    unfold day
    omega⟩

theorem micros_midnight (t : Utc) : t.midnight.micros = t.day * 86400000000 := rfl

/-- `isoformat(timespec="microseconds")` with `Z` for the offset. -/
def isoMicroseconds (t : Utc) : List Char :=
  let date := civilFromDays t.day
  let tod := t.timeOfDay
  padded 4 date.year ++ '-' :: (padded 2 date.month ++ '-' :: (padded 2 date.day ++
    'T' :: (padded 2 (tod / 3600000000) ++ ':' :: (padded 2 (tod / 60000000 % 60) ++
      ':' :: (padded 2 (tod / 1000000 % 60) ++ '.' :: (padded 6 (tod % 1000000) ++ ['Z']))))))

theorem year_bounds (t : Utc) :
    0 ≤ (civilFromDays t.day).year ∧ (civilFromDays t.day).year < 10 ^ 4 := by
  have h₀ : -719162 ≤ t.day := by
    have := t.property.1
    unfold day micros
    omega
  have h₁ : t.day ≤ 2932896 := by
    have := t.property.2
    unfold day micros
    omega
  obtain ⟨hc, hq, ha, hd⟩ := @eraDay_bounds ((t.day + 719468) % 146097) (by omega) (by omega)
  have hsum := eraDay_sum ((t.day + 719468) % 146097)
  simp only [civilFromDays]
  unfold marchMonth
  split <;> split <;> omega

theorem timeOfDay_bounds (t : Utc) : 0 ≤ t.timeOfDay ∧ t.timeOfDay < 86400000000 := by
  unfold timeOfDay
  omega

/-- **The text determines the time.** -/
theorem isoMicroseconds_injective : Function.Injective isoMicroseconds := by
  intro t u h
  obtain ⟨hy, hy'⟩ := t.year_bounds
  obtain ⟨hz, hz'⟩ := u.year_bounds
  obtain ⟨⟨hm, hm'⟩, hd, hd'⟩ := civilFromDays_bounds t.day
  obtain ⟨⟨hn, hn'⟩, he, he'⟩ := civilFromDays_bounds u.day
  obtain ⟨ht, ht'⟩ := t.timeOfDay_bounds
  obtain ⟨hu, hu'⟩ := u.timeOfDay_bounds
  have hlen : ∀ {w : Nat} {m n : Int}, 0 < w → m < 10 ^ w → n < 10 ^ w →
      (padded w m).length = (padded w n).length := by
    intro w m n hw hm hn
    rw [length_padded hm hw, length_padded hn hw]
  unfold isoMicroseconds at h
  obtain ⟨hyear, h⟩ := append_inj h (hlen (by decide) hy' hz')
  obtain ⟨hmonth, h⟩ := append_inj (List.cons.inj h).2 (hlen (by decide) (by omega) (by omega))
  obtain ⟨hday, h⟩ := append_inj (List.cons.inj h).2 (hlen (by decide) (by omega) (by omega))
  obtain ⟨hhour, h⟩ := append_inj (List.cons.inj h).2 (hlen (by decide) (by omega) (by omega))
  obtain ⟨hmin, h⟩ := append_inj (List.cons.inj h).2 (hlen (by decide) (by omega) (by omega))
  obtain ⟨hsec, h⟩ := append_inj (List.cons.inj h).2 (hlen (by decide) (by omega) (by omega))
  obtain ⟨hmicro, -⟩ := append_inj (List.cons.inj h).2 (hlen (by decide) (by omega) (by omega))
  have hdate : civilFromDays t.day = civilFromDays u.day := by
    have hy := padded_injective hy hz hyear
    have hm := padded_injective (by omega) (by omega) hmonth
    have hd := padded_injective (by omega) (by omega) hday
    revert hy hm hd
    cases civilFromDays t.day
    cases civilFromDays u.day
    rintro rfl rfl rfl
    rfl
  have hday := civilFromDays_injective hdate
  have hhour := padded_injective (by omega) (by omega) hhour
  have hmin := padded_injective (by omega) (by omega) hmin
  have hsec := padded_injective (by omega) (by omega) hsec
  have hmicro := padded_injective (by omega) (by omega) hmicro
  apply micros_injective
  unfold day at hday
  unfold timeOfDay at *
  omega

end Utc

/-! ## Times with an offset -/

/-- A `datetime`: what its clock shows, and its `utcoffset()` in microseconds. -/
structure Datetime where
  clock : Utc
  offset : Option Int

namespace Datetime

/-- The place in time by which values are compared; a naive value is compared by its clock. -/
def instant (t : Datetime) : Int := t.clock.micros - t.offset.getD 0

/-- `t + d` for a `timedelta` of `d` microseconds, if the clock can show it. -/
def add (t : Datetime) (d : Int) : Option Datetime :=
  if h : -62135596800000000 ≤ t.clock.micros + d ∧ t.clock.micros + d ≤ 253402300799999999 then
    some { t with clock := ⟨_, h⟩ }
  else none

theorem instant_add {t t' : Datetime} {d : Int} (h : t.add d = some t') :
    t'.instant = t.instant + d := by
  unfold add at h
  split at h
  · obtain rfl := Option.some.inj h
    change t.clock.micros + d - t.offset.getD 0 = t.clock.micros - t.offset.getD 0 + d
    omega
  · cases h

/-! ## `fromisoformat` -/

/-- The number that digits name. -/
def digitsValue (cs : List Char) : Option Int :=
  if cs ≠ [] ∧ cs.all Char.isDigit = true then some (Nat.ofDigitChars 10 cs 0) else none

/-- The microseconds of the digits of a fraction, of which six count. -/
def fractionValue (cs : List Char) : Option Int :=
  (digitsValue cs).bind fun _ ↦ digitsValue ((cs ++ List.replicate 6 '0').take 6)

/-- The seconds and microseconds of an offset that has them. -/
def offsetRest : List Char → Option Int
  | [] => some 0
  | ':' :: s₁ :: s₂ :: rest => do
      let second ← digitsValue [s₁, s₂]
      let micros ← match rest with
        | [] => some 0
        | '.' :: rest => fractionValue rest
        | _ => none
      if second < 60 then some (second * 1000000 + micros) else none
  | _ => none

/-- The offset in microseconds of nothing, or of `HH:MM` and what may follow after a sign. -/
def offsetValue : List Char → Option (Option Int)
  | [] => some none
  | sign :: h₁ :: h₂ :: ':' :: m₁ :: m₂ :: rest => do
      let hour ← digitsValue [h₁, h₂]
      let minute ← digitsValue [m₁, m₂]
      let rest ← offsetRest rest
      if hour < 24 ∧ minute < 60 then
        if sign = '+' then some (some ((hour * 60 + minute) * 60000000 + rest))
        else if sign = '-' then some (some (-((hour * 60 + minute) * 60000000 + rest)))
        else none
      else none
  | _ => none

/-- A date and a time of day in microseconds, if there is such a day. -/
def ofFields (year month day time : Int) (offset : Option Int) : Option Datetime :=
  let days := Lib.Calendar.daysFromCivil ⟨year, month, day⟩
  if Lib.Calendar.civilFromDays days = ⟨year, month, day⟩ then
    if h : -62135596800000000 ≤ days * 86400000000 + time ∧
        days * 86400000000 + time ≤ 253402300799999999 then
      some ⟨⟨_, h⟩, offset⟩
    else none
  else none

/-- What follows the seconds: a fraction or none, and an offset or none. -/
def fractionAndOffset : List Char → Option (Int × Option Int)
  | '.' :: rest => do
      let micros ← fractionValue (rest.takeWhile Char.isDigit)
      let offset ← offsetValue (rest.dropWhile Char.isDigit)
      some (micros, offset)
  | rest => do
      let offset ← offsetValue rest
      some (0, offset)

/-- The characters `YYYY-MM-DDTHH:MM:SS`, and what follows the seconds. -/
def ofIsoChars : List Char → Option Datetime
  | y₁ :: y₂ :: y₃ :: y₄ :: '-' :: mo₁ :: mo₂ :: '-' :: d₁ :: d₂ :: 'T' ::
      h₁ :: h₂ :: ':' :: m₁ :: m₂ :: ':' :: s₁ :: s₂ :: rest => do
      let year ← digitsValue [y₁, y₂, y₃, y₄]
      let month ← digitsValue [mo₁, mo₂]
      let day ← digitsValue [d₁, d₂]
      let hour ← digitsValue [h₁, h₂]
      let minute ← digitsValue [m₁, m₂]
      let second ← digitsValue [s₁, s₂]
      let (micros, offset) ← fractionAndOffset rest
      if hour < 24 ∧ minute < 60 ∧ second < 60 then
        ofFields year month day (((hour * 60 + minute) * 60 + second) * 1000000 + micros) offset
      else none
  | _ => none

def ofIsoExtended (text : String) : Option Datetime := ofIsoChars text.toList

example : (ofIsoExtended "2024-01-01T10:30:00.25-05:00").map instant =
    some ((1704123000 * 1000 + 250) * 1000) := by decide +kernel

/-! ## `isoformat` -/

/-- The seconds and microseconds of an offset that has them. -/
def offsetRestChars (a : Int) : List Char :=
  if a % 60000000 = 0 then []
  else ':' :: (padded 2 (a / 1000000 % 60) ++
    if a % 1000000 = 0 then [] else '.' :: padded 6 (a % 1000000))

/-- The offset after its sign. -/
def offsetDigits (a : Int) : List Char :=
  padded 2 (a / 3600000000) ++ ':' :: (padded 2 (a / 60000000 % 60) ++ offsetRestChars a)

def offsetChars (o : Int) : List Char :=
  if o < 0 then '-' :: offsetDigits (-o) else '+' :: offsetDigits o

/-- A fraction is left out if it is zero. -/
def fractionChars (micros : Int) : List Char := if micros = 0 then [] else '.' :: padded 6 micros

def isoChars (t : Datetime) : List Char :=
  let date := civilFromDays t.clock.day
  let tod := t.clock.timeOfDay
  padded 4 date.year ++ '-' :: (padded 2 date.month ++ '-' :: (padded 2 date.day ++
    'T' :: (padded 2 (tod / 3600000000) ++ ':' :: (padded 2 (tod / 60000000 % 60) ++
      ':' :: (padded 2 (tod / 1000000 % 60) ++ (fractionChars (tod % 1000000) ++
        t.offset.elim [] offsetChars))))))

def OffsetInDay (t : Datetime) : Prop := ∀ o ∈ t.offset, -86400000000 < o ∧ o < 86400000000

theorem all_isDigit_padded (w : Nat) (n : Int) : (padded w n).all Char.isDigit = true := by
  rw [all_eq_true]
  intro c hc
  rcases mem_append.mp hc with hc | hc
  · rw [eq_of_mem_replicate hc]
    rfl
  · exact Nat.isDigit_of_mem_toDigits (by decide) (by decide) hc

theorem digitsValue_padded {w : Nat} {n : Int} (hw : 0 < w) (hn : 0 ≤ n) (hlt : n < 10 ^ w) :
    digitsValue (padded w n) = some n := by
  have hne : padded w n ≠ [] := by
    rw [← length_pos_iff, length_padded hlt hw]
    exact hw
  rw [digitsValue, if_pos ⟨hne, all_isDigit_padded w n⟩, padded, Nat.ofDigitChars_append,
    Nat.ofDigitChars_replicate_zero, Nat.mul_zero, Nat.ofDigitChars_ten_toDigits]
  exact congrArg some (Int.toNat_of_nonneg hn)

theorem padded_two {n : Int} (hn : 0 ≤ n) (hlt : n < 100) :
    ∃ c d, padded 2 n = [c, d] ∧ digitsValue [c, d] = some n := by
  have hlength : (padded 2 n).length = 2 := length_padded hlt (by decide)
  obtain ⟨c, d, hcd⟩ := length_eq_two.mp hlength
  exact ⟨c, d, hcd, hcd ▸ digitsValue_padded (by decide) hn hlt⟩

theorem fractionValue_padded {n : Int} (hn : 0 ≤ n) (hlt : n < 1000000) :
    fractionValue (padded 6 n) = some n := by
  have hlength : (padded 6 n).length = 6 := length_padded hlt (by decide)
  rw [fractionValue, digitsValue_padded (by decide) hn hlt, Option.bind_some,
    take_left' hlength, digitsValue_padded (by decide) hn hlt]

theorem offsetRest_chars (a : Int) : offsetRest (offsetRestChars a) = some (a % 60000000) := by
  unfold offsetRestChars
  by_cases hminute : a % 60000000 = 0
  · rw [if_pos hminute, hminute]
    rfl
  · rw [if_neg hminute]
    obtain ⟨c, d, hcd, hvalue⟩ := @padded_two (a / 1000000 % 60) (by omega) (by omega)
    rw [hcd]
    by_cases hsecond : a % 1000000 = 0
    · rw [if_pos hsecond]
      change (digitsValue [c, d]).bind _ = _
      rw [hvalue]
      change (if a / 1000000 % 60 < 60 then some (a / 1000000 % 60 * 1000000 + 0) else none) = _
      rw [if_pos (by omega), Option.some.injEq]
      omega
    · rw [if_neg hsecond]
      change (digitsValue [c, d]).bind (fun second ↦ (fractionValue (padded 6 (a % 1000000))).bind
        fun micros ↦ if second < 60 then some (second * 1000000 + micros) else none) = _
      rw [hvalue, fractionValue_padded (by omega) (by omega)]
      change (if a / 1000000 % 60 < 60 then some (a / 1000000 % 60 * 1000000 + a % 1000000)
        else none) = _
      rw [if_pos (by omega), Option.some.injEq]
      omega

theorem offsetValue_digits (sign : Char) {a : Int} (ha : 0 ≤ a) (hlt : a < 86400000000) :
    offsetValue (sign :: offsetDigits a) =
      if sign = '+' then some (some a) else if sign = '-' then some (some (-a)) else none := by
  obtain ⟨h₁, h₂, hh, hhour⟩ := @padded_two (a / 3600000000) (by omega) (by omega)
  obtain ⟨m₁, m₂, hm, hminute⟩ := @padded_two (a / 60000000 % 60) (by omega) (by omega)
  rw [offsetDigits, hh, hm]
  change (digitsValue [h₁, h₂]).bind (fun hour ↦ (digitsValue [m₁, m₂]).bind fun minute ↦
    (offsetRest (offsetRestChars a)).bind fun rest ↦ _) = _
  rw [hhour, hminute, offsetRest_chars, Option.bind_some, Option.bind_some, Option.bind_some,
    if_pos (by omega)]
  have hsum : (a / 3600000000 * 60 + a / 60000000 % 60) * 60000000 + a % 60000000 = a := by omega
  rw [hsum]

theorem offsetValue_offsetChars {offset : Option Int}
    (ho : ∀ o ∈ offset, -86400000000 < o ∧ o < 86400000000) :
    offsetValue (offset.elim [] offsetChars) = some offset := by
  cases offset with
  | none => rfl
  | some o =>
    obtain ⟨hlow, hhigh⟩ := ho o rfl
    change offsetValue (offsetChars o) = some (some o)
    unfold offsetChars
    by_cases hneg : o < 0
    · rw [if_pos hneg, offsetValue_digits _ (by omega) (by omega), if_neg (by decide),
        if_pos rfl, neg_neg]
    · rw [if_neg hneg, offsetValue_digits _ (by omega) (by omega), if_pos rfl]

theorem head_offsetChars (o : Int) :
    ∃ sign rest, offsetChars o = sign :: rest ∧ sign ≠ '.' ∧ sign.isDigit = false := by
  unfold offsetChars
  split
  · exact ⟨'-', _, rfl, by decide, by decide⟩
  · exact ⟨'+', _, rfl, by decide, by decide⟩

theorem fractionAndOffset_chars {micros : Int} {offset : Option Int} (h₀ : 0 ≤ micros)
    (h₁ : micros < 1000000) (ho : ∀ o ∈ offset, -86400000000 < o ∧ o < 86400000000) :
    fractionAndOffset (fractionChars micros ++ offset.elim [] offsetChars) =
      some (micros, offset) := by
  have hoffset := offsetValue_offsetChars ho
  have hsplit : (padded 6 micros ++ offset.elim [] offsetChars).takeWhile Char.isDigit =
      padded 6 micros ∧ (padded 6 micros ++ offset.elim [] offsetChars).dropWhile Char.isDigit =
      offset.elim [] offsetChars := by
    have hdigits := all_eq_true.mp (all_isDigit_padded 6 micros)
    rw [takeWhile_append_of_pos hdigits, dropWhile_append_of_pos hdigits]
    cases offset with
    | none => exact ⟨append_nil _, rfl⟩
    | some o =>
      obtain ⟨sign, rest, hchars, -, hdigit⟩ := head_offsetChars o
      rw [Option.elim_some, hchars, takeWhile_cons_of_neg (by simp [hdigit]),
        dropWhile_cons_of_neg (by simp [hdigit])]
      exact ⟨append_nil _, rfl⟩
  unfold fractionChars
  by_cases hzero : micros = 0
  · subst hzero
    rw [if_pos rfl, nil_append]
    cases offset with
    | none => rfl
    | some o =>
      obtain ⟨sign, rest, hchars, hdot, -⟩ := head_offsetChars o
      rw [Option.elim_some, hchars] at hoffset ⊢
      unfold fractionAndOffset
      split
      · rename_i heq
        exact absurd (List.cons.inj heq).1 hdot
      · rw [hoffset]
        rfl
  · rw [if_neg hzero, cons_append]
    change (fractionValue _).bind (fun micros ↦ (offsetValue _).bind fun offset ↦
      some (micros, offset)) = _
    rw [hsplit.1, hsplit.2, fractionValue_padded h₀ h₁, hoffset]
    rfl

theorem ofFields_clock (t : Datetime) :
    ofFields (civilFromDays t.clock.day).year (civilFromDays t.clock.day).month
      (civilFromDays t.clock.day).day t.clock.timeOfDay t.offset = some t := by
  have hcivil : (⟨(civilFromDays t.clock.day).year, (civilFromDays t.clock.day).month,
      (civilFromDays t.clock.day).day⟩ : Civil) = civilFromDays t.clock.day := rfl
  have hmicros : t.clock.day * 86400000000 + t.clock.timeOfDay = t.clock.val := by
    change t.clock.val / 86400000000 * 86400000000 + t.clock.val % 86400000000 = t.clock.val
    omega
  unfold ofFields
  dsimp only
  rw [hcivil, daysFromCivil_civilFromDays, if_pos rfl, dif_pos (hmicros.symm ▸ t.clock.property)]
  obtain ⟨clock, offset⟩ := t
  refine congrArg some ?_
  congr

/-- **Reading an ISO text back.** -/
theorem ofIsoChars_isoChars {t : Datetime} (ho : t.OffsetInDay) :
    ofIsoChars t.isoChars = some t := by
  obtain ⟨hyear, hyear'⟩ := t.clock.year_bounds
  obtain ⟨⟨hmonth, hmonth'⟩, hday, hday'⟩ := civilFromDays_bounds t.clock.day
  obtain ⟨htod, htod'⟩ := t.clock.timeOfDay_bounds
  have hfour : (padded 4 (civilFromDays t.clock.day).year).length = 4 :=
    length_padded hyear' (by decide)
  obtain ⟨y₁, y₂, y₃, y₄, hy⟩ : ∃ y₁ y₂ y₃ y₄,
      padded 4 (civilFromDays t.clock.day).year = [y₁, y₂, y₃, y₄] := by
    match hchars : padded 4 (civilFromDays t.clock.day).year, hfour with
    | [y₁, y₂, y₃, y₄], _ => exact ⟨y₁, y₂, y₃, y₄, rfl⟩
  have hyvalue := digitsValue_padded (by decide) hyear hyear'
  rw [hy] at hyvalue
  obtain ⟨mo₁, mo₂, hmo, hmovalue⟩ :=
    @padded_two (civilFromDays t.clock.day).month (by omega) (by omega)
  obtain ⟨d₁, d₂, hd, hdvalue⟩ := @padded_two (civilFromDays t.clock.day).day (by omega) (by omega)
  obtain ⟨h₁, h₂, hh, hhvalue⟩ :=
    @padded_two (t.clock.timeOfDay / 3600000000) (by omega) (by omega)
  obtain ⟨m₁, m₂, hm, hmvalue⟩ :=
    @padded_two (t.clock.timeOfDay / 60000000 % 60) (by omega) (by omega)
  obtain ⟨s₁, s₂, hs, hsvalue⟩ :=
    @padded_two (t.clock.timeOfDay / 1000000 % 60) (by omega) (by omega)
  have hrest := @fractionAndOffset_chars (t.clock.timeOfDay % 1000000) t.offset (by omega) (by omega) ho
  have htime : ((t.clock.timeOfDay / 3600000000 * 60 + t.clock.timeOfDay / 60000000 % 60) * 60 +
      t.clock.timeOfDay / 1000000 % 60) * 1000000 + t.clock.timeOfDay % 1000000 =
      t.clock.timeOfDay := by
    omega
  unfold isoChars
  dsimp only
  rw [hy, hmo, hd, hh, hm, hs]
  simp only [cons_append, nil_append, ofIsoChars, hyvalue, hmovalue, hdvalue, hhvalue,
    hmvalue, hsvalue, hrest, Option.bind_eq_bind, Option.bind_some]
  rw [if_pos (by omega), htime, ofFields_clock]

end Datetime

namespace Utc

def replaceDate (t : Utc) (year month day : Int) : Except String Utc :=
  match Datetime.ofFields year month day t.timeOfDay none with
  | some u => .ok u.clock
  | none =>
    .error (if 1 ≤ year ∧ year ≤ 9999 then "day is out of range for month"
      else s!"year {year} is out of range")

theorem replaceDate_eq_ok {t u : Utc} {date : Civil}
    (hdate : civilFromDays (daysFromCivil date) = date) :
    t.replaceDate date.year date.month date.day = .ok u ↔
      u.micros = daysFromCivil date * 86400000000 + t.timeOfDay := by
  unfold replaceDate Datetime.ofFields
  dsimp only
  rw [if_pos hdate]
  split
  · rename_i v hv
    split at hv
    · obtain rfl := Option.some.inj hv
      exact ⟨fun h ↦ congrArg micros (Except.ok.inj h).symm,
        fun h ↦ congrArg Except.ok (micros_injective h.symm)⟩
    · cases hv
  · rename_i hv
    split at hv
    · cases hv
    · rename_i hrange
      refine iff_of_false (fun h ↦ by cases h) fun h ↦ hrange ?_
      rw [← h]
      exact u.bounds

end Utc

end Qros.Python
