import Mathlib.Data.List.TakeWhile
import Qros.Quant.Arith

/-!
# Numbers as text

What the engine takes from `<charconv>`.  A `double` is printed with `std::to_chars` and
read with `std::from_chars`, both with `std::chars_format::general`; of the printed text the
library promises that it is the shortest that is read back as the same value.
-/

universe u

namespace Qros.Quant

open List

/-- The characters `parse_number` of the JSON reader takes for part of a number. -/
def isNumberChar (c : Char) : Bool :=
  c.isDigit || c == '-' || c == '+' || c == '.' || c == 'e' || c == 'E'

class CharConv (F : Type u) where
  /-- The text of `std::to_chars`. -/
  toChars : F → List Char
  /-- `std::from_chars`: the value of the longest number at the start of a text, and the text
  behind it. -/
  fromChars : List Char → Option (F × List Char)
  /-- `std::isfinite`. -/
  isfinite : F → Bool
  /-- `static_cast<std::uint64_t>`. -/
  toUInt64 : F → Nat

open CharConv (isfinite)

class LawfulCharConv (F : Type u) [CharConv F] : Prop where
  fromChars_toChars : ∀ x : F, CharConv.fromChars (CharConv.toChars x) = some (x, [])
  toChars_finite : ∀ x : F, isfinite x = true →
    CharConv.toChars x ≠ [] ∧ ∀ c ∈ CharConv.toChars x, isNumberChar c = true
  /-- Other values are printed as `inf` or `nan`, with what kind of `nan` it is in parentheses. -/
  toChars_infinite : ∀ x : F, isfinite x = false → ∃ t,
    (CharConv.toChars x = t ∨ CharConv.toChars x = '-' :: t) ∧
      (t = ['i', 'n', 'f'] ∨ ∃ kind, t = 'n' :: 'a' :: 'n' :: kind ∧
        ∀ c ∈ kind, c.isAlpha = true ∨ c = '(' ∨ c = ')')
  fromChars_minus : CharConv.fromChars ['-'] = (none : Option (F × List Char))

def toGeneral {F : Type u} [CharConv F] (v : F) : List Char := CharConv.toChars v

/-- `parse_double`, with the value that `out` has afterwards. -/
def parseDouble {F : Type u} [CharConv F] (sv : List Char) (out : F) : Bool × F :=
  if sv = [] then (false, out)
  else match CharConv.fromChars sv with
    | none => (false, out)
    | some (x, rest) => (rest.isEmpty, x)

/-- `std::to_string` of an unsigned integer. -/
def natText (n : Nat) : List Char := Nat.toDigits 10 n

def parseU64 (sv : List Char) : Option UInt64 :=
  if sv ≠ [] ∧ sv.all Char.isDigit = true ∧ Nat.ofDigitChars 10 sv 0 < 2 ^ 64 then
    some (.ofNat (Nat.ofDigitChars 10 sv 0))
  else none

theorem isDigit_of_mem_natText {n : Nat} {c : Char} (h : c ∈ natText n) : c.isDigit = true :=
  Nat.isDigit_of_mem_toDigits (by decide) (by decide) h

theorem natText_ne_nil (n : Nat) : natText n ≠ [] := Nat.toDigits_ne_nil

theorem isNumberChar_of_isDigit {c : Char} (h : c.isDigit = true) : isNumberChar c = true := by
  simp [isNumberChar, h]

theorem parseU64_natText (n : UInt64) : parseU64 (natText n.toNat) = some n := by
  rw [parseU64, natText, Nat.ofDigitChars_ten_toDigits, if_pos, UInt64.ofNat_toNat]
  refine ⟨Nat.toDigits_ne_nil, all_eq_true.mpr fun c hc ↦ ?_, n.toNat_lt⟩
  exact isDigit_of_mem_natText hc

section Lawful

variable {F : Type u} [CharConv F] [LawfulCharConv F]

theorem toGeneral_ne_nil (x : F) : toGeneral x ≠ [] := by
  cases h : isfinite x with
  | true => exact (LawfulCharConv.toChars_finite x h).1
  | false =>
    obtain ⟨t, ht | ht, rfl | ⟨kind, rfl, -⟩⟩ := LawfulCharConv.toChars_infinite x h <;>
      rw [toGeneral, ht] <;> exact cons_ne_nil _ _

theorem parseDouble_toGeneral (x out : F) : parseDouble (toGeneral x) out = (true, x) := by
  rw [parseDouble, if_neg (toGeneral_ne_nil x), toGeneral, LawfulCharConv.fromChars_toChars]
  rfl

theorem plain_of_mem_toGeneral {x : F} {c : Char} (h : c ∈ toGeneral x) : c ≠ ',' ∧ c ≠ '\n' := by
  cases hx : isfinite x with
  | true =>
    have := (LawfulCharConv.toChars_finite x hx).2 c h
    constructor <;> rintro rfl <;> exact absurd this (by decide)
  | false =>
    have hplain : c = '-' ∨ c = 'i' ∨ c = 'n' ∨ c = 'f' ∨ c = 'a' ∨ c.isAlpha = true ∨ c = '(' ∨
        c = ')' := by
      obtain ⟨t, ht, ht'⟩ := LawfulCharConv.toChars_infinite x hx
      have hc : c = '-' ∨ c ∈ t := by
        rw [toGeneral] at h
        rcases ht with ht | ht <;> rw [ht] at h
        · exact .inr h
        · exact mem_cons.mp h
      rcases ht' with rfl | ⟨kind, rfl, hkind⟩ <;> simp only [mem_cons] at hc
      · simp only [not_mem_nil, or_false] at hc
        tauto
      · have := hkind c
        tauto
    constructor <;> rintro rfl <;> exact absurd hplain (by decide)

end Lawful

/-! ## Integral values -/

/-- The digits at the start of a text, and what follows them. -/
def leadingNat (t : List Char) : Option (Nat × List Char) :=
  if t.takeWhile Char.isDigit = [] then none
  else some (Nat.ofDigitChars 10 (t.takeWhile Char.isDigit) 0, t.dropWhile Char.isDigit)

/-- The integers, printed with all their digits as `double` prints the small ones. -/
instance : CharConv Int where
  toChars n := if n < 0 then '-' :: natText n.natAbs else natText n.natAbs
  fromChars sv :=
    if sv.head? = some '-' then (leadingNat sv.tail).map fun r ↦ (-(r.1 : Int), r.2)
    else (leadingNat sv).map fun r ↦ ((r.1 : Int), r.2)
  isfinite _ := true
  toUInt64 := Int.toNat

theorem leadingNat_natText (n : Nat) : leadingNat (natText n) = some (n, []) := by
  have hall : ∀ c ∈ natText n, c.isDigit = true := fun c hc ↦ isDigit_of_mem_natText hc
  rw [leadingNat, takeWhile_eq_self_iff.mpr hall, dropWhile_eq_nil_iff.mpr hall,
    if_neg (natText_ne_nil n), natText, Nat.ofDigitChars_ten_toDigits]

instance : LawfulCharConv Int where
  fromChars_toChars n := by
    have hhead : (natText n.natAbs).head? ≠ some '-' := fun h ↦
      absurd (isDigit_of_mem_natText (mem_of_mem_head? h)) (by decide)
    rcases lt_or_ge n 0 with hn | hn
    · simp only [CharConv.toChars, CharConv.fromChars, if_pos hn, head?_cons, tail_cons,
        leadingNat_natText, Option.map_some, if_true]
      rw [Int.ofNat_natAbs_of_nonpos hn.le, neg_neg]
    · simp only [CharConv.toChars, CharConv.fromChars, if_neg hn.not_gt, if_neg hhead,
        leadingNat_natText, Option.map_some]
      rw [Int.natAbs_of_nonneg hn]
  toChars_finite n _ := by
    have hall : ∀ c ∈ natText n.natAbs, isNumberChar c = true := fun c hc ↦
      isNumberChar_of_isDigit (isDigit_of_mem_natText hc)
    show (if n < 0 then '-' :: natText n.natAbs else natText n.natAbs) ≠ [] ∧
      ∀ c ∈ (if n < 0 then '-' :: natText n.natAbs else natText n.natAbs), isNumberChar c = true
    split
    · refine ⟨cons_ne_nil _ _, fun c hc ↦ ?_⟩
      rcases mem_cons.mp hc with rfl | hc
      · decide
      · exact hall c hc
    · exact ⟨natText_ne_nil _, hall⟩
  toChars_infinite n h := nomatch h
  fromChars_minus := by decide

end Qros.Quant
