import Mathlib.Algebra.Order.Field.Basic
import Mathlib.Data.Rat.Sqrt
import Mathlib.Algebra.Order.Field.Rat
import Qros.Lib.Numerals

/-!
# The arithmetic of the quant engine

The C++ engine computes with `double`.  Every definition of `Qros.Quant` is
stated over an arbitrary type `F` that carries the operators the source uses
(`+`, `-`, `*`, `/`, unary minus, `<`, `<=`) and *no law about them*, so that a
result proved at this level holds of any arithmetic, rounding included.
"Exact arithmetic" means that `F` is an ordered field; the laws are assumed only
where a result needs them.

`CMath` collects what the source takes from `<cmath>` and `<limits>`, `CFormat`
what it takes from `<cstdio>` to print a number.
-/

universe u

namespace Qros.Quant

/-- The functions and constants taken from `<cmath>` and `std::numeric_limits`. -/
class CMath (F : Type u) where
  /-- `std::abs` on `double`. -/
  fabs : F → F
  /-- `std::sqrt`. -/
  sqrt : F → F
  /-- `std::pow`. -/
  pow : F → F → F
  /-- `std::numeric_limits<double>::infinity()`. -/
  infinity : F

export CMath (fabs)

/-- What the canonical texts take from `<cmath>` and `<cstdio>`. -/
class CFormat (F : Type u) where
  /-- `std::isnan`. -/
  isnan : F → Bool
  /-- `std::isinf`. -/
  isinf : F → Bool
  /-- The text of `std::snprintf` with `"%.10f"`, for a finite value. -/
  fixed10 : F → List Char

/-- `"%.10f"` prints digits, a point and a sign, and at least one of them. -/
class LawfulCFormat (F : Type u) [CFormat F] : Prop where
  fixed10_ne_nil : ∀ x : F, CFormat.fixed10 x ≠ []
  fixed10_chars : ∀ (x : F), ∀ c ∈ CFormat.fixed10 x, c.isDigit = true ∨ c = '.' ∨ c = '-'

/-- In exact arithmetic `std::abs` is the absolute value. -/
class ExactCMath (F : Type u) [Field F] [LinearOrder F] [CMath F] : Prop where
  fabs_eq_abs : ∀ x : F, fabs x = |x|

/-- `std::snprintf` with `"%0wd"`. -/
def zeroPadded (w : Nat) (n : Int) : List Char :=
  let digits := Nat.toDigits 10 n.natAbs
  if n < 0 then '-' :: (List.replicate (w - 1 - digits.length) '0' ++ digits)
  else List.replicate (w - digits.length) '0' ++ digits

section Std

variable {F : Type u} [LT F] [DecidableLT F]

/-- `std::max`: the second argument only if the first is smaller. -/
def stdMax (a b : F) : F := if a < b then b else a

/-- `std::min`: the second argument only if it is smaller. -/
def stdMin (a b : F) : F := if b < a then b else a

end Std

section Exact

variable {F : Type u} [LinearOrder F]

theorem stdMax_eq_max (a b : F) : stdMax a b = max a b := by
  unfold stdMax
  split
  · rw [max_eq_right (le_of_lt ‹a < b›)]
  · rw [max_eq_left (not_lt.mp ‹¬ a < b›)]

theorem stdMin_eq_min (a b : F) : stdMin a b = min a b := by
  unfold stdMin
  split
  · rw [min_eq_right (le_of_lt ‹b < a›)]
  · rw [min_eq_left (not_lt.mp ‹¬ b < a›)]

end Exact

end Qros.Quant

/-!
## Errors and results

`include/quant/core/error.h` and `result.h`.  An error is its code and its message;
the place in the source it was raised at is left out.
-/

namespace Qros.Quant

inductive ErrorCode where
  | none
  | invalidArgument
  | outOfBounds
  | divisionByZero
  | insufficientData
  | convergenceFailure
  | singularMatrix
  | domainError
  | configKeyNotFound
  | configTypeMismatch
  | fileNotFound
  | notImplemented
  | numericOverflow
  | runtimeError
deriving DecidableEq

structure Error where
  code : ErrorCode
  message : String
deriving DecidableEq

abbrev Result (α : Type u) := Except Error α

end Qros.Quant

/-!
## Exact arithmetic that computes

The rationals are the ordered field in which runs of the engine are evaluated.
`sqrt` is the rational square root where there is one, `pow` is exact on integer
exponents, and `infinity` lies above every `double`.
-/

namespace Qros.Quant

instance : CMath ℚ where
  fabs := fun x ↦ |x|
  sqrt := Rat.sqrt
  pow := fun x y ↦ x ^ y.num
  infinity := 10 ^ 400

instance : ExactCMath ℚ := ⟨fun _ ↦ rfl⟩

def roundHalfEven (n d : Nat) : Nat :=
  if 2 * (n % d) < d then n / d
  else if d < 2 * (n % d) then n / d + 1
  else n / d + n / d % 2

/-- `"%.10f"` rounds the exact value. -/
def fixed10 (q : ℚ) : List Char :=
  let n := roundHalfEven (q.num.natAbs * 10 ^ 10) q.den
  (if q < 0 then ['-'] else []) ++ (Nat.toDigits 10 (n / 10 ^ 10) ++
    '.' :: zeroPadded 10 (n % 10 ^ 10 : Nat))

instance : CFormat ℚ where
  isnan := fun _ ↦ false
  isinf := fun _ ↦ false
  fixed10 := fixed10

theorem isDigit_of_mem_zeroPadded {w n : Nat} {c : Char} (h : c ∈ zeroPadded w n) :
    c.isDigit = true := by
  unfold zeroPadded at h
  rw [if_neg (by omega)] at h
  rcases List.mem_append.mp h with h | h
  · rw [List.eq_of_mem_replicate h]
    rfl
  · exact Nat.isDigit_of_mem_toDigits (by decide) (by decide) h

instance : LawfulCFormat ℚ where
  fixed10_ne_nil := by
    intro q
    show fixed10 q ≠ []
    simp [fixed10]
  fixed10_chars := by
    intro q c hc
    rcases List.mem_append.mp hc with hc | hc
    · split at hc
      · exact .inr (.inr (List.mem_singleton.mp hc))
      · cases hc
    · rcases List.mem_append.mp hc with hc | hc
      · exact .inl (Nat.isDigit_of_mem_toDigits (by decide) (by decide) hc)
      · rcases List.mem_cons.mp hc with hc | hc
        · exact .inr (.inl hc)
        · exact .inl (isDigit_of_mem_zeroPadded hc)

end Qros.Quant
