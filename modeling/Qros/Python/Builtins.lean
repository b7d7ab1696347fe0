import Mathlib.Algebra.Order.Field.Rat
import Qros.Lib.Checks

/-!
# Strings, digests and decimals

What the Python modules take from `str`, `hashlib` and `decimal`.
-/

namespace Qros.Python

/-- `str.isspace` of one character. -/
def isspace (c : Char) : Bool :=
  let n := c.toNat
  (0x09 ≤ n && n ≤ 0x0D) || (0x1C ≤ n && n ≤ 0x20) || n == 0x85 || n == 0xA0 || n == 0x1680 ||
    (0x2000 ≤ n && n ≤ 0x200A) || n == 0x2028 || n == 0x2029 || n == 0x202F || n == 0x205F ||
    n == 0x3000

def strip (s : String) : String :=
  String.ofList (((s.toList.dropWhile isspace).reverse.dropWhile isspace).reverse)

end Qros.Python

/-!
## Digests

What `hashlib.sha256(text.encode("utf-8")).hexdigest()` makes of a text: a string of
hexadecimal digits, of which nothing else is known.
-/

namespace Qros.Python

def IsHex (c : Char) : Prop := c ∈ "0123456789abcdef".toList

instance (c : Char) : Decidable (IsHex c) := inferInstanceAs (Decidable (_ ∈ _))

theorem isHex_zero : ∀ c ∈ "0".toList, IsHex c := Lib.forall_mem_of_all (by decide)

structure HexDigest where
  text : String
  hex : ∀ c ∈ text.toList, IsHex c

theorem HexDigest.text_injective : Function.Injective HexDigest.text := by
  rintro ⟨text, hex⟩ ⟨text', hex'⟩ h
  obtain rfl : text = text' := h
  rfl

class Hashlib where
  sha256 : List Char → HexDigest

export Hashlib (sha256)

end Qros.Python

/-!
## Finite decimals

`decimal.Decimal` without infinities and `nan`.  `==` and `<=` compare the values, while
`fixed`, which is `format(d, "f")`, tells apart equal values with other exponents.
-/

namespace Qros.Python

structure Decimal where
  negative : Bool
  coefficient : Nat
  exponent : Int
deriving DecidableEq

namespace Decimal

/-- The number. -/
def value (d : Decimal) : ℚ :=
  (if d.negative = true then -1 else 1) * d.coefficient * 10 ^ d.exponent

/-- `format(d, "f")`. -/
def fixed (d : Decimal) : List Char :=
  -- a zero is not written with zeros before the point
  let exponent := if d.coefficient = 0 ∧ 0 < d.exponent then 0 else d.exponent
  let digits := Nat.toDigits 10 d.coefficient
  let point := exponent + digits.length
  let (whole, frac) :=
    if point < 0 then (['0'], List.replicate (-point).toNat '0' ++ digits)
    else if (digits.length : Int) < point then
      (digits ++ List.replicate (point.toNat - digits.length) '0', [])
    else if point = 0 then (['0'], digits)
    else (digits.take point.toNat, digits.drop point.toNat)
  (if d.negative = true then ['-'] else []) ++ whole ++ (if frac = [] then [] else '.' :: frac)

example : (fixed ⟨false, 125, -2⟩, fixed ⟨true, 5, -3⟩, fixed ⟨false, 12, 2⟩) =
    ("1.25".toList, "-0.005".toList, "1200".toList) := by decide

def ofNat (n : Nat) : Decimal := ⟨false, n, 0⟩

end Decimal

end Qros.Python
