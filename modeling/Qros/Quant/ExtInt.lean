import Qros.Quant.CharConv
import Qros.Quant.Statistics.Returns

/-!
# Integers with infinities

The part of `double` arithmetic that is exact: integers, the two infinities and a value that is no
number.  A run whose values are integers is evaluated in it as with `double`; a quotient that is no
integer is cut off.
-/

namespace Qros.Quant

inductive ExtInt where
  | int (n : Int)
  | infinite (negative : Bool)
  | nan
deriving DecidableEq

namespace ExtInt

def neg : ExtInt → ExtInt
  | int n => int (-n)
  | infinite negative => infinite !negative
  | nan => nan

def add : ExtInt → ExtInt → ExtInt
  | int m, int n => int (m + n)
  | infinite a, infinite b => if a = b then infinite a else nan
  | infinite a, int _ => infinite a
  | int _, infinite b => infinite b
  | _, _ => nan

/-- An infinity times a value of this sign. -/
def scale (negative : Bool) (n : Int) : ExtInt :=
  if n = 0 then nan else infinite (negative != decide (n < 0))

def mul : ExtInt → ExtInt → ExtInt
  | int m, int n => int (m * n)
  | infinite a, infinite b => infinite (a != b)
  | infinite a, int n => scale a n
  | int m, infinite b => scale b m
  | _, _ => nan

def div : ExtInt → ExtInt → ExtInt
  | int m, int n => if n = 0 then scale false m else int (m.tdiv n)
  | infinite a, int n => infinite (a != decide (n < 0))
  | int _, infinite _ => int 0
  | _, _ => nan

def lt : ExtInt → ExtInt → Bool
  | int m, int n => decide (m < n)
  | infinite a, infinite b => a && !b
  | infinite a, int _ => a
  | int _, infinite b => !b
  | _, _ => false

/-- `==`, which holds of no pair with a value that is no number. -/
def eq (a b : ExtInt) : Bool := a != nan && decide (a = b)

def sqrt : ExtInt → ExtInt
  | int n => if n < 0 then nan else int n.toNat.sqrt
  | infinite false => infinite false
  | _ => nan

def fabs : ExtInt → ExtInt
  | int n => int n.natAbs
  | infinite _ => infinite false
  | nan => nan

instance : Zero ExtInt := ⟨int 0⟩
instance : One ExtInt := ⟨int 1⟩
instance : NatCast ExtInt := ⟨fun n ↦ int n⟩
instance : Neg ExtInt := ⟨neg⟩
instance : Add ExtInt := ⟨add⟩
instance : Sub ExtInt := ⟨fun a b ↦ add a (neg b)⟩
instance : Mul ExtInt := ⟨mul⟩
instance : Div ExtInt := ⟨div⟩
instance : LT ExtInt := ⟨fun a b ↦ lt a b = true⟩
instance : LE ExtInt := ⟨fun a b ↦ (lt a b || eq a b) = true⟩
instance : DecidableLT ExtInt := fun _ _ ↦ inferInstanceAs (Decidable (_ = true))
instance : DecidableLE ExtInt := fun _ _ ↦ inferInstanceAs (Decidable (_ = true))
instance : BEq ExtInt := ⟨eq⟩

instance : CMath ExtInt where
  fabs := fabs
  sqrt := sqrt
  pow := fun x y ↦ match x, y with
    | int m, int n => int (m ^ n.toNat)
    | _, _ => nan
  infinity := infinite false

instance : SizeCast ExtInt where
  toSize := fun x ↦ match x with
    | int n => n.toNat
    | _ => 0

/-! ## Texts -/

def infText : List Char := ['i', 'n', 'f']

def nanText : List Char := ['n', 'a', 'n']

instance : CharConv ExtInt where
  toChars x := match x with
    | int n => CharConv.toChars n
    | infinite false => infText
    | infinite true => '-' :: infText
    | nan => nanText
  fromChars sv :=
    if sv = infText then some (infinite false, [])
    else if sv = '-' :: infText then some (infinite true, [])
    else if sv = nanText then some (nan, [])
    else (CharConv.fromChars sv).map fun r ↦ (int r.1, r.2)
  isfinite x := match x with
    | int _ => true
    | _ => false
  toUInt64 x := match x with
    | int n => n.toNat
    | _ => 0

theorem toChars_int_ne (n : Int) {t : List Char} {c : Char} (hc : c ∈ t)
    (hnumber : isNumberChar c = false) : CharConv.toChars n ≠ t := by
  rintro rfl
  rw [(LawfulCharConv.toChars_finite n rfl).2 c hc] at hnumber
  cases hnumber

theorem fromChars_int (n : Int) :
    CharConv.fromChars (CharConv.toChars n) = some (int n, ([] : List Char)) := by
  show (if CharConv.toChars n = infText then _ else _) = _
  rw [if_neg (toChars_int_ne n (by decide : 'i' ∈ infText) (by decide)),
    if_neg (toChars_int_ne n (by decide : 'i' ∈ '-' :: infText) (by decide)),
    if_neg (toChars_int_ne n (by decide : 'a' ∈ nanText) (by decide)),
    LawfulCharConv.fromChars_toChars n]
  rfl

instance : LawfulCharConv ExtInt where
  fromChars_toChars x := by
    cases x with
    | int n => exact fromChars_int n
    | infinite negative => cases negative <;> decide
    | nan => decide
  toChars_finite x h := by
    cases x with
    | int n => exact LawfulCharConv.toChars_finite n rfl
    | infinite negative => cases h
    | nan => cases h
  toChars_infinite x h := by
    cases x with
    | int n => cases h
    | infinite negative =>
      refine ⟨infText, ?_, .inl rfl⟩
      cases negative
      · exact .inl rfl
      · exact .inr rfl
    | nan => exact ⟨nanText, .inl rfl, .inr ⟨[], rfl, fun c hc ↦ nomatch hc⟩⟩
  fromChars_minus := by decide

end ExtInt

end Qros.Quant
