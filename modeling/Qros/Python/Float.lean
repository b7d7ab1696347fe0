import Mathlib.Algebra.Order.Field.Basic
import Mathlib.Algebra.Order.Field.Rat
import Mathlib.Data.Rat.Cast.Defs
import Qros.Lib.Numerals

/-!
# Floats and their laws

What holds of the operators of floats with any rounding: `nan` is the value that is not
`<= itself`, the others are ordered, and the operators are monotone where they are
monotone on numbers.  Equations between results are no law, as results are rounded.

`Extended` are the rational numbers with `nan` and the infinities, which are exact.
-/

/-!
## Floats

What the Python modules take from `math`.  Numbers are an arbitrary type `F`; each
module says which operators it uses of it and which laws.
-/

namespace Qros.Python

class IsFinite (F : Type) where
  /-- `math.isfinite`. -/
  isfinite : F → Bool

export IsFinite (isfinite)

/-- Exact numbers are finite. -/
instance : IsFinite ℚ := ⟨fun _ ↦ true⟩

def FinitePositive {F : Type} [Zero F] [LT F] [IsFinite F] (x : F) : Prop :=
  isfinite x = true ∧ 0 < x

instance {F : Type} [Zero F] [LT F] [DecidableLT F] [IsFinite F] (x : F) :
    Decidable (FinitePositive x) :=
  inferInstanceAs (Decidable (_ ∧ _))

/-- The operators of floats, of which no law is known. -/
class FloatOps (F : Type) extends Zero F, One F, NatCast F, IntCast F, Add F, Sub F, Neg F, Mul F,
    Div F, BEq F, LE F, LT F, IsFinite F where
  decidableLE : DecidableLE F
  decidableLT : DecidableLT F

-- Where a type has operators of its own, these are found first.
attribute [instance (50)] FloatOps.toZero FloatOps.toOne FloatOps.toNatCast FloatOps.toIntCast
  FloatOps.toAdd FloatOps.toSub FloatOps.toNeg FloatOps.toMul FloatOps.toDiv FloatOps.toBEq
  FloatOps.toLE FloatOps.toLT FloatOps.toIsFinite

instance (priority := 50) floatDecidableLE {F : Type} [FloatOps F] : DecidableLE F :=
  FloatOps.decidableLE

instance (priority := 50) floatDecidableLT {F : Type} [FloatOps F] : DecidableLT F :=
  FloatOps.decidableLT

instance : FloatOps ℚ where
  decidableLE := inferInstance
  decidableLT := inferInstance

end Qros.Python

namespace Qros.Python

/-- The value is not `nan`. -/
def IsNumber {F : Type} [LE F] (x : F) : Prop := x ≤ x

class LawfulFloat (F : Type) [FloatOps F] : Prop where
  left_of_le {a b : F} : a ≤ b → IsNumber a
  right_of_le {a b : F} : a ≤ b → IsNumber b
  le_trans {a b c : F} : a ≤ b → b ≤ c → a ≤ c
  le_total {a b : F} : IsNumber a → IsNumber b → a ≤ b ∨ b ≤ a
  lt_iff {a b : F} : a < b ↔ a ≤ b ∧ ¬ b ≤ a
  isNumber_of_isfinite {a : F} : isfinite a = true → IsNumber a
  isfinite_zero : isfinite (0 : F) = true
  neg_le_neg {a b : F} : a ≤ b → -b ≤ -a
  add_le_add_right {a b c : F} : IsNumber (a + c) → IsNumber (b + c) → a ≤ b → a + c ≤ b + c
  add_le_add_left {a b c : F} : IsNumber (c + a) → IsNumber (c + b) → a ≤ b → c + a ≤ c + b
  isNumber_add {a b : F} : isfinite a = true → IsNumber b → IsNumber (a + b)
  le_add_of_nonneg {a b : F} : isfinite b = true → 0 ≤ b → IsNumber a → a ≤ a + b
  div_le_div_right {a b c : F} : isfinite c = true → 0 < c → a ≤ b → a / c ≤ b / c
  isNumber_of_add {a b : F} : IsNumber (a + b) → IsNumber b
  isNumber_of_div {a b : F} : IsNumber (a / b) → IsNumber a

namespace LawfulFloat

variable {F : Type} [FloatOps F] [LawfulFloat F] {a b c : F}

theorem lt_of_le_of_lt (h : a ≤ b) (h' : b < c) : a < c := by
  obtain ⟨hbc, hcb⟩ := lt_iff.mp h'
  exact lt_iff.mpr ⟨le_trans h hbc, fun hca ↦ hcb (le_trans hca h)⟩

theorem lt_of_not_le (ha : IsNumber a) (hb : IsNumber b) (h : ¬ b ≤ a) : a < b := by
  rcases le_total ha hb with hab | hba
  · exact lt_iff.mpr ⟨hab, h⟩
  · exact absurd hba h

theorem le_of_lt (h : a < b) : a ≤ b := (lt_iff.mp h).1

end LawfulFloat

/-! ## `max` and `abs` -/

section

variable {F : Type} [FloatOps F]

def max (a b : F) : F := if a < b then b else a

def abs (x : F) : F := if x < 0 then -x else x

variable [LawfulFloat F]

theorem max_le_max {a b c : F} (ha : IsNumber a) (h : b ≤ c) : max a b ≤ max a c := by
  unfold max
  split
  · rename_i hab
    rw [if_pos (LawfulFloat.lt_iff.mpr ⟨LawfulFloat.le_trans (LawfulFloat.le_of_lt hab) h,
      fun hca ↦ (LawfulFloat.lt_iff.mp hab).2 (LawfulFloat.le_trans h hca)⟩)]
    exact h
  · split
    · rename_i hac
      exact LawfulFloat.le_of_lt hac
    · exact ha

end

/-! ## Exact numbers with infinities -/

inductive Extended where
  | nan
  | negInf
  | fin (q : ℚ)
  | posInf
deriving DecidableEq

namespace Extended

def add : Extended → Extended → Extended
  | nan, _ => nan
  | _, nan => nan
  | fin p, fin q => fin (p + q)
  | fin _, posInf => posInf
  | fin _, negInf => negInf
  | posInf, fin _ => posInf
  | negInf, fin _ => negInf
  | posInf, posInf => posInf
  | negInf, negInf => negInf
  | posInf, negInf => nan
  | negInf, posInf => nan

def neg : Extended → Extended
  | nan => nan
  | fin q => fin (-q)
  | posInf => negInf
  | negInf => posInf

/-- The infinity with the sign of a number. -/
def infinity (q : ℚ) : Extended := if q = 0 then nan else if 0 < q then posInf else negInf

def mul : Extended → Extended → Extended
  | nan, _ => nan
  | _, nan => nan
  | fin p, fin q => fin (p * q)
  | fin p, posInf => infinity p
  | fin p, negInf => infinity (-p)
  | posInf, fin q => infinity q
  | negInf, fin q => infinity (-q)
  | posInf, posInf => posInf
  | negInf, negInf => posInf
  | posInf, negInf => negInf
  | negInf, posInf => negInf

def div : Extended → Extended → Extended
  | fin p, fin q => if q = 0 then infinity p else fin (p / q)
  | fin _, posInf => fin 0
  | fin _, negInf => fin 0
  | posInf, fin q => if 0 ≤ q then posInf else negInf
  | negInf, fin q => if 0 ≤ q then negInf else posInf
  | _, _ => nan

def le : Extended → Extended → Prop
  | nan, _ => False
  | _, nan => False
  | negInf, _ => True
  | _, posInf => True
  | fin p, fin q => p ≤ q
  | fin _, negInf => False
  | posInf, _ => False

def lt (a b : Extended) : Prop := le a b ∧ ¬ le b a

instance decidableLe : (a b : Extended) → Decidable (le a b)
  | nan, _ => inferInstanceAs (Decidable False)
  | negInf, nan => inferInstanceAs (Decidable False)
  | fin _, nan => inferInstanceAs (Decidable False)
  | posInf, nan => inferInstanceAs (Decidable False)
  | negInf, negInf => inferInstanceAs (Decidable True)
  | negInf, fin _ => inferInstanceAs (Decidable True)
  | negInf, posInf => inferInstanceAs (Decidable True)
  | fin _, posInf => inferInstanceAs (Decidable True)
  | posInf, posInf => inferInstanceAs (Decidable True)
  | fin p, fin q => inferInstanceAs (Decidable (p ≤ q))
  | fin _, negInf => inferInstanceAs (Decidable False)
  | posInf, negInf => inferInstanceAs (Decidable False)
  | posInf, fin _ => inferInstanceAs (Decidable False)

instance decidableLt (a b : Extended) : Decidable (lt a b) := inferInstanceAs (Decidable (_ ∧ _))

instance : FloatOps Extended where
  zero := fin 0
  one := fin 1
  natCast n := fin n
  intCast n := fin n
  add := add
  sub a b := add a (neg b)
  neg := neg
  mul := mul
  div := div
  beq a b := decide (a ≠ nan ∧ a = b)
  le := le
  lt := lt
  isfinite a := match a with
    | fin _ => true
    | _ => false
  decidableLE := decidableLe
  decidableLT := decidableLt

instance : OfScientific Extended := ⟨fun m s e ↦ fin (OfScientific.ofScientific m s e)⟩

theorem isfinite_iff {a : Extended} : isfinite a = true ↔ ∃ q, a = fin q := by
  cases a with
  | fin q => exact iff_of_true rfl ⟨q, rfl⟩
  | nan => exact iff_of_false nofun nofun
  | negInf => exact iff_of_false nofun nofun
  | posInf => exact iff_of_false nofun nofun

variable {p q : ℚ}

@[simp]
theorem fin_le_fin : fin p ≤ fin q ↔ p ≤ q := Iff.rfl

@[simp]
theorem fin_lt_fin : fin p < fin q ↔ p < q := lt_iff_le_not_ge.symm

variable {a b : Extended}

theorem total (ha : IsNumber a) (hb : IsNumber b) : a ≤ b ∨ b ≤ a := by
  cases a with
  | nan => exact absurd ha not_false
  | negInf =>
    cases b with
    | nan => exact absurd hb not_false
    | _ => exact .inl trivial
  | posInf =>
    cases b with
    | nan => exact absurd hb not_false
    | _ => exact .inr trivial
  | fin p =>
    cases b with
    | nan => exact absurd hb not_false
    | negInf => exact .inr trivial
    | posInf => exact .inl trivial
    | fin q => exact le_total p q

theorem add_mono {a b c : Extended} (ha : IsNumber (a + c)) (hb : IsNumber (b + c)) (h : a ≤ b) :
    a + c ≤ b + c := by
  cases a <;> cases b <;> cases c <;>
    first
      | exact absurd h not_false
      | exact absurd ha not_false
      | exact absurd hb not_false
      | exact trivial
      | exact add_le_add_left (α := ℚ) h _

theorem add_symm (a b : Extended) : a + b = b + a := by
  cases a <;> cases b <;> try rfl
  exact congrArg fin (add_comm _ _)

theorem isNumber_iff {a : Extended} : IsNumber a ↔ a ≠ nan := by
  cases a with
  | nan => exact iff_of_false not_false (not_not_intro rfl)
  | negInf => exact iff_of_true trivial nofun
  | fin q => exact iff_of_true (le_refl q) nofun
  | posInf => exact iff_of_true trivial nofun

theorem trans {a b c : Extended} (h : a ≤ b) (h' : b ≤ c) : a ≤ c := by
  cases a <;> cases b <;> cases c <;>
    first
      | exact absurd h not_false
      | exact absurd h' not_false
      | exact trivial
      | exact le_trans (α := ℚ) h h'

theorem neg_mono (h : a ≤ b) : -b ≤ -a := by
  cases a <;> cases b <;>
    first
      | exact absurd h not_false
      | exact trivial
      | exact neg_le_neg (α := ℚ) h

theorem le_add_fin {a : Extended} {r : ℚ} (hr : 0 ≤ r) (ha : IsNumber a) : a ≤ a + fin r := by
  cases a with
  | nan => exact absurd ha not_false
  | negInf => exact trivial
  | fin q => exact le_add_of_nonneg_right hr
  | posInf => exact trivial

theorem fin_div_fin (hq : 0 < q) : fin p / fin q = fin (p / q) := if_neg (ne_of_gt hq)

theorem div_fin_mono {r : ℚ} (hr : 0 < r) (h : a ≤ b) : a / fin r ≤ b / fin r := by
  have hpos : posInf / fin r = posInf := if_pos (le_of_lt hr)
  have hneg : negInf / fin r = negInf := if_pos (le_of_lt hr)
  cases a with
  | nan => exact absurd h not_false
  | negInf =>
    rw [hneg]
    cases b with
    | nan => exact absurd h not_false
    | negInf => rw [hneg]; exact trivial
    | posInf => rw [hpos]; exact trivial
    | fin q => rw [fin_div_fin hr]; exact trivial
  | posInf =>
    cases b with
    | posInf => rw [hpos]; exact trivial
    | _ => exact absurd h not_false
  | fin p =>
    rw [fin_div_fin hr]
    cases b with
    | nan => exact absurd h not_false
    | negInf => exact absurd h not_false
    | posInf => rw [hpos]; exact trivial
    | fin q =>
      rw [fin_div_fin hr]
      have hpq : p ≤ q := h
      exact fin_le_fin.mpr (div_le_div_of_nonneg_right hpq (le_of_lt hr))

theorem nan_of_add (h : IsNumber (a + b)) : IsNumber b := by
  rw [isNumber_iff]
  rintro rfl
  cases a <;> exact absurd h not_false

theorem nan_of_div (h : IsNumber (a / b)) : IsNumber a := by
  rw [isNumber_iff]
  rintro rfl
  exact absurd h not_false

theorem le_left (h : a ≤ b) : IsNumber a := by
  rw [isNumber_iff]
  rintro rfl
  exact absurd h not_false

theorem le_right (h : a ≤ b) : IsNumber b := by
  rw [isNumber_iff]
  rintro rfl
  cases a <;> exact absurd h not_false

instance : LawfulFloat Extended where
  left_of_le := le_left
  right_of_le := le_right
  le_trans := trans
  le_total := total
  lt_iff := Iff.rfl
  isNumber_of_isfinite h := by
    obtain ⟨q, rfl⟩ := isfinite_iff.mp h
    exact le_refl q
  isfinite_zero := rfl
  neg_le_neg := neg_mono
  add_le_add_right := add_mono
  add_le_add_left {a b c} ha hb h := by
    rw [add_symm c a] at ha ⊢
    rw [add_symm c b] at hb ⊢
    exact add_mono ha hb h
  isNumber_add {a b} ha hb := by
    obtain ⟨q, rfl⟩ := isfinite_iff.mp ha
    rw [isNumber_iff] at hb ⊢
    cases b with
    | nan => exact absurd rfl hb
    | _ => nofun
  le_add_of_nonneg hb hpos ha := by
    obtain ⟨r, rfl⟩ := isfinite_iff.mp hb
    exact le_add_fin (fin_le_fin.mp hpos) ha
  div_le_div_right hc hpos h := by
    obtain ⟨r, rfl⟩ := isfinite_iff.mp hc
    exact div_fin_mono (fin_lt_fin.mp hpos) h
  isNumber_of_add := nan_of_add
  isNumber_of_div := nan_of_div

end Extended

end Qros.Python
