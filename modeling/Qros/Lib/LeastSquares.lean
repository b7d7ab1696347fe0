import Mathlib.LinearAlgebra.Matrix.DotProduct
import Mathlib.Tactic.FieldSimp
import Mathlib.Tactic.Linarith
import Mathlib.Tactic.LinearCombination
import Mathlib.Tactic.Positivity
import Mathlib.Algebra.BigOperators.Field
import Mathlib.LinearAlgebra.Matrix.Notation
import Qros.Lib.Numerals

/-!
# The line of best fit

The values `ys` are read at the abscissae `0, 1, …`.  `IsLeastSquares` says that a line
has the least sum of squared errors of all lines.  From two values on such a line has the
slope of the closed formula (`slope_of_isLeastSquares`), and the line of the closed formula
is one (`isLeastSquares_fit`).

`MinimizesError` says the same of the coefficients of any linear model; they are the solutions of
the normal equations (`minimizesError_iff`).

`sum_sq_dev` is the other sum of squares: the mean of the squared deviations from the mean
as the mean of the squares less the square of the mean.
-/

universe u v

namespace Qros.Lib

open List

variable {F : Type u} [Field F] [LinearOrder F]

/-- `∑ i, i * yᵢ`. -/
def weightedSum (ys : List F) : F := (ys.zipIdx.map fun p ↦ (p.2 : F) * p.1).sum

def squaredError (ys : List F) (a b : F) : F :=
  (ys.zipIdx.map fun p ↦ (p.1 - (a * p.2 + b)) ^ 2).sum

def IsLeastSquares (ys : List F) (line : F × F) : Prop :=
  ∀ a b, squaredError ys line.1 line.2 ≤ squaredError ys a b

variable (F) in
def sumX (n : Nat) : F := n * (n - 1) / 2

variable (F) in
/-- The sum of their squares. -/
def sumXX (n : Nat) : F := n * (n - 1) * (2 * n - 1) / 6

def fitSlope (ys : List F) : F :=
  let n := ys.length
  (n * weightedSum ys - sumX F n * ys.sum) / (n * sumXX F n - sumX F n * sumX F n)

omit [LinearOrder F] in

@[simp]
theorem weightedSum_nil : weightedSum ([] : List F) = 0 := rfl

omit [LinearOrder F] in
theorem weightedSum_concat (ys : List F) (y : F) :
    weightedSum (ys ++ [y]) = weightedSum ys + ys.length * y := by
  rw [weightedSum, zipIdx_append, map_append, sum_append, weightedSum]
  simp

omit [LinearOrder F] in
/-- Without its first value every other moves up by one. -/
theorem weightedSum_cons (y : F) (ys : List F) :
    weightedSum (y :: ys) = weightedSum ys + ys.sum := by
  induction ys using reverseRecOn with
  | nil => simp [weightedSum]
  | append_singleton ys z ih =>
    rw [← cons_append, weightedSum_concat, ih, weightedSum_concat, sum_append,
      sum_singleton, length_cons, Nat.cast_add, Nat.cast_one]
    ring

variable [IsStrictOrderedRing F]

omit [LinearOrder F] [IsStrictOrderedRing F] in
theorem squaredError_concat (ys : List F) (y a b : F) :
    squaredError (ys ++ [y]) a b =
      squaredError ys a b + (y - (a * (ys.length : F) + b)) ^ 2 := by
  rw [squaredError, zipIdx_append, map_append, sum_append, squaredError]
  simp

/-- The error as a quadratic form in the line. -/
theorem squaredError_eq (ys : List F) (a b : F) :
    squaredError ys a b = squaredError ys 0 0 - 2 * a * weightedSum ys - 2 * b * ys.sum +
      a ^ 2 * sumXX F ys.length + 2 * a * b * sumX F ys.length + b ^ 2 * ys.length := by
  induction ys using reverseRecOn with
  | nil => simp [squaredError, sumX, sumXX]
  | append_singleton ys y ih =>
    rw [squaredError_concat, squaredError_concat, ih, weightedSum_concat, sum_append,
      sum_singleton, length_append, length_singleton]
    unfold sumX sumXX
    rw [Nat.cast_add, Nat.cast_one]
    field_simp
    ring

theorem sumX_discriminant (n : Nat) :
    (n : F) * sumXX F n - sumX F n * sumX F n = n * n * (n * n - 1) / 12 := by
  unfold sumX sumXX
  field_simp
  ring

variable {ys : List F}

theorem discriminant_pos (h : 2 ≤ ys.length) :
    0 < (ys.length : F) * sumXX F ys.length - sumX F ys.length * sumX F ys.length := by
  have hn : (2 : F) ≤ ys.length := by exact_mod_cast h
  rw [sumX_discriminant]
  have : 0 < (ys.length : F) * ys.length - 1 := by nlinarith
  positivity

/-- The slope and the intercept of the closed formula. -/
def fit (ys : List F) : F × F :=
  (fitSlope ys, (ys.sum - fitSlope ys * sumX F ys.length) / ys.length)

/-- What a line misses of the line of the closed formula. -/
theorem squaredError_fit (h : 2 ≤ ys.length) (a b : F) :
    (ys.length : F) * (squaredError ys a b - squaredError ys (fit ys).1 (fit ys).2) =
      ((ys.length : F) * (b - (fit ys).2) + (a - (fit ys).1) * sumX F ys.length) ^ 2 +
        (a - (fit ys).1) ^ 2 *
          (ys.length * sumXX F ys.length - sumX F ys.length * sumX F ys.length) := by
  have hdisc := discriminant_pos h
  have hn : (0 : F) < ys.length := by exact_mod_cast (by omega : 0 < ys.length)
  have hslope : (fit ys).1 * (ys.length * sumXX F ys.length - sumX F ys.length * sumX F ys.length) =
      ys.length * weightedSum ys - sumX F ys.length * ys.sum := div_mul_cancel₀ _ hdisc.ne'
  have hintercept : (fit ys).2 * ys.length = ys.sum - (fit ys).1 * sumX F ys.length :=
    div_mul_cancel₀ _ hn.ne'
  rw [squaredError_eq ys a b, squaredError_eq ys (fit ys).1 (fit ys).2]
  generalize (fit ys).1 = s at hslope hintercept ⊢
  generalize (fit ys).2 = t at hintercept ⊢
  generalize sumXX F ys.length = xx at hslope ⊢
  generalize sumX F ys.length = x at hslope hintercept ⊢
  generalize (ys.length : F) = n at hslope hintercept hn ⊢
  generalize weightedSum ys = xy at hslope ⊢
  generalize ys.sum = y at hslope hintercept ⊢
  linear_combination 2 * (a - s) * hslope + (2 * (a - s) * x + 2 * (b - t) * n) * hintercept

theorem isLeastSquares_fit (h : 2 ≤ ys.length) : IsLeastSquares ys (fit ys) := by
  intro a b
  have hn : (0 : F) < ys.length := by exact_mod_cast (by omega : 0 < ys.length)
  have hgap := squaredError_fit h a b
  have hdisc := discriminant_pos (F := F) h
  have hnonneg : 0 ≤ (ys.length : F) *
      (squaredError ys a b - squaredError ys (fit ys).1 (fit ys).2) := by
    rw [hgap]
    positivity
  exact sub_nonneg.mp (nonneg_of_mul_nonneg_right hnonneg hn)

/-- A line of least squared error has the slope of the closed formula. -/
theorem slope_of_isLeastSquares (h : 2 ≤ ys.length) {line : F × F}
    (hline : IsLeastSquares ys line) : line.1 = fitSlope ys := by
  have hn : (0 : F) < ys.length := by exact_mod_cast (by omega : 0 < ys.length)
  have hgap := squaredError_fit h line.1 line.2
  have hdisc := discriminant_pos (F := F) h
  have hle : (ys.length : F) *
      (squaredError ys line.1 line.2 - squaredError ys (fit ys).1 (fit ys).2) ≤ 0 :=
    mul_nonpos_of_nonneg_of_nonpos hn.le (sub_nonpos.mpr (hline _ _))
  rw [hgap] at hle
  have hsq : (line.1 - (fit ys).1) ^ 2 = 0 := by
    by_contra hne
    have hpos : 0 < (line.1 - (fit ys).1) ^ 2 := lt_of_le_of_ne (sq_nonneg _) (Ne.symm hne)
    have := mul_pos hpos hdisc
    have := sq_nonneg ((ys.length : F) * (line.2 - (fit ys).2) +
      (line.1 - (fit ys).1) * sumX F ys.length)
    linarith
  exact sub_eq_zero.mp (pow_eq_zero_iff (two_ne_zero) |>.mp hsq)

/-! ## Squared deviations -/

omit [LinearOrder F] [IsStrictOrderedRing F] in
theorem sum_sq_sub (xs : List F) (c : F) :
    (xs.map fun x ↦ (x - c) ^ 2).sum =
      (xs.map fun x ↦ x * x).sum - 2 * c * xs.sum + xs.length * c ^ 2 := by
  induction xs with
  | nil => simp
  | cons x xs ih =>
    simp only [map_cons, sum_cons, length_cons, ih, Nat.cast_add, Nat.cast_one]
    ring

omit [LinearOrder F] [IsStrictOrderedRing F] in
theorem sum_sq_dev {xs : List F} (h : (xs.length : F) ≠ 0) :
    (xs.map fun x ↦ (x - xs.sum / xs.length) ^ 2).sum / xs.length =
      (xs.map fun x ↦ x * x).sum / xs.length - xs.sum / xs.length * (xs.sum / xs.length) := by
  rw [sum_sq_sub]
  field_simp
  ring

theorem sum_sq_nonneg (xs : List F) (c : F) : 0 ≤ (xs.map fun x ↦ (x - c) ^ 2).sum := by
  refine sum_nonneg fun y hy ↦ ?_
  obtain ⟨x, -, rfl⟩ := mem_map.mp hy
  exact sq_nonneg _

/-! ## Linear models -/

section

open Matrix

variable {m k : Type} [Fintype m] [Fintype k]

/-- The sum of the squared errors of the coefficients `c`. -/
def modelError (X : Matrix m k F) (y : m → F) (c : k → F) : F := (y - X *ᵥ c) ⬝ᵥ (y - X *ᵥ c)

def MinimizesError (X : Matrix m k F) (y : m → F) (c : k → F) : Prop :=
  ∀ c', modelError X y c ≤ modelError X y c'

omit [LinearOrder F] [IsStrictOrderedRing F] in
/-- The error of other coefficients. -/
theorem modelError_add (X : Matrix m k F) (y : m → F) (c d : k → F) :
    modelError X y (c + d) =
      modelError X y c - 2 * ((y - X *ᵥ c) ⬝ᵥ X *ᵥ d) + (X *ᵥ d) ⬝ᵥ (X *ᵥ d) := by
  have hsub : y - X *ᵥ (c + d) = (y - X *ᵥ c) - X *ᵥ d := by
    rw [mulVec_add, sub_sub]
  rw [modelError, hsub, modelError]
  generalize y - X *ᵥ c = r
  rw [sub_dotProduct, dotProduct_sub, dotProduct_sub, dotProduct_comm (X *ᵥ d) r]
  ring

omit [LinearOrder F] [IsStrictOrderedRing F] in
theorem normal_iff {X : Matrix m k F} {y : m → F} {c : k → F} :
    (Xᵀ * X) *ᵥ c = Xᵀ *ᵥ y ↔ ∀ d, (y - X *ᵥ c) ⬝ᵥ X *ᵥ d = 0 := by
  have hdot : ∀ d, (y - X *ᵥ c) ⬝ᵥ X *ᵥ d = (Xᵀ *ᵥ y - (Xᵀ * X) *ᵥ c) ⬝ᵥ d := by
    intro d
    rw [dotProduct_mulVec, ← mulVec_transpose, mulVec_sub, mulVec_mulVec]
  constructor
  · intro h d
    rw [hdot, h, sub_self, zero_dotProduct]
  · intro h
    have hzero : Xᵀ *ᵥ y - (Xᵀ * X) *ᵥ c = 0 := by
      classical
      funext j
      have hj := h (Pi.single j 1)
      rwa [hdot, dotProduct_single_one] at hj
    exact (sub_eq_zero.mp hzero).symm

theorem dotProduct_self_nonneg' (v : m → F) : 0 ≤ v ⬝ᵥ v :=
  Finset.sum_nonneg fun i _ ↦ mul_self_nonneg (v i)

/-- **The coefficients of least squares** are the solutions of the normal equations. -/
theorem minimizesError_iff {X : Matrix m k F} {y : m → F} {c : k → F} :
    MinimizesError X y c ↔ (Xᵀ * X) *ᵥ c = Xᵀ *ᵥ y := by
  rw [normal_iff]
  constructor
  · intro h d
    -- A small step along `d` lowers the error unless the errors are orthogonal to it.
    have hb := dotProduct_self_nonneg' (X *ᵥ d)
    have hstep : ∀ t, modelError X y c ≤ modelError X y c
        - 2 * (t * ((y - X *ᵥ c) ⬝ᵥ X *ᵥ d)) + t * (t * ((X *ᵥ d) ⬝ᵥ (X *ᵥ d))) := by
      intro t
      have hle := h (c + t • d)
      rwa [modelError_add, mulVec_smul, dotProduct_smul, smul_dotProduct, dotProduct_smul,
        smul_eq_mul, smul_eq_mul, smul_eq_mul] at hle
    generalize (y - X *ᵥ c) ⬝ᵥ X *ᵥ d = a at *
    generalize (X *ᵥ d) ⬝ᵥ (X *ᵥ d) = b at *
    obtain ⟨t, ht⟩ : ∃ t, t * (b + 1) = a := ⟨a / (b + 1), div_mul_cancel₀ a (by linarith)⟩
    have hsq : t * t = 0 := by
      have hle := hstep t
      rw [← ht] at hle
      nlinarith [mul_self_nonneg t, mul_nonneg (mul_self_nonneg t) hb]
    rw [← ht, mul_self_eq_zero.mp hsq, zero_mul]
  · intro h c'
    have hadd := modelError_add X y c (c' - c)
    rw [add_sub_cancel, h, mul_zero, sub_zero] at hadd
    rw [hadd]
    exact le_add_of_nonneg_right (dotProduct_self_nonneg' _)

end

end Qros.Lib

/-!
## Row operations

A `System` is a square matrix with right sides.  Exchanging two rows, dividing one and subtracting
multiples of it from the others keep its solutions.

The values that back substitution gives solve a triangular system (`solve_of_triangular`).
-/

namespace Qros.Lib

open Matrix

variable {F : Type u} [Field F] {n : Nat} {ι : Type v}

structure System (F : Type u) (n : Nat) (ι : Type v) where
  left : Matrix (Fin n) (Fin n) F
  right : Matrix (Fin n) ι F

namespace System

/-- The columns of `X` solve the system for the right sides. -/
def Solves (S : System F n ι) (X : Matrix (Fin n) ι F) : Prop := S.left * X = S.right

/-- The rows `i` and `j` change places. -/
def swap (i j : Fin n) (S : System F n ι) : System F n ι where
  left := fun r ↦ S.left (Equiv.swap i j r)
  right := fun r ↦ S.right (Equiv.swap i j r)

/-- Row `i` is divided by `a`. -/
def scale (i : Fin n) (a : F) (S : System F n ι) : System F n ι where
  left := fun r c ↦ if r = i then S.left i c / a else S.left r c
  right := fun r c ↦ if r = i then S.right i c / a else S.right r c

/-- From every row `r` the multiple `f r` of row `i` is subtracted. -/
def clear (i : Fin n) (f : Fin n → F) (S : System F n ι) : System F n ι where
  left := fun r c ↦ S.left r c - f r * S.left i c
  right := fun r c ↦ S.right r c - f r * S.right i c

variable {S : System F n ι} {X : Matrix (Fin n) ι F}

theorem solves_iff : S.Solves X ↔ ∀ r c, ∑ k, S.left r k * X k c = S.right r c :=
  ⟨fun h r c ↦ congrFun (congrFun h r) c, fun h ↦ Matrix.ext h⟩

theorem solves_swap (i j : Fin n) : (S.swap i j).Solves X ↔ S.Solves X := by
  rw [solves_iff, solves_iff]
  exact (Equiv.swap i j).forall_congr_right (q := fun r ↦ ∀ c, ∑ k, S.left r k * X k c = S.right r c)

theorem solves_scale {i : Fin n} {a : F} (ha : a ≠ 0) : (S.scale i a).Solves X ↔ S.Solves X := by
  rw [solves_iff, solves_iff]
  refine forall_congr' fun r ↦ forall_congr' fun c ↦ ?_
  by_cases hr : r = i
  · subst hr
    have hsum : ∑ k, S.left r k / a * X k c = (∑ k, S.left r k * X k c) / a := by
      rw [Finset.sum_div]
      exact Finset.sum_congr rfl fun k _ ↦ div_mul_eq_mul_div _ _ _
    simp only [scale, if_true, hsum]
    exact div_left_inj' ha
  · simp only [scale, if_neg hr]

theorem solves_clear {i : Fin n} {f : Fin n → F} (hf : f i = 0) :
    (S.clear i f).Solves X ↔ S.Solves X := by
  have hsum : ∀ r c, ∑ k, (S.left r k - f r * S.left i k) * X k c =
      ∑ k, S.left r k * X k c - f r * ∑ k, S.left i k * X k c := by
    intro r c
    rw [Finset.mul_sum, ← Finset.sum_sub_distrib]
    exact Finset.sum_congr rfl fun k _ ↦ by rw [sub_mul, mul_assoc]
  rw [solves_iff, solves_iff]
  simp only [clear, hsum]
  constructor
  · intro h r c
    have hi := h i c
    rw [hf, zero_mul, zero_mul, sub_zero, sub_zero] at hi
    have hr := h r c
    rwa [hi, sub_left_inj] at hr
  · intro h r c
    rw [h r c, h i c]

end System

/-! ## Triangular systems -/

structure Triangular (U : Matrix (Fin n) (Fin n) F) : Prop where
  below : ∀ r c, c < r → U r c = 0
  diagonal : ∀ c, U c c ≠ 0

theorem Triangular.mulVec_eq {U : Matrix (Fin n) (Fin n) F} (hU : Triangular U) {x y : Fin n → F}
    (hx : ∀ i, x i = (y i - ∑ j ∈ Finset.Ioi i, U i j * x j) / U i i) : U *ᵥ x = y := by
  funext i
  have hsplit : (U *ᵥ x) i = U i i * x i + ∑ j ∈ Finset.Ioi i, U i j * x j := by
    have hzero : ∑ j, U i j * x j = ∑ j ∈ Finset.Ici i, U i j * x j := by
      refine (Finset.sum_subset (Finset.subset_univ _) fun j _ hj ↦ ?_).symm
      rw [hU.below i j (not_le.mp fun h ↦ hj (Finset.mem_Ici.mpr h)), zero_mul]
    rw [mulVec, dotProduct, hzero, ← Finset.Ioi_insert, Finset.sum_insert Finset.notMem_Ioi_self]
  rw [hsplit, hx i, mul_div_cancel₀ _ (hU.diagonal i), sub_add_cancel]

end Qros.Lib
