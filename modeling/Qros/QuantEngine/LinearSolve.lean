import Mathlib.LinearAlgebra.Matrix.NonsingularInverse
import Qros.Lib.LeastSquares
import Qros.Lib.FirstMax

/-!
# Linear solvers

`_solve_linear` and `_mat_inv` of `quant_engine/econometrics/core.py`, for exact numbers.

Both go through the columns, take the greatest entry of what is left of a column as its pivot,
and give up when it is below the tolerance.  They meet the same pivots (`PivotsLarge`,
`reduce_ne_none_iff`), and are right where they do not give up.
-/

namespace Qros.QuantEngine.Econometrics

open Qros.Lib Matrix List

variable {F : Type} [Field F] [LinearOrder F] {n : Nat} {ι : Type}

/-! ## The solvers -/

/-- `max(range(col, n), key=lambda r: abs(aug[r][col]))`. -/
def pivot (M : Matrix (Fin n) (Fin n) F) (col : Fin n) : Fin n :=
  (((List.finRange n).filter fun r ↦ col ≤ r).argmax fun r ↦ |M r col|).getD col

variable (F) in
/-- `1e-12`. -/
def tolerance : F := 1 / 1000000000000

/-- The inner loops of `_solve_linear`, below the row of the pivot. -/
def eliminateBelow (col : Fin n) (S : System F n ι) : System F n ι where
  left := fun r c ↦
    if col < r ∧ col ≤ c then S.left r c - S.left r col / S.left col col * S.left col c
    else S.left r c
  right := fun r c ↦
    if col < r then S.right r c - S.left r col / S.left col col * S.right col c
    else S.right r c

/-- The loop over the columns; `none` is the early return. -/
def eliminate : List (Fin n) → System F n ι → Option (System F n ι)
  | [], S => some S
  | col :: cols, S =>
    let S := S.swap col (pivot S.left col)
    if |S.left col col| < tolerance F then none else eliminate cols (eliminateBelow col S)

/-- The loop of `_solve_linear` from the last row to the first. -/
def backSubstitute (U : Matrix (Fin n) (Fin n) F) (y : Fin n → F) (rows : List (Fin n)) :
    Fin n → F :=
  rows.foldr (fun i x ↦ Function.update x i ((y i - ∑ j ∈ Finset.Ioi i, U i j * x j) / U i i)) 0

def solveLinear (A : Matrix (Fin n) (Fin n) F) (b : Fin n → F) : Fin n → F :=
  match eliminate (List.finRange n) (⟨A, fun r (_ : Unit) ↦ b r⟩ : System F n Unit) with
  | none => 0
  | some S => backSubstitute S.left (fun r ↦ S.right r ()) (List.finRange n)

/-- The inner loops of `_mat_inv`. -/
def reduceColumn (i : Fin n) (S : System F n ι) : System F n ι :=
  let S := S.scale i (S.left i i)
  S.clear i fun r ↦ if r = i then 0 else S.left r i

/-- The outer loop of `_mat_inv`; `none` is the early return. -/
def reduce : List (Fin n) → System F n ι → Option (System F n ι)
  | [], S => some S
  | i :: cols, S =>
    let S := S.swap i (pivot S.left i)
    if |S.left i i| < tolerance F then none else reduce cols (reduceColumn i S)

def matInv (A : Matrix (Fin n) (Fin n) F) : Matrix (Fin n) (Fin n) F :=
  match reduce (List.finRange n) (⟨A, 1⟩ : System F n (Fin n)) with
  | none => 1
  | some S => S.right

/-! ## Pivots -/

/-- The matrix when the pivot of a column has come to the diagonal. -/
def pivoted (M : Matrix (Fin n) (Fin n) F) (col : Fin n) : Matrix (Fin n) (Fin n) F :=
  fun r ↦ M (Equiv.swap col (pivot M col) r)

/-- The rows below the pivot, with zeros under it. -/
def schur (M : Matrix (Fin n) (Fin n) F) (col : Fin n) : Matrix (Fin n) (Fin n) F :=
  fun r c ↦
    if col < r ∧ col ≤ c then
      pivoted M col r c - pivoted M col r col / pivoted M col col col * pivoted M col col c
    else pivoted M col r c

/-- Elimination with partial pivoting meets no pivot below the tolerance. -/
def PivotsLarge : List (Fin n) → Matrix (Fin n) (Fin n) F → Prop
  | [], _ => True
  | col :: cols, M => tolerance F ≤ |pivoted M col col col| ∧ PivotsLarge cols (schur M col)

theorem pivot_spec (M : Matrix (Fin n) (Fin n) F) (col : Fin n) :
    col ≤ pivot M col ∧ ∀ r, col ≤ r → |M r col| ≤ |M (pivot M col) col| := by
  have hmem : ∀ r, r ∈ (List.finRange n).filter (fun r ↦ col ≤ r) ↔ col ≤ r := by
    intro r
    simp
  unfold pivot
  cases h : ((List.finRange n).filter fun r ↦ col ≤ r).argmax fun r ↦ |M r col| with
  | none =>
    have hnil := argmax_eq_none.mp h
    exact absurd ((hmem col).mpr le_rfl) (hnil ▸ not_mem_nil)
  | some p =>
    refine ⟨(hmem p).mp (argmax_mem h), fun r hr ↦ ?_⟩
    exact le_of_mem_argmax (f := fun r ↦ |M r col|) ((hmem r).mpr hr) h

theorem pivot_congr {M M' : Matrix (Fin n) (Fin n) F} {col : Fin n}
    (h : ∀ r, col ≤ r → M r col = M' r col) : pivot M col = pivot M' col := by
  unfold pivot
  refine congrArg (Option.getD · col) (argmax_congr fun r hr ↦ ?_)
  rw [h r (by simpa using hr)]

theorem le_swap {col p : Fin n} (hp : col ≤ p) {r : Fin n} (hr : col ≤ r) :
    col ≤ Equiv.swap col p r := by
  rw [Equiv.swap_apply_def]
  split
  · exact hp
  · split
    · exact le_rfl
    · exact hr

theorem swap_of_lt {col p : Fin n} (hp : col ≤ p) {r : Fin n} (hr : r < col) :
    Equiv.swap col p r = r :=
  Equiv.swap_apply_of_ne_of_ne (ne_of_lt hr) (ne_of_lt (lt_of_lt_of_le hr hp))

theorem tolerance_pos [IsStrictOrderedRing F] : 0 < tolerance F := by
  unfold tolerance
  norm_num

/-! ## Columns that are done -/

/-- The columns to come follow those that are done, in order. -/
structure Remaining (cols : List (Fin n)) : Prop where
  ordered : cols.Pairwise (· < ·)
  later : ∀ c, c ∉ cols → ∀ c' ∈ cols, c < c'

theorem remaining_finRange : Remaining (List.finRange n) where
  ordered := pairwise_lt_finRange n
  later := fun c hc ↦ absurd (mem_finRange c) hc

theorem Remaining.tail {col : Fin n} {cols : List (Fin n)} (h : Remaining (col :: cols)) :
    Remaining cols where
  ordered := (pairwise_cons.mp h.ordered).2
  later := by
    intro c hc c' hc'
    by_cases heq : c = col
    · exact heq ▸ (pairwise_cons.mp h.ordered).1 c' hc'
    · exact h.later c (by simp [heq, hc]) c' (mem_cons_of_mem _ hc')

theorem Remaining.mem_iff {col : Fin n} {cols : List (Fin n)} (h : Remaining (col :: cols))
    {c : Fin n} : c ∈ cols ↔ col < c := by
  constructor
  · exact (pairwise_cons.mp h.ordered).1 c
  · intro hlt
    by_contra hc
    have hne : c ∉ col :: cols := by simp [hc, ne_of_gt hlt]
    exact lt_asymm hlt (h.later c hne col mem_cons_self)

/-! ## Elimination -/

section

variable {S : System F n ι} {cols : List (Fin n)}

/-- The columns that are done are zero below the diagonal, and not on it. -/
def Eliminated (cols : List (Fin n)) (M : Matrix (Fin n) (Fin n) F) : Prop :=
  ∀ c, c ∉ cols → (∀ r, c < r → M r c = 0) ∧ M c c ≠ 0

variable {col : Fin n}

theorem Eliminated.pivoted {M : Matrix (Fin n) (Fin n) F} (h : Eliminated (col :: cols) M)
    (hcols : Remaining (col :: cols)) :
    Eliminated (col :: cols) (pivoted M col) := by
  intro c hc
  have hlt : c < col := hcols.later c hc col mem_cons_self
  have hp := (pivot_spec M col).1
  refine ⟨fun r hr ↦ ?_, ?_⟩
  · by_cases hcr : r < col
    · rw [Econometrics.pivoted, swap_of_lt hp hcr]
      exact (h c hc).1 r hr
    · exact (h c hc).1 _ (lt_of_lt_of_le hlt (le_swap hp (not_lt.mp hcr)))
  · rw [Econometrics.pivoted, swap_of_lt hp hlt]
    exact (h c hc).2

theorem Eliminated.schur {M : Matrix (Fin n) (Fin n) F} (h : Eliminated (col :: cols) M)
    (hcols : Remaining (col :: cols)) (hpivot : Econometrics.pivoted M col col col ≠ 0) :
    Eliminated cols (schur M col) := by
  have hpivoted := h.pivoted hcols
  intro c hc
  unfold Econometrics.schur
  by_cases heq : c = col
  · subst heq
    refine ⟨fun r hr ↦ ?_, ?_⟩
    · rw [if_pos ⟨hr, le_rfl⟩, div_mul_cancel₀ _ hpivot, sub_self]
    · rw [if_neg (fun hlt ↦ lt_irrefl c hlt.1)]
      exact hpivot
  · have hc' : c ∉ col :: cols := by simp [heq, hc]
    have hlt : c < col := hcols.later c hc' col mem_cons_self
    refine ⟨fun r hr ↦ ?_, ?_⟩
    · rw [if_neg fun hle ↦ not_lt.mpr hle.2 hlt]
      exact (hpivoted c hc').1 r hr
    · rw [if_neg fun hle ↦ not_lt.mpr hle.2 hlt]
      exact (hpivoted c hc').2

omit [LinearOrder F] in
theorem eliminateBelow_eq (h : ∀ c, c < col → S.left col c = 0) :
    eliminateBelow col S =
      S.clear col fun r ↦ if col < r then S.left r col / S.left col col else 0 := by
  unfold eliminateBelow System.clear
  congr 1
  · funext r c
    dsimp only
    by_cases hr : col < r
    · by_cases hc : col ≤ c
      · rw [if_pos ⟨hr, hc⟩, if_pos hr]
      · rw [if_neg fun hle ↦ hc hle.2, if_pos hr, h c (not_le.mp hc), mul_zero, sub_zero]
    · rw [if_neg fun hle ↦ hr hle.1, if_neg hr, zero_mul, sub_zero]
  · funext r c
    dsimp only
    by_cases hr : col < r
    · rw [if_pos hr, if_pos hr]
    · rw [if_neg hr, if_neg hr, zero_mul, sub_zero]

/-- What elimination leaves, if it does not give up. -/
structure Reduces (S T : System F n ι) : Prop where
  triangular : Triangular T.left
  solves : ∀ X, T.Solves X ↔ S.Solves X

variable [IsStrictOrderedRing F]

theorem eliminate_spec (hcols : Remaining cols) (h : Eliminated cols S.left) :
    (PivotsLarge cols S.left ∧ ∃ T, eliminate cols S = some T ∧ Reduces S T) ∨
      (¬ PivotsLarge cols S.left ∧ eliminate cols S = none) := by
  induction cols generalizing S with
  | nil =>
    refine .inl ⟨trivial, S, rfl, ⟨fun r c hlt ↦ ?_, fun c ↦ ?_⟩, fun X ↦ Iff.rfl⟩
    · exact (h c not_mem_nil).1 r hlt
    · exact (h c not_mem_nil).2
  | cons col cols ih =>
    have hp := (pivot_spec S.left col).1
    unfold eliminate
    dsimp only
    by_cases hsmall : |(S.swap col (pivot S.left col)).left col col| < tolerance F
    · rw [if_pos hsmall]
      exact .inr ⟨fun hlarge ↦ not_lt.mpr hlarge.1 hsmall, rfl⟩
    · rw [if_neg hsmall]
      have hlarge : tolerance F ≤ |pivoted S.left col col col| := not_lt.mp hsmall
      have hne : pivoted S.left col col col ≠ 0 :=
        abs_pos.mp (lt_of_lt_of_le tolerance_pos hlarge)
      have hdone : Eliminated cols (eliminateBelow col (S.swap col (pivot S.left col))).left :=
        h.schur hcols hne
      rcases ih hcols.tail hdone with ⟨hrest, T, hT, hreduces⟩ | ⟨hrest, hnone⟩
      · refine .inl ⟨⟨hlarge, hrest⟩, T, hT, hreduces.triangular, fun X ↦ ?_⟩
        rw [hreduces.solves X, eliminateBelow_eq, System.solves_clear, System.solves_swap]
        · exact if_neg (lt_irrefl col)
        · intro c hc
          have hc' : c ∉ col :: cols := fun hmem ↦ by
            rcases mem_cons.mp hmem with rfl | hmem
            · exact lt_irrefl c hc
            · exact lt_asymm hc (hcols.mem_iff.mp hmem)
          exact (h.pivoted hcols c hc').1 col hc
      · exact .inr ⟨fun hlarge' ↦ hrest hlarge'.2, hnone⟩

end

/-! ## Back substitution -/

omit [LinearOrder F] in
theorem backSubstitute_apply {U : Matrix (Fin n) (Fin n) F} {y : Fin n → F} {rows : List (Fin n)}
    (hrows : rows.Pairwise (· < ·)) {i : Fin n} (hi : i ∈ rows) :
    backSubstitute U y rows i =
      (y i - ∑ j ∈ Finset.Ioi i, U i j * backSubstitute U y rows j) / U i i := by
  induction rows with
  | nil => cases hi
  | cons k rows ih =>
    obtain ⟨hk, hrows⟩ := pairwise_cons.mp hrows
    have hkeep : ∀ j, k < j → backSubstitute U y (k :: rows) j = backSubstitute U y rows j :=
      fun j hj ↦ Function.update_of_ne (ne_of_gt hj) _ _
    have hsum : ∀ i, k ≤ i → ∑ j ∈ Finset.Ioi i, U i j * backSubstitute U y (k :: rows) j =
        ∑ j ∈ Finset.Ioi i, U i j * backSubstitute U y rows j := fun i hki ↦
      Finset.sum_congr rfl fun j hj ↦ by rw [hkeep j (lt_of_le_of_lt hki (Finset.mem_Ioi.mp hj))]
    rcases mem_cons.mp hi with rfl | hi
    · rw [hsum i le_rfl]
      exact Function.update_self _ _ _
    · rw [hsum i (hk i hi).le, hkeep i (hk i hi)]
      exact ih hrows hi

section Solve

variable [IsStrictOrderedRing F]

/-- **The solution is right** just when no pivot is below the tolerance, or it is zero. -/
theorem solveLinear_iff (A : Matrix (Fin n) (Fin n) F) (b : Fin n → F) :
    A *ᵥ solveLinear A b = b ↔ b = 0 ∨ PivotsLarge (List.finRange n) A := by
  have hdone : Eliminated (List.finRange n) A := fun c hc ↦ absurd (mem_finRange c) hc
  unfold solveLinear
  rcases eliminate_spec (S := ⟨A, fun r (_ : Unit) ↦ b r⟩) remaining_finRange hdone with
    ⟨hlarge, T, hT, hreduces⟩ | ⟨hsmall, hnone⟩
  · rw [hT]
    refine iff_of_true ?_ (.inr hlarge)
    have hsolve : T.left *ᵥ backSubstitute T.left (fun r ↦ T.right r ()) (List.finRange n) =
        fun r ↦ T.right r () :=
      hreduces.triangular.mulVec_eq fun i ↦
        backSubstitute_apply (pairwise_lt_finRange n) (mem_finRange i)
    have hT : T.Solves fun r (_ : Unit) ↦
        backSubstitute T.left (fun r ↦ T.right r ()) (List.finRange n) r :=
      System.solves_iff.mpr fun r _ ↦ congrFun hsolve r
    funext r
    exact System.solves_iff.mp ((hreduces.solves _).mp hT) r ()
  · rw [hnone]
    dsimp only
    rw [mulVec_zero]
    exact ⟨fun h ↦ .inl h.symm, fun h ↦ (h.resolve_right hsmall).symm⟩

end Solve

/-! ## Inversion -/

section

variable {S : System F n ι} {cols : List (Fin n)}

/-- The columns that are done are those of the identity. -/
def Reduced (cols : List (Fin n)) (M : Matrix (Fin n) (Fin n) F) : Prop :=
  ∀ c, c ∉ cols → ∀ r, M r c = if r = c then 1 else 0

/-- Two matrices are the same where elimination still looks. -/
def SameRest (cols : List (Fin n)) (M M' : Matrix (Fin n) (Fin n) F) : Prop :=
  ∀ r ∈ cols, ∀ c ∈ cols, M r c = M' r c

variable {M M' : Matrix (Fin n) (Fin n) F}

variable {col : Fin n}

theorem SameRest.pivoted (h : SameRest (col :: cols) M M') (hcols : Remaining (col :: cols)) :
    SameRest (col :: cols) (pivoted M col) (pivoted M' col) := by
  have hmem : ∀ {r}, r ∈ col :: cols ↔ col ≤ r := by
    intro r
    rw [mem_cons, hcols.mem_iff, le_iff_eq_or_lt, eq_comm]
  have hpivot : pivot M col = pivot M' col :=
    pivot_congr fun r hr ↦ h r (hmem.mpr hr) col mem_cons_self
  intro r hr c hc
  unfold Econometrics.pivoted
  rw [← hpivot]
  exact h _ (hmem.mpr (le_swap (pivot_spec M col).1 (hmem.mp hr))) c hc

theorem SameRest.schur (h : SameRest (col :: cols) M M') (hcols : Remaining (col :: cols)) :
    SameRest cols (schur M col) (schur M' col) := by
  have hpivoted := h.pivoted hcols
  intro r hr c hc
  unfold Econometrics.schur
  rw [hpivoted r (mem_cons_of_mem _ hr) c (mem_cons_of_mem _ hc),
    hpivoted r (mem_cons_of_mem _ hr) col mem_cons_self,
    hpivoted col mem_cons_self col mem_cons_self,
    hpivoted col mem_cons_self c (mem_cons_of_mem _ hc)]

theorem pivotsLarge_congr (hcols : Remaining cols) (h : SameRest cols M M') :
    PivotsLarge cols M ↔ PivotsLarge cols M' := by
  induction cols generalizing M M' with
  | nil => exact Iff.rfl
  | cons col cols ih =>
    unfold PivotsLarge
    rw [h.pivoted hcols col mem_cons_self col mem_cons_self, ih hcols.tail (h.schur hcols)]

theorem sameRest_reduceColumn (hcols : Remaining (col :: cols)) :
    SameRest cols (reduceColumn col (S.swap col (pivot S.left col))).left (schur S.left col) := by
  intro r hr c hc
  have hlt := hcols.mem_iff.mp hr
  have hlt' := hcols.mem_iff.mp hc
  simp only [reduceColumn, System.clear, System.scale, System.swap, schur, pivoted, if_true,
    if_neg (ne_of_gt hlt), if_pos (And.intro hlt hlt'.le)]
  rw [mul_div_assoc', div_mul_eq_mul_div]

omit [LinearOrder F] in
theorem Reduced.swap {col p : Fin n} {S : System F n ι} (h : Reduced (col :: cols) S.left)
    (hcols : Remaining (col :: cols)) (hp : col ≤ p) :
    Reduced (col :: cols) (S.swap col p).left := by
  intro c hc r
  have hlt : c < col := hcols.later c hc col mem_cons_self
  change S.left (Equiv.swap col p r) c = _
  rw [h c hc]
  refine if_congr ?_ rfl rfl
  rw [Equiv.swap_apply_eq_iff, swap_of_lt hp hlt]

omit [LinearOrder F] in
theorem Reduced.reduceColumn {S : System F n ι} (h : Reduced (col :: cols) S.left)
    (hcols : Remaining (col :: cols)) (hpivot : S.left col col ≠ 0) :
    Reduced cols (reduceColumn col S).left := by
  intro c hc r
  by_cases heq : c = col
  · subst heq
    by_cases hr : r = c
    · simp [Econometrics.reduceColumn, System.clear, System.scale, hr, hpivot]
    · simp [Econometrics.reduceColumn, System.clear, System.scale, hr, hpivot]
  · have hc' : c ∉ col :: cols := by simp [heq, hc]
    have hzero : S.left col c = 0 := by rw [h c hc', if_neg (Ne.symm heq)]
    by_cases hr : r = col
    · simp [Econometrics.reduceColumn, System.clear, System.scale, hr, hzero, Ne.symm heq]
    · simp [Econometrics.reduceColumn, System.clear, System.scale, hr, hzero, h c hc']

variable [IsStrictOrderedRing F]

theorem reduce_spec (hcols : Remaining cols) (h : Reduced cols S.left) :
    (PivotsLarge cols S.left ∧ ∃ T, reduce cols S = some T ∧ T.left = 1 ∧
        ∀ X, T.Solves X ↔ S.Solves X) ∨
      (¬ PivotsLarge cols S.left ∧ reduce cols S = none) := by
  induction cols generalizing S with
  | nil =>
    refine .inl ⟨trivial, S, rfl, ?_, fun X ↦ Iff.rfl⟩
    ext r c
    rw [h c not_mem_nil, Matrix.one_apply]
  | cons col cols ih =>
    have hp := (pivot_spec S.left col).1
    unfold reduce
    dsimp only
    by_cases hsmall : |(S.swap col (pivot S.left col)).left col col| < tolerance F
    · rw [if_pos hsmall]
      exact .inr ⟨fun hlarge ↦ not_lt.mpr hlarge.1 hsmall, rfl⟩
    · rw [if_neg hsmall]
      have hlarge : tolerance F ≤ |pivoted S.left col col col| := not_lt.mp hsmall
      have hne : (S.swap col (pivot S.left col)).left col col ≠ 0 :=
        abs_pos.mp (lt_of_lt_of_le tolerance_pos hlarge)
      have hdone := (h.swap hcols hp).reduceColumn hcols hne
      have hrest := pivotsLarge_congr hcols.tail (sameRest_reduceColumn (S := S) hcols)
      rcases ih hcols.tail hdone with ⟨hpivots, T, hT, hone, hsolves⟩ | ⟨hpivots, hnone⟩
      · refine .inl ⟨⟨hlarge, hrest.mp hpivots⟩, T, hT, hone, fun X ↦ ?_⟩
        rw [hsolves X, reduceColumn]
        refine (System.solves_clear ?_).trans ((System.solves_scale hne).trans ?_)
        · exact if_pos rfl
        · exact System.solves_swap _ _
      · exact .inr ⟨fun hlarge' ↦ hpivots (hrest.mpr hlarge'.2), hnone⟩

theorem pivot_one (col : Fin n) :
    pivot (1 : Matrix (Fin n) (Fin n) F) col = col := by
  by_contra hne
  have hle := (pivot_spec (1 : Matrix (Fin n) (Fin n) F) col).2 col le_rfl
  rw [Matrix.one_apply_eq, Matrix.one_apply_ne hne, abs_one, abs_zero] at hle
  exact not_lt.mpr hle zero_lt_one

theorem pivoted_one (col : Fin n) : pivoted (1 : Matrix (Fin n) (Fin n) F) col = 1 := by
  funext r
  rw [pivoted, pivot_one, Equiv.swap_self]
  rfl

theorem pivotsLarge_one (hcols : Remaining cols) :
    PivotsLarge cols (1 : Matrix (Fin n) (Fin n) F) := by
  induction cols with
  | nil => trivial
  | cons col cols ih =>
    refine ⟨?_, ?_⟩
    · rw [pivoted_one, Matrix.one_apply_eq, abs_one, tolerance]
      norm_num
    · refine (pivotsLarge_congr hcols.tail fun r hr c hc ↦ ?_).mpr (ih hcols.tail)
      have hlt := hcols.mem_iff.mp hr
      rw [schur, pivoted_one, Matrix.one_apply_ne (ne_of_gt hlt), zero_div, zero_mul, sub_zero,
        ite_self]

/-- **The inverse is right** just when no pivot is below the tolerance. -/
theorem matInv_iff {A : Matrix (Fin n) (Fin n) F} (hA : IsUnit A.det) :
    matInv A = A⁻¹ ↔ PivotsLarge (List.finRange n) A := by
  have hdone : Reduced (List.finRange n) A := fun c hc ↦ absurd (mem_finRange c) hc
  unfold matInv
  rcases reduce_spec (S := ⟨A, (1 : Matrix (Fin n) (Fin n) F)⟩) remaining_finRange hdone with
    ⟨hlarge, T, hT, hone, hsolves⟩ | ⟨hsmall, hnone⟩
  · rw [hT]
    refine iff_of_true ?_ hlarge
    have hright : T.Solves T.right := by
      unfold System.Solves
      rw [hone, Matrix.one_mul]
    exact (Matrix.inv_eq_right_inv ((hsolves _).mp hright)).symm
  · rw [hnone]
    refine iff_of_false (fun hinv ↦ hsmall ?_) hsmall
    have hone : A = 1 := by
      rw [← Matrix.mul_nonsing_inv A hA, ← hinv, Matrix.mul_one]
    rw [hone]
    exact pivotsLarge_one remaining_finRange

end

end Qros.QuantEngine.Econometrics
