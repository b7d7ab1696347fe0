import Mathlib.Data.List.GetD
import Mathlib.Data.Prod.Lex
import Mathlib.Tactic.Linarith
import Qros.Lib.Checks
import Qros.Lib.KeySort
import Qros.Orchestration.GridStatistics

/-!
# Adjusted p-values

`research_core/multiple_testing.py`, for exact numbers.  What is at most an adjusted p-value
is a matter of the sorted p-values only (`holm_le_iff`, `benjaminiHochberg_le_iff`); from this
come the order of the adjusted values, and that rejecting them is Holm's step-down procedure
and the step-up procedure of Benjamini and Hochberg.
-/

namespace Qros.ResearchCore

open Qros.Lib Qros.Lib.KeySort Qros.Orchestration List

/-! ## Adjusting -/

section

variable {F : Type} [Field F] [LinearOrder F]

structure MultipleTestingResult (F : Type) [Field F] [LinearOrder F] where
  schemaVersion : String
  method : String
  pValues : List F
  adjustedPValues : List F
  alpha : F
  schemaVersion_ok : schemaVersion = "multiple-testing.v1"
  method_ok : method = "holm" ∨ method = "benjamini_hochberg"
  length_eq : pValues.length = adjustedPValues.length
  alpha_ok : 0 < alpha ∧ alpha < 1
  pValues_ok : ∀ p ∈ pValues, 0 ≤ p ∧ p ≤ 1
  adjustedPValues_ok : ∀ p ∈ adjustedPValues, 0 ≤ p ∧ p ≤ 1

def multipleTestingResult (schemaVersion method : String) (pValues adjustedPValues : List F)
    (alpha : F) : Except String (MultipleTestingResult F) :=
  if hversion : schemaVersion = "multiple-testing.v1" then
    if hmethod : method = "holm" ∨ method = "benjamini_hochberg" then
      if hlength : pValues.length = adjustedPValues.length then
        if halpha : 0 < alpha ∧ alpha < 1 then
          if hvalues : ∀ p ∈ pValues, 0 ≤ p ∧ p ≤ 1 then
            if hadjusted : ∀ p ∈ adjustedPValues, 0 ≤ p ∧ p ≤ 1 then
              .ok ⟨schemaVersion, method, pValues, adjustedPValues, alpha, hversion, hmethod,
                hlength, halpha, hvalues, hadjusted⟩
            else .error "adjusted_p_values must be in [0, 1]"
          else .error "p_values must be in [0, 1]"
        else .error "alpha must be in (0, 1)"
      else .error "p-value lengths must match"
    else .error "unsupported multiple-testing method"
  else .error "unsupported multiple-testing schema version"

def MultipleTestingResult.reject (r : MultipleTestingResult F) : List Bool :=
  r.adjustedPValues.map fun p ↦ decide (p ≤ r.alpha)

/-- `sorted(range(n), key=lambda index: (values[index], index))`. -/
def order (values : List F) : List Nat :=
  stableSortBy (fun index ↦ toLex (values.getD index 0, index)) (List.range values.length)

/-- A loop over some positions and their ranks that writes a running extreme. -/
def writeRunning (op : F → F → F) (candidate : Nat × Nat → F) (entries : List (Nat × Nat))
    (adjusted : List F) (running : F) : List F × F :=
  entries.foldl
    (fun s e ↦ (s.1.set e.1 (op s.2 (candidate e)), op s.2 (candidate e))) (adjusted, running)

def holm (values : List F) : List F :=
  let n := values.length
  if n = 0 then []
  else
    (writeRunning max (fun e ↦ min 1 (((n - e.2 : Nat) : F) * values.getD e.1 0))
      (order values).zipIdx (List.replicate n 0) 0).1

def benjaminiHochberg (values : List F) : List F :=
  let n := values.length
  if n = 0 then []
  else
    (writeRunning min (fun e ↦ min 1 (values.getD e.1 0 * (n : F) / ((e.2 + 1 : Nat) : F)))
      (order values).zipIdx.reverse (List.replicate n 0) 1).1

def adjustPValues (pValues : List F) (method : String) (alpha : F) :
    Except String (MultipleTestingResult F) :=
  if method = "holm" then
    multipleTestingResult "multiple-testing.v1" method pValues (holm pValues) alpha
  else if method = "benjamini_hochberg" then
    multipleTestingResult "multiple-testing.v1" method pValues (benjaminiHochberg pValues) alpha
  else .error "unsupported multiple-testing method"

end

/-! ## Running extremes -/

section

variable {F : Type} [Field F] [LinearOrder F] {op : F → F → F} {candidate : Nat × Nat → F}

omit [Field F] [LinearOrder F] in
theorem length_writeRunning (entries : List (Nat × Nat)) (adjusted : List F) (running : F) :
    (writeRunning op candidate entries adjusted running).1.length = adjusted.length := by
  induction entries generalizing adjusted running with
  | nil => rfl
  | cons e entries ih =>
    rw [writeRunning, foldl_cons]
    exact (ih _ _).trans (length_set ..)

omit [Field F] [LinearOrder F] in
theorem getElem?_writeRunning_of_notMem {entries : List (Nat × Nat)} {adjusted : List F}
    {running : F} {i : Nat} (hi : i ∉ entries.map Prod.fst) :
    (writeRunning op candidate entries adjusted running).1[i]? = adjusted[i]? := by
  induction entries generalizing adjusted running with
  | nil => rfl
  | cons e entries ih =>
    rw [map_cons, mem_cons, not_or] at hi
    rw [writeRunning, foldl_cons]
    exact (ih hi.2).trans (getElem?_set_ne (Ne.symm hi.1))

omit [Field F] [LinearOrder F] in
theorem getElem?_writeRunning {entries : List (Nat × Nat)} (hnd : (entries.map Prod.fst).Nodup)
    {adjusted : List F} {running : F} (hlt : ∀ e ∈ entries, e.1 < adjusted.length) {k i j : Nat}
    (he : entries[k]? = some (i, j)) :
    (writeRunning op candidate entries adjusted running).1[i]? =
      some (((entries.take (k + 1)).map candidate).foldl op running) := by
  induction entries generalizing adjusted running k with
  | nil => cases he
  | cons e' entries ih =>
    rw [map_cons, nodup_cons] at hnd
    obtain ⟨hlt', hlt⟩ := forall_mem_cons.mp hlt
    rw [writeRunning, foldl_cons]
    cases k with
    | zero =>
      obtain rfl := Option.some.inj he
      refine (getElem?_writeRunning_of_notMem hnd.1).trans ?_
      rw [getElem?_set_self hlt']
      rfl
    | succ k =>
      rw [take_succ_cons, map_cons, foldl_cons]
      exact ih hnd.2 (fun e he ↦ by rw [length_set]; exact hlt e he) he

omit [Field F] in
theorem foldl_max_le_iff {cs : List F} {x a : F} :
    cs.foldl max x ≤ a ↔ x ≤ a ∧ ∀ c ∈ cs, c ≤ a := by
  induction cs generalizing x with
  | nil => simp
  | cons c cs ih => rw [foldl_cons, ih, max_le_iff, forall_mem_cons, and_assoc]

omit [Field F] in
theorem foldl_min_le_iff {cs : List F} {x a : F} :
    cs.foldl min x ≤ a ↔ x ≤ a ∨ ∃ c ∈ cs, c ≤ a := by
  induction cs generalizing x with
  | nil => simp
  | cons c cs ih =>
    rw [foldl_cons, ih, min_le_iff, exists_mem_cons_iff, or_assoc]

end

/-! ## The order -/

section

variable {F : Type} [Field F] [LinearOrder F] (values : List F)

/-- The `j`-th smallest value, counted from zero. -/
def nth (j : Nat) : F := (increasing values).getD j 0

theorem order_perm : (order values).Perm (List.range values.length) := stableSortBy_perm _ _

theorem length_order : (order values).length = values.length := by
  rw [(order_perm values).length_eq, length_range]

theorem order_nodup : (order values).Nodup := (order_perm values).nodup_iff.mpr nodup_range

theorem map_order : (order values).map (fun i ↦ values.getD i 0) = increasing values := by
  have hrange : (List.range values.length).map (fun i ↦ values.getD i 0) = values := by
    refine ext_getElem (by simp) fun i _ hi ↦ ?_
    simp [hi]
  refine eq_increasing ?_ ?_
  · have hperm := (order_perm values).map fun i ↦ values.getD i 0
    rwa [hrange] at hperm
  · refine pairwise_map.mpr ((stableSortBy_sorted _ _).imp fun {i j} h ↦ ?_)
    rcases (Prod.Lex.toLex_le_toLex).mp h with hlt | ⟨heq, -⟩
    · exact hlt.le
    · exact heq.le

variable {values}

theorem nth_mono {i j : Nat} (hij : i ≤ j) (hj : j < values.length) :
    nth values i ≤ nth values j := by
  have hlength := (increasing_perm values).length_eq
  unfold nth
  rw [getD_eq_getElem _ _ (by omega), getD_eq_getElem _ _ (by omega)]
  rcases Nat.eq_or_lt_of_le hij with rfl | hlt
  · exact le_refl _
  · exact pairwise_iff_getElem.mp (pairwise_increasing values) i j _ _ hlt

theorem nth_eq {r i : Nat} (hr : (order values)[r]? = some i) :
    nth values r = values.getD i 0 := by
  rw [nth, ← map_order, getD_eq_getElem?_getD, getElem?_map, hr]
  rfl

theorem exists_rank {i : Nat} (hi : i < values.length) :
    ∃ r < values.length, (order values)[r]? = some i := by
  have hmem := (order_perm values).mem_iff.mpr (mem_range.mpr hi)
  obtain ⟨r, hr⟩ := mem_iff_getElem?.mp hmem
  refine ⟨r, ?_, hr⟩
  rw [← length_order values]
  exact (List.getElem?_eq_some_iff.mp hr).1

theorem nth_mem {j : Nat} (hj : j < values.length) : nth values j ∈ values := by
  have hlt : j < (increasing values).length := by rwa [(increasing_perm values).length_eq]
  rw [nth, getD_eq_getElem _ _ hlt]
  exact (increasing_perm values).mem_iff.mp (getElem_mem hlt)

theorem smallest_succ {j : Nat} {x : F} :
    smallest values (j + 1) = some x ↔ j < values.length ∧ nth values j = x := by
  rw [smallest, getElem?_eq_some_iff, ← (increasing_perm values).length_eq]
  constructor
  · rintro ⟨hj, rfl⟩
    exact ⟨hj, getD_eq_getElem _ _ hj⟩
  · rintro ⟨hj, rfl⟩
    exact ⟨hj, (getD_eq_getElem _ _ hj).symm⟩

theorem zipIdx_lt : ∀ e ∈ (order values).zipIdx, e.1 < values.length := by
  intro e he
  exact mem_range.mp ((order_perm values).mem_iff.mp
    (mem_of_getElem? (mem_zipIdx_iff_getElem?.mp he)))

omit [Field F] [LinearOrder F] in
theorem mem_take_zipIdx {xs : List Nat} {k : Nat} {e : Nat × Nat} :
    e ∈ xs.zipIdx.take k ↔ xs[e.2]? = some e.1 ∧ e.2 < k := by
  rw [mem_iff_getElem?]
  simp only [List.getElem?_take, getElem?_zipIdx, Nat.zero_add]
  constructor
  · rintro ⟨i, hi⟩
    split at hi
    · obtain ⟨x, hx, rfl⟩ := Option.map_eq_some_iff.mp hi
      exact ⟨hx, ‹_›⟩
    · cases hi
  · rintro ⟨he, hlt⟩
    exact ⟨e.2, by rw [if_pos hlt, he]; rfl⟩

omit [Field F] [LinearOrder F] in
theorem mem_drop_zipIdx {xs : List Nat} {k : Nat} {e : Nat × Nat} :
    e ∈ xs.zipIdx.drop k ↔ xs[e.2]? = some e.1 ∧ k ≤ e.2 := by
  rw [mem_iff_getElem?]
  simp only [getElem?_drop, getElem?_zipIdx, Nat.zero_add]
  constructor
  · rintro ⟨i, hi⟩
    obtain ⟨x, hx, rfl⟩ := Option.map_eq_some_iff.mp hi
    exact ⟨hx, Nat.le_add_right k i⟩
  · rintro ⟨he, hle⟩
    exact ⟨e.2 - k, by rw [Nat.add_sub_cancel' hle, he]; rfl⟩

end

/-! ## What is at most an adjusted value -/

section

variable {F : Type} [Field F] [LinearOrder F] [IsStrictOrderedRing F] {values : List F}

def holmCandidate (values : List F) (j : Nat) : F :=
  min 1 (((values.length - j : Nat) : F) * nth values j)

/-- The candidate of a rank of Benjamini and Hochberg. -/
def bhCandidate (values : List F) (j : Nat) : F :=
  min 1 (nth values j * (values.length : F) / ((j + 1 : Nat) : F))

theorem holmCandidate_le {r j : Nat} (hvalues : ∀ p ∈ values, 0 ≤ p) (hrj : r ≤ j)
    (hj : j < values.length) (heq : nth values j = nth values r) :
    holmCandidate values j ≤ holmCandidate values r := by
  unfold holmCandidate
  rw [heq]
  refine min_le_min_left 1 (mul_le_mul_of_nonneg_right ?_ (hvalues _ (nth_mem (by omega))))
  exact Nat.cast_le.mpr (by omega)

theorem bhCandidate_le {r j : Nat} (hvalues : ∀ p ∈ values, 0 ≤ p) (hrj : j ≤ r)
    (hr : r < values.length) (heq : nth values j = nth values r) :
    bhCandidate values r ≤ bhCandidate values j := by
  unfold bhCandidate
  rw [heq]
  have hpos : (0 : F) < ((j + 1 : Nat) : F) := Nat.cast_pos.mpr (Nat.succ_pos j)
  refine min_le_min_left 1 (div_le_div_of_nonneg_left ?_ hpos (Nat.cast_le.mpr (by omega)))
  exact mul_nonneg (hvalues _ (nth_mem (by omega))) (Nat.cast_nonneg _)

/-- **What is at least Holm's adjusted value** is at least every candidate of a value up to
its own. -/
theorem holm_le_iff (hvalues : ∀ p ∈ values, 0 ≤ p) {i : Nat} (hi : i < values.length) :
    ∃ x, (holm values)[i]? = some x ∧ 0 ≤ x ∧ ∀ a, 0 ≤ a →
      (x ≤ a ↔ ∀ j < values.length, nth values j ≤ values.getD i 0 →
        holmCandidate values j ≤ a) := by
  obtain ⟨r, hr, hrank⟩ := exists_rank hi
  have hentry : (order values).zipIdx[r]? = some (i, r) := by
    rw [getElem?_zipIdx, hrank, Nat.zero_add]
    rfl
  have hvalue : (holm values)[i]? = some ((((order values).zipIdx.take (r + 1)).map fun e ↦
      min 1 (((values.length - e.2 : Nat) : F) * values.getD e.1 0)).foldl max 0) := by
    unfold holm
    dsimp only
    rw [if_neg (by omega)]
    refine getElem?_writeRunning ?_ (fun e he ↦ ?_) hentry
    · rw [zipIdx_map_fst]
      exact order_nodup values
    · rw [length_replicate]
      exact zipIdx_lt e he
  refine ⟨_, hvalue, (foldl_max_le_iff.mp (le_refl _)).1, fun a ha ↦ ?_⟩
  rw [foldl_max_le_iff, forall_mem_map]
  constructor
  · rintro ⟨-, hall⟩ j hj hle
    have hat : ∀ j ≤ r, holmCandidate values j ≤ a := by
      intro j hjr
      have hget := getElem?_eq_getElem (l := order values) (i := j)
        (by rw [length_order]; omega)
      have hle := hall (_, j) (mem_take_zipIdx.mpr ⟨hget, Nat.lt_succ_of_le hjr⟩)
      rwa [holmCandidate, nth_eq hget]
    rcases Nat.lt_or_ge r j with hlt | hge
    · -- a later value that is not larger is equal
      rw [← nth_eq hrank] at hle
      have heq := le_antisymm hle (nth_mono hlt.le hj)
      exact le_trans (holmCandidate_le hvalues hlt.le hj heq) (hat r (le_refl r))
    · exact hat j hge
  · intro hall
    refine ⟨ha, fun e he ↦ ?_⟩
    obtain ⟨hget, hlt⟩ := mem_take_zipIdx.mp he
    have hle := hall e.2 (by omega) (by
      rw [← nth_eq hrank]
      exact nth_mono (Nat.le_of_lt_succ hlt) hr)
    rwa [holmCandidate, nth_eq hget] at hle

/-- **What is at least the adjusted value of Benjamini and Hochberg** is at least a candidate
of a value from its own on. -/
theorem benjaminiHochberg_le_iff (hvalues : ∀ p ∈ values, 0 ≤ p) {i : Nat}
    (hi : i < values.length) :
    ∃ x, (benjaminiHochberg values)[i]? = some x ∧ ∀ a,
      (x ≤ a ↔ ∃ j < values.length, values.getD i 0 ≤ nth values j ∧
        bhCandidate values j ≤ a) := by
  obtain ⟨r, hr, hrank⟩ := exists_rank hi
  have hlength : (order values).zipIdx.length = values.length := by
    rw [length_zipIdx, length_order]
  have hentry : (order values).zipIdx.reverse[values.length - 1 - r]? = some (i, r) := by
    rw [getElem?_reverse (by omega), hlength, getElem?_zipIdx,
      (by omega : values.length - 1 - (values.length - 1 - r) = r), hrank, Nat.zero_add]
    rfl
  have hvalue : (benjaminiHochberg values)[i]? =
      some ((((order values).zipIdx.reverse.take (values.length - 1 - r + 1)).map fun e ↦
        min 1 (values.getD e.1 0 * (values.length : F) / ((e.2 + 1 : Nat) : F))).foldl min 1) := by
    unfold benjaminiHochberg
    dsimp only
    rw [if_neg (by omega)]
    refine getElem?_writeRunning ?_ (fun e he ↦ ?_) hentry
    · rw [map_reverse, nodup_reverse, zipIdx_map_fst]
      exact order_nodup values
    · rw [length_replicate]
      exact zipIdx_lt e (mem_reverse.mp he)
  refine ⟨_, hvalue, fun a ↦ ?_⟩
  rw [foldl_min_le_iff, take_reverse, hlength,
    (by omega : values.length - (values.length - 1 - r + 1) = r)]
  simp only [mem_map, exists_exists_and_eq_and]
  constructor
  · rintro (hone | ⟨e, he, hle⟩)
    · refine ⟨r, hr, (nth_eq hrank).ge, le_trans (min_le_left _ _) hone⟩
    · obtain ⟨hget, hge⟩ := mem_drop_zipIdx.mp (mem_reverse.mp he)
      have hlt : e.2 < values.length := by
        rw [← length_order values]
        exact (List.getElem?_eq_some_iff.mp hget).1
      refine ⟨e.2, hlt, ?_, ?_⟩
      · rw [← nth_eq hrank]
        exact nth_mono hge hlt
      · rwa [bhCandidate, nth_eq hget]
  · rintro ⟨j, hj, hle, hcandidate⟩
    right
    have hat : ∀ j, r ≤ j → j < values.length → bhCandidate values j ≤ a →
        ∃ e ∈ ((order values).zipIdx.drop r).reverse,
          min 1 (values.getD e.1 0 * (values.length : F) / ((e.2 + 1 : Nat) : F)) ≤ a := by
      intro j hrj hj hcandidate
      have hget := getElem?_eq_getElem (l := order values) (i := j) (by rwa [length_order])
      refine ⟨(_, j), mem_reverse.mpr (mem_drop_zipIdx.mpr ⟨hget, hrj⟩), ?_⟩
      rwa [bhCandidate, nth_eq hget] at hcandidate
    rcases Nat.lt_or_ge j r with hlt | hge
    · -- an earlier value that is not smaller is equal
      rw [← nth_eq hrank] at hle
      have heq := le_antisymm (nth_mono hlt.le hr) hle
      exact hat r (le_refl r) hr (le_trans (bhCandidate_le hvalues hlt.le hr heq) hcandidate)
    · exact hat j hge hj hcandidate

end

/-! ## Adjusted values -/

section

variable {F : Type} [Field F] [LinearOrder F]

structure Adjusts (values adjusted : List F) : Prop where
  length_eq : adjusted.length = values.length
  unit : ∀ p ∈ adjusted, 0 ≤ p ∧ p ≤ 1
  raw_le : ∀ (i : Nat) (p x : F), values[i]? = some p → adjusted[i]? = some x → p ≤ x
  mono : ∀ (i j : Nat) (p q x y : F), values[i]? = some p → values[j]? = some q →
    adjusted[i]? = some x → adjusted[j]? = some y → p ≤ q → x ≤ y

variable [IsStrictOrderedRing F] {values : List F}

omit [IsStrictOrderedRing F] in
theorem length_holm (values : List F) : (holm values).length = values.length := by
  unfold holm
  dsimp only
  split
  · exact Eq.symm ‹_›
  · rw [length_writeRunning, length_replicate]

omit [IsStrictOrderedRing F] in
theorem length_benjaminiHochberg (values : List F) :
    (benjaminiHochberg values).length = values.length := by
  unfold benjaminiHochberg
  dsimp only
  split
  · exact Eq.symm ‹_›
  · rw [length_writeRunning, length_replicate]

variable {i : Nat} {p : F} {values' : List F}

omit [LinearOrder F] [IsStrictOrderedRing F] in
theorem getD_of_getElem? (h : values[i]? = some p) :
    i < values.length ∧ values.getD i 0 = p := by
  refine ⟨(List.getElem?_eq_some_iff.mp h).1, ?_⟩
  rw [getD_eq_getElem?_getD, h]
  rfl

theorem le_holmCandidate (hvalues : ∀ p ∈ values, 0 ≤ p ∧ p ≤ 1) {j : Nat}
    (hj : j < values.length) : nth values j ≤ holmCandidate values j := by
  obtain ⟨hpos, hone⟩ := hvalues _ (nth_mem hj)
  refine le_min hone (le_mul_of_one_le_left hpos ?_)
  exact_mod_cast (by omega : 1 ≤ values.length - j)

theorem le_bhCandidate (hvalues : ∀ p ∈ values, 0 ≤ p ∧ p ≤ 1) {j : Nat}
    (hj : j < values.length) : nth values j ≤ bhCandidate values j := by
  obtain ⟨hpos, hone⟩ := hvalues _ (nth_mem hj)
  refine le_min hone ?_
  rw [le_div_iff₀ (Nat.cast_pos.mpr (Nat.succ_pos j))]
  exact mul_le_mul_of_nonneg_left (Nat.cast_le.mpr hj) hpos

theorem exists_holm (hvalues : ∀ p ∈ values, 0 ≤ p ∧ p ≤ 1) (hp : values[i]? = some p) :
    ∃ x, (holm values)[i]? = some x ∧ 0 ≤ x ∧ ∀ a, 0 ≤ a →
      (x ≤ a ↔ ∀ j < values.length, nth values j ≤ p → holmCandidate values j ≤ a) := by
  obtain ⟨hi, rfl⟩ := getD_of_getElem? hp
  exact holm_le_iff (fun p hp ↦ (hvalues p hp).1) hi

theorem exists_benjaminiHochberg (hvalues : ∀ p ∈ values, 0 ≤ p ∧ p ≤ 1)
    (hp : values[i]? = some p) : ∃ x, (benjaminiHochberg values)[i]? = some x ∧ ∀ a,
      (x ≤ a ↔ ∃ j < values.length, p ≤ nth values j ∧ bhCandidate values j ≤ a) := by
  obtain ⟨hi, rfl⟩ := getD_of_getElem? hp
  exact benjaminiHochberg_le_iff (fun p hp ↦ (hvalues p hp).1) hi

omit [Field F] [LinearOrder F] [IsStrictOrderedRing F] in
theorem exists_of_mem {adjusted : List F} (hlength : adjusted.length = values.length) {x : F}
    (hx : x ∈ adjusted) : ∃ (i : Nat) (p : F), adjusted[i]? = some x ∧ values[i]? = some p := by
  obtain ⟨i, hi⟩ := mem_iff_getElem?.mp hx
  have hlt := (List.getElem?_eq_some_iff.mp hi).1
  exact ⟨i, _, hi, getElem?_eq_getElem (hlength ▸ hlt)⟩

omit [IsStrictOrderedRing F] in
theorem exists_nth_eq (hp : values[i]? = some p) :
    ∃ r < values.length, nth values r = p := by
  obtain ⟨hi, rfl⟩ := getD_of_getElem? hp
  obtain ⟨r, hr, hrank⟩ := exists_rank hi
  exact ⟨r, hr, nth_eq hrank⟩

theorem adjusts_holm (hvalues : ∀ p ∈ values, 0 ≤ p ∧ p ≤ 1) : Adjusts values (holm values) := by
  refine ⟨length_holm values, fun x hx ↦ ?_, fun i p x hp hx ↦ ?_,
    fun i j p q x y hp hq hx hy hpq ↦ ?_⟩
  · obtain ⟨i, p, hx, hp⟩ := exists_of_mem (length_holm values) hx
    obtain ⟨x', hx', hnonneg, hiff⟩ := exists_holm hvalues hp
    obtain rfl := Option.some.inj (hx'.symm.trans hx)
    exact ⟨hnonneg, (hiff 1 zero_le_one).mpr fun j _ _ ↦ min_le_left _ _⟩
  · obtain ⟨x', hx', hnonneg, hiff⟩ := exists_holm hvalues hp
    obtain rfl := Option.some.inj (hx'.symm.trans hx)
    obtain ⟨r, hr, rfl⟩ := exists_nth_eq hp
    exact le_trans (le_holmCandidate hvalues hr)
      ((hiff _ hnonneg).mp (le_refl _) r hr (le_refl _))
  · obtain ⟨x', hx', -, hiff⟩ := exists_holm hvalues hp
    obtain rfl := Option.some.inj (hx'.symm.trans hx)
    obtain ⟨y', hy', hnonneg, hiff'⟩ := exists_holm hvalues hq
    obtain rfl := Option.some.inj (hy'.symm.trans hy)
    exact (hiff _ hnonneg).mpr fun k hk hle ↦
      (hiff' _ hnonneg).mp (le_refl _) k hk (le_trans hle hpq)

theorem adjusts_benjaminiHochberg (hvalues : ∀ p ∈ values, 0 ≤ p ∧ p ≤ 1) :
    Adjusts values (benjaminiHochberg values) := by
  have hraw : ∀ (i : Nat) (p x : F), values[i]? = some p →
      (benjaminiHochberg values)[i]? = some x → p ≤ x := by
    intro i p x hp hx
    obtain ⟨x', hx', hiff⟩ := exists_benjaminiHochberg hvalues hp
    obtain rfl := Option.some.inj (hx'.symm.trans hx)
    obtain ⟨j, hj, hle, hcandidate⟩ := (hiff _).mp (le_refl _)
    exact le_trans hle (le_trans (le_bhCandidate hvalues hj) hcandidate)
  refine ⟨length_benjaminiHochberg values, fun x hx ↦ ?_, hraw,
    fun i j p q x y hp hq hx hy hpq ↦ ?_⟩
  · obtain ⟨i, p, hx, hp⟩ := exists_of_mem (length_benjaminiHochberg values) hx
    obtain ⟨x', hx', hiff⟩ := exists_benjaminiHochberg hvalues hp
    obtain rfl := Option.some.inj (hx'.symm.trans hx)
    obtain ⟨r, hr, heq⟩ := exists_nth_eq hp
    refine ⟨le_trans (hvalues p (mem_of_getElem? hp)).1 (hraw i p _ hp hx), ?_⟩
    exact (hiff 1).mpr ⟨r, hr, heq.ge, min_le_left _ _⟩
  · obtain ⟨x', hx', hiff⟩ := exists_benjaminiHochberg hvalues hp
    obtain rfl := Option.some.inj (hx'.symm.trans hx)
    obtain ⟨y', hy', hiff'⟩ := exists_benjaminiHochberg hvalues hq
    obtain rfl := Option.some.inj (hy'.symm.trans hy)
    obtain ⟨k, hk, hle, hcandidate⟩ := (hiff' _).mp (le_refl _)
    exact (hiff _).mpr ⟨k, hk, le_trans hpq hle, hcandidate⟩

omit [IsStrictOrderedRing F] in
theorem nth_perm (hperm : values.Perm values') : nth values = nth values' := by
  funext j
  rw [nth, nth, eq_increasing ((increasing_perm values).trans hperm) (pairwise_increasing values)]

theorem holm_perm (hvalues : ∀ p ∈ values, 0 ≤ p ∧ p ≤ 1) (hperm : values.Perm values')
    {i j : Nat} (hp : values[i]? = some p) (hp' : values'[j]? = some p) :
    (holm values)[i]? = (holm values')[j]? := by
  obtain ⟨x, hx, hnonneg, hiff⟩ := exists_holm hvalues hp
  obtain ⟨y, hy, hnonneg', hiff'⟩ :=
    exists_holm (fun p hp ↦ hvalues p (hperm.mem_iff.mpr hp)) hp'
  have hcandidate : holmCandidate values' = holmCandidate values := by
    unfold holmCandidate
    rw [nth_perm hperm, hperm.length_eq]
  rw [hcandidate, ← nth_perm hperm, ← hperm.length_eq] at hiff'
  rw [hx, hy]
  exact congrArg some (le_antisymm ((hiff _ hnonneg').mpr ((hiff' _ hnonneg').mp (le_refl _)))
    ((hiff' _ hnonneg).mpr ((hiff _ hnonneg).mp (le_refl _))))

theorem benjaminiHochberg_perm (hvalues : ∀ p ∈ values, 0 ≤ p ∧ p ≤ 1)
    (hperm : values.Perm values') {i j : Nat} (hp : values[i]? = some p)
    (hp' : values'[j]? = some p) :
    (benjaminiHochberg values)[i]? = (benjaminiHochberg values')[j]? := by
  obtain ⟨x, hx, hiff⟩ := exists_benjaminiHochberg hvalues hp
  obtain ⟨y, hy, hiff'⟩ :=
    exists_benjaminiHochberg (fun p hp ↦ hvalues p (hperm.mem_iff.mpr hp)) hp'
  have hcandidate : bhCandidate values' = bhCandidate values := by
    unfold bhCandidate
    rw [nth_perm hperm, hperm.length_eq]
  rw [hcandidate, ← nth_perm hperm, ← hperm.length_eq] at hiff'
  rw [hx, hy]
  exact congrArg some (le_antisymm ((hiff _).mpr ((hiff' _).mp (le_refl _)))
    ((hiff' _).mpr ((hiff _).mp (le_refl _))))

end

/-! ## Rejecting -/

section

variable {F : Type} [Field F] [LinearOrder F] [IsStrictOrderedRing F] {values : List F} {alpha : F}

/-- The decisions about the values, at the level `alpha`. -/
def rejected (adjusted : List F) (alpha : F) : List Bool :=
  adjusted.map fun p ↦ decide (p ≤ alpha)

omit [Field F] [IsStrictOrderedRing F] in
theorem rejectsSmallest_of (level : F) {adjusted : List F}
    (hlength : adjusted.length = values.length)
    {P : F → Prop} [DecidablePred P] (hdown : ∀ x y, x ≤ y → P y → P x)
    (hiff : ∀ (i : Nat) (p x : F), values[i]? = some p → adjusted[i]? = some x →
      (x ≤ level ↔ P p)) :
    rejected adjusted level = (values.map fun p ↦ decide (P p)) ∧
      RejectsSmallest (values.map some) ((increasing values).countP fun p ↦ decide (P p))
        (rejected adjusted level) := by
  have heq : rejected adjusted level = values.map fun p ↦ decide (P p) := by
    refine ext_getElem? fun i ↦ ?_
    rw [rejected, getElem?_map, getElem?_map]
    rcases Nat.lt_or_ge i values.length with hi | hi
    · have hx := getElem?_eq_getElem (hlength ▸ hi : i < adjusted.length)
      have hp := getElem?_eq_getElem hi
      rw [hx, hp, Option.map_some, Option.map_some, decide_eq_decide.mpr (hiff i _ _ hp hx)]
    · rw [getElem?_eq_none hi, getElem?_eq_none (hlength ▸ hi)]
      rfl
  refine ⟨heq, ?_⟩
  rw [heq]
  refine ⟨by rw [length_map, length_map], ?_, fun i hi ↦ ?_, fun i j x y hi hx hj hy ↦ ?_⟩
  · rw [(increasing_perm values).countP_eq, List.count, countP_map]
    congr 1
    funext p
    simp
  · rw [getElem?_map] at hi ⊢
    obtain ⟨p, hp, -⟩ := Option.map_eq_some_iff.mp hi
    exact ⟨p, by rw [hp]; rfl⟩
  · rw [getElem?_map] at hi hj hx hy
    obtain ⟨p, hp, hpass⟩ := Option.map_eq_some_iff.mp hi
    obtain ⟨q, hq, hfail⟩ := Option.map_eq_some_iff.mp hj
    rw [hp] at hx
    rw [hq] at hy
    obtain rfl := Option.some.inj (Option.some.inj hx)
    obtain rfl := Option.some.inj (Option.some.inj hy)
    by_contra hle
    rw [not_lt] at hle
    exact of_decide_eq_false hfail (hdown _ _ hle (of_decide_eq_true hpass))

/-- Holm's threshold of a rank, counted from one. -/
def holmThreshold (alpha : F) (n k : Nat) : F := alpha / ((n + 1 - k : Nat) : F)

theorem holmCandidate_le_iff (halpha : alpha < 1) {j : Nat} (hj : j < values.length) :
    holmCandidate values j ≤ alpha ↔ nth values j ≤ holmThreshold alpha values.length (j + 1) := by
  unfold holmCandidate holmThreshold
  rw [min_le_iff, or_iff_right (not_le.mpr halpha), le_div_iff₀, mul_comm,
    Nat.add_sub_add_right]
  exact Nat.cast_pos.mpr (by omega)

theorem bhCandidate_le_iff (halpha : alpha < 1) {j : Nat} (hj : j < values.length) :
    bhCandidate values j ≤ alpha ↔
      nth values j ≤ alpha * ((j + 1 : Nat) : F) / (values.length : F) := by
  unfold bhCandidate
  rw [min_le_iff, or_iff_right (not_le.mpr halpha), div_le_iff₀ (Nat.cast_pos.mpr (Nat.succ_pos j)),
    le_div_iff₀ (Nat.cast_pos.mpr (by omega))]

/-- **Holm's values are rejected as his step-down procedure does.** -/
theorem holm_stepDown (hvalues : ∀ p ∈ values, 0 ≤ p ∧ p ≤ 1) (halpha : 0 < alpha ∧ alpha < 1) :
    ∃ k, IsStepDown (holmThreshold alpha values.length) values k ∧
      RejectsSmallest (values.map some) k (rejected (holm values) alpha) := by
  obtain ⟨k, hk, hle⟩ := exists_isStepDown (holmThreshold alpha values.length) values
  have hreject := (rejectsSmallest_of alpha (length_holm values)
    (P := fun p ↦ ∀ j < values.length, nth values j ≤ p → holmCandidate values j ≤ alpha)
    (fun x y hxy hy j hj hjx ↦ hy j hj (le_trans hjx hxy)) fun i p x hp hx ↦ by
      obtain ⟨x', hx', -, hiff⟩ := exists_holm hvalues hp
      obtain rfl := Option.some.inj (hx'.symm.trans hx)
      exact hiff alpha halpha.1.le).2
  have hcount : (increasing values).countP (fun p ↦ decide (∀ j < values.length,
      nth values j ≤ p → holmCandidate values j ≤ alpha)) = k := by
    refine countP_prefix (by rwa [(increasing_perm values).length_eq]) fun r hr ↦ ?_
    have hlt : r < values.length := by rwa [(increasing_perm values).length_eq] at hr
    rw [decide_eq_true_iff, ← getD_eq_getElem _ 0 hr]
    change (∀ j < values.length, nth values j ≤ nth values r → _) ↔ _
    constructor
    · intro hall
      by_contra hge
      have hkn : k < values.length := by omega
      refine hk.next (nth values k) (smallest_succ.mpr ⟨hkn, rfl⟩) ?_
      exact (holmCandidate_le_iff halpha.2 hkn).mp (hall k hkn (nth_mono (by omega) hlt))
    · intro hrk
      have hat : ∀ j ≤ r, holmCandidate values j ≤ alpha := fun j hj ↦
        (holmCandidate_le_iff halpha.2 (by omega)).mpr
          (hk.within (j + 1) _ (by omega) (smallest_succ.mpr ⟨by omega, rfl⟩))
      intro j hj hjr
      rcases Nat.lt_or_ge r j with hlater | hearlier
      · exact le_trans (holmCandidate_le (fun p hp ↦ (hvalues p hp).1) hlater.le hj
          (le_antisymm hjr (nth_mono hlater.le hj))) (hat r (le_refl r))
      · exact hat j hearlier
  rw [hcount] at hreject
  exact ⟨k, hk, hreject⟩

/-- **The values of Benjamini and Hochberg are rejected as their step-up procedure does.** -/
theorem benjaminiHochberg_stepUp (hvalues : ∀ p ∈ values, 0 ≤ p ∧ p ≤ 1)
    (halpha : 0 < alpha ∧ alpha < 1) :
    ∃ k, IsStepUp (fun k ↦ alpha * (k : F) / (values.length : F)) values k ∧
      RejectsSmallest (values.map some) k (rejected (benjaminiHochberg values) alpha) := by
  obtain ⟨k, hk, hle⟩ := exists_isStepUp (fun k ↦ alpha * (k : F) / (values.length : F)) values
  have hreject := (rejectsSmallest_of alpha (length_benjaminiHochberg values)
    (P := fun p ↦ ∃ j < values.length, p ≤ nth values j ∧ bhCandidate values j ≤ alpha)
    (fun x y hxy ⟨j, hj, hyj, hcandidate⟩ ↦ ⟨j, hj, le_trans hxy hyj, hcandidate⟩)
    fun i p x hp hx ↦ by
      obtain ⟨x', hx', hiff⟩ := exists_benjaminiHochberg hvalues hp
      obtain rfl := Option.some.inj (hx'.symm.trans hx)
      exact hiff alpha).2
  have hcount : (increasing values).countP (fun p ↦ decide (∃ j < values.length,
      p ≤ nth values j ∧ bhCandidate values j ≤ alpha)) = k := by
    refine countP_prefix (by rwa [(increasing_perm values).length_eq]) fun r hr ↦ ?_
    have hlt : r < values.length := by rwa [(increasing_perm values).length_eq] at hr
    rw [decide_eq_true_iff, ← getD_eq_getElem _ 0 hr]
    change (∃ j < values.length, nth values r ≤ nth values j ∧ _) ↔ _
    have hselected : ∀ j < values.length, bhCandidate values j ≤ alpha → j < k := by
      intro j hj hcandidate
      by_contra hge
      exact hk.largest (j + 1) (nth values j) (by omega) (smallest_succ.mpr ⟨hj, rfl⟩)
        ((bhCandidate_le_iff halpha.2 hj).mp hcandidate)
    constructor
    · rintro ⟨j, hj, hrj, hcandidate⟩
      rcases Nat.lt_or_ge j r with hearlier | hlater
      · refine hselected r hlt (le_trans ?_ hcandidate)
        exact bhCandidate_le (fun p hp ↦ (hvalues p hp).1) hearlier.le hlt
          (le_antisymm (nth_mono hearlier.le hlt) hrj)
      · exact Nat.lt_of_le_of_lt hlater (hselected j hj hcandidate)
    · intro hrk
      obtain ⟨m, rfl⟩ := Nat.exists_eq_succ_of_ne_zero (Nat.ne_zero_of_lt hrk)
      obtain ⟨x, hx, hwithin⟩ := hk.within (Nat.succ_ne_zero m)
      obtain ⟨hm, rfl⟩ := smallest_succ.mp hx
      exact ⟨m, hm, nth_mono (Nat.le_of_lt_succ hrk) hm,
        (bhCandidate_le_iff halpha.2 hm).mpr hwithin⟩
  rw [hcount] at hreject
  exact ⟨k, hk, hreject⟩

theorem benjaminiHochberg_le_holm (hvalues : ∀ p ∈ values, 0 ≤ p ∧ p ≤ 1) {i : Nat} {x y : F}
    (hx : (holm values)[i]? = some x) (hy : (benjaminiHochberg values)[i]? = some y) : y ≤ x := by
  have hi : i < values.length := by
    rw [← length_holm values]
    exact (List.getElem?_eq_some_iff.mp hx).1
  have hp := getElem?_eq_getElem hi
  obtain ⟨x', hx', hnonneg, hiff⟩ := exists_holm hvalues hp
  obtain rfl := Option.some.inj (hx'.symm.trans hx)
  obtain ⟨y', hy', hiff'⟩ := exists_benjaminiHochberg hvalues hp
  obtain rfl := Option.some.inj (hy'.symm.trans hy)
  obtain ⟨r, hr, heq⟩ := exists_nth_eq hp
  refine (hiff' _).mpr ⟨r, hr, heq.ge, ?_⟩
  refine le_trans ?_ ((hiff _ hnonneg).mp (le_refl _) r hr heq.le)
  -- n / (r + 1) is at most n - r
  unfold bhCandidate holmCandidate
  refine min_le_min_left 1 ?_
  rw [div_le_iff₀ (Nat.cast_pos.mpr (Nat.succ_pos r)), mul_right_comm, mul_comm (nth values r)]
  refine mul_le_mul_of_nonneg_right ?_ (hvalues _ (nth_mem hr)).1
  have hnat : values.length ≤ (values.length - r) * (r + 1) := by
    obtain ⟨m, hm⟩ := Nat.exists_eq_add_of_lt hr
    rw [hm, (by omega : r + m + 1 - r = m + 1)]
    nlinarith [Nat.zero_le (m * r)]
  exact_mod_cast hnat

/-! ## The other implementation -/

omit [Field F] [LinearOrder F] [IsStrictOrderedRing F] in
theorem eq_of_count_eq {passed passed' : List Bool} (hlength : passed.length = passed'.length)
    (himp : ∀ i : Nat, passed[i]? = some true → passed'[i]? = some true)
    (hcount : passed.count true = passed'.count true) : passed = passed' := by
  have hle : ∀ {bs bs' : List Bool}, bs.length = bs'.length →
      (∀ i : Nat, bs[i]? = some true → bs'[i]? = some true) → bs.count true ≤ bs'.count true := by
    intro bs bs' hlength himp
    induction bs generalizing bs' with
    | nil => exact Nat.zero_le _
    | cons b bs ih =>
      cases bs' with
      | nil => cases hlength
      | cons b' bs' =>
        have hrest := ih (Nat.succ_injective hlength) fun i hi ↦ himp (i + 1) hi
        cases b with
        | true =>
          obtain rfl : b' = true := Option.some.inj (himp 0 rfl)
          simpa using hrest
        | false =>
          rw [count_cons, count_cons]
          exact Nat.le_trans hrest (Nat.le_add_right _ _)
  induction passed generalizing passed' with
  | nil => exact (eq_nil_of_length_eq_zero hlength.symm).symm
  | cons b passed ih =>
    cases passed' with
    | nil => cases hlength
    | cons b' passed' =>
      have hlength' := Nat.succ_injective hlength
      have himp' : ∀ i : Nat, passed[i]? = some true → passed'[i]? = some true :=
        fun i hi ↦ himp (i + 1) hi
      have hrest := hle hlength' himp'
      cases b with
      | true =>
        obtain rfl : b' = true := Option.some.inj (himp 0 rfl)
        rw [ih hlength' himp' (by simpa using hcount)]
      | false =>
        cases b' with
        | true =>
          simp at hcount
          omega
        | false => rw [ih hlength' himp' (by simpa using hcount)]

omit [Field F] [IsStrictOrderedRing F] in
theorem rejectsSmallest_unique {k : Nat} {passed passed' : List Bool}
    (h : RejectsSmallest (values.map some) k passed)
    (h' : RejectsSmallest (values.map some) k passed') : passed = passed' := by
  have hlength := h.length_eq.trans h'.length_eq.symm
  have hcount := h.count.trans h'.count.symm
  -- of two sets of smallest values, one is part of the other
  by_cases hsub : ∀ i : Nat, passed[i]? = some true → passed'[i]? = some true
  · exact eq_of_count_eq hlength hsub hcount
  · refine (eq_of_count_eq hlength.symm (fun j hj ↦ ?_) hcount.symm).symm
    simp only [not_forall] at hsub
    obtain ⟨i, hi, hnot⟩ := hsub
    by_contra hother
    have hfalse : ∀ {bs : List Bool} {i : Nat}, bs.length = (values.map some).length →
        i < (values.map some).length → bs[i]? ≠ some true → bs[i]? = some false := by
      intro bs i hlen hlt hne
      have hget := getElem?_eq_getElem (hlen ▸ hlt : i < bs.length)
      rw [hget] at hne ⊢
      cases hb : bs[i] with
      | true => exact absurd (congrArg some hb) hne
      | false => rfl
    obtain ⟨x, hx⟩ := h.finite i hi
    obtain ⟨y, hy⟩ := h'.finite j hj
    have hi' := hfalse h'.length_eq (List.getElem?_eq_some_iff.mp hx).1 hnot
    have hj' := hfalse h.length_eq (List.getElem?_eq_some_iff.mp hy).1 hother
    exact lt_asymm (h.smallest i j x y hi hx hj' hy) (h'.smallest j i y x hj hy hi' hx)

theorem benjaminiHochberg_eq_bh {argsort : List F → List Nat} (hargsort : IsArgsort argsort)
    (hvalues : ∀ p ∈ values, 0 ≤ p ∧ p ≤ 1) (halpha : 0 < alpha ∧ alpha < 1) :
    rejected (benjaminiHochberg values) alpha = (bh argsort (values.map some) alpha).1 := by
  obtain ⟨k, hk, hreject⟩ := benjaminiHochberg_stepUp hvalues halpha
  obtain ⟨k', hk', hreject'⟩ := bh_stepUp hargsort (values.map some) alpha
    fun hneg ↦ absurd halpha.1 (not_lt.mpr hneg.le)
  have hvalues' : (values.map some).reduceOption = values := by
    rw [List.reduceOption, filterMap_map]
    exact filterMap_some
  rw [hvalues'] at hk'
  rw [hk'.unique hk] at hreject'
  exact rejectsSmallest_unique hreject hreject'

omit [IsStrictOrderedRing F] in
theorem multipleTestingResult_eq_ok {method : String} {adjusted : List F}
    (hmethod : method = "holm" ∨ method = "benjamini_hochberg")
    (hvalues : ∀ p ∈ values, 0 ≤ p ∧ p ≤ 1) (halpha : 0 < alpha ∧ alpha < 1)
    (h : Adjusts values adjusted) :
    ∃ r, multipleTestingResult "multiple-testing.v1" method values adjusted alpha = .ok r ∧
      r.pValues = values ∧ r.adjustedPValues = adjusted ∧ r.reject = rejected adjusted alpha := by
  unfold multipleTestingResult
  rw [dif_pos rfl, dif_pos hmethod, dif_pos h.length_eq.symm, dif_pos halpha, dif_pos hvalues,
    dif_pos h.unit]
  exact ⟨_, rfl, rfl, rfl, rfl⟩

/-- **Adjusted p-values are the step procedures.** -/
theorem adjustPValues_steps {argsort : List F → List Nat} (hargsort : IsArgsort argsort)
    (hvalues : ∀ p ∈ values, 0 ≤ p ∧ p ≤ 1) (halpha : 0 < alpha ∧ alpha < 1) :
    ∃ holm bh : MultipleTestingResult F,
      adjustPValues values "holm" alpha = .ok holm ∧
      adjustPValues values "benjamini_hochberg" alpha = .ok bh ∧
      Adjusts values holm.adjustedPValues ∧ Adjusts values bh.adjustedPValues ∧
      (∀ method values' r r', values.Perm values' → adjustPValues values method alpha = .ok r →
        adjustPValues values' method alpha = .ok r' → ∀ (i j : Nat) (p : F),
        values[i]? = some p → values'[j]? = some p →
        r.adjustedPValues[i]? = r'.adjustedPValues[j]?) ∧
      (∃ k, IsStepDown (fun k ↦ alpha / ((values.length + 1 - k : Nat) : F)) values k ∧
        RejectsSmallest (values.map some) k holm.reject) ∧
      (∃ k, IsStepUp (fun k ↦ alpha * (k : F) / (values.length : F)) values k ∧
        RejectsSmallest (values.map some) k bh.reject) ∧
      (∀ i : Nat, holm.reject[i]? = some true → bh.reject[i]? = some true) ∧
      bh.reject = (Orchestration.bh argsort (values.map some) alpha).1 := by
  have hdown := adjusts_holm hvalues
  have hup := adjusts_benjaminiHochberg hvalues
  obtain ⟨r, hr, -, hadjusted, hreject⟩ :=
    multipleTestingResult_eq_ok (.inl rfl) hvalues halpha hdown
  obtain ⟨r', hr', -, hadjusted', hreject'⟩ :=
    multipleTestingResult_eq_ok (.inr rfl) hvalues halpha hup
  refine ⟨r, r', hr, hr', hadjusted ▸ hdown, hadjusted' ▸ hup, ?_, ?_, ?_, ?_, ?_⟩
  · intro method values' s s' hperm hs hs' i j p hp hp'
    have hvalues' : ∀ p ∈ values', 0 ≤ p ∧ p ≤ 1 := fun p hp ↦ hvalues p (hperm.mem_iff.mpr hp)
    unfold adjustPValues at hs hs'
    by_cases hholm : method = "holm"
    · subst hholm
      rw [if_pos rfl] at hs hs'
      obtain ⟨_, hok, -, heq, -⟩ :=
        multipleTestingResult_eq_ok (.inl rfl) hvalues halpha hdown
      obtain ⟨_, hok', -, heq', -⟩ :=
        multipleTestingResult_eq_ok (.inl rfl) hvalues' halpha (adjusts_holm hvalues')
      obtain rfl := Except.ok.inj (hok.symm.trans hs)
      obtain rfl := Except.ok.inj (hok'.symm.trans hs')
      rw [heq, heq']
      exact holm_perm hvalues hperm hp hp'
    · by_cases hbh : method = "benjamini_hochberg"
      · subst hbh
        rw [if_neg hholm, if_pos rfl] at hs hs'
        obtain ⟨_, hok, -, heq, -⟩ :=
          multipleTestingResult_eq_ok (.inr rfl) hvalues halpha hup
        obtain ⟨_, hok', -, heq', -⟩ :=
          multipleTestingResult_eq_ok (.inr rfl) hvalues' halpha
            (adjusts_benjaminiHochberg hvalues')
        obtain rfl := Except.ok.inj (hok.symm.trans hs)
        obtain rfl := Except.ok.inj (hok'.symm.trans hs')
        rw [heq, heq']
        exact benjaminiHochberg_perm hvalues hperm hp hp'
      · rw [if_neg hholm, if_neg hbh] at hs
        cases hs
  · rw [hreject]
    exact holm_stepDown hvalues halpha
  · rw [hreject']
    exact benjaminiHochberg_stepUp hvalues halpha
  · intro i hi
    rw [hreject, rejected, getElem?_map] at hi
    obtain ⟨x, hx, hle⟩ := Option.map_eq_some_iff.mp hi
    have hlt : i < (benjaminiHochberg values).length := by
      rw [length_benjaminiHochberg, ← length_holm values]
      exact (List.getElem?_eq_some_iff.mp hx).1
    have hy := getElem?_eq_getElem hlt
    rw [hreject', rejected, getElem?_map, hy]
    exact congrArg some (decide_eq_true
      (le_trans (benjaminiHochberg_le_holm hvalues hx hy) (of_decide_eq_true hle)))
  · rw [hreject']
    exact benjaminiHochberg_eq_bh hargsort hvalues halpha

end

/-! ### Four values with a tie -/

theorem adjustPValues_steps_sample :
    let values : List ℚ := [1 / 50, 1 / 100, 1 / 50, 1 / 2]
    ∃ holm bh : MultipleTestingResult ℚ,
      adjustPValues values "holm" (1 / 20) = .ok holm ∧
      adjustPValues values "benjamini_hochberg" (1 / 20) = .ok bh ∧
      holm.reject = [false, true, false, false] ∧ bh.reject = [true, true, true, false] ∧
      bh.reject = (Orchestration.bh stableArgsort (values.map some) (1 / 20)).1 := by
  intro values
  obtain ⟨holm, bh, hholm, hbh, -, -, -, -, -, -, heq⟩ :=
    adjustPValues_steps isArgsort_stable (by decide +kernel : ∀ p ∈ values, 0 ≤ p ∧ p ≤ 1)
      (by norm_num : (0 : ℚ) < 1 / 20 ∧ (1 : ℚ) / 20 < 1)
  have hstepDown : (adjustPValues values "holm" (1 / 20)).toOption.map (·.reject)
      = some [false, true, false, false] := by decide +kernel
  have hstepUp : (adjustPValues values "benjamini_hochberg" (1 / 20)).toOption.map (·.reject)
      = some [true, true, true, false] := by decide +kernel
  rw [hholm] at hstepDown
  rw [hbh] at hstepUp
  exact ⟨holm, bh, hholm, hbh, Option.some.inj hstepDown, Option.some.inj hstepUp, heq⟩

end Qros.ResearchCore
