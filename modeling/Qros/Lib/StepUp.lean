import Mathlib.Data.List.Sort

/-!
# Step-up selection

Of a list, `IsStepUp t xs k` selects the `k` smallest elements for the largest `k` at which the
`k`-th smallest is at most `t k`; an element before it may be above its own threshold.  When the
thresholds do not decrease, exactly `k` elements are at most the `k`-th smallest
(`countP_le_last`), so that equal elements stand or fall together.
-/

universe u

namespace Qros.Lib

open List

variable {α : Type u} [LinearOrder α]

/-- The elements in increasing order. -/
def increasing (xs : List α) : List α := xs.mergeSort fun x y ↦ decide (x ≤ y)

/-- The `k`-th smallest element, counted from one. -/
def smallest (xs : List α) (k : Nat) : Option α :=
  match k with
  | 0 => none
  | k + 1 => (increasing xs)[k]?

structure IsStepUp (t : Nat → α) (xs : List α) (k : Nat) : Prop where
  within : k ≠ 0 → ∃ x, smallest xs k = some x ∧ x ≤ t k
  largest : ∀ j x, k < j → smallest xs j = some x → ¬ x ≤ t j

theorem increasing_perm (xs : List α) : (increasing xs).Perm xs := mergeSort_perm xs _

theorem pairwise_increasing (xs : List α) : (increasing xs).Pairwise (· ≤ ·) := by
  refine (pairwise_mergeSort (fun a b c hab hbc ↦ ?_) (fun a b ↦ ?_) xs).imp of_decide_eq_true
  · exact decide_eq_true ((of_decide_eq_true hab).trans (of_decide_eq_true hbc))
  · simpa using le_total a b

/-- A sorted rearrangement of a list is the sorted list. -/
theorem eq_increasing {xs ys : List α} (hperm : ys.Perm xs) (hsorted : ys.Pairwise (· ≤ ·)) :
    ys = increasing xs :=
  (hperm.trans (increasing_perm xs).symm).eq_of_pairwise
    (fun _ _ _ _ hab hba ↦ le_antisymm hab hba) hsorted (pairwise_increasing xs)

variable {t : Nat → α} {xs : List α}

/-- In a sorted list with thresholds that do not decrease, what is at most the last element
within its threshold does not come after it. -/
theorem getElem_le_last_iff (hxs : xs.Pairwise (· ≤ ·)) {i : Nat} (hi : i < xs.length)
    (hwithin : xs[i] ≤ t (i + 1)) (hlast : ∀ j (hj : j < xs.length), i < j → ¬ xs[j] ≤ t (j + 1))
    (hmono : ∀ j, i ≤ j → j < xs.length → t (i + 1) ≤ t (j + 1)) {j : Nat} (hj : j < xs.length) :
    xs[j] ≤ xs[i] ↔ j ≤ i := by
  constructor
  · intro hle
    by_contra hlt
    rw [not_le] at hlt
    exact hlast j hj hlt ((hle.trans hwithin).trans (hmono j hlt.le hj))
  · intro hle
    rcases Nat.eq_or_lt_of_le hle with rfl | hlt
    · exact le_rfl
    · exact pairwise_iff_getElem.mp hxs j i hj hi hlt

/-- A property of a prefix of a list is one of as many elements as the prefix has. -/
theorem countP_prefix {β : Type*} {p : β → Bool} {ys : List β} {k : Nat} (hk : k ≤ ys.length)
    (h : ∀ j (hj : j < ys.length), p ys[j] = true ↔ j < k) : ys.countP p = k := by
  have hbefore : (ys.take k).countP p = k := by
    rw [countP_eq_length.mpr, length_take, Nat.min_eq_left hk]
    intro y hy
    obtain ⟨j, hj, rfl⟩ := mem_iff_getElem.mp hy
    rw [length_take] at hj
    rw [getElem_take]
    exact (h j (by omega)).mpr (by omega)
  have hafter : (ys.drop k).countP p = 0 := by
    refine countP_eq_zero.mpr fun y hy ↦ ?_
    obtain ⟨j, hj, rfl⟩ := mem_iff_getElem.mp hy
    rw [length_drop] at hj
    rw [getElem_drop, h _ (by omega)]
    omega
  have hsplit := congrArg (List.countP p) (take_append_drop k ys)
  rw [← hsplit, countP_append, hbefore, hafter, Nat.add_zero]

/-- As many elements are at most the last one within its threshold as come before it and
itself. -/
theorem countP_le_last (hxs : xs.Pairwise (· ≤ ·)) {i : Nat} (hi : i < xs.length)
    (hwithin : xs[i] ≤ t (i + 1)) (hlast : ∀ j (hj : j < xs.length), i < j → ¬ xs[j] ≤ t (j + 1))
    (hmono : ∀ j, i ≤ j → j < xs.length → t (i + 1) ≤ t (j + 1)) :
    xs.countP (fun x ↦ decide (x ≤ xs[i])) = i + 1 := by
  refine countP_prefix hi fun j hj ↦ ?_
  rw [decide_eq_true_iff, getElem_le_last_iff hxs hi hwithin hlast hmono hj, Nat.lt_succ_iff]

/-- The last place within its threshold is the number that is selected. -/
theorem isStepUp_last {i : Nat} (hi : i < (increasing xs).length)
    (hwithin : (increasing xs)[i] ≤ t (i + 1))
    (hlast : ∀ j (hj : j < (increasing xs).length), i < j → ¬ (increasing xs)[j] ≤ t (j + 1)) :
    IsStepUp t xs (i + 1) := by
  refine ⟨fun _ ↦ ⟨_, getElem?_eq_getElem hi, hwithin⟩, fun j x hlt hx ↦ ?_⟩
  obtain ⟨j, rfl⟩ := Nat.exists_eq_succ_of_ne_zero (Nat.ne_zero_of_lt hlt)
  obtain ⟨hj, rfl⟩ := List.getElem?_eq_some_iff.mp hx
  exact hlast j hj (Nat.lt_of_succ_lt_succ hlt)

theorem isStepUp_zero
    (h : ∀ j (hj : j < (increasing xs).length), ¬ (increasing xs)[j] ≤ t (j + 1)) :
    IsStepUp t xs 0 := by
  refine ⟨fun hne ↦ absurd rfl hne, fun j x hlt hx ↦ ?_⟩
  obtain ⟨j, rfl⟩ := Nat.exists_eq_succ_of_ne_zero (Nat.ne_zero_of_lt hlt)
  obtain ⟨hj, rfl⟩ := List.getElem?_eq_some_iff.mp hx
  exact h j hj

/-- There is a last place within its threshold, or none is. -/
theorem exists_isStepUp (t : Nat → α) (xs : List α) :
    ∃ k, IsStepUp t xs k ∧ k ≤ xs.length := by
  have hall : ∀ n, n ≤ (increasing xs).length →
      (∃ i, ∃ hi : i < (increasing xs).length, i < n ∧ (increasing xs)[i] ≤ t (i + 1) ∧
        ∀ j (hj : j < (increasing xs).length), i < j → j < n → ¬ (increasing xs)[j] ≤ t (j + 1)) ∨
      ∀ j (hj : j < (increasing xs).length), j < n → ¬ (increasing xs)[j] ≤ t (j + 1) := by
    intro n hn
    induction n with
    | zero => exact .inr fun j _ hj ↦ absurd hj (Nat.not_lt_zero j)
    | succ n ih =>
      by_cases hwithin : (increasing xs)[n] ≤ t (n + 1)
      · exact .inl ⟨n, hn, Nat.lt_succ_self n, hwithin, fun j _ hlt hle ↦ by omega⟩
      · rcases ih (by omega) with ⟨i, hi, hlt, hle, hlast⟩ | hnone
        · refine .inl ⟨i, hi, by omega, hle, fun j hj hij hjn ↦ ?_⟩
          rcases Nat.eq_or_lt_of_le (Nat.le_of_lt_succ hjn) with rfl | hjn
          · exact hwithin
          · exact hlast j hj hij hjn
        · refine .inr fun j hj hjn ↦ ?_
          rcases Nat.eq_or_lt_of_le (Nat.le_of_lt_succ hjn) with rfl | hjn
          · exact hwithin
          · exact hnone j hj hjn
  rcases hall _ (le_refl _) with ⟨i, hi, -, hwithin, hlast⟩ | hnone
  · refine ⟨i + 1, isStepUp_last hi hwithin fun j hj hlt ↦ hlast j hj hlt hj, ?_⟩
    rwa [(increasing_perm xs).length_eq] at hi
  · exact ⟨0, isStepUp_zero fun j hj ↦ hnone j hj hj, Nat.zero_le _⟩

/-- The number that is selected is determined. -/
theorem IsStepUp.unique {k k' : Nat} (h : IsStepUp t xs k) (h' : IsStepUp t xs k') : k = k' := by
  have hle : ∀ {k k' : Nat}, IsStepUp t xs k → IsStepUp t xs k' → k ≤ k' := by
    intro k k' h h'
    by_contra hlt
    rw [not_le] at hlt
    obtain ⟨x, hx, hwithin⟩ := h.within (Nat.ne_zero_of_lt hlt)
    exact h'.largest k x hlt hx hwithin
  exact le_antisymm (hle h h') (hle h' h)

/-! ## Step-down selection -/

/-- The `k` smallest elements are selected: all of them are within their thresholds, and the
next one is not. -/
structure IsStepDown (t : Nat → α) (xs : List α) (k : Nat) : Prop where
  within : ∀ j x, j ≤ k → smallest xs j = some x → x ≤ t j
  next : ∀ x, smallest xs (k + 1) = some x → ¬ x ≤ t (k + 1)

theorem exists_isStepDown (t : Nat → α) (xs : List α) :
    ∃ k, IsStepDown t xs k ∧ k ≤ xs.length := by
  have hall : ∀ n, n ≤ xs.length → (∃ k, IsStepDown t xs k ∧ k ≤ xs.length) ∨
      ∀ j x, j ≤ n → smallest xs j = some x → x ≤ t j := by
    intro n hn
    induction n with
    | zero =>
      refine .inr fun j x hj hx ↦ ?_
      obtain rfl := Nat.le_zero.mp hj
      cases hx
    | succ n ih =>
      rcases ih (by omega) with hfound | hwithin
      · exact .inl hfound
      · by_cases hnext : ∀ x, smallest xs (n + 1) = some x → x ≤ t (n + 1)
        · refine .inr fun j x hj hx ↦ ?_
          rcases Nat.eq_or_lt_of_le hj with rfl | hj
          · exact hnext x hx
          · exact hwithin j x (Nat.le_of_lt_succ hj) hx
        · rw [not_forall] at hnext
          obtain ⟨x, hx⟩ := hnext
          obtain ⟨hx, hnot⟩ := Classical.not_imp.mp hx
          refine .inl ⟨n, ⟨hwithin, fun y hy ↦ ?_⟩, by omega⟩
          obtain rfl := Option.some.inj (hx.symm.trans hy)
          exact hnot
  rcases hall xs.length (le_refl _) with hfound | hwithin
  · exact hfound
  · refine ⟨xs.length, ⟨hwithin, fun x hx ↦ ?_⟩, le_refl _⟩
    rw [smallest, getElem?_eq_none (by rw [(increasing_perm xs).length_eq])] at hx
    cases hx

end Qros.Lib
