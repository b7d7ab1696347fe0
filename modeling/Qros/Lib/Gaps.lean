import Mathlib.Data.List.ReduceOption
import Mathlib.Data.List.Chain

/-!
# Gaps in a list of optional entries

`present` pairs the entries of a list that follow one another at once, and `successive`
those that follow one another once the missing ones are left out.  There are as many of
the first as of the second just when no entry is missing between two others, and then they
are the same (`present_cases`).
-/

universe u

namespace Qros.Lib

open List

variable {α : Type u}

/-- Neighbours that are both present. -/
def present (xs : List (Option α)) : List (α × α) :=
  (xs.zip xs.tail).filterMap fun
    | (some a, some b) => some (a, b)
    | _ => none

/-- Neighbours once the missing entries are left out. -/
def successive (xs : List (Option α)) : List (α × α) := xs.reduceOption.zip xs.reduceOption.tail

def PresentAt (xs : List (Option α)) (i : Nat) : Prop := ∃ a, xs[i]? = some (some a)

/-- No entry is missing between two that are present. -/
def Gapless (xs : List (Option α)) : Prop :=
  ∀ i j k, i < j → j < k → PresentAt xs i → PresentAt xs k → PresentAt xs j

variable {xs : List (Option α)} {a b : α}

theorem present_cons_none : present (none :: xs) = present xs := by
  cases xs with
  | nil => rfl
  | cons x xs => rfl

theorem present_cons_cons_some :
    present (some a :: some b :: xs) = (a, b) :: present (some b :: xs) := rfl

theorem present_cons_cons_none : present (some a :: none :: xs) = present (none :: xs) := rfl

theorem successive_cons_none : successive (none :: xs) = successive xs := rfl

theorem successive_cons_cons_some :
    successive (some a :: some b :: xs) = (a, b) :: successive (some b :: xs) := rfl

theorem successive_cons_cons_none {ys : List α} (h : xs.reduceOption = b :: ys) :
    successive (some a :: none :: xs) = (a, b) :: successive xs := by
  unfold successive
  rw [reduceOption_cons_of_some, reduceOption_cons_of_none, h]
  rfl

/-- One more entry is paired with the last one present. -/
theorem successive_concat_some :
    successive (xs ++ [some a]) =
      successive xs ++ (xs.reduceOption.getLast?.map fun b ↦ (b, a)).toList := by
  have hreduce : (xs ++ [some a]).reduceOption = xs.reduceOption ++ [a] := by
    rw [reduceOption_append]
    rfl
  unfold successive
  rw [hreduce]
  induction xs.reduceOption with
  | nil => rfl
  | cons b ys ih =>
    cases ys with
    | nil => rfl
    | cons c ys =>
      rw [cons_append, tail_cons, cons_append, zip_cons_cons, ← cons_append,
        getLast?_cons_cons, tail_cons, zip_cons_cons, cons_append]
      exact congrArg ((b, c) :: ·) ih

theorem successive_concat_none : successive (xs ++ [none]) = successive xs := by
  unfold successive
  rw [reduceOption_append]
  simp

theorem presentAt_succ {x : Option α} {i : Nat} : PresentAt (x :: xs) (i + 1) ↔ PresentAt xs i :=
  Iff.rfl

theorem not_presentAt_nil {i : Nat} : ¬ PresentAt ([] : List (Option α)) i := by
  rintro ⟨_, h⟩
  cases h

theorem not_presentAt_none : ¬ PresentAt (none :: xs) 0 := by
  rintro ⟨_, ⟨⟩⟩

theorem presentAt_some : PresentAt (some a :: xs) 0 := ⟨a, rfl⟩

theorem exists_presentAt_iff : (∃ i, PresentAt xs i) ↔ xs.reduceOption ≠ [] := by
  constructor
  · rintro ⟨i, a, ha⟩ hnil
    have hmem : a ∈ xs.reduceOption :=
      reduceOption_mem_iff.mpr (mem_of_getElem? ha)
    rw [hnil] at hmem
    cases hmem
  · intro hne
    obtain ⟨a, ha⟩ := exists_mem_of_ne_nil _ hne
    obtain ⟨i, hi⟩ := getElem?_of_mem (reduceOption_mem_iff.mp ha)
    exact ⟨i, a, hi⟩

theorem Gapless.tail {x : Option α} (h : Gapless (x :: xs)) : Gapless xs :=
  fun i j k hij hjk ↦ h (i + 1) (j + 1) (k + 1) (Nat.succ_lt_succ hij) (Nat.succ_lt_succ hjk)

theorem gapless_cons_none : Gapless (none :: xs) ↔ Gapless xs := by
  refine ⟨Gapless.tail, fun h i j k hij hjk hi hk ↦ ?_⟩
  obtain ⟨i, rfl⟩ : ∃ i', i = i' + 1 := by
    cases i with
    | zero => exact absurd hi not_presentAt_none
    | succ i => exact ⟨i, rfl⟩
  obtain ⟨j, rfl⟩ : ∃ j', j = j' + 1 := ⟨j - 1, by omega⟩
  obtain ⟨k, rfl⟩ : ∃ k', k = k' + 1 := ⟨k - 1, by omega⟩
  exact h i j k (by omega) (by omega) hi hk

theorem gapless_cons_cons_some :
    Gapless (some a :: some b :: xs) ↔ Gapless (some b :: xs) := by
  refine ⟨Gapless.tail, fun h i j k hij hjk hi hk ↦ ?_⟩
  obtain ⟨k, rfl⟩ : ∃ k', k = k' + 1 := ⟨k - 1, by omega⟩
  obtain ⟨j, rfl⟩ : ∃ j', j = j' + 1 := ⟨j - 1, by omega⟩
  cases j with
  | zero => exact ⟨b, rfl⟩
  | succ j => exact h 0 (j + 1) k (Nat.succ_pos j) (by omega) presentAt_some hk

theorem gapless_cons_cons_none :
    Gapless (some a :: none :: xs) ↔ xs.reduceOption = [] := by
  constructor
  · intro h
    by_contra hne
    obtain ⟨k, hk⟩ := exists_presentAt_iff.mpr hne
    have hnot : ¬ PresentAt (none :: xs) 0 := not_presentAt_none
    exact hnot (h 0 1 (k + 2) (by omega) (by omega) presentAt_some hk)
  · intro hnil i j k hij hjk _ hk
    obtain ⟨k, rfl⟩ : ∃ k', k = k' + 2 := ⟨k - 2, by omega⟩
    exact absurd hnil (exists_presentAt_iff.mp ⟨k, hk⟩)

/-- **The pairs of neighbours.**  The same when there is no gap, and fewer otherwise. -/
theorem present_cases (xs : List (Option α)) :
    (Gapless xs ∧ present xs = successive xs) ∨
      (¬ Gapless xs ∧ (present xs).length < (successive xs).length) := by
  induction xs with
  | nil => exact .inl ⟨fun _ _ _ _ _ hi _ ↦ absurd hi not_presentAt_nil, rfl⟩
  | cons x xs ih =>
    cases x with
    | none => rwa [gapless_cons_none, present_cons_none, successive_cons_none]
    | some a =>
      cases xs with
      | nil =>
        refine .inl ⟨fun i j k _ hjk _ hk ↦ ?_, rfl⟩
        obtain ⟨k, rfl⟩ : ∃ k', k = k' + 1 := ⟨k - 1, by omega⟩
        exact absurd (presentAt_succ.mp hk) not_presentAt_nil
      | cons x xs =>
        cases x with
        | some b =>
          rw [gapless_cons_cons_some, present_cons_cons_some, successive_cons_cons_some,
            length_cons, length_cons, Nat.add_lt_add_iff_right]
          rcases ih with ⟨hgapless, hsame⟩ | hfewer
          · exact .inl ⟨hgapless, congrArg ((a, b) :: ·) hsame⟩
          · exact .inr hfewer
        | none =>
          rw [gapless_cons_cons_none, present_cons_cons_none]
          cases hreduce : xs.reduceOption with
          | nil =>
            refine .inl ⟨rfl, ?_⟩
            rcases ih with ⟨-, hsame⟩ | ⟨-, hfewer⟩
            · rw [hsame]
              unfold successive
              simp [hreduce]
            · unfold successive at hfewer
              simp [hreduce] at hfewer
          | cons b ys =>
            refine .inr ⟨cons_ne_nil _ _, ?_⟩
            rw [successive_cons_cons_none hreduce, length_cons]
            rw [successive_cons_none] at ih
            rcases ih with ⟨-, hsame⟩ | ⟨-, hfewer⟩
            · rw [hsame]
              exact Nat.lt_succ_self _
            · exact Nat.lt_succ_of_lt hfewer

end Qros.Lib

/-!
## Relations between neighbours

What `List.IsChain` lacks: two relations at once, and relations that agree on
neighbours which are known to be related otherwise.
-/

namespace Qros.Lib

variable {α : Type u} {R S T : α → α → Prop} {l : List α}

theorem isChain_and_iff : l.IsChain (fun a b ↦ R a b ∧ S a b) ↔ l.IsChain R ∧ l.IsChain S := by
  simp only [List.isChain_iff_getElem]
  exact ⟨fun h ↦ ⟨fun i hi ↦ (h i hi).1, fun i hi ↦ (h i hi).2⟩,
    fun h i hi ↦ ⟨h.1 i hi, h.2 i hi⟩⟩

/-- Relations that agree on neighbours related by `T`, along a list of such neighbours. -/
theorem isChain_congr (hl : l.IsChain T) (h : ∀ a b, T a b → (R a b ↔ S a b)) :
    l.IsChain R ↔ l.IsChain S := by
  simp only [List.isChain_iff_getElem] at hl ⊢
  exact forall_congr' fun i ↦ forall_congr' fun hi ↦ h _ _ (hl i hi)

/-- With and without their positions. -/
theorem isChain_zipIdx_iff {n : Nat} :
    (l.zipIdx n).IsChain (fun a b ↦ R a.1 b.1) ↔ l.IsChain R := by
  rw [← List.isChain_map Prod.fst, List.zipIdx_map_fst]

end Qros.Lib
