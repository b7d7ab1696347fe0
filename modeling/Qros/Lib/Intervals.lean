import Mathlib.Data.List.Induction
import Mathlib.Order.Interval.Set.Basic
import Mathlib.Order.MinMax
import Qros.Lib.Bisect

/-!
# Closed intervals merged and searched

`merge` joins the intervals of a list that is sorted by starts wherever they meet.  The result
is sorted and its intervals lie apart, so that one binary search over the ends finds whether a
given interval meets one of them, and that is whether it meets one of the list
(`meetsAny_merge_iff`).
-/

universe u

namespace Qros.Lib.Intervals

open List

variable {T : Type u} [LinearOrder T]

/-- Closed intervals have a point in common. -/
def Meets (x y : T × T) : Prop := x.1 ≤ y.2 ∧ y.1 ≤ x.2

/-- An interval extends the last one if it starts within it. -/
def mergeStep (merged : List (T × T)) (x : T × T) : List (T × T) :=
  match merged.getLast? with
  | some last =>
    if x.1 ≤ last.2 then merged.dropLast ++ [(last.1, max last.2 x.2)] else merged ++ [x]
  | none => merged ++ [x]

def merge (xs : List (T × T)) : List (T × T) := xs.foldl mergeStep []

def bisectLeft (ts : List T) (t : T) : Nat := partitionPoint (keyBelow id ts t) ts.length

/-- Whether the first interval that does not end before `x` starts within `x`. -/
def meetsAny (merged : List (T × T)) (x : T × T) : Bool :=
  match (merged.map Prod.fst)[bisectLeft (merged.map Prod.snd) x.1]? with
  | some start => decide (start ≤ x.2)
  | none => false

variable {xs merged : List (T × T)} {x y : T × T}

theorem mergeStep_concat : mergeStep (merged ++ [y]) x =
    if x.1 ≤ y.2 then merged ++ [(y.1, max y.2 x.2)] else merged ++ [y] ++ [x] := by
  simp only [mergeStep, getLast?_concat, dropLast_concat]

theorem merge_concat : merge (xs ++ [x]) = mergeStep (merge xs) x := by
  rw [merge, foldl_append]
  rfl

theorem meets_iff_inter_nonempty (hx : x.1 ≤ x.2) (hy : y.1 ≤ y.2) :
    Meets x y ↔ (Set.Icc x.1 x.2 ∩ Set.Icc y.1 y.2).Nonempty := by
  constructor
  · rintro ⟨hxy, hyx⟩
    exact ⟨max x.1 y.1, ⟨le_max_left _ _, max_le hx hyx⟩, le_max_right _ _, max_le hxy hy⟩
  · rintro ⟨z, hz, hz'⟩
    exact ⟨hz.1.trans hz'.2, hz'.1.trans hz.2⟩

/-- Extending an interval `y` by one that starts within it. -/
theorem meets_extend {z : T × T} (hz : z.1 ≤ z.2) (hstart : y.1 ≤ x.1) (hx : x.1 ≤ y.2) :
    Meets z (y.1, max y.2 x.2) ↔ Meets z y ∨ Meets z x := by
  constructor
  · rintro ⟨hend, hbegin⟩
    by_cases hy : z.1 ≤ y.2
    · exact .inl ⟨hy, hbegin⟩
    · refine .inr ⟨(le_max_iff.mp hend).resolve_left hy, ?_⟩
      exact (hx.trans (not_le.mp hy).le).trans hz
  · rintro (h | h)
    · exact ⟨h.1.trans (le_max_left _ _), h.2⟩
    · exact ⟨h.1.trans (le_max_right _ _), hstart.trans h.2⟩

structure Merges (xs merged : List (T × T)) : Prop where
  proper : ∀ y ∈ merged, y.1 ≤ y.2
  apart : merged.Pairwise fun y z ↦ y.2 < z.1
  starts : ∀ y ∈ merged, ∃ x ∈ xs, y.1 = x.1
  meets : ∀ z : T × T, z.1 ≤ z.2 → ((∃ y ∈ merged, Meets z y) ↔ ∃ x ∈ xs, Meets z x)

theorem Merges.nil : Merges ([] : List (T × T)) [] where
  proper := fun _ h ↦ (by cases h)
  apart := .nil
  starts := fun _ h ↦ (by cases h)
  meets := fun _ _ ↦ Iff.rfl

/-- An interval after all others. -/
theorem Merges.push (h : Merges xs merged) (hx : x.1 ≤ x.2) (hlast : ∀ y ∈ merged, y.2 < x.1) :
    Merges (xs ++ [x]) (merged ++ [x]) where
  proper := by
    intro y hy
    rcases mem_append.mp hy with hy | hy
    · exact h.proper y hy
    · rw [mem_singleton.mp hy]
      exact hx
  apart := by
    refine pairwise_append.mpr ⟨h.apart, pairwise_singleton _ _, ?_⟩
    intro y hy z hz
    rw [mem_singleton.mp hz]
    exact hlast y hy
  starts := by
    intro y hy
    rcases mem_append.mp hy with hy | hy
    · obtain ⟨x', hx', heq⟩ := h.starts y hy
      exact ⟨x', mem_append_left _ hx', heq⟩
    · exact ⟨x, mem_append_right _ (mem_singleton_self x), by rw [mem_singleton.mp hy]⟩
  meets := by
    intro z hz
    simp only [mem_append, mem_singleton, or_and_right, exists_or, exists_eq_left]
    rw [h.meets z hz]

/-- An interval that starts within the last one. -/
theorem Merges.extend (h : Merges xs (merged ++ [y])) (hstart : ∀ x' ∈ xs, x'.1 ≤ x.1)
    (hwithin : x.1 ≤ y.2) : Merges (xs ++ [x]) (merged ++ [(y.1, max y.2 x.2)]) where
  proper := by
    intro z hz
    rcases mem_append.mp hz with hz | hz
    · exact h.proper z (mem_append_left _ hz)
    · rw [mem_singleton.mp hz]
      exact (h.proper y (mem_append_right _ (mem_singleton_self y))).trans
        (le_max_left _ _)
  apart := by
    obtain ⟨hinit, -, hlast⟩ := pairwise_append.mp h.apart
    refine pairwise_append.mpr ⟨hinit, pairwise_singleton _ _, ?_⟩
    intro w hw z hz
    rw [mem_singleton.mp hz]
    exact hlast w hw y (mem_singleton_self y)
  starts := by
    intro z hz
    rcases mem_append.mp hz with hz | hz
    · obtain ⟨x', hx', heq⟩ := h.starts z (mem_append_left _ hz)
      exact ⟨x', mem_append_left _ hx', heq⟩
    · obtain ⟨x', hx', heq⟩ := h.starts y (mem_append_right _ (mem_singleton_self y))
      refine ⟨x', mem_append_left _ hx', ?_⟩
      rw [mem_singleton.mp hz]
      exact heq
  meets := by
    intro z hz
    have hy : y.1 ≤ x.1 := by
      obtain ⟨x', hx', heq⟩ := h.starts y (mem_append_right _ (mem_singleton_self y))
      rw [heq]
      exact hstart x' hx'
    have hmeets := h.meets z hz
    simp only [mem_append, mem_singleton, or_and_right, exists_or, exists_eq_left]
      at hmeets ⊢
    rw [meets_extend hz hy hwithin, ← hmeets, or_assoc]

theorem Merges.step (h : Merges xs merged) (hstart : ∀ x' ∈ xs, x'.1 ≤ x.1) (hx : x.1 ≤ x.2) :
    Merges (xs ++ [x]) (mergeStep merged x) := by
  rcases eq_nil_or_concat merged with rfl | ⟨init, y, rfl⟩
  · exact h.push hx fun y hy ↦ (by cases hy)
  · rw [concat_eq_append] at h ⊢
    rw [mergeStep_concat]
    by_cases hwithin : x.1 ≤ y.2
    · rw [if_pos hwithin]
      exact h.extend hstart hwithin
    · rw [if_neg hwithin]
      refine h.push hx fun z hz ↦ ?_
      have hlast : y.2 < x.1 := not_le.mp hwithin
      rcases mem_append.mp hz with hz | hz
      · have hzy := (pairwise_append.mp h.apart).2.2 z hz y (mem_singleton_self y)
        have hy := h.proper y (mem_append_right _ (mem_singleton_self y))
        exact (hzy.trans_le hy).trans hlast
      · rw [mem_singleton.mp hz]
        exact hlast

theorem merges_merge (hsorted : xs.Pairwise fun x y ↦ x.1 ≤ y.1) (hproper : ∀ x ∈ xs, x.1 ≤ x.2) :
    Merges xs (merge xs) := by
  induction xs using reverseRecOn with
  | nil => exact Merges.nil
  | append_singleton xs x ih =>
    obtain ⟨hinit, -, hlast⟩ := pairwise_append.mp hsorted
    rw [merge_concat]
    refine (ih hinit fun x' hx' ↦ hproper x' (mem_append_left _ hx')).step ?_ ?_
    · exact fun x' hx' ↦ hlast x' hx' x (mem_singleton_self x)
    · exact hproper x (mem_append_right _ (mem_singleton_self x))

/-- Among intervals that lie apart one search is enough. -/
theorem meetsAny_iff (hproper : ∀ y ∈ merged, y.1 ≤ y.2)
    (hapart : merged.Pairwise fun y z ↦ y.2 < z.1) :
    meetsAny merged x = true ↔ ∃ y ∈ merged, Meets x y := by
  have hends : (merged.map Prod.snd).Pairwise fun s t ↦ id s < id t := by
    refine pairwise_map.mpr (hapart.imp_of_mem fun {y z} _ hz hyz ↦ ?_)
    exact hyz.trans_le (hproper z hz)
  have hpoint {i : Nat} (hi : i < merged.length) :
      i < bisectLeft (merged.map Prod.snd) x.1 ↔ merged[i].2 < x.1 := by
    have hi' : i < (merged.map Prod.snd).length := (length_map Prod.snd).symm ▸ hi
    have := lt_lowerBound_iff (k := x.1) hends hi'
    rwa [getElem_map] at this
  unfold meetsAny
  rw [getElem?_map]
  constructor
  · intro h
    cases hat : merged[bisectLeft (merged.map Prod.snd) x.1]? with
    | none =>
      rw [hat] at h
      cases h
    | some y =>
      rw [hat] at h
      obtain ⟨hlt, hy⟩ := List.getElem?_eq_some_iff.mp hat
      refine ⟨y, mem_of_getElem? hat, ?_, of_decide_eq_true h⟩
      rw [← hy, ← not_lt, ← hpoint hlt]
      exact lt_irrefl _
  · rintro ⟨y, hy, hend, hstart⟩
    obtain ⟨i, hi, rfl⟩ := mem_iff_getElem.mp hy
    have hle : bisectLeft (merged.map Prod.snd) x.1 ≤ i := by
      rw [← not_lt, hpoint hi, not_lt]
      exact hend
    rw [getElem?_eq_getElem (hle.trans_lt hi)]
    refine decide_eq_true ?_
    rcases hle.eq_or_lt with heq | hlt
    · simpa only [heq] using hstart
    · -- an interval before one that starts in time starts in time
      have hbefore := pairwise_iff_getElem.mp hapart _ i (hlt.trans hi) hi hlt
      exact ((hproper _ (getElem_mem (hlt.trans hi))).trans hbefore.le).trans hstart

/-- **Searching the merged intervals** is testing every interval of the list. -/
theorem meetsAny_merge_iff (hsorted : xs.Pairwise fun x y ↦ x.1 ≤ y.1)
    (hproper : ∀ x ∈ xs, x.1 ≤ x.2)
    (hx : x.1 ≤ x.2) : meetsAny (merge xs) x = true ↔ ∃ y ∈ xs, Meets x y := by
  have h := merges_merge hsorted hproper
  rw [meetsAny_iff h.proper h.apart, h.meets x hx]

end Qros.Lib.Intervals
