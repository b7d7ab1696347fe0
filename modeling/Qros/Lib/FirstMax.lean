import Mathlib.Data.List.MinMax

/-!
# The first greatest element

`List.argmax` takes the first of the greatest elements.  It stays the first when
others are removed (`argmax_filter`).

`maxOf` is the greatest value of a function.  `maxOf_eq_iff` says when a function that is nowhere
greater has the same greatest value.
-/

universe u v

namespace Qros.Lib

open List

section FirstMax

variable {α : Type u} {κ : Type v} [LinearOrder κ] {key : α → κ}

theorem argmax_filter {p : α → Bool} {l : List α} {m : α} (h : l.argmax key = some m)
    (hp : p m = true) : (l.filter p).argmax key = some m := by
  induction l using reverseRecOn generalizing m with
  | nil => cases h
  | append_singleton l a ih =>
    rw [argmax_concat] at h
    rw [filter_append]
    cases hl : l.argmax key with
    | none =>
      rw [hl] at h
      obtain rfl : a = m := Option.some.inj h
      obtain rfl : l = [] := argmax_eq_none.mp hl
      rw [filter_cons_of_pos hp]
      rfl
    | some c =>
      rw [hl] at h
      dsimp only at h
      split at h
      · rename_i hlt
        obtain rfl : a = m := Option.some.inj h
        rw [filter_cons_of_pos hp, filter_nil, argmax_concat]
        cases hf : (l.filter p).argmax key with
        | none => rfl
        | some c' =>
          have hmem : c' ∈ l := (mem_filter.mp (argmax_mem hf)).1
          exact if_pos ((le_of_mem_argmax hmem hl).trans_lt hlt)
      · rename_i hlt
        obtain rfl : c = m := Option.some.inj h
        have hfirst := ih hl hp
        cases ha : p a with
        | true =>
          rw [filter_cons_of_pos ha, filter_nil, argmax_concat, hfirst]
          exact if_neg hlt
        | false =>
          rw [filter_cons_of_neg (by rw [ha]; exact Bool.false_ne_true),
            filter_nil, append_nil]
          exact hfirst

/-- Only the keys of the elements matter. -/
theorem argmax_congr {key' : α → κ} {l : List α} (h : ∀ a ∈ l, key a = key' a) :
    l.argmax key = l.argmax key' := by
  induction l using reverseRecOn with
  | nil => rfl
  | append_singleton l a ih =>
    have hl : l.argmax key = l.argmax key' := ih fun b hb ↦ h b (mem_append_left _ hb)
    rw [argmax_concat, argmax_concat, hl]
    cases hc : l.argmax key' with
    | none => rfl
    | some c =>
      have hc' := h c (mem_append_left _ (argmax_mem hc))
      have ha := h a (mem_append_right _ (mem_singleton_self a))
      dsimp only
      rw [hc', ha]

end FirstMax

section MaxOf

variable {α : Type u} {f g : α → Nat} {ds : List α} {d : α}

/-- The greatest value of a function on a list, or zero. -/
def maxOf (f : α → Nat) (ds : List α) : Nat := ds.foldl (fun m d ↦ max m (f d)) 0

theorem maxOf_concat : maxOf f (ds ++ [d]) = max (maxOf f ds) (f d) := by
  rw [maxOf, foldl_append]
  rfl

theorem le_maxOf (h : d ∈ ds) : f d ≤ maxOf f ds := by
  induction ds using reverseRecOn with
  | nil => cases h
  | append_singleton ds d' ih =>
    rw [maxOf_concat]
    rcases mem_append.mp h with h | h
    · exact (ih h).trans (Nat.le_max_left _ _)
    · rw [mem_singleton.mp h]
      exact Nat.le_max_right _ _

theorem exists_eq_maxOf (hne : ds ≠ []) : ∃ d ∈ ds, maxOf f ds = f d := by
  induction ds using reverseRecOn with
  | nil => exact absurd rfl hne
  | append_singleton ds d ih =>
    rw [maxOf_concat]
    by_cases hle : maxOf f ds ≤ f d
    · exact ⟨d, mem_append_right _ (mem_singleton_self d), Nat.max_eq_right hle⟩
    · have hnil : ds ≠ [] := by
        rintro rfl
        exact hle (Nat.zero_le _)
      obtain ⟨d', hd', heq⟩ := ih hnil
      refine ⟨d', mem_append_left _ hd', ?_⟩
      rw [Nat.max_eq_left (Nat.le_of_not_le hle), heq]

/-- A function that is nowhere greater has the same greatest value where it meets the other one at
one of its greatest values. -/
theorem maxOf_eq_iff (hle : ∀ d ∈ ds, g d ≤ f d) :
    maxOf f ds = maxOf g ds ↔ ds = [] ∨ ∃ d ∈ ds, (∀ d' ∈ ds, f d' ≤ f d) ∧ g d = f d := by
  constructor
  · intro heq
    by_cases hnil : ds = []
    · exact .inl hnil
    · obtain ⟨d, hd, hmax⟩ := exists_eq_maxOf (f := g) hnil
      have hfd : f d ≤ g d := hmax ▸ heq ▸ le_maxOf hd
      have hgd : g d = f d := Nat.le_antisymm (hle d hd) hfd
      refine .inr ⟨d, hd, fun d' hd' ↦ ?_, hgd⟩
      rw [← hgd, ← hmax, ← heq]
      exact le_maxOf hd'
  · rintro (rfl | ⟨d, hd, hmax, heq⟩)
    · rfl
    · obtain ⟨d₁, hd₁, h₁⟩ := exists_eq_maxOf (f := f) (ne_nil_of_mem hd)
      obtain ⟨d₂, hd₂, h₂⟩ := exists_eq_maxOf (f := g) (ne_nil_of_mem hd)
      refine Nat.le_antisymm ?_ ?_
      · rw [h₁]
        exact (hmax d₁ hd₁).trans (heq ▸ le_maxOf hd)
      · rw [h₂]
        exact (hle d₂ hd₂).trans (le_maxOf hd₂)

end MaxOf

end Qros.Lib
