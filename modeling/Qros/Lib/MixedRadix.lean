import Mathlib.Algebra.BigOperators.Group.List.Basic
import Mathlib.Algebra.Order.Group.Nat
import Mathlib.Data.List.GetD
import Mathlib.Data.List.Nodup
import Mathlib.Data.Set.Function

/-!
# Numbering the choices from lists

`choices d ls n` takes one entry of each list, as the digits of `n` say when the first list is
the one that varies fastest.  `IsChoice` are the lists that are made so.

Every choice has a number below the product of the lengths.  No other number below it gives the
same choice just when no list has an entry twice.
-/

universe u

namespace Qros.Lib

open List

variable {α : Type u} (d : α)

def choices : List (List α) → Nat → List α
  | [], _ => []
  | l :: ls, n => l.getD (n % l.length) d :: choices ls (n / l.length)

/-- How many numbers there are. -/
def choiceCount (ls : List (List α)) : Nat := (ls.map List.length).prod

def IsChoice (xs : List α) (ls : List (List α)) : Prop := List.Forall₂ (· ∈ ·) xs ls

variable {ls : List (List α)} {l : List α} {d}

@[simp] theorem choiceCount_cons : choiceCount (l :: ls) = l.length * choiceCount ls := by
  rw [choiceCount, map_cons, prod_cons, choiceCount]

theorem choiceCount_pos (h : ∀ l ∈ ls, l ≠ []) : 0 < choiceCount ls := by
  induction ls with
  | nil => exact Nat.one_pos
  | cons l ls ih =>
    rw [choiceCount_cons]
    exact Nat.mul_pos (length_pos_of_ne_nil (h l mem_cons_self))
      (ih fun l hl ↦ h l (mem_cons_of_mem _ hl))

theorem getD_mod_mem (h : l ≠ []) (n : Nat) : l.getD (n % l.length) d ∈ l := by
  have hlt : n % l.length < l.length := Nat.mod_lt n (length_pos_of_ne_nil h)
  rw [getD_eq_getElem _ _ hlt]
  exact getElem_mem hlt

theorem choices_digit {a : Nat} (ha : a < l.length) (n : Nat) :
    choices d (l :: ls) (a + l.length * n) = l.getD a d :: choices d ls n := by
  rw [choices, Nat.add_mul_mod_self_left, Nat.mod_eq_of_lt ha, Nat.add_mul_div_left _ _
    (Nat.zero_lt_of_lt ha), Nat.div_eq_of_lt ha, Nat.zero_add]

theorem digit_lt {a n : Nat} (ha : a < l.length) (hn : n < choiceCount ls) :
    a + l.length * n < choiceCount (l :: ls) := by
  rw [choiceCount_cons]
  calc a + l.length * n < l.length + l.length * n := Nat.add_lt_add_right ha _
    _ = l.length * (n + 1) := by rw [Nat.mul_succ, Nat.add_comm]
    _ ≤ l.length * choiceCount ls := Nat.mul_le_mul_left _ hn

theorem isChoice_choices (h : ∀ l ∈ ls, l ≠ []) (n : Nat) : IsChoice (choices d ls n) ls := by
  induction ls generalizing n with
  | nil => exact .nil
  | cons l ls ih =>
    exact .cons (getD_mod_mem (h l mem_cons_self) n)
      (ih (fun l hl ↦ h l (mem_cons_of_mem _ hl)) _)

theorem exists_choices_eq {xs : List α} (h : IsChoice xs ls) :
    ∃ n < choiceCount ls, choices d ls n = xs := by
  induction h with
  | nil => exact ⟨0, Nat.one_pos, rfl⟩
  | cons hx _ ih =>
    obtain ⟨n, hn, rfl⟩ := ih
    obtain ⟨a, ha, rfl⟩ := getElem_of_mem hx
    exact ⟨_, digit_lt ha hn, by rw [choices_digit ha, getD_eq_getElem _ _ ha]⟩

theorem choices_injOn (h : ∀ l ∈ ls, l.Nodup) :
    Set.InjOn (choices d ls) (Set.Iio (choiceCount ls)) := by
  induction ls with
  | nil =>
    intro m hm n hn _
    rw [Set.mem_Iio, choiceCount, map_nil, prod_nil, Nat.lt_one_iff] at hm hn
    rw [hm, hn]
  | cons l ls ih =>
    intro m hm n hn heq
    rw [Set.mem_Iio, choiceCount_cons] at hm hn
    have hpos : 0 < l.length := Nat.pos_of_mul_pos_right (Nat.zero_lt_of_lt hm)
    rw [choices, choices] at heq
    obtain ⟨hdigit, hrest⟩ := List.cons.inj heq
    have hmod : m % l.length = n % l.length := by
      have hmlt := Nat.mod_lt m hpos
      have hnlt := Nat.mod_lt n hpos
      rw [getD_eq_getElem _ _ hmlt, getD_eq_getElem _ _ hnlt] at hdigit
      exact (h l mem_cons_self).getElem_inj_iff.mp hdigit
    have hdiv : m / l.length = n / l.length :=
      ih (fun l hl ↦ h l (mem_cons_of_mem _ hl)) (Nat.div_lt_of_lt_mul hm)
        (Nat.div_lt_of_lt_mul hn) hrest
    rw [← Nat.div_add_mod m l.length, hmod, hdiv, Nat.div_add_mod]

/-- With an entry that a list has twice, two numbers give one choice. -/
theorem nodup_of_choices_injOn (hne : ∀ l ∈ ls, l ≠ [])
    (h : Set.InjOn (choices d ls) (Set.Iio (choiceCount ls))) : ∀ l ∈ ls, l.Nodup := by
  induction ls with
  | nil => exact fun l hl ↦ absurd hl not_mem_nil
  | cons l ls ih =>
    have hpos : 0 < l.length := length_pos_of_ne_nil (hne l mem_cons_self)
    have hne' := fun l' hl' ↦ hne l' (mem_cons_of_mem l hl')
    refine forall_mem_cons.mpr ⟨?_, ih hne' ?_⟩
    · refine nodup_iff_injective_get.mpr fun a b hab ↦ Fin.ext ?_
      have hdigit := h (digit_lt a.isLt (choiceCount_pos hne'))
        (digit_lt b.isLt (choiceCount_pos hne')) (by
          rw [choices_digit a.isLt, choices_digit b.isLt, getD_eq_getElem _ _ a.isLt,
            getD_eq_getElem _ _ b.isLt]
          exact congrArg (· :: _) hab)
      exact hdigit
    · intro m hm n hn heq
      have hdigits := h (digit_lt hpos hm) (digit_lt hpos hn) (by
        rw [choices_digit hpos, choices_digit hpos, heq])
      exact Nat.eq_of_mul_eq_mul_left hpos (Nat.add_left_cancel hdigits)

end Qros.Lib
