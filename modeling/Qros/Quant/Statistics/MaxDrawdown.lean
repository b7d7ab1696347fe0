import Mathlib.Tactic.Positivity
import Qros.Lib.Dips
import Qros.Quant.Statistics.Returns

/-!
# What the deepest drawdown reports

On a positive curve the percentage of `max_drawdown` is the greatest fall from an earlier point, and
the pair of indices attains it.  The loop takes the absolute fall from the last peak instead of the
one of the pair, and the recovery from the first fall that recovers; `maxDrawdown_reported_iff` says
for which curves all of them are those of the deepest fall.
-/

universe u

set_option linter.unusedSectionVars false

namespace Qros.Quant.RiskMetrics

open Qros.Lib

variable {F : Type u}

/-! ## The body of the loop in three steps -/

section

variable [Zero F] [NatCast F] [Sub F] [Mul F] [Div F] [LT F] [LE F] [DecidableLT F] [DecidableLE F]

def valueAt (curve : List F) (i : Nat) : F := curve.getD i 0

/-- The peak moves. -/
def DrawdownLoop.raise (e : F) (i : Nat) (s : DrawdownLoop F) : DrawdownLoop F :=
  if s.peak < e then { s with peak := e, peakIdx := i } else s

/-- A deeper fall replaces the pair. -/
def DrawdownLoop.deepen (e : F) (i : Nat) (s : DrawdownLoop F) : DrawdownLoop F :=
  if s.maxDd < (s.peak - e) / s.peak then
    { s with
      maxDd := (s.peak - e) / s.peak
      troughIdx := i
      dd := { s.dd with peakIndex := s.peakIdx, troughIndex := i } }
  else s

/-- The first recovery is recorded. -/
def DrawdownLoop.recover (e : F) (i : Nat) (s : DrawdownLoop F) : DrawdownLoop F :=
  if s.peak ≤ e ∧ 0 < s.maxDd ∧ s.dd.recoveryIndex = 0 then
    { s with dd := { s.dd with recoveryIndex := i } }
  else s

theorem DrawdownLoop.step_eq (curve : List F) (s : DrawdownLoop F) (i : Nat) : s.step curve i =
    ((s.raise (valueAt curve i) i).deepen (valueAt curve i) i).recover (valueAt curve i) i := rfl

end

/-! ## Falls -/

section

variable [Field F] [LinearOrder F] {e : Nat → F} {n i j k : Nat}

/-- The relative fall from the running peak. -/
def fall (e : Nat → F) (j : Nat) : F := (partialSups e j - e j) / partialSups e j

/-- There was a fall before. -/
def Fallen (e : Nat → F) (i : Nat) : Prop := ∃ j < i, Below e j

def Positive (e : Nat → F) (n : Nat) : Prop := ∀ i < n, 0 < e i

theorem Positive.peak_pos (h : Positive e n) (hn : 0 < n) (j : Nat) : 0 < partialSups e j :=
  lt_of_lt_of_le (h 0 hn) (le_partialSups_of_le e (Nat.zero_le j))

variable [IsStrictOrderedRing F]

theorem fall_eq_zero (h : AtPeak e j) : fall e j = 0 := by
  unfold AtPeak at h
  rw [fall, h, sub_self, zero_div]

theorem Positive.fall_pos_iff (h : Positive e n) (hn : 0 < n) : 0 < fall e j ↔ Below e j := by
  rw [fall, div_pos_iff_of_pos_right (h.peak_pos hn j), sub_pos]
  rfl

theorem Positive.fall_nonneg (h : Positive e n) (hn : 0 < n) : 0 ≤ fall e j :=
  div_nonneg (sub_nonneg.mpr (le_partialSups e j)) (le_of_lt (h.peak_pos hn j))

theorem Positive.fall_le (h : Positive e n) (hij : i ≤ j) (hj : j < n) :
    (e i - e j) / e i ≤ fall e j := by
  have hi : 0 < e i := h i (lt_of_le_of_lt hij hj)
  have hpeak : 0 < partialSups e j := h.peak_pos (Nat.zero_lt_of_lt hj) j
  have hquot : e j / partialSups e j ≤ e j / e i :=
    div_le_div_of_nonneg_left (le_of_lt (h j hj)) hi (le_partialSups_of_le e hij)
  rw [fall, sub_div, sub_div, div_self hi.ne', div_self hpeak.ne']
  exact sub_le_sub_left hquot 1

end

/-! ## The loop -/

section

variable [Field F] [LinearOrder F]

structure PeakInv (e : Nat → F) (k : Nat) (s : DrawdownLoop F) : Prop where
  peak : s.peak = partialSups e k
  le : s.peakIdx ≤ k
  attained : e s.peakIdx = partialSups e k

/-- No bar is below the peak. -/
structure Flat (e : Nat → F) (k : Nat) (s : DrawdownLoop F) : Prop where
  atPeak : ∀ j ≤ k, AtPeak e j
  maxDd : s.maxDd = 0
  troughIdx : s.troughIdx = 0
  peakIndex : s.dd.peakIndex = 0
  troughIndex : s.dd.troughIndex = 0

structure Deepest (e : Nat → F) (k : Nat) (s : DrawdownLoop F) : Prop where
  troughIdx : s.troughIdx = s.dd.troughIndex
  le : s.dd.troughIndex ≤ k
  below : Below e s.dd.troughIndex
  maxDd : s.maxDd = fall e s.dd.troughIndex
  max : ∀ j ≤ k, fall e j ≤ fall e s.dd.troughIndex
  first : ∀ j < s.dd.troughIndex, fall e j < fall e s.dd.troughIndex
  peak_le : s.dd.peakIndex ≤ s.dd.troughIndex
  peak : e s.dd.peakIndex = partialSups e s.dd.troughIndex

structure Recovers (e : Nat → F) (r : Nat) : Prop where
  atPeak : AtPeak e r
  fallen : Fallen e r
  first : ∀ i < r, AtPeak e i → ¬ Fallen e i

/-- The recovery that is recorded after bar `k`. -/
def RecoveryInv (e : Nat → F) (k r : Nat) : Prop :=
  (r = 0 ∧ ∀ i ≤ k, AtPeak e i → ¬ Fallen e i) ∨ (Recovers e r ∧ r ≤ k)

structure DrawdownInv (e : Nat → F) (k : Nat) (s : DrawdownLoop F) : Prop where
  peak : PeakInv e k s
  depth : Flat e k s ∨ Deepest e k s
  recovery : RecoveryInv e k s.dd.recoveryIndex

variable {e : Nat → F} {n k r : Nat} {s : DrawdownLoop F}

theorem PeakInv.raise (h : PeakInv e k s) : PeakInv e (k + 1) (s.raise (e (k + 1)) (k + 1)) := by
  obtain ⟨hpeak, hle, hattained⟩ := h
  unfold DrawdownLoop.raise
  split
  · rename_i hlt
    have hsup : partialSups e (k + 1) = e (k + 1) := by
      rw [partialSups_add_one, ← hpeak]
      exact sup_eq_right.mpr (le_of_lt hlt)
    exact ⟨hsup.symm, le_refl _, hsup.symm⟩
  · rename_i hlt
    have hsup : partialSups e (k + 1) = partialSups e k := by
      rw [partialSups_add_one, ← hpeak]
      exact sup_eq_left.mpr (not_lt.mp hlt)
    exact ⟨hpeak.trans hsup.symm, Nat.le_succ_of_le hle, hattained.trans hsup.symm⟩

theorem depth_raise {x : F} {i : Nat} (h : Flat e k s ∨ Deepest e k s) :
    Flat e k (s.raise x i) ∨ Deepest e k (s.raise x i) := by
  unfold DrawdownLoop.raise
  split
  · refine h.imp ?_ ?_
    · exact fun h ↦ ⟨h.atPeak, h.maxDd, h.troughIdx, h.peakIndex, h.troughIndex⟩
    · exact fun h ↦ ⟨h.troughIdx, h.le, h.below, h.maxDd, h.max, h.first, h.peak_le, h.peak⟩
  · exact h

theorem recoveryIndex_raise (e : F) (i : Nat) (s : DrawdownLoop F) :
    (s.raise e i).dd.recoveryIndex = s.dd.recoveryIndex := by
  unfold DrawdownLoop.raise
  split <;> rfl

theorem PeakInv.deepen {x : F} {i : Nat} (h : PeakInv e k s) : PeakInv e k (s.deepen x i) := by
  unfold DrawdownLoop.deepen
  split <;> exact ⟨h.peak, h.le, h.attained⟩

theorem recoveryIndex_deepen (e : F) (i : Nat) (s : DrawdownLoop F) :
    (s.deepen e i).dd.recoveryIndex = s.dd.recoveryIndex := by
  unfold DrawdownLoop.deepen
  split <;> rfl

variable [IsStrictOrderedRing F]

theorem depth_deepen (hpos : Positive e n) (hk : k + 1 < n) (hpeak : PeakInv e (k + 1) s)
    (h : Flat e k s ∨ Deepest e k s) :
    Flat e (k + 1) (s.deepen (e (k + 1)) (k + 1)) ∨
      Deepest e (k + 1) (s.deepen (e (k + 1)) (k + 1)) := by
  have hn : 0 < n := Nat.zero_lt_of_lt hk
  have hfall : (s.peak - e (k + 1)) / s.peak = fall e (k + 1) := by rw [hpeak.peak]; rfl
  have hmax : ∀ j ≤ k, fall e j ≤ s.maxDd := by
    intro j hj
    rcases h with h | h
    · rw [h.maxDd, fall_eq_zero (h.atPeak j hj)]
    · exact (h.max j hj).trans (le_of_eq h.maxDd.symm)
  have hnonneg : 0 ≤ s.maxDd := (hpos.fall_nonneg hn).trans (hmax 0 (Nat.zero_le k))
  unfold DrawdownLoop.deepen
  rw [hfall]
  split
  · rename_i hlt
    refine .inr ⟨rfl, le_refl _, (hpos.fall_pos_iff hn).mp (hnonneg.trans_lt hlt), rfl, ?_, ?_,
      hpeak.le, hpeak.attained⟩
    · intro j hj
      rcases Nat.le_succ_iff.mp hj with hj | rfl
      · exact (hmax j hj).trans (le_of_lt hlt)
      · exact le_refl _
    · exact fun j hj ↦ lt_of_le_of_lt (hmax j (Nat.le_of_lt_succ hj)) hlt
  · rename_i hle
    have hle := not_lt.mp hle
    rcases h with h | h
    · refine .inl ⟨?_, h.maxDd, h.troughIdx, h.peakIndex, h.troughIndex⟩
      intro j hj
      rcases Nat.le_succ_iff.mp hj with hj | rfl
      · exact h.atPeak j hj
      · refine not_below_iff.mp fun hbelow ↦ ?_
        exact absurd ((hpos.fall_pos_iff hn).mpr hbelow) (not_lt.mpr (hle.trans (le_of_eq h.maxDd)))
    · refine .inr ⟨h.troughIdx, Nat.le_succ_of_le h.le, h.below, h.maxDd, ?_, h.first, h.peak_le,
        h.peak⟩
      intro j hj
      rcases Nat.le_succ_iff.mp hj with hj | rfl
      · exact h.max j hj
      · exact hle.trans (le_of_eq h.maxDd)

theorem maxDd_pos_iff (hpos : Positive e n) (hn : 0 < n) (h : Flat e k s ∨ Deepest e k s) :
    0 < s.maxDd ↔ ∃ j ≤ k, Below e j := by
  constructor
  · intro hlt
    rcases h with h | h
    · exact absurd h.maxDd hlt.ne'
    · exact ⟨_, h.le, h.below⟩
  · rintro ⟨j, hj, hbelow⟩
    rcases h with h | h
    · exact absurd hbelow (not_below_iff.mpr (h.atPeak j hj))
    · rw [h.maxDd]
      exact ((hpos.fall_pos_iff hn).mpr hbelow).trans_le (h.max j hj)

theorem RecoveryInv.recover (hpos : Positive e n) (hn : 0 < n) (hpeak : PeakInv e (k + 1) s)
    (hdepth : Flat e (k + 1) s ∨ Deepest e (k + 1) s) (h : RecoveryInv e k s.dd.recoveryIndex) :
    RecoveryInv e (k + 1) (s.recover (e (k + 1)) (k + 1)).dd.recoveryIndex := by
  have hback : s.peak ≤ e (k + 1) ↔ AtPeak e (k + 1) := by
    rw [hpeak.peak]
    exact ⟨fun h ↦ le_antisymm h (le_partialSups e _), fun h ↦ le_of_eq h⟩
  have hfallen : AtPeak e (k + 1) → (0 < s.maxDd ↔ Fallen e (k + 1)) := by
    intro hat
    rw [maxDd_pos_iff hpos hn hdepth]
    constructor
    · rintro ⟨j, hj, hbelow⟩
      rcases Nat.le_succ_iff.mp hj with hj | rfl
      · exact ⟨j, Nat.lt_succ_of_le hj, hbelow⟩
      · exact absurd hbelow (not_below_iff.mpr hat)
    · rintro ⟨j, hj, hbelow⟩
      exact ⟨j, le_of_lt hj, hbelow⟩
  unfold DrawdownLoop.recover
  split
  · rename_i hcond
    obtain ⟨hle, hdd, hzero⟩ := hcond
    have hat := hback.mp hle
    rcases h with ⟨-, hfirst⟩ | ⟨hrec, -⟩
    · exact .inr ⟨⟨hat, (hfallen hat).mp hdd, fun i hi ↦ hfirst i (Nat.le_of_lt_succ hi)⟩, le_refl _⟩
    · obtain ⟨j, hj, -⟩ := hrec.fallen
      rw [hzero] at hj
      exact absurd hj (Nat.not_lt_zero j)
  · rename_i hcond
    rcases h with ⟨hzero, hfirst⟩ | ⟨hrec, hle⟩
    · refine .inl ⟨hzero, fun i hi hat hfall ↦ ?_⟩
      rcases Nat.le_succ_iff.mp hi with hi | rfl
      · exact hfirst i hi hat hfall
      · exact hcond ⟨hback.mpr hat, (hfallen hat).mpr hfall, hzero⟩
    · exact .inr ⟨hrec, Nat.le_succ_of_le hle⟩

theorem DrawdownInv.of_recover {x : F} {i : Nat} (hpeak : PeakInv e k s)
    (hdepth : Flat e k s ∨ Deepest e k s)
    (hrecovery : RecoveryInv e k (s.recover x i).dd.recoveryIndex) :
    DrawdownInv e k (s.recover x i) := by
  unfold DrawdownLoop.recover at hrecovery ⊢
  split
  · rename_i hcond
    rw [if_pos hcond] at hrecovery
    refine ⟨⟨hpeak.peak, hpeak.le, hpeak.attained⟩, hdepth.imp ?_ ?_, hrecovery⟩
    · exact fun h ↦ ⟨h.atPeak, h.maxDd, h.troughIdx, h.peakIndex, h.troughIndex⟩
    · exact fun h ↦ ⟨h.troughIdx, h.le, h.below, h.maxDd, h.max, h.first, h.peak_le, h.peak⟩
  · rename_i hcond
    rw [if_neg hcond] at hrecovery
    exact ⟨hpeak, hdepth, hrecovery⟩

theorem DrawdownInv.step {curve : List F} (hpos : Positive (valueAt curve) n) (hk : k + 1 < n)
    (h : DrawdownInv (valueAt curve) k s) :
    DrawdownInv (valueAt curve) (k + 1) (s.step curve (k + 1)) := by
  obtain ⟨hpeak, hdepth, hrecovery⟩ := h
  have hraised := hpeak.raise
  have hdeep := depth_deepen hpos hk hraised (depth_raise hdepth)
  rw [← recoveryIndex_raise (valueAt curve (k + 1)) (k + 1),
    ← recoveryIndex_deepen (valueAt curve (k + 1)) (k + 1)] at hrecovery
  rw [DrawdownLoop.step_eq]
  exact .of_recover hraised.deepen hdeep
    (hrecovery.recover hpos (Nat.zero_lt_of_lt hk) hraised.deepen hdeep)

theorem DrawdownInv.after {curve : List F} {first : F} (hfirst : first = valueAt curve 0)
    (hpos : Positive (valueAt curve) n) (hk : k < n) :
    DrawdownInv (valueAt curve) k
      ((List.range' 1 k).foldl (DrawdownLoop.step curve) (.initial first)) := by
  induction k with
  | zero =>
    refine ⟨⟨hfirst, le_refl 0, rfl⟩, .inl ⟨?_, rfl, rfl, rfl, rfl⟩, .inl ⟨rfl, ?_⟩⟩
    · intro j hj
      rw [Nat.le_zero.mp hj]
      exact atPeak_zero
    · rintro i hi - ⟨j, hj, -⟩
      exact absurd (hj.trans_le hi) (Nat.not_lt_zero j)
  | succ k ih =>
    rw [List.range'_1_concat, List.foldl_append, Nat.add_comm 1 k]
    exact (ih (Nat.lt_of_succ_lt hk)).step hpos hk

end

/-! ## What is reported -/

section

variable [Field F] [LinearOrder F]

/-- The first index behind `t` that is back at the value at `p`, or zero. -/
def Regained (e : Nat → F) (n p t r : Nat) : Prop :=
  (t < r ∧ r < n ∧ e p ≤ e r ∧ ∀ i, t < i → i < r → e i < e p) ∨
    (r = 0 ∧ ∀ i, t < i → i < n → e i < e p)

/-- Every member is that of the greatest fall. -/
structure Reported (e : Nat → F) (n : Nat) (dd : DrawdownInfo F) : Prop where
  greatest : IsGreatest {x | ∃ i j, i ≤ j ∧ j < n ∧ x = (e i - e j) / e i} (dd.maxDrawdownPct / 100)
  ordered : dd.peakIndex ≤ dd.troughIndex ∧ dd.troughIndex < n
  attained : (e dd.peakIndex - e dd.troughIndex) / e dd.peakIndex = dd.maxDrawdownPct / 100
  absolute : dd.maxDrawdown = e dd.peakIndex - e dd.troughIndex
  recovery : Regained e n dd.peakIndex dd.troughIndex dd.recoveryIndex

/-- The first deepest fall is from the highest point of the whole curve, and no earlier fall has
recovered before it. -/
def DeepestStands (e : Nat → F) (n : Nat) : Prop :=
  ∃ t < n, Below e t ∧ (∀ j < n, fall e j ≤ fall e t) ∧ (∀ j < t, fall e j < fall e t) ∧
    (∀ i < n, e i ≤ partialSups e t) ∧ ∀ i < t, Fallen e i → Below e i

/-- What `max_drawdown` returns, from the last state of its loop. -/
def DrawdownLoop.info (curve : List F) (s : DrawdownLoop F) : DrawdownInfo F :=
  { s.dd with maxDrawdown := s.peak - valueAt curve s.troughIdx, maxDrawdownPct := s.maxDd * 100 }

variable {e : Nat → F} {curve : List F} {n k t : Nat} {s : DrawdownLoop F}

variable [IsStrictOrderedRing F]

theorem DrawdownLoop.info_pct (curve : List F) (s : DrawdownLoop F) :
    (s.info curve).maxDrawdownPct / 100 = s.maxDd :=
  mul_div_cancel_right₀ s.maxDd (by norm_num)

theorem isGreatest_fall {p : Nat} (hpos : Positive e n) (ht : t < n) (hp : p ≤ t)
    (hpeak : e p = partialSups e t) (hmax : ∀ j < n, fall e j ≤ fall e t) :
    IsGreatest {x | ∃ i j, i ≤ j ∧ j < n ∧ x = (e i - e j) / e i} (fall e t) := by
  refine ⟨⟨p, t, hp, ht, ?_⟩, ?_⟩
  · rw [hpeak]
    rfl
  · rintro x ⟨i, j, hij, hj, rfl⟩
    exact (hpos.fall_le hij hj).trans (hmax j hj)

theorem Flat.reported_iff (hpos : Positive (valueAt curve) n) (hn : k + 1 = n)
    (hpeak : PeakInv (valueAt curve) k s) (h : Flat (valueAt curve) k s)
    (hrecovery : RecoveryInv (valueAt curve) k s.dd.recoveryIndex) :
    Reported (valueAt curve) n (s.info curve) ↔ n = 1 := by
  have hzero : s.dd.recoveryIndex = 0 := by
    rcases hrecovery with ⟨hzero, -⟩ | ⟨hrec, hle⟩
    · exact hzero
    · obtain ⟨j, hj, hbelow⟩ := hrec.fallen
      exact absurd hbelow (not_below_iff.mpr (h.atPeak j ((le_of_lt hj).trans hle)))
  have hsame : (s.info curve).peakIndex = 0 ∧ (s.info curve).troughIndex = 0 ∧
      (s.info curve).recoveryIndex = 0 := ⟨h.peakIndex, h.troughIndex, hzero⟩
  constructor
  · rintro ⟨-, -, -, -, hregained⟩
    by_contra hne
    have hone : 1 < n := by omega
    have hback : valueAt curve 0 ≤ valueAt curve 1 :=
      atPeak_iff.mp (h.atPeak 1 (by omega)) 0 (Nat.zero_le 1)
    rw [hsame.1, hsame.2.1, hsame.2.2] at hregained
    rcases hregained with ⟨hlt, -⟩ | ⟨-, hall⟩
    · exact absurd hlt (Nat.lt_irrefl 0)
    · exact absurd hback (not_le.mpr (hall 1 Nat.zero_lt_one hone))
  · rintro rfl
    obtain rfl : k = 0 := Nat.succ_injective hn
    have hfall : s.maxDd = fall (valueAt curve) 0 := by
      rw [h.maxDd, fall_eq_zero (h.atPeak 0 (le_refl 0))]
    have habs : (s.info curve).maxDrawdown = 0 := by
      show s.peak - valueAt curve s.troughIdx = 0
      rw [hpeak.peak, h.troughIdx, partialSups_zero, sub_self]
    refine ⟨?_, ?_, ?_, ?_, ?_⟩
    · rw [DrawdownLoop.info_pct, hfall]
      refine isGreatest_fall (p := 0) hpos Nat.zero_lt_one (le_refl 0) rfl fun j hj ↦ ?_
      rw [Nat.lt_one_iff.mp hj]
    · rw [hsame.1, hsame.2.1]
      exact ⟨le_refl 0, Nat.zero_lt_one⟩
    · rw [hsame.1, hsame.2.1, DrawdownLoop.info_pct, h.maxDd, sub_self, zero_div]
    · rw [hsame.1, hsame.2.1, habs, sub_self]
    · rw [hsame.1, hsame.2.1, hsame.2.2]
      exact .inr ⟨rfl, fun i hi hi' ↦ by omega⟩

theorem Deepest.eq_of_first {t' : Nat} (h : Deepest e k s) (hn : k + 1 = n) (ht : t' < n)
    (hmax : ∀ j < n, fall e j ≤ fall e t') (hfirst : ∀ j < t', fall e j < fall e t') :
    t' = s.dd.troughIndex := by
  rcases lt_trichotomy t' s.dd.troughIndex with hlt | heq | hlt
  · exact absurd (hmax _ (by have := h.le; omega)) (not_le.mpr (h.first t' hlt))
  · exact heq
  · exact absurd (h.max t' (by omega)) (not_le.mpr (hfirst _ hlt))

theorem atPeak_iff_of_stands (hstands : ∀ i < n, e i ≤ partialSups e t) {i : Nat} (hi : i < n)
    (hti : t ≤ i) : AtPeak e i ↔ partialSups e t ≤ e i := by
  constructor
  · intro hat
    unfold AtPeak at hat
    rw [← hat]
    exact (partialSups e).monotone hti
  · intro hle
    refine atPeak_iff.mpr fun j hj ↦ (hstands j (lt_of_le_of_lt hj hi)).trans hle

theorem Deepest.regained_iff (h : Deepest e k s) (hn : k + 1 = n)
    (hstands : ∀ i < n, e i ≤ partialSups e s.dd.troughIndex)
    (hrecovery : RecoveryInv e k s.dd.recoveryIndex) :
    Regained e n s.dd.peakIndex s.dd.troughIndex s.dd.recoveryIndex ↔
      ∀ i < s.dd.troughIndex, Fallen e i → Below e i := by
  have hle := h.le
  have hfallen : ∀ i, s.dd.troughIndex < i → Fallen e i := fun i hi ↦ ⟨_, hi, h.below⟩
  have hnever : ∀ {i : Nat}, s.dd.troughIndex < i → i < n → ¬ AtPeak e i → e i < e s.dd.peakIndex := by
    intro i hti hi hat
    rw [h.peak]
    exact not_le.mp fun hge ↦ hat ((atPeak_iff_of_stands hstands hi (le_of_lt hti)).mpr hge)
  constructor
  · intro hregained i hi hfall
    refine lt_of_le_of_ne (le_partialSups e i) fun heq ↦ ?_
    have hat : AtPeak e i := heq.symm
    rcases hrecovery with ⟨-, hnone⟩ | ⟨hrec, -⟩
    · exact hnone i (by omega) hat hfall
    · rcases hregained with ⟨hlt, -⟩ | ⟨hzero, -⟩
      · exact hrec.first i (hi.trans hlt) hat hfall
      · obtain ⟨j, hj, -⟩ := hrec.fallen
        rw [hzero] at hj
        exact absurd hj (Nat.not_lt_zero j)
  · intro hbefore
    rcases hrecovery with ⟨hzero, hnone⟩ | ⟨hrec, hr⟩
    · refine .inr ⟨hzero, fun i hti hi ↦ hnever hti hi fun hat ↦ ?_⟩
      exact hnone i (by omega) hat (hfallen i hti)
    · have hlt : s.dd.troughIndex < s.dd.recoveryIndex := by
        rcases lt_trichotomy s.dd.recoveryIndex s.dd.troughIndex with hlt | heq | hlt
        · exact absurd (hbefore _ hlt hrec.fallen) (not_below_iff.mpr hrec.atPeak)
        · exact absurd h.below (not_below_iff.mpr (heq ▸ hrec.atPeak))
        · exact hlt
      have hr' : s.dd.recoveryIndex < n := by omega
      refine .inl ⟨hlt, hr', ?_, fun i hti hi ↦ hnever hti (hi.trans hr') fun hat ↦ ?_⟩
      · rw [h.peak]
        exact (atPeak_iff_of_stands hstands hr' (le_of_lt hlt)).mp hrec.atPeak
      · exact hrec.first i hi hat (hfallen i hti)

theorem Deepest.reported_iff (hpos : Positive (valueAt curve) n) (hn : k + 1 = n)
    (hpeak : PeakInv (valueAt curve) k s) (h : Deepest (valueAt curve) k s)
    (hrecovery : RecoveryInv (valueAt curve) k s.dd.recoveryIndex) :
    Reported (valueAt curve) n (s.info curve) ↔ DeepestStands (valueAt curve) n := by
  have ht : s.dd.troughIndex < n := by
    have := h.le
    omega
  have hmax : ∀ j < n, fall (valueAt curve) j ≤ fall (valueAt curve) s.dd.troughIndex :=
    fun j hj ↦ h.max j (by omega)
  have habs : (s.info curve).maxDrawdown =
      partialSups (valueAt curve) k - valueAt curve s.dd.troughIndex := by
    show s.peak - valueAt curve s.troughIdx = _
    rw [hpeak.peak, h.troughIdx]
  have hstands : (s.info curve).maxDrawdown =
      valueAt curve s.dd.peakIndex - valueAt curve s.dd.troughIndex ↔
        ∀ i < n, valueAt curve i ≤ partialSups (valueAt curve) s.dd.troughIndex := by
    rw [habs, h.peak, sub_left_inj]
    constructor
    · intro heq i hi
      rw [← heq]
      exact le_partialSups_of_le _ (by omega)
    · intro hall
      refine le_antisymm (partialSups_le _ k _ fun i hi ↦ hall i (by omega)) ?_
      exact (partialSups (valueAt curve)).monotone h.le
  constructor
  · intro hrep
    have hstand := hstands.mp hrep.absolute
    exact ⟨_, ht, h.below, hmax, h.first, hstand,
      (h.regained_iff hn hstand hrecovery).mp hrep.recovery⟩
  · rintro ⟨t', ht', -, hmax', hfirst', hstand, hbefore⟩
    obtain rfl : t' = s.dd.troughIndex := h.eq_of_first hn ht' hmax' hfirst'
    refine ⟨?_, ⟨h.peak_le, ht⟩, ?_, hstands.mpr hstand,
      (h.regained_iff hn hstand hrecovery).mpr hbefore⟩
    · rw [DrawdownLoop.info_pct, h.maxDd]
      exact isGreatest_fall hpos ht h.peak_le h.peak hmax
    · rw [DrawdownLoop.info_pct, h.maxDd]
      show (valueAt curve s.dd.peakIndex - valueAt curve s.dd.troughIndex) /
        valueAt curve s.dd.peakIndex = _
      rw [h.peak]
      rfl

/-- **When the drawdown is the true one.**  On a positive curve every member of what is reported is
that of the greatest fall just when the curve has one bar, or the first deepest fall is from the
highest point of the whole curve and no fall before it has recovered. -/
theorem maxDrawdown_reported_iff (curve : List F) (hne : curve ≠ []) (hpos : ∀ x ∈ curve, 0 < x) :
    (∃ dd, maxDrawdown curve = .ok dd ∧ Reported (valueAt curve) curve.length dd) ↔
      curve.length = 1 ∨ DeepestStands (valueAt curve) curve.length := by
  have hpositive : Positive (valueAt curve) curve.length := by
    intro i hi
    rw [valueAt, List.getD_eq_getElem?_getD, List.getElem?_eq_getElem hi]
    exact hpos _ (List.getElem_mem hi)
  obtain ⟨first, rest, rfl⟩ := List.exists_cons_of_ne_nil hne
  have hinv : DrawdownInv (valueAt (first :: rest)) rest.length
      ((List.range' 1 rest.length).foldl (DrawdownLoop.step (first :: rest)) (.initial first)) :=
    .after rfl hpositive (Nat.lt_succ_self rest.length)
  have heq : maxDrawdown (first :: rest) = .ok (DrawdownLoop.info (first :: rest)
      ((List.range' 1 rest.length).foldl (DrawdownLoop.step (first :: rest)) (.initial first))) := rfl
  generalize (List.range' 1 rest.length).foldl (DrawdownLoop.step (first :: rest))
    (.initial first) = s at hinv heq
  have hreported : (∃ dd, maxDrawdown (first :: rest) = .ok dd ∧
      Reported (valueAt (first :: rest)) (first :: rest).length dd) ↔
        Reported (valueAt (first :: rest)) (first :: rest).length (s.info (first :: rest)) := by
    rw [heq]
    exact ⟨fun ⟨dd, hdd, h⟩ ↦ Except.ok.inj hdd ▸ h, fun h ↦ ⟨_, rfl, h⟩⟩
  obtain ⟨hpeak, hdepth, hrecovery⟩ := hinv
  rw [hreported]
  rcases hdepth with hflat | hdeep
  · rw [hflat.reported_iff hpositive rfl hpeak hrecovery]
    refine (or_iff_left ?_).symm
    rintro ⟨t, ht, hbelow, -⟩
    exact not_below_iff.mpr (hflat.atPeak t (Nat.le_of_lt_succ ht)) hbelow
  · rw [hdeep.reported_iff hpositive rfl hpeak hrecovery]
    refine (or_iff_right fun hone ↦ ?_).symm
    obtain rfl : rest = [] := List.length_eq_zero_iff.mp (Nat.succ_injective hone)
    exact not_below_zero (Nat.le_zero.mp hdeep.le ▸ hdeep.below)

end

/-- A fall that recovers, and a smaller one from the same peak. -/
def recovering : List ℚ := [100, 80, 100, 90]

theorem recovering_reported :
    (∃ dd, maxDrawdown recovering = .ok dd ∧ Reported (valueAt recovering) 4 dd) ↔
      recovering.length = 1 ∨ DeepestStands (valueAt recovering) 4 :=
  maxDrawdown_reported_iff recovering (List.cons_ne_nil _ _) (by decide +kernel)

/-- The peak moves on after the only fall. -/
theorem moved_peak_misreported : ¬ ∃ dd, maxDrawdown ([100, 80, 110] : List ℚ) = .ok dd ∧
    Reported (valueAt [100, 80, 110]) 3 dd := by
  rintro ⟨dd, hdd, hrep⟩
  have hvalue : maxDrawdown ([100, 80, 110] : List ℚ) = .ok ⟨30, 20, 0, 1, 2⟩ := by decide +kernel
  obtain rfl := Except.ok.inj (hvalue.symm.trans hdd)
  exact absurd hrep.absolute (by decide +kernel)

end Qros.Quant.RiskMetrics
