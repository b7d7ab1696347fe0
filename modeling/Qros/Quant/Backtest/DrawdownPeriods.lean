import Qros.Lib.Dips
import Qros.Quant.Arith

/-!
# Drawdown periods

`drawdown_periods` of `src/backtest/performance_analyzer.cpp`.  The loop has either closed a
period at the last peak or keeps one open since then; `LoopInv` says so for the bars up to `k`, and
the periods it returns are the dips of the curve (`drawdownPeriods_partition`).
-/

universe u

namespace Qros.Quant.Backtest

open Qros.Lib List

variable {F : Type u}

structure DrawdownPeriod (F : Type u) where
  startIndex : Nat
  troughIndex : Nat
  endIndex : Nat
  peak : F
  trough : F
  maxDrawdownPct : F
  lengthBars : Nat
  recovered : Bool
deriving DecidableEq

structure PeriodLoop (F : Type u) where
  out : List (DrawdownPeriod F)
  peak : F
  peakIndex : Nat
  inDrawdown : Bool
  current : DrawdownPeriod F

section Source

variable [Zero F]

def DrawdownPeriod.initial : DrawdownPeriod F := ⟨0, 0, 0, 0, 0, 0, 0, false⟩

def equityAt (equity : List F) (i : Nat) : F := equity.getD i 0

def DrawdownPeriod.close (d : DrawdownPeriod F) (i : Nat) (recovered : Bool) : DrawdownPeriod F :=
  { d with endIndex := i, lengthBars := i - d.startIndex, recovered }

/-- The percentage of the last loop. -/
def DrawdownPeriod.withPct [NatCast F] [Sub F] [Mul F] [Div F] [BEq F] (d : DrawdownPeriod F) :
    DrawdownPeriod F :=
  { d with maxDrawdownPct := if d.peak != 0 then (d.peak - d.trough) / d.peak * 100 else 0 }

def PeriodLoop.initial (equity : List F) : PeriodLoop F :=
  ⟨[], equityAt equity 0, 0, false, .initial⟩

variable [LT F] [LE F] [DecidableLT F] [DecidableLE F]

/-- The body of the loop over the bars. -/
def PeriodLoop.step (equity : List F) (s : PeriodLoop F) (i : Nat) : PeriodLoop F :=
  if s.peak ≤ equityAt equity i then
    let s :=
      if s.inDrawdown then { s with out := s.out ++ [s.current.close i true], inDrawdown := false }
      else s
    { s with peak := equityAt equity i, peakIndex := i }
  else if !s.inDrawdown then
    { s with
      current := { (DrawdownPeriod.initial : DrawdownPeriod F) with
        startIndex := s.peakIndex
        peak := s.peak
        trough := equityAt equity i
        troughIndex := i }
      inDrawdown := true }
  else if equityAt equity i < s.current.trough then
    { s with current := { s.current with trough := equityAt equity i, troughIndex := i } }
  else s

def PeriodLoop.after (equity : List F) (k : Nat) : PeriodLoop F :=
  (List.range k).foldl (PeriodLoop.step equity) (.initial equity)

def drawdownPeriods [NatCast F] [Sub F] [Mul F] [Div F] [BEq F] (equity : List F) :
    List (DrawdownPeriod F) :=
  if equity.length < 2 then []
  else
    let s := PeriodLoop.after equity equity.length
    let out := if s.inDrawdown then s.out ++ [s.current.close equity.length false] else s.out
    out.map DrawdownPeriod.withPct

theorem PeriodLoop.after_succ (equity : List F) (k : Nat) :
    PeriodLoop.after equity (k + 1) = (PeriodLoop.after equity k).step equity k := by
  unfold PeriodLoop.after
  rw [range_succ, foldl_append, foldl_cons, foldl_nil]

end Source

section Order

variable [LinearOrder F]

/-- What a period reports of the bars between its ends. -/
structure Describes (e : Nat → F) (s t : Nat) (d : DrawdownPeriod F) : Prop where
  start : d.startIndex = s
  peak : d.peak = e s
  trough : Trough e s t d.troughIndex
  low : d.trough = e d.troughIndex

structure Closed (e : Nat → F) (n : Nat) (d : DrawdownPeriod F) : Prop where
  dip : Dip e n d.startIndex d.endIndex
  describes : Describes e d.startIndex d.endIndex d
  length : d.lengthBars = d.endIndex - d.startIndex
  recovered : d.recovered = true ↔ d.endIndex < n

/-- What the loop knows after the first `k` bars, of `n`. -/
structure LoopInv (e : Nat → F) (n k : Nat) (s : PeriodLoop F) : Prop where
  lt : s.peakIndex < k
  peak : s.peak = e s.peakIndex
  atPeak : AtPeak e s.peakIndex
  below : ∀ i, s.peakIndex < i → i < k → e i < e s.peakIndex
  inDrawdown : s.inDrawdown = true ↔ s.peakIndex + 1 < k
  current : s.inDrawdown = true → Describes e s.peakIndex k s.current
  closed : ∀ d ∈ s.out, Closed e n d
  before : ∀ d ∈ s.out, d.endIndex ≤ s.peakIndex
  ordered : s.out.Pairwise fun d d' ↦ d.endIndex ≤ d'.startIndex
  covers : ∀ i ≤ s.peakIndex, Below e i → ∃ d ∈ s.out, d.startIndex < i ∧ i < d.endIndex

variable {e : Nat → F} {n k : Nat} {s : PeriodLoop F}

theorem Describes.closed {d : DrawdownPeriod F} (h : Describes e s.peakIndex k d)
    (hdip : Dip e n s.peakIndex k) {recovered : Bool} (hr : recovered = true ↔ k < n) :
    Closed e n (d.close k recovered) := by
  obtain ⟨hstart, hpeak, htrough, hlow⟩ := h
  have hstart' : (d.close k recovered).startIndex = s.peakIndex := hstart
  refine ⟨?_, ?_, rfl, hr⟩
  · rw [hstart']
    exact hdip
  · rw [hstart']
    exact ⟨hstart, hpeak, htrough, hlow⟩

theorem LoopInv.dip (h : LoopInv e n k s) (hin : s.inDrawdown = true) (hk : k ≤ n)
    (hstop : k < n → AtPeak e k) : Dip e n s.peakIndex k :=
  ⟨h.inDrawdown.mp hin, hk, h.atPeak, h.below, hstop⟩

theorem LoopInv.pred (h : LoopInv e n k s) : partialSups e (k - 1) = e s.peakIndex :=
  partialSups_eq_of_below h.atPeak h.below (Nat.le_sub_one_of_lt h.lt)
    (Nat.sub_lt (Nat.zero_lt_of_lt h.lt) Nat.zero_lt_one)

theorem LoopInv.atPeak_iff (h : LoopInv e n k s) : AtPeak e k ↔ e s.peakIndex ≤ e k := by
  have hk : k = k - 1 + 1 := (Nat.sub_add_cancel (Nat.one_le_of_lt h.lt)).symm
  rw [hk, atPeak_succ_iff, ← hk, h.pred]

theorem LoopInv.peakIndex_eq (h : LoopInv e n k s) (hin : ¬ s.inDrawdown = true) :
    s.peakIndex + 1 = k :=
  le_antisymm h.lt (not_lt.mp (h.inDrawdown.not.mp hin))

theorem LoopInv.covers_current (h : LoopInv e n k s) {i : Nat} (hi : i < k) (hbelow : Below e i) :
    (∃ d ∈ s.out, d.startIndex < i ∧ i < d.endIndex) ∨ s.inDrawdown = true ∧ s.peakIndex < i := by
  rcases Nat.lt_or_ge s.peakIndex i with hlt | hle
  · exact .inr ⟨h.inDrawdown.mpr (lt_of_le_of_lt hlt hi), hlt⟩
  · exact .inl (h.covers i hle hbelow)

end Order

section Loop

variable [Zero F] [LinearOrder F]

variable {equity : List F} {n k : Nat} {s : PeriodLoop F}

theorem LoopInv.step_peak (h : LoopInv (equityAt equity) n k s) (hk : k < n)
    (hle : s.peak ≤ equityAt equity k) : LoopInv (equityAt equity) n (k + 1) (s.step equity k) := by
  have hpeak : AtPeak (equityAt equity) k := h.atPeak_iff.mpr (h.peak ▸ hle)
  have hnot : ∀ {b : Bool}, b = false → (b = true ↔ k + 1 < k + 1) := fun hb ↦
    iff_of_false (by rw [hb]; exact Bool.false_ne_true) (Nat.lt_irrefl _)
  unfold PeriodLoop.step
  rw [if_pos hle]
  split
  · rename_i hin
    have hcurrent := h.current hin
    have hclosed : Closed (equityAt equity) n (s.current.close k true) :=
      hcurrent.closed (h.dip hin (le_of_lt hk) fun _ ↦ hpeak) (iff_of_true rfl hk)
    have hstart : (s.current.close k true).startIndex = s.peakIndex := hcurrent.start
    refine ⟨Nat.lt_succ_self k, rfl, hpeak, fun i hki hi ↦ absurd hi (Nat.not_lt.mpr hki),
      hnot rfl, nofun, ?_, ?_, ?_, ?_⟩
    · intro d hd
      rcases mem_append.mp hd with hd | hd
      · exact h.closed d hd
      · rw [mem_singleton.mp hd]
        exact hclosed
    · intro d hd
      rcases mem_append.mp hd with hd | hd
      · exact (h.before d hd).trans (le_of_lt h.lt)
      · rw [mem_singleton.mp hd]
        exact le_refl k
    · refine pairwise_append.mpr ⟨h.ordered, pairwise_singleton _ _, ?_⟩
      intro d hd d' hd'
      rw [mem_singleton.mp hd', hstart]
      exact h.before d hd
    · intro i hi hbelow
      rcases Nat.lt_or_eq_of_le hi with hlt | rfl
      · rcases h.covers_current hlt hbelow with ⟨d, hd, hmem⟩ | ⟨-, hlt'⟩
        · exact ⟨d, mem_append_left _ hd, hmem⟩
        · exact ⟨_, mem_append_right _ (mem_singleton_self _), hstart.symm ▸ hlt', hlt⟩
      · exact absurd hbelow (not_below_iff.mpr hpeak)
  · rename_i hin
    refine ⟨Nat.lt_succ_self k, rfl, hpeak, fun i hki hi ↦ absurd hi (Nat.not_lt.mpr hki),
      hnot (Bool.eq_false_iff.mpr hin), fun hin' ↦ absurd hin' hin, h.closed, ?_, h.ordered, ?_⟩
    · exact fun d hd ↦ (h.before d hd).trans (le_of_lt h.lt)
    · intro i hi hbelow
      rcases Nat.lt_or_eq_of_le hi with hlt | rfl
      · rcases h.covers_current hlt hbelow with hd | ⟨hin', -⟩
        · exact hd
        · exact absurd hin' hin
      · exact absurd hbelow (not_below_iff.mpr hpeak)

theorem LoopInv.step_below (h : LoopInv (equityAt equity) n k s)
    (hlt : ¬ s.peak ≤ equityAt equity k) :
    LoopInv (equityAt equity) n (k + 1) (s.step equity k) := by
  have hbelow : ∀ i, s.peakIndex < i → i < k + 1 →
      equityAt equity i < equityAt equity s.peakIndex := by
    intro i hi hik
    rcases Nat.lt_succ_iff_lt_or_eq.mp hik with hik | rfl
    · exact h.below i hi hik
    · exact h.peak ▸ not_le.mp hlt
  have hin' : s.peakIndex + 1 < k + 1 := Nat.succ_lt_succ h.lt
  unfold PeriodLoop.step
  rw [if_neg hlt]
  split
  · rename_i hin
    obtain rfl : s.peakIndex + 1 = k :=
      h.peakIndex_eq (by rw [Bool.not_eq_true'] at hin; rw [hin]; exact Bool.false_ne_true)
    exact ⟨Nat.lt_succ_of_lt h.lt, h.peak, h.atPeak, hbelow, iff_of_true rfl hin',
      fun _ ↦ ⟨rfl, h.peak, .single, rfl⟩, h.closed, h.before, h.ordered, h.covers⟩
  · rename_i hin
    have hin : s.inDrawdown = true := by rwa [Bool.not_eq_true', Bool.not_eq_false] at hin
    obtain ⟨hstart, hpeak, htrough, hlow⟩ := h.current hin
    split
    · rename_i hlower
      exact ⟨Nat.lt_succ_of_lt h.lt, h.peak, h.atPeak, hbelow, iff_of_true hin hin',
        fun _ ↦ ⟨hstart, hpeak, htrough.lower (hlow ▸ hlower), rfl⟩, h.closed, h.before,
        h.ordered, h.covers⟩
    · rename_i hlower
      exact ⟨Nat.lt_succ_of_lt h.lt, h.peak, h.atPeak, hbelow, iff_of_true hin hin',
        fun _ ↦ ⟨hstart, hpeak, htrough.extend (hlow ▸ not_lt.mp hlower), hlow⟩, h.closed, h.before,
        h.ordered, h.covers⟩

theorem LoopInv.first (equity : List F) (n : Nat) :
    LoopInv (equityAt equity) n 1 (PeriodLoop.after equity 1) := by
  have hs : PeriodLoop.after equity 1 = .initial equity := if_pos (le_refl (equityAt equity 0))
  rw [hs]
  exact ⟨Nat.zero_lt_one, rfl, atPeak_zero, fun i hi hi' ↦ absurd hi' (by omega),
    iff_of_false Bool.false_ne_true (Nat.lt_irrefl _), nofun, nofun, nofun, .nil,
    fun i hi hbelow ↦ absurd hbelow (by rw [Nat.le_zero.mp hi, not_below_iff]; exact atPeak_zero)⟩

theorem LoopInv.after (hk : 0 < k) (hkn : k ≤ n) :
    LoopInv (equityAt equity) n k (PeriodLoop.after equity k) := by
  induction k, hk using Nat.le_induction with
  | base => exact .first equity n
  | succ k hk ih =>
    rw [PeriodLoop.after_succ]
    by_cases hle : (PeriodLoop.after equity k).peak ≤ equityAt equity k
    · exact (ih (Nat.le_of_succ_le hkn)).step_peak hkn hle
    · exact (ih (Nat.le_of_succ_le hkn)).step_below hle

end Loop

/-! ## The periods -/

section

variable [Field F] [LinearOrder F] {equity : List F}

theorem exists_periods (hlength : 2 ≤ equity.length) :
    ∃ out : List (DrawdownPeriod F), drawdownPeriods equity = out.map DrawdownPeriod.withPct ∧
      (∀ d ∈ out, Closed (equityAt equity) equity.length d) ∧
      (out.Pairwise fun d d' ↦ d.endIndex ≤ d'.startIndex) ∧
      ∀ i < equity.length, Below (equityAt equity) i →
        ∃ d ∈ out, d.startIndex < i ∧ i < d.endIndex := by
  have h : LoopInv (equityAt equity) equity.length equity.length
      (PeriodLoop.after equity equity.length) :=
    .after (lt_of_lt_of_le Nat.zero_lt_two hlength) (le_refl _)
  refine ⟨_, if_neg (not_lt.mpr hlength), ?_⟩
  generalize PeriodLoop.after equity equity.length = s at h ⊢
  by_cases hin : s.inDrawdown = true
  · have hcurrent := h.current hin
    have hstart : (s.current.close equity.length false).startIndex = s.peakIndex := hcurrent.start
    rw [if_pos hin]
    refine ⟨?_, ?_, ?_⟩
    · intro d hd
      rcases mem_append.mp hd with hd | hd
      · exact h.closed d hd
      · rw [mem_singleton.mp hd]
        exact hcurrent.closed (h.dip hin (le_refl _) fun hlt ↦ absurd hlt (Nat.lt_irrefl _))
          (iff_of_false Bool.false_ne_true (Nat.lt_irrefl _))
    · refine pairwise_append.mpr ⟨h.ordered, pairwise_singleton _ _, ?_⟩
      intro d hd d' hd'
      rw [mem_singleton.mp hd', hstart]
      exact h.before d hd
    · intro i hi hbelow
      rcases h.covers_current hi hbelow with ⟨d, hd, hmem⟩ | ⟨-, hlt⟩
      · exact ⟨d, mem_append_left _ hd, hmem⟩
      · exact ⟨_, mem_append_right _ (mem_singleton_self _), hstart.symm ▸ hlt, hi⟩
  · rw [if_neg hin]
    refine ⟨h.closed, h.ordered, fun i hi hbelow ↦ ?_⟩
    rcases h.covers_current hi hbelow with hd | ⟨hin', -⟩
    · exact hd
    · exact absurd hin' hin

theorem Closed.withPct {e : Nat → F} {n : Nat} {d : DrawdownPeriod F} (h : Closed e n d) :
    Closed e n d.withPct :=
  ⟨h.dip, ⟨rfl, h.describes.peak, h.describes.trough, h.describes.low⟩, h.length, h.recovered⟩

theorem closed_of_mem {d : DrawdownPeriod F} (hd : d ∈ drawdownPeriods equity) :
    Closed (equityAt equity) equity.length d := by
  by_cases hlength : 2 ≤ equity.length
  · obtain ⟨out, heq, hclosed, -⟩ := exists_periods hlength
    rw [heq] at hd
    obtain ⟨d', hd', rfl⟩ := mem_map.mp hd
    exact (hclosed d' hd').withPct
  · rw [drawdownPeriods, if_pos (not_le.mp hlength)] at hd
    exact absurd hd not_mem_nil

theorem pairwise_drawdownPeriods (equity : List F) :
    (drawdownPeriods equity).Pairwise fun d d' ↦ d.endIndex ≤ d'.startIndex := by
  by_cases hlength : 2 ≤ equity.length
  · obtain ⟨out, heq, -, hordered, -⟩ := exists_periods hlength
    rw [heq, pairwise_map]
    exact hordered
  · rw [drawdownPeriods, if_pos (not_le.mp hlength)]
    exact .nil

theorem below_iff_mem {i : Nat} (hi : i < equity.length) : Below (equityAt equity) i ↔
    ∃ d ∈ drawdownPeriods equity, d.startIndex < i ∧ i < d.endIndex := by
  constructor
  · intro hbelow
    by_cases hlength : 2 ≤ equity.length
    · obtain ⟨out, heq, -, -, hcovers⟩ := exists_periods hlength
      obtain ⟨d, hd, hmem⟩ := hcovers i hi hbelow
      rw [heq]
      exact ⟨d.withPct, mem_map_of_mem hd, hmem⟩
    · obtain rfl : i = 0 := by omega
      exact absurd hbelow not_below_zero
  · rintro ⟨d, hd, hlt, hlt'⟩
    exact (closed_of_mem hd).dip.below_of_mem hlt hlt'

/-- **The periods partition the curve.**  They are disjoint and in order, and the bars between
their ends are those strictly below the running peak.  Each has the running peak of its bars, their
least equity, and is recovered if a bar back at the peak ends it. -/
theorem drawdownPeriods_partition (equity : List F) :
    ((drawdownPeriods equity).Pairwise fun d d' ↦ d.endIndex ≤ d'.startIndex) ∧
      (∀ i < equity.length, equityAt equity i < partialSups (equityAt equity) i ↔
        ∃ d ∈ drawdownPeriods equity, d.startIndex < i ∧ i < d.endIndex) ∧
      ∀ d ∈ drawdownPeriods equity, d.startIndex + 1 < d.endIndex ∧ d.endIndex ≤ equity.length ∧
        d.peak = equityAt equity d.startIndex ∧
        (∀ i, d.startIndex ≤ i → i < d.endIndex → partialSups (equityAt equity) i = d.peak) ∧
        (d.startIndex < d.troughIndex ∧ d.troughIndex < d.endIndex) ∧
        d.trough = equityAt equity d.troughIndex ∧
        (∀ i, d.startIndex < i → i < d.endIndex → d.trough ≤ equityAt equity i) ∧
        (d.recovered = true ↔ d.endIndex < equity.length) ∧
        (d.recovered = true → d.peak ≤ equityAt equity d.endIndex) := by
  refine ⟨pairwise_drawdownPeriods equity, fun i hi ↦ below_iff_mem hi, fun d hd ↦ ?_⟩
  obtain ⟨hdip, ⟨-, hpeak, htrough, hlow⟩, -, hrecovered⟩ := closed_of_mem hd
  refine ⟨hdip.lt, hdip.le, hpeak, ?_, ⟨htrough.lt, htrough.lt'⟩, hlow, ?_, hrecovered, ?_⟩
  · intro i hsi hit
    rw [hpeak]
    exact hdip.partialSups_eq hsi hit
  · intro i hsi hit
    rw [hlow]
    exact htrough.le i hsi hit
  · intro h
    rw [hpeak]
    have hlt : d.startIndex ≤ d.endIndex := (Nat.le_succ _).trans (le_of_lt hdip.lt)
    exact atPeak_iff.mp (hdip.stop (hrecovered.mp h)) d.startIndex hlt

/-- A fall that recovers at the peak's value, and one that does not recover. -/
example : (drawdownPeriods ([100, 95, 90, 92, 100, 110, 99] : List ℚ)).map
    (fun d ↦ (d.startIndex, d.troughIndex, d.endIndex, d.recovered)) =
      [(0, 2, 4, true), (5, 6, 7, false)] := by
  decide +kernel

end

end Qros.Quant.Backtest
