import Qros.Lib.FirstMax
import Qros.Quant.Backtest.DrawdownPeriods
import Qros.Quant.Backtest.Performance

/-!
# The two drawdown figures of a report

`compute` measures the worst recovery in an online scan, from the peak to the last bar below it;
`analyze` takes the bars from the trough of a period to its end, and writes that over the first
figure.  The scan runs in lockstep with the loop over the periods (`Tracks`), so both figures are
greatest values over the same periods, and `reports_agree_iff` says for which curves they are equal.
-/

universe u

/-!
## The performance analyzer

`PerformanceAnalyzer::analyze` of `src/backtest/performance_analyzer.cpp`.  It computes the flat
report, adds the drawdown periods, the downside metrics and the returns of the calendar periods, and
then writes some of its own figures over those of the flat report.
-/

namespace Qros.Quant.Backtest

open DescriptiveStats RiskMetrics Qros.Lib.Calendar

structure YearMonth where
  year : Int
  month : Int
deriving DecidableEq

structure PeriodReturn (F : Type u) where
  year : Int
  month : Int
  returnPct : F
  bars : Nat
  monthly : Bool

/-- The members that `downside_metrics` writes; the others keep their zeros. -/
structure DownsideMetrics (F : Type u) where
  downsideDeviation : F
  downsideDeviationAnnualized : F
  var95 : F
  var99 : F
  cvar95 : F
  cvar99 : F
  annualizedVolatility : F

structure DetailedPerformanceReport (F : Type u) where
  base : PerformanceReport F
  returns : List F
  drawdowns : List (DrawdownPeriod F)
  yearlyReturns : List (PeriodReturn F)
  monthlyReturns : List (PeriodReturn F)
  downside : DownsideMetrics F
  maxDrawdownRecoveryBars : Nat
  averageDrawdownRecoveryBars : F
  totalUnderwaterBars : Nat
  timeInDrawdownPct : F

variable {F : Type u}

def yearMonthOf (bar : OHLCV F) : YearMonth :=
  let date := civilFromDays (bar.timestamp / (86400 * 1000000000))
  ⟨date.year, date.month⟩

section Source

variable [Zero F] [One F] [NatCast F] [Add F] [Sub F] [Mul F] [Div F] [Neg F] [LT F] [LE F]
  [DecidableLT F] [DecidableLE F] [BEq F] [CMath F] [SizeCast F]

/-! ## Calendar periods -/

/-- The local variables of `period_returns_impl`. -/
structure PeriodReturns (F : Type u) where
  out : List (PeriodReturn F)
  current : YearMonth
  groupStart : Nat
  baseline : F

def keyMatches (monthly : Bool) (a b : YearMonth) : Bool :=
  decide (a.year = b.year) && (!monthly || decide (a.month = b.month))

def PeriodReturns.flush (equity : List F) (monthly : Bool) (s : PeriodReturns F)
    (lastIndex : Nat) : List (PeriodReturn F) :=
  s.out ++ [{
    year := s.current.year
    month := if monthly then s.current.month else 0
    monthly
    bars := lastIndex - s.groupStart + 1
    returnPct :=
      if s.baseline != 0 then (equityAt equity lastIndex - s.baseline) / s.baseline * 100 else 0 }]

def PeriodReturns.step (equity : List F) (bars : List (OHLCV F)) (monthly : Bool)
    (s : PeriodReturns F) (i : Nat) : PeriodReturns F :=
  let ym := yearMonthOf (barAt bars i)
  if !keyMatches monthly ym s.current then
    ⟨s.flush equity monthly (i - 1), ym, i, equityAt equity (i - 1)⟩
  else s

def periodReturnsImpl (equity : List F) (bars : List (OHLCV F)) (monthly : Bool)
    (initialCapital : F) : List (PeriodReturn F) :=
  let n := min equity.length bars.length
  if n = 0 then []
  else
    let start : PeriodReturns F :=
      ⟨[], yearMonthOf (barAt bars 0), 0, if 0 < initialCapital then initialCapital else equityAt equity 0⟩
    let s := (List.range' 1 (n - 1)).foldl (PeriodReturns.step equity bars monthly) start
    s.flush equity monthly (n - 1)

/-! ## Downside -/

def downsideMetrics (returns : List F) (tradingDaysPerYear : F) : DownsideMetrics F :=
  if returns.isEmpty then ⟨0, 0, 0, 0, 0, 0, 0⟩
  else
    let target : F := 0
    let sumSq := returns.foldl (fun sum r ↦
      if r < target then let d := r - target; sum + d * d else sum) 0
    let downside := CMath.sqrt (sumSq / (returns.length : F))
    let m : DownsideMetrics F :=
      ⟨downside, downside * CMath.sqrt tradingDaysPerYear, 0, 0, 0, 0, 0⟩
    let m := match valueAtRisk returns (95 / 100) (99 / 100) with
      | .ok var => { m with
          var95 := var.var95, var99 := var.var99, cvar95 := var.cvar95, cvar99 := var.cvar99 }
      | .error _ => m
    let mean := meanOf returns
    { m with
      annualizedVolatility := CMath.sqrt (varianceOf returns mean) * CMath.sqrt tradingDaysPerYear }

/-! ## The analysis -/

/-- The loop that counts the bars below `running_max`. -/
def underwaterStep (s : Nat × F) (eq : F) : Nat × F :=
  let runningMax := stdMax s.2 eq
  (if eq < runningMax then s.1 + 1 else s.1, runningMax)

def underwaterBars (equity : List F) : Nat := (equity.foldl underwaterStep (0, 0)).1

/-- The bars from the trough of a period to its end. -/
def DrawdownPeriod.recovery (d : DrawdownPeriod F) : Nat := d.endIndex - d.troughIndex

def maxRecovery (ds : List (DrawdownPeriod F)) : Nat :=
  ds.foldl (fun m d ↦ max m d.recovery) 0

def averageRecovery (ds : List (DrawdownPeriod F)) : F :=
  let recovered := ds.filter (·.recovered)
  let sum := recovered.foldl (fun sum d ↦ sum + (d.recovery : F)) 0
  if 0 < recovered.length then sum / (recovered.length : F) else 0

def analyze (result : ReportedResult F) (tradingDaysPerYear : F) : DetailedPerformanceReport F :=
  let equity := result.equityCurve
  let returns := returnsOf equity
  let drawdowns := drawdownPeriods equity
  let downside := downsideMetrics returns tradingDaysPerYear
  let maxRecovery := maxRecovery drawdowns
  let timeInDrawdownPct : F :=
    if !equity.isEmpty then (underwaterBars equity : F) / (equity.length : F) * 100 else 0
  { returns
    drawdowns
    downside
    yearlyReturns :=
      periodReturnsImpl equity result.barsUsed false result.config.initialCapital
    monthlyReturns :=
      periodReturnsImpl equity result.barsUsed true result.config.initialCapital
    maxDrawdownRecoveryBars := maxRecovery
    averageDrawdownRecoveryBars := averageRecovery drawdowns
    totalUnderwaterBars := underwaterBars equity
    timeInDrawdownPct
    -- What the flat report had in these members is replaced.
    base := { PerformanceReport.compute result tradingDaysPerYear with
      maxDrawdownRecoveryBars := maxRecovery
      timeInDrawdownPct
      downsideDeviation := downside.downsideDeviation
      downsideDeviationAnnualized := downside.downsideDeviationAnnualized
      var95 := downside.var95
      var99 := downside.var99
      cvar95 := downside.cvar95
      cvar99 := downside.cvar99 } }

end Source

end Qros.Quant.Backtest

set_option linter.unusedSectionVars false

namespace Qros.Quant.Backtest

open Qros.Lib

variable {F : Type u}

/-- The bars from the peak before a period to the last one of the period. -/
def DrawdownPeriod.span (d : DrawdownPeriod F) : Nat := d.endIndex - 1 - d.startIndex

/-! ## The scan -/

section

variable [Zero F] [LinearOrder F] {equity : List F} {n k : Nat} {w : Underwater F}
  {s : PeriodLoop F}

instance (e : Nat → F) (i : Nat) : Decidable (Below e i) := inferInstanceAs (Decidable (_ < _))

/-- The number of bars below the running peak, of the first `k`. -/
def belowCount (equity : List F) (k : Nat) : Nat :=
  (List.range k).countP fun i ↦ decide (Below (equityAt equity) i)

/-- The scan and the loop over the periods, after the same bars. -/
structure Tracks (equity : List F) (k : Nat) (w : Underwater F) (s : PeriodLoop F) : Prop where
  peakIdx : w.peakIdx = s.peakIndex
  peak : w.peak = s.peak
  worst : w.worstRecovery = max (maxOf DrawdownPeriod.span s.out) (k - 1 - s.peakIndex)
  underwater : w.underwater = belowCount equity k

theorem belowCount_succ (equity : List F) (k : Nat) : belowCount equity (k + 1) =
    belowCount equity k + if Below (equityAt equity) k then 1 else 0 := by
  unfold belowCount
  rw [List.range_succ, List.countP_append, List.countP_singleton]
  simp only [decide_eq_true_eq]

theorem Underwater.step_of_le (hle : w.peak ≤ equityAt equity k) :
    w.step equity k = { w with peak := equityAt equity k, peakIdx := k } := if_pos hle

theorem Underwater.step_of_not_le (hle : ¬ w.peak ≤ equityAt equity k) :
    w.step equity k = { w with
      underwater := w.underwater + 1
      worstRecovery := max w.worstRecovery (k - w.peakIdx) } := if_neg hle

theorem Tracks.step (h : Tracks equity k w s) (hinv : LoopInv (equityAt equity) n k s) :
    Tracks equity (k + 1) (w.step equity k) (s.step equity k) := by
  obtain ⟨hidx, hpeak, hworst, hunder⟩ := h
  by_cases hle : s.peak ≤ equityAt equity k
  · have hat : AtPeak (equityAt equity) k := hinv.atPeak_iff.mpr (hinv.peak ▸ hle)
    rw [Underwater.step_of_le (hpeak.trans_le hle)]
    unfold PeriodLoop.step
    rw [if_pos hle]
    refine ⟨rfl, rfl, ?_, ?_⟩
    · show w.worstRecovery = _
      rw [hworst]
      split
      · rename_i hin
        have hspan : (s.current.close k true).span = k - 1 - s.peakIndex := by
          rw [DrawdownPeriod.span, DrawdownPeriod.close, (hinv.current hin).start]
        rw [maxOf_concat, hspan, Nat.add_sub_cancel, Nat.sub_self, Nat.max_zero]
      · rename_i hin
        have hidx := hinv.peakIndex_eq hin
        have hzero : k - 1 - s.peakIndex = 0 := by omega
        rw [hzero, Nat.add_sub_cancel, Nat.sub_self]
    · show w.underwater = _
      rw [belowCount_succ, if_neg (not_below_iff.mpr hat), hunder, Nat.add_zero]
  · have hbelow : Below (equityAt equity) k := by
      by_contra hat
      exact hle (hinv.peak ▸ hinv.atPeak_iff.mp (not_below_iff.mp hat))
    have hstep : (s.step equity k).peak = s.peak ∧ (s.step equity k).peakIndex = s.peakIndex ∧
        (s.step equity k).out = s.out := by
      unfold PeriodLoop.step
      rw [if_neg hle]
      split
      · exact ⟨rfl, rfl, rfl⟩
      · split <;> exact ⟨rfl, rfl, rfl⟩
    rw [Underwater.step_of_not_le (hpeak ▸ hle)]
    refine ⟨hidx.trans hstep.2.1.symm, hpeak.trans hstep.1.symm, ?_, ?_⟩
    · show max w.worstRecovery (k - w.peakIdx) = _
      rw [hstep.2.1, hstep.2.2, hworst, hidx, Nat.add_sub_cancel, Nat.max_assoc]
      congr 1
      omega
    · show w.underwater + 1 = _
      rw [belowCount_succ, if_pos hbelow, hunder]

theorem Tracks.first (equity : List F) :
    Tracks equity 1 (Underwater.after equity 1) (PeriodLoop.after equity 1) := by
  have hw : Underwater.after equity 1 = ⟨0, 0, 0, equityAt equity 0⟩ :=
    if_pos (le_refl (equityAt equity 0))
  have hs : PeriodLoop.after equity 1 = .initial equity := if_pos (le_refl (equityAt equity 0))
  have hcount : belowCount equity 1 = 0 := by
    rw [belowCount_succ, if_neg not_below_zero]
    rfl
  rw [hw, hs]
  exact ⟨rfl, rfl, rfl, hcount.symm⟩

theorem Tracks.after (hk : 0 < k) (hkn : k ≤ n) :
    Tracks equity k (Underwater.after equity k) (PeriodLoop.after equity k) := by
  induction k, hk using Nat.le_induction with
  | base => exact .first equity
  | succ k hk ih =>
    have hstep : Underwater.after equity (k + 1) = (Underwater.after equity k).step equity k := by
      unfold Underwater.after
      rw [List.range_succ, List.foldl_append, List.foldl_cons, List.foldl_nil]
    rw [PeriodLoop.after_succ, hstep]
    exact (ih (Nat.le_of_succ_le hkn)).step (.after hk (Nat.le_of_succ_le hkn))

theorem underwater_after (equity : List F) :
    (Underwater.after equity equity.length).underwater = belowCount equity equity.length := by
  rcases Nat.eq_zero_or_pos equity.length with h | h
  · rw [h]
    rfl
  · exact (Tracks.after h (le_refl _)).underwater

end

/-! ## The count of the analysis -/

section

variable [Zero F] [LinearOrder F] {equity : List F} {k : Nat}

theorem underwater_take (hk : k ≤ equity.length) :
    ((equity.take k).foldl underwaterStep (0, 0)).1 = (List.range k).countP (fun i ↦
        decide (equityAt equity i < max 0 (partialSups (equityAt equity) i))) ∧
      max ((equity.take k).foldl underwaterStep (0, 0)).2 (equityAt equity k) =
        max 0 (partialSups (equityAt equity) k) := by
  induction k with
  | zero => exact ⟨rfl, rfl⟩
  | succ k ih =>
    obtain ⟨hcount, hmax⟩ := ih (Nat.le_of_succ_le hk)
    have htake : equity.take (k + 1) = equity.take k ++ [equityAt equity k] := by
      rw [List.take_add_one, List.getElem?_eq_getElem hk, equityAt, List.getD_eq_getElem?_getD,
        List.getElem?_eq_getElem hk]
      rfl
    rw [htake, List.foldl_append, List.foldl_cons, List.foldl_nil, underwaterStep, stdMax_eq_max,
      hmax, List.range_succ, List.countP_append, List.countP_singleton, ← hcount]
    constructor
    · dsimp only
      simp only [decide_eq_true_eq]
      split <;> rfl
    · rw [partialSups_add_one, max_assoc]

theorem underwaterBars_eq (equity : List F) :
    underwaterBars equity = (List.range equity.length).countP fun i ↦
      decide (equityAt equity i < max 0 (partialSups (equityAt equity) i)) := by
  rw [← (underwater_take (le_refl equity.length)).1, List.take_length]
  rfl

theorem belowCount_eq_iff (hne : equity ≠ []) :
    belowCount equity equity.length = underwaterBars equity ↔ 0 ≤ equityAt equity 0 := by
  rw [underwaterBars_eq]
  constructor
  · intro heq
    by_contra hneg
    obtain ⟨m, hm⟩ := Nat.exists_eq_succ_of_ne_zero (List.length_pos_iff.mpr hne).ne'
    have hzero : equityAt equity 0 < max 0 (partialSups (equityAt equity) 0) :=
      lt_max_of_lt_left (not_le.mp hneg)
    rw [belowCount, hm, List.range_succ_eq_map, List.countP_cons, List.countP_cons,
      if_neg (by rw [decide_eq_true_eq]; exact not_below_zero), if_pos (decide_eq_true hzero),
      Nat.add_zero] at heq
    refine absurd heq (Nat.ne_of_lt (Nat.lt_succ_of_le (List.countP_mono_left fun i _ hi ↦ ?_)))
    rw [decide_eq_true_eq] at hi ⊢
    exact lt_max_of_lt_right hi
  · intro hpos
    refine congrArg (fun p ↦ (List.range equity.length).countP p) (funext fun i ↦ ?_)
    have hsup : 0 ≤ partialSups (equityAt equity) i :=
      hpos.trans (le_partialSups_of_le (equityAt equity) (Nat.zero_le i))
    rw [max_eq_right hsup]
    rfl

end

/-! ## The figures -/

section

variable [Zero F] [One F] [NatCast F] [Add F] [Sub F] [Mul F] [Div F] [Neg F] [LT F] [LE F]
  [DecidableLT F] [DecidableLE F] [BEq F] [CMath F] [SizeCast F]

def drawdownFigures (r : PerformanceReport F) : Nat × F :=
  (r.maxDrawdownRecoveryBars, r.timeInDrawdownPct)

section Blocks

variable (equity returns : List F) (tradingDaysPerYear : F) (r : PerformanceReport F)

theorem drawdownFigures_withSharpe :
    drawdownFigures (withSharpe returns tradingDaysPerYear r) = drawdownFigures r := by
  unfold withSharpe
  split <;> rfl

theorem drawdownFigures_withSortino :
    drawdownFigures (withSortino returns tradingDaysPerYear r) = drawdownFigures r := by
  unfold withSortino
  split <;> rfl

theorem drawdownFigures_withCalmar : drawdownFigures (withCalmar r) = drawdownFigures r := by
  unfold withCalmar
  split <;> rfl

theorem drawdownFigures_withTrades (closed : List (Trade F)) :
    drawdownFigures (withTrades closed r) = drawdownFigures r := by
  unfold withTrades
  split <;> rfl

theorem drawdownFigures_withCurve : drawdownFigures (withCurve equity tradingDaysPerYear r) =
    ((Underwater.after equity equity.length).worstRecovery,
      ((Underwater.after equity equity.length).underwater : F) / (equity.length : F) * 100) := by
  unfold withCurve
  dsimp only
  split
  · rfl
  · rw [drawdownFigures_withCalmar, drawdownFigures_withSortino, drawdownFigures_withSharpe]
    rfl

end Blocks

theorem drawdownFigures_compute (result : ReportedResult F) (tradingDaysPerYear : F)
    (hne : result.equityCurve ≠ []) :
    drawdownFigures (PerformanceReport.compute result tradingDaysPerYear) =
      ((Underwater.after result.equityCurve result.equityCurve.length).worstRecovery,
        ((Underwater.after result.equityCurve result.equityCurve.length).underwater : F) /
          (result.equityCurve.length : F) * 100) := by
  have hempty : result.equityCurve.isEmpty ≠ true := fun h ↦ hne (List.isEmpty_iff.mp h)
  unfold PerformanceReport.compute
  dsimp only
  rw [drawdownFigures_withTrades, if_neg hempty, drawdownFigures_withCurve]

/-- The flat report and the one inside the analysis have the same two figures. -/
def ReportsAgree (result : ReportedResult F) (tradingDaysPerYear : F) : Prop :=
  (PerformanceReport.compute result tradingDaysPerYear).maxDrawdownRecoveryBars =
      (analyze result tradingDaysPerYear).base.maxDrawdownRecoveryBars ∧
    (PerformanceReport.compute result tradingDaysPerYear).timeInDrawdownPct =
      (analyze result tradingDaysPerYear).base.timeInDrawdownPct

end

/-! ## Agreement -/

section

variable [Field F] [LinearOrder F] {equity : List F}

theorem dip_iff {s t : Nat} : Dip (equityAt equity) equity.length s t ↔
    ∃ d ∈ drawdownPeriods equity, d.startIndex = s ∧ d.endIndex = t := by
  constructor
  · intro h
    have hbelow : Below (equityAt equity) (s + 1) := h.below_of_mem (Nat.lt_succ_self s) h.lt
    obtain ⟨d, hd, hlt, hlt'⟩ := (below_iff_mem (lt_of_lt_of_le h.lt h.le)).mp hbelow
    obtain ⟨hs, ht⟩ := (closed_of_mem hd).dip.eq_of_mem h hlt hlt' (Nat.lt_succ_self s) h.lt
    exact ⟨d, hd, hs, ht⟩
  · rintro ⟨d, hd, rfl, rfl⟩
    exact (closed_of_mem hd).dip

theorem drawdownPeriods_eq_nil_iff :
    drawdownPeriods equity = [] ↔ ∀ i < equity.length, AtPeak (equityAt equity) i := by
  constructor
  · intro hnil i hi
    refine not_below_iff.mp fun hbelow ↦ ?_
    obtain ⟨d, hd, -⟩ := (below_iff_mem hi).mp hbelow
    rw [hnil] at hd
    cases hd
  · intro hpeak
    refine List.eq_nil_iff_forall_not_mem.mpr fun d hd ↦ ?_
    have hdip := (closed_of_mem hd).dip
    exact not_below_iff.mpr (hpeak _ (lt_of_lt_of_le hdip.lt hdip.le))
      (hdip.below_of_mem (Nat.lt_succ_self _) hdip.lt)

theorem worstRecovery_eq (hne : equity ≠ []) :
    (Underwater.after equity equity.length).worstRecovery =
      maxOf DrawdownPeriod.span (drawdownPeriods equity) := by
  have hpos : 0 < equity.length := List.length_pos_iff.mpr hne
  have hinv : LoopInv (equityAt equity) equity.length equity.length
      (PeriodLoop.after equity equity.length) := .after hpos (le_refl _)
  rw [(Tracks.after hpos (le_refl _)).worst]
  generalize hs : PeriodLoop.after equity equity.length = s at hinv ⊢
  unfold drawdownPeriods
  split
  · rename_i hshort
    have hone : equity.length = 1 := by omega
    have hout : s.out = [] := by
      rw [← hs, hone]
      exact congrArg PeriodLoop.out (if_pos (le_refl (equityAt equity 0)))
    rw [hout, hone]
    exact Nat.max_eq_right (Nat.zero_le _) |>.trans (Nat.zero_sub _)
  · dsimp only
    rw [hs, maxOf, maxOf, List.foldl_map]
    split
    · rename_i hin
      rw [List.foldl_append]
      exact congrArg (max _) (congrArg (equity.length - 1 - ·) (hinv.current hin).start.symm)
    · rename_i hin
      have hidx := hinv.peakIndex_eq hin
      have hzero : equity.length - 1 - s.peakIndex = 0 := by omega
      rw [hzero, Nat.max_zero]
      rfl

theorem recovery_le_span {d : DrawdownPeriod F} (hd : d ∈ drawdownPeriods equity) :
    d.recovery ≤ d.span := by
  have htrough := (closed_of_mem hd).describes.trough
  have hlt := htrough.lt
  unfold DrawdownPeriod.recovery DrawdownPeriod.span
  omega

theorem recovery_eq_span_iff {d : DrawdownPeriod F} (hd : d ∈ drawdownPeriods equity) :
    d.recovery = d.span ↔ ∀ i, d.startIndex < i → i < d.endIndex →
      equityAt equity (d.startIndex + 1) ≤ equityAt equity i := by
  have htrough := (closed_of_mem hd).describes.trough
  have hlt := htrough.lt
  have hlt' := htrough.lt'
  rw [← htrough.eq_succ_iff, DrawdownPeriod.recovery, DrawdownPeriod.span]
  omega

theorem recoveries_agree_iff (hne : equity ≠ []) :
    (Underwater.after equity equity.length).worstRecovery = maxRecovery (drawdownPeriods equity) ↔
      (∀ i < equity.length, AtPeak (equityAt equity) i) ∨
        ∃ s t, Dip (equityAt equity) equity.length s t ∧
          (∀ s' t', Dip (equityAt equity) equity.length s' t' → t' - s' ≤ t - s) ∧
          ∀ i, s < i → i < t → equityAt equity (s + 1) ≤ equityAt equity i := by
  have hmax : maxRecovery (drawdownPeriods equity) =
      maxOf DrawdownPeriod.recovery (drawdownPeriods equity) := rfl
  have hspan : ∀ {d d' : DrawdownPeriod F}, d ∈ drawdownPeriods equity →
      d' ∈ drawdownPeriods equity →
        (d'.span ≤ d.span ↔ d'.endIndex - d'.startIndex ≤ d.endIndex - d.startIndex) := by
    intro d d' hd hd'
    have hlt := (closed_of_mem hd).dip.lt
    have hlt' := (closed_of_mem hd').dip.lt
    unfold DrawdownPeriod.span
    omega
  rw [worstRecovery_eq hne, hmax, maxOf_eq_iff fun d hd ↦ recovery_le_span hd,
    drawdownPeriods_eq_nil_iff]
  refine or_congr_right ⟨?_, ?_⟩
  · rintro ⟨d, hd, hlong, heq⟩
    refine ⟨d.startIndex, d.endIndex, (closed_of_mem hd).dip, ?_, (recovery_eq_span_iff hd).mp heq⟩
    intro s' t' hdip
    obtain ⟨d', hd', rfl, rfl⟩ := dip_iff.mp hdip
    exact (hspan hd hd').mp (hlong d' hd')
  · rintro ⟨s, t, hdip, hlong, hfirst⟩
    obtain ⟨d, hd, rfl, rfl⟩ := dip_iff.mp hdip
    refine ⟨d, hd, fun d' hd' ↦ ?_, (recovery_eq_span_iff hd).mpr hfirst⟩
    exact (hspan hd hd').mpr (hlong _ _ (closed_of_mem hd').dip)

variable [IsStrictOrderedRing F] [CMath F] [SizeCast F]

/-- **When the two reports agree.**  On a curve without a bar, and on one that starts at zero or
above and either never falls below its running peak or has a longest fall that is deepest at its
first bar. -/
theorem reports_agree_iff (result : ReportedResult F) (tradingDaysPerYear : F) :
    ReportsAgree result tradingDaysPerYear ↔ result.equityCurve = [] ∨
      0 ≤ equityAt result.equityCurve 0 ∧
        ((∀ i < result.equityCurve.length, AtPeak (equityAt result.equityCurve) i) ∨
          ∃ s t, Dip (equityAt result.equityCurve) result.equityCurve.length s t ∧
            (∀ s' t', Dip (equityAt result.equityCurve) result.equityCurve.length s' t' →
              t' - s' ≤ t - s) ∧
            ∀ i, s < i → i < t →
              equityAt result.equityCurve (s + 1) ≤ equityAt result.equityCurve i) := by
  by_cases hne : result.equityCurve = []
  · refine iff_of_true ?_ (.inl hne)
    have hanalyze : drawdownFigures (analyze result tradingDaysPerYear).base = (0, 0) := by
      unfold analyze
      rw [hne]
      rfl
    have hcompute : drawdownFigures (PerformanceReport.compute result tradingDaysPerYear) =
        (0, 0) := by
      unfold PerformanceReport.compute
      dsimp only
      rw [drawdownFigures_withTrades, hne]
      rfl
    exact Prod.mk.inj (hcompute.trans hanalyze.symm)
  · have hempty : (!result.equityCurve.isEmpty) = true := by
      rw [Bool.not_eq_true', ← Bool.not_eq_true]
      exact fun h ↦ hne (List.isEmpty_iff.mp h)
    have hlen : (result.equityCurve.length : F) ≠ 0 :=
      Nat.cast_ne_zero.mpr (List.length_pos_iff.mpr hne).ne'
    obtain ⟨hbars, hpct⟩ := Prod.mk.inj (drawdownFigures_compute result tradingDaysPerYear hne)
    have hpct' : (analyze result tradingDaysPerYear).base.timeInDrawdownPct =
        (underwaterBars result.equityCurve : F) / (result.equityCurve.length : F) * 100 :=
      if_pos hempty
    have hcount : ((Underwater.after result.equityCurve result.equityCurve.length).underwater : F) /
          (result.equityCurve.length : F) * 100 =
        (underwaterBars result.equityCurve : F) / (result.equityCurve.length : F) * 100 ↔
          0 ≤ equityAt result.equityCurve 0 := by
      rw [mul_left_inj' (by norm_num : (100 : F) ≠ 0), div_left_inj' hlen, Nat.cast_inj,
        underwater_after, belowCount_eq_iff hne]
    rw [ReportsAgree, hbars, hpct, hpct', hcount, and_comm, or_iff_right hne]
    exact and_congr_right fun _ ↦ recoveries_agree_iff hne

end

/-- A curve that never falls. -/
def steadyRise : ReportedResult ℚ where
  equityCurve := [100, 105, 110]
  drawdownCurve := []
  barsUsed := []
  tradeBook := .empty
  config := .defaults
  totalBars := 3
  finalEquity := 110
  totalReturnPct := 10
  maxDrawdownPct := 0
  winRate := 0
  profitFactor := 0

theorem steadyRise_agrees : ReportsAgree steadyRise 252 := by
  have hrise : ∀ i < steadyRise.equityCurve.length, ∀ j ≤ i,
      equityAt steadyRise.equityCurve j ≤ equityAt steadyRise.equityCurve i := by decide +kernel
  exact (reports_agree_iff steadyRise 252).mpr
    (.inr ⟨by decide +kernel, .inl fun i hi ↦ atPeak_iff.mpr (hrise i hi)⟩)

/-- Three bars below a peak, the lowest of them the second. -/
def slowFall : ReportedResult ℚ where
  equityCurve := [100, 95, 90, 100]
  drawdownCurve := []
  barsUsed := []
  tradeBook := .empty
  config := .defaults
  totalBars := 4
  finalEquity := 100
  totalReturnPct := 0
  maxDrawdownPct := 10
  winRate := 0
  profitFactor := 0

/-- The scan reports two bars and the analysis one. -/
theorem slowFall_disagrees : ¬ ReportsAgree slowFall 252 := by
  rintro ⟨h, -⟩
  exact absurd h (by decide +kernel)

end Qros.Quant.Backtest
