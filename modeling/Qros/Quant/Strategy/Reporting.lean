import Qros.Quant.Strategy.Accounting

/-!
# The report and the ledger

The equity curve ends with a mark-to-market value, the run with the cash after
the liquidation.  The liquidation pays exit costs that the mark to market does
not see, so the two agree just when these costs add up to zero
(`run_reportsLedger`).

The period returns are a separate pass over the curve.  They always chain, from
the initial equity to the last point of the curve (`chained_buildPeriodReturns`);
whether they end at the final equity is therefore the same question.
-/

universe u

set_option linter.unusedSectionVars false

namespace Qros.Quant.Strategy

open List

variable {F : Type u}

def Chained : F → List (PeriodReturn F) → F → Prop
  | a, [], b => a = b
  | a, p :: ps, b => p.startEquity = a ∧ Chained p.endEquity ps b

theorem Chained.snoc {a : F} {ps : List (PeriodReturn F)} {p : PeriodReturn F}
    (h : Chained a ps p.startEquity) : Chained a (ps ++ [p]) p.endEquity := by
  induction ps generalizing a with
  | nil => exact ⟨Eq.symm h, rfl⟩
  | cons q ps ih => exact ⟨h.1, ih h.2⟩

/-- What the report promises: the curve ends at the final equity, and the periods
lead there from the initial equity. -/
structure ReportsLedger (r : SimulationResult F) : Prop where
  lastEquity : r.equityCurve.getLast? = some r.finalEquity
  monthly : r.monthlyReturns ≠ [] ∧ Chained r.initialEquity r.monthlyReturns r.finalEquity
  yearly : r.yearlyReturns ≠ [] ∧ Chained r.initialEquity r.yearlyReturns r.finalEquity

/-! ## The chain of periods -/

section

variable [Zero F] [One F] [NatCast F] [Add F] [Sub F] [Mul F] [Div F] [Neg F]
  [LT F] [LE F] [DecidableLT F] [DecidableLE F]

theorem periodLabel_ne_nil (g : Granularity) (ts : TimePoint) : periodLabel g ts ≠ [] := by
  have hpad (w : Nat) (n : Int) : zeroPadded w n ≠ [] := by
    unfold zeroPadded
    dsimp only
    split
    · exact cons_ne_nil _ _
    · exact append_ne_nil_of_right_ne_nil _ Nat.toDigits_ne_nil
  cases g with
  | monthly => exact append_ne_nil_of_left_ne_nil (hpad _ _) _
  | yearly => exact hpad _ _

theorem chained_periodStep {initial : F} {s : PeriodState F}
    (h : Chained initial s.out s.periodStart) (g : Granularity) (b : OHLCV F × F) :
    Chained initial (periodStep g s b).out (periodStep g s b).periodStart ∧
      (periodStep g s b).cur ≠ [] ∧ (periodStep g s b).lastEq = b.2 := by
  have hlbl := periodLabel_ne_nil g b.1.timestamp
  unfold periodStep
  by_cases hcur : s.cur.isEmpty = true
  · -- The first bar names the first period.
    simp only [hcur, if_true, bne_self_eq_false, Bool.false_eq_true, if_false]
    exact ⟨h, hlbl, trivial⟩
  · simp only [hcur, Bool.false_eq_true, if_false]
    split
    · exact ⟨Chained.snoc (p := closePeriod s) h, hlbl, trivial⟩
    · exact ⟨h, by simpa using hcur, trivial⟩

theorem chained_foldl_periodStep {initial : F} {s : PeriodState F}
    (h : Chained initial s.out s.periodStart) (g : Granularity) (bs : List (OHLCV F × F))
    (hne : bs ≠ []) :
    Chained initial (bs.foldl (periodStep g) s).out (bs.foldl (periodStep g) s).periodStart ∧
      (bs.foldl (periodStep g) s).cur ≠ [] ∧
      some (bs.foldl (periodStep g) s).lastEq = (bs.map Prod.snd).getLast? := by
  induction bs generalizing s with
  | nil => exact absurd rfl hne
  | cons b bs ih =>
    obtain ⟨hs, hcur, hlast⟩ := chained_periodStep h g b
    cases bs with
    | nil => exact ⟨hs, hcur, by simp [hlast]⟩
    | cons b' bs =>
      obtain ⟨hs', hcur', hlast'⟩ := ih hs (cons_ne_nil _ _)
      exact ⟨hs', hcur', by rw [foldl_cons, hlast']; simp⟩

/-- **The periods chain** from the initial equity to the last point of the
curve. -/
theorem chained_buildPeriodReturns (g : Granularity) {bars : List (OHLCV F)} {curve : List F}
    {initial last : F} (hlen : curve.length = bars.length) (hlast : curve.getLast? = some last) :
    buildPeriodReturns g bars curve initial ≠ [] ∧
      Chained initial (buildPeriodReturns g bars curve initial) last := by
  have hne : bars.zip curve ≠ [] := by
    intro hnil
    have hzero : (bars.zip curve).length = 0 := by rw [hnil, length_nil]
    rw [length_zip, hlen, Nat.min_self, ← hlen] at hzero
    rw [eq_nil_of_length_eq_zero hzero] at hlast
    cases hlast
  have hstart : Chained initial (PeriodState.mk [] [] initial initial).out initial := rfl
  obtain ⟨hs, hcur, heq⟩ := chained_foldl_periodStep hstart g (bars.zip curve) hne
  rw [map_snd_zip hlen.le, hlast] at heq
  rw [buildPeriodReturns, ← Option.some.inj heq, if_neg (by simpa using hcur)]
  exact ⟨append_ne_nil_of_right_ne_nil _ (cons_ne_nil _ _),
    Chained.snoc (p := closePeriod _) hs⟩

end

/-! ## Exit costs -/

variable [Field F] [LinearOrder F] [CMath F]

/-- What liquidating `p` at `close` costs beyond its mark-to-market value:
slippage, half the spread and the commission. -/
def exitCost (tc : TradeConfig F) (close : F) (p : OpenPosition F) : F :=
  p.quantity * (close * (tc.slippagePct + tc.spreadPct / 2) +
    applyExitCosts tc p.side close * tc.commissionPct + tc.commissionPerLot)

theorem fillNet_eq (tc : TradeConfig F) (close : F) (p : OpenPosition F) :
    fillNet tc p close p.quantity = p.unrealizedPnl close - exitCost tc close p := by
  have hsign : p.sign = if p.side = .long then 1 else -1 := by
    simp [OpenPosition.sign, OpenPosition.isLong]
  rw [fillNet, OpenPosition.unrealizedPnl, exitCost, hsign]
  cases p.side with
  | long =>
    simp only [applyExitCosts, if_true]
    ring
  | short =>
    simp only [applyExitCosts, reduceCtorEq, if_false]
    ring

theorem cash_closeEach (tc : TradeConfig F) (rawFill : F) (reason : ExitReason) (i : Int)
    (ts : TimePoint) (ctx : Context F) (ps : List (OpenPosition F)) :
    (closeEach tc rawFill reason i ts ctx ps).cash =
      ctx.cash + (ps.map fun p ↦ fillNet tc p rawFill p.quantity).sum := by
  induction ps generalizing ctx with
  | nil => simp [closeEach]
  | cons p ps ih =>
    rw [map_cons, sum_cons, ← add_assoc]
    exact ih _

theorem cash_liquidate (env : Env F) (ctx : Context F) : (liquidate env ctx).cash =
    markToMarket ctx (barAt env.bars (env.bars.length - 1)).close - (ctx.positions.map
      (exitCost env.cfg.trade (barAt env.bars (env.bars.length - 1)).close)).sum := by
  have hsum (close : F) (ps : List (OpenPosition F)) :
      (ps.map fun p ↦ fillNet env.cfg.trade p close p.quantity).sum =
        (ps.map fun p ↦ p.unrealizedPnl close).sum -
          (ps.map (exitCost env.cfg.trade close)).sum := by
    induction ps with
    | nil => simp
    | cons p ps ih =>
      simp only [map_cons, sum_cons]
      rw [ih, fillNet_eq]
      ring
  rw [markToMarket_eq_sum, liquidate, closeAll]
  dsimp only
  rw [cash_closeEach, hsum]
  ring

/-! ## Whole runs -/

/-- The exit costs of the positions a run leaves open after its last bar. -/
def liquidationCosts (cfg : StrategyConfig F) (bars : List (OHLCV F))
    (signals : List (StrategySignal F)) : F :=
  ((openAfter cfg bars signals (bars.length - 1)).map
    (exitCost cfg.trade (barAt bars (bars.length - 1)).close)).sum

theorem finalEquity_eq {cfg : StrategyConfig F} {bars : List (OHLCV F)}
    {signals : List (StrategySignal F)} {r : SimulationResult F}
    (h : run cfg bars signals = .ok r) :
    r.equityCurve.getLast? = some (r.finalEquity + liquidationCosts cfg bars signals) := by
  obtain ⟨hacc, rfl⟩ := run_eq_ok.mp h
  obtain ⟨n, hn⟩ : ∃ n, bars.length = n + 1 := ⟨bars.length - 1, by have := hacc.nonempty; omega⟩
  have hcurve : (simulate cfg bars signals).equityCurve =
      (stateAfter (runEnv cfg bars) (orderSignals signals) (n + 1)).equityCurve :=
    congrArg (fun m ↦ (stateAfter (runEnv cfg bars) (orderSignals signals) m).equityCurve) hn
  have hfinal : (simulate cfg bars signals).finalEquity = _ := cash_liquidate (runEnv cfg bars)
    (stateAfter (runEnv cfg bars) (orderSignals signals) bars.length).ctx
  have hbars : (runEnv cfg bars).bars = bars := rfl
  have hcfg : (runEnv cfg bars).cfg = cfg := rfl
  rw [hcurve, equityCurve_eq, range_succ, map_append, map_singleton,
    getLast?_concat, hfinal, liquidationCosts, openAfter, contextBefore, hbars, hcfg, hn,
    Nat.add_sub_cancel, sub_add_cancel]

/-- **Report and ledger.**  The report of a run agrees with its ledger just when
liquidating what is left at the end costs nothing. -/
theorem run_reportsLedger {cfg : StrategyConfig F} {bars : List (OHLCV F)}
    {signals : List (StrategySignal F)} {r : SimulationResult F}
    (h : run cfg bars signals = .ok r) :
    ReportsLedger r ↔ liquidationCosts cfg bars signals = 0 := by
  have hlast := finalEquity_eq h
  constructor
  · intro hr
    rw [hr.lastEquity, Option.some.injEq] at hlast
    exact left_eq_add.mp hlast
  · intro hzero
    rw [hzero, add_zero] at hlast
    have hchain (g : Granularity) :
        buildPeriodReturns g bars r.equityCurve r.initialEquity ≠ [] ∧ Chained r.initialEquity
          (buildPeriodReturns g bars r.equityCurve r.initialEquity) r.finalEquity := by
      refine chained_buildPeriodReturns g ?_ hlast
      obtain ⟨-, rfl⟩ := run_eq_ok.mp h
      exact length_equityCurve _ _ _
    obtain ⟨-, rfl⟩ := run_eq_ok.mp h
    exact ⟨hlast, hchain .monthly, hchain .yearly⟩

/-- A position closed before the data end: nothing is left to liquidate, whatever
the costs. -/
theorem run_reportsLedger_sample :
    let cfg : StrategyConfig ℚ :=
      { StrategyConfig.defaults with
        trade := { TradeConfig.defaults with sizing := .fixedLot, fixedLot := 1, stopLoss := 5 } }
    let bars : List (OHLCV ℚ) :=
      [⟨0, 100, 101, 99, 100, 1⟩, ⟨60000000000, 100, 103, 99, 102, 1⟩,
        ⟨120000000000, 102, 102, 94, 95, 1⟩]
    let signals := [{ StrategySignal.defaults with barIndex := 0, action := .open }]
    ∃ r, run cfg bars signals = .ok r ∧ ReportsLedger r := by
  intro cfg bars signals
  obtain ⟨r, hr⟩ : ∃ r, run cfg bars signals = .ok r := exists_run (by decide +kernel)
  exact ⟨r, hr, (run_reportsLedger hr).mpr (by decide +kernel)⟩

/-- With a commission of one per lot a position left open at the end costs one
more than the equity curve shows: the curve ends at `99999`, the run at `99998`. -/
theorem equityCurve_misses_exitCost :
    let cfg : StrategyConfig ℚ :=
      { StrategyConfig.defaults with
        trade := { TradeConfig.defaults with
          sizing := .fixedLot, fixedLot := 1, commissionPct := 0, commissionPerLot := 1,
          spreadPct := 0, slippagePct := 0 } }
    let bars : List (OHLCV ℚ) := [⟨0, 100, 100, 100, 100, 1⟩, ⟨60000000000, 100, 100, 100, 100, 1⟩]
    let signals := [{ StrategySignal.defaults with barIndex := 0, action := .open }]
    ∃ r, run cfg bars signals = .ok r ∧ r.equityCurve = [100000, 99999] ∧
      r.finalEquity = 99998 ∧ ¬ ReportsLedger r := by
  intro cfg bars signals
  have hr : run cfg bars signals = .ok (simulate cfg bars signals) :=
    run_eq_ok.mpr ⟨inputError_eq_none.mp (by decide +kernel), rfl⟩
  have hcurve : (simulate cfg bars signals).equityCurve = [100000, 99999] := by decide +kernel
  have hfinal : (simulate cfg bars signals).finalEquity = 99998 := by decide +kernel
  refine ⟨_, hr, hcurve, hfinal, fun h ↦ ?_⟩
  have hlast := h.lastEquity
  rw [hcurve, hfinal] at hlast
  exact absurd hlast (by decide)

end Qros.Quant.Strategy
