import Qros.Quant.Strategy.Tightening

/-!
# Positions without a stop

Four places write the stop of a position: its entry, if its plan has a stop
distance; a `Modify` signal that carries a stop; break-even; and the trailing
stop.  A position that none of them has written keeps the stop `0`
(`stopLoss_of_neverSet`), and `stop_hit` compares it with the prices like any
other level.  It is hit by a long on a low that is not positive, and by a short on
a high that is not negative: with positive prices, on the first bar the short
is managed.

`run_neverStopped_iff` is the exact account, over whole runs.
-/

universe u

set_option linter.unusedSectionVars false

namespace Qros.Quant.Strategy

open Qros.Lib.StopGuard List

variable {F : Type u}

/-! ## Trades that report a stop -/

section

variable [Zero F] [One F] [NatCast F] [Add F] [Sub F] [Mul F] [Div F] [Neg F]
  [LT F] [LE F] [DecidableLT F] [DecidableLE F] [CMath F]

theorem Closes.mem {ok : ExitReason → Prop} {i : Int} {ctx ctx' : Context F}
    (h : Closes ok i ctx ctx') {t : TradeResult F} (ht : t ∈ ctx.trades) : t ∈ ctx'.trades := by
  obtain ⟨new, hnew, -⟩ := h
  exact hnew ▸ mem_append_left _ ht

theorem Closes.of_mem {ok : ExitReason → Prop} {i : Int} {ctx ctx' : Context F}
    (h : Closes ok i ctx ctx') {t : TradeResult F} (ht : t ∈ ctx'.trades) (hno : ¬ok t.exitReason) :
    t ∈ ctx.trades := by
  obtain ⟨new, hnew, hall⟩ := h
  rcases mem_append.mp (hnew ▸ ht) with ht | ht
  · exact ht
  · exact absurd (hall t ht).2.1 hno

theorem closes_closeAll (tc : TradeConfig F) (rawFill : F) (reason : ExitReason) (i : Int)
    (ts : TimePoint) (ctx : Context F) :
    Closes (· = reason) i ctx (closeAll tc ctx rawFill reason i ts) :=
  Steps.closes (steps_closeAll rawFill reason i ts ctx)

theorem closes_manageEach (tc : TradeConfig F) (bar : OHLCV F) (i : Int) (ctx : Context F)
    (ps : List (OpenPosition F)) : Closes NotEndOfData i ctx (manageEach tc bar i ctx ps).1 := by
  have h : Steps tc NotEndOfData i bar.timestamp _ _ := steps_manageEach_done bar i ctx ps []
  exact h.closes

structure StopTrade (bar : OHLCV F) (i : Int) (p : OpenPosition F) (t : TradeResult F) : Prop where
  ticket : t.ticket = p.ticket
  exitBar : t.exitBar = i
  hit : p.stopHit bar.high bar.low = true
  exitReason : t.exitReason = stopReason p

section Manage

variable {tc : TradeConfig F} {bar : OHLCV F} {i : Int} {ctx : Context F} {p : OpenPosition F}
  {t : TradeResult F}

theorem mem_trades_manageOne (ht : t ∈ (manageOne tc bar i ctx p).1.trades)
    (hr : t.exitReason = .stopLoss) : t ∈ ctx.trades ∨ StopTrade bar i p t := by
  by_cases hhit : p.stopHit bar.high bar.low = true
  · rw [manageOne_of_stopHit hhit] at ht
    rcases mem_append.mp ht with ht | ht
    · exact .inl ht
    · rw [mem_singleton.mp ht] at hr ⊢
      exact .inr ⟨(ticket_ageOneBar p bar).1, rfl, hhit, rfl⟩
  · left
    have hpart : ∀ q, (managePartial tc ctx q bar).1.trades = ctx.trades := by
      intro q
      unfold managePartial
      split <;> rfl
    rw [manageOne] at ht
    dsimp only at ht
    rw [stopHit_ageOneBar, if_neg hhit] at ht
    split at ht
    · rcases mem_append.mp ht with ht | ht
      · exact ht
      · rw [mem_singleton.mp ht] at hr
        cases hr
    · split at ht
      · rcases mem_append.mp ht with ht | ht
        · exact hpart _ ▸ ht
        · rw [mem_singleton.mp ht] at hr
          cases hr
      · exact hpart _ ▸ ht

theorem mem_trades_manageEach {ps : List (OpenPosition F)}
    (ht : t ∈ (manageEach tc bar i ctx ps).1.trades) (hr : t.exitReason = .stopLoss) :
    t ∈ ctx.trades ∨ ∃ p ∈ ps, StopTrade bar i p t := by
  induction ps generalizing ctx with
  | nil => exact .inl ht
  | cons p ps ih =>
    rcases ih ht with ht | ⟨q, hq, hstop⟩
    · rcases mem_trades_manageOne ht hr with ht | hstop
      · exact .inl ht
      · exact .inr ⟨p, mem_cons_self, hstop⟩
    · exact .inr ⟨q, mem_cons_of_mem _ hq, hstop⟩

theorem exists_trade_manageOne (tc : TradeConfig F) (i : Int) (ctx : Context F)
    (hhit : p.stopHit bar.high bar.low = true) :
    ∃ t ∈ (manageOne tc bar i ctx p).1.trades, StopTrade bar i p t := by
  rw [manageOne_of_stopHit hhit]
  exact ⟨_, mem_append_right _ mem_cons_self, (ticket_ageOneBar p bar).1, rfl, hhit, rfl⟩

theorem exists_trade_manageEach (tc : TradeConfig F) (i : Int) (ctx : Context F)
    {ps : List (OpenPosition F)} (hp : p ∈ ps)
    (hhit : p.stopHit bar.high bar.low = true) :
    ∃ t ∈ (manageEach tc bar i ctx ps).1.trades, StopTrade bar i p t := by
  induction ps generalizing ctx with
  | nil => cases hp
  | cons q ps ih =>
    rcases mem_cons.mp hp with rfl | hp
    · obtain ⟨t, ht, hstop⟩ := exists_trade_manageOne tc i ctx hhit
      exact ⟨t, (closes_manageEach tc bar i _ ps).mem ht, hstop⟩
    · exact ih _ hp

end Manage

/-! ## Runs -/

section

variable {env : Env F} {ordered : List (StrategySignal F)}

theorem closes_atFills (i : Nat) :
    Closes (· = .sessionClose) i (stateAfter env ordered i).ctx (atFills env ordered i) := by
  have hreset : Closes (· = .sessionClose) i (stateAfter env ordered i).ctx
      (dailyReset env.cfg.risk (barAt env.bars i) (stateAfter env ordered i).ctx) := by
    unfold dailyReset
    split <;> exact .of_eq rfl
  refine hreset.trans ?_
  simp only [atFills, beforeFills, sessionClose]
  split
  · split
    · exact closes_closeAll env.cfg.trade _ _ _ _ _
    · exact .of_eq rfl
  · exact .of_eq rfl

theorem closes_executeSignals (i : Nat) (sigs : List (StrategySignal F)) (ctx : Context F) :
    Closes (· = .signal) i ctx (sigs.foldl (executeSignal env (barAt env.bars i) i) ctx) := by
  induction sigs generalizing ctx with
  | nil => exact .of_eq rfl
  | cons sig sigs ih =>
    refine .trans ?_ (ih _)
    rcases executeSignal_cases env (barAt env.bars i) i ctx sig with ⟨-, -, heq⟩ | hsteps
    · exact .of_eq (by rw [heq]; rfl)
    · exact hsteps.closes

theorem closes_closeBar (i : Nat) (ctx : Context F) :
    Closes (· = .dailyLossLimit) i (managed env ctx i) (closeBar env ctx i).1 := by
  simp only [closeBar, lossLimitBreaker]
  split
  · exact closes_closeAll env.cfg.trade _ _ _ _ _
  · exact .of_eq rfl

/-- **Every stop that is reported was hit**, on the bar of the exit and by a
position that the bar managed. -/
theorem mem_trades_stateAfter {n : Nat} {t : TradeResult F}
    (ht : t ∈ (stateAfter env ordered n).ctx.trades) (hr : t.exitReason = .stopLoss) :
    ∃ i < n, ∃ p ∈ filledAt env ordered i, StopTrade (barAt env.bars i) i p t := by
  induction n with
  | zero => cases ht
  | succ i ih =>
    have hclosed : t ∈ (closeBar env (stateAfter env ordered i).ctx i).1.trades := by
      rw [stateAfter, loopBody_frame] at ht
      exact ht
    have hmanaged := (closes_closeBar i _).of_mem hclosed (by rw [hr]; decide)
    rcases mem_trades_manageEach hmanaged hr with hfilled | ⟨p, hp, hstop⟩
    · have hopen := (closes_executeSignals i _ _).of_mem hfilled (by rw [hr]; decide)
      have hbefore := (closes_atFills i).of_mem hopen (by rw [hr]; decide)
      obtain ⟨j, hj, hrest⟩ := ih hbefore
      exact ⟨j, Nat.lt_succ_of_lt hj, hrest⟩
    · exact ⟨i, Nat.lt_succ_self i, p, hp, hstop⟩

/-- **Every stop that is hit is reported.** -/
theorem exists_trade_stateAfter {i : Nat} {p : OpenPosition F} (hp : p ∈ filledAt env ordered i)
    (hhit : p.stopHit (barAt env.bars i).high (barAt env.bars i).low = true) :
    ∃ t ∈ (stateAfter env ordered (i + 1)).ctx.trades, StopTrade (barAt env.bars i) i p t := by
  obtain ⟨t, ht, hstop⟩ := exists_trade_manageEach env.cfg.trade i
    (fillPending env (barAt env.bars i) i (atFills env ordered i)) hp hhit
  refine ⟨t, ?_, hstop⟩
  rw [stateAfter, loopBody_frame]
  exact (closes_closeBar i _).mem ht

end

/-! ## The four writers of the stop -/

/-- On bar `i` nothing has written the stop of the position with the ticket `k`: no
`Modify` with a stop reaches it, it was entered without a planned stop, and neither
trailing nor break-even has set in. -/
def StopUnset (env : Env F) (ordered : List (StrategySignal F)) (i : Nat) (k : Ticket) : Prop :=
  ¬ModifiedAt env ordered i (fun sig ↦ sig.hasStopLoss = true) k ∧
    ∀ p ∈ filledAt env ordered i, p.ticket = k →
      p.riskedAmount = 0 ∧ p.trailingActive = false ∧ p.breakEvenMoved = false

/-- Nothing has written the stop up to bar `b`. -/
def StopNeverSet (env : Env F) (ordered : List (StrategySignal F)) (b : Int) (k : Ticket) : Prop :=
  ∀ j : Nat, (j : Int) ≤ b → StopUnset env ordered j k

end

section Sentinel

variable [Field F] [LinearOrder F] [IsStrictOrderedRing F] [CMath F]

variable {bar : OHLCV F} {ctx : Context F} {sig : StrategySignal F} {p : OpenPosition F}

theorem pos_of_opens {env : Env F} (h : opens env ctx sig bar = true) :
    0 < sizeQuantity env ctx sig (signalPlan env sig) := by
  simp only [opens, Bool.and_eq_true, Bool.not_eq_true', decide_eq_false_iff_not, not_le] at h
  exact h.2

theorem riskedAmount_newPosition {env : Env F} (h : opens env ctx sig bar = true) (i : Int) :
    (newPosition env ctx sig bar i).riskedAmount = 0 ↔ (signalPlan env sig).stopDistance ≤ 0 := by
  have hrisk : (newPosition env ctx sig bar i).riskedAmount =
      if 0 < (signalPlan env sig).stopDistance then
        (signalPlan env sig).stopDistance * sizeQuantity env ctx sig (signalPlan env sig)
      else 0 := rfl
  rw [hrisk]
  split
  · rename_i hpos
    exact iff_of_false (mul_pos hpos (pos_of_opens h)).ne' (not_le.mpr hpos)
  · rename_i hpos
    exact iff_of_true rfl (not_lt.mp hpos)

theorem stopLoss_newPosition {env : Env F} {i : Int} (h : (signalPlan env sig).stopDistance ≤ 0) :
    (newPosition env ctx sig bar i).stopLoss = 0 := by
  have hlevel : (newPosition env ctx sig bar i).stopLoss =
      if 0 < (signalPlan env sig).stopDistance then
        against sig.side (barAt env.bars sig.barIndex.toNat).close (signalPlan env sig).stopDistance
      else 0 := rfl
  rw [hlevel, if_neg (not_lt.mpr h)]

variable {env : Env F} {ordered : List (StrategySignal F)}

theorem stopLoss_moveStop (ha : (moveStop p bar).trailingActive = false)
    (hb : (moveStop p bar).breakEvenMoved = false) :
    (moveStop p bar).stopLoss = p.stopLoss := by
  have hguard := guard_moveStop p bar
  have hside : (moveStop p bar).side = p.side := congrArg Ticket.side (ticket_moveStop p bar)
  have hstop : (moveStop p bar).guard.stop = p.guard.stop := by
    rw [hguard]
    refine Guard.stop_step_of_idle ?_ ?_
    · rw [← hguard]
      exact hb
    · rw [← hguard]
      exact ha
  simp only [OpenPosition.guard, hside] at hstop
  cases hs : p.side <;> simpa [towards, hs] using hstop

/-- **The sentinel survives.**  A stop that nothing has written is still `0`. -/
theorem stopLoss_of_neverSet {i : Nat} (hp : p ∈ filledAt env ordered i)
    (h : StopNeverSet env ordered i p.ticket) : p.stopLoss = 0 := by
  induction i generalizing p with
  | zero =>
    refine mem_filledAt (Q := fun q ↦ q.riskedAmount = 0 → q.stopLoss = 0)
      (fun q hq ↦ absurd hq not_mem_stateAfter_zero) ?_ ?_ (h 0 (by simp)).1 hp
      ((h 0 (by simp)).2 p hp rfl).1
    · rintro q ⟨ctx, sig, ho, rfl⟩ - hrisk
      exact stopLoss_newPosition ((riskedAmount_newPosition ho _).mp hrisk)
    · intro sig q hno hq hrisk
      exact (if_neg hno).trans (hq hrisk)
  | succ i ih =>
    obtain ⟨hmod, hflags⟩ := h (i + 1) (le_refl _)
    obtain ⟨hrisk, hidle, hunmoved⟩ := hflags p hp rfl
    refine mem_filledAt (Q := fun q ↦ q.riskedAmount = 0 → q.trailingActive = false →
      q.breakEvenMoved = false → q.stopLoss = 0) ?_ ?_ ?_ hmod hp hrisk hidle hunmoved
    · -- Left over by the bar before, which has not touched the stop either.
      intro q hq hticket hrisk ha hb
      obtain ⟨o, ho, -, o', hsame, rfl⟩ := mem_managedAt (mem_stateAfter_succ hq)
      rw [stopLoss_moveStop ha hb, hsame.stopLoss]
      refine ih ho fun j hj ↦ ?_
      rw [← hsame.moveStop_ticket (barAt env.bars i), hticket]
      exact h j (le_trans hj (by simp))
    · rintro q ⟨ctx, sig, ho, rfl⟩ - hrisk - -
      exact stopLoss_newPosition ((riskedAmount_newPosition ho _).mp hrisk)
    · intro sig q hno hq hrisk ha hb
      exact (if_neg hno).trans (hq hrisk ha hb)

/-- The prices of the bar keep away from the sentinel on the side that `stop_hit`
looks at. -/
def ClearOfZero (bar : OHLCV F) : TradeSide → Prop
  | .long => 0 < bar.low
  | .short => bar.high < 0

theorem stopHit_of_zero (h : p.stopLoss = 0) (bar : OHLCV F) :
    p.stopHit bar.high bar.low = true ↔ ¬ClearOfZero bar p.side := by
  cases hs : p.side <;> simp [OpenPosition.stopHit, OpenPosition.isLong, ClearOfZero, hs, h]

/-- **Positions without a stop.**  A run reports no stop-loss for a position whose
stop was never set exactly if, on every bar that manages such a position, the
prices are above zero for a long and below zero for a short. -/
theorem run_neverStopped_iff {cfg : StrategyConfig F} {bars : List (OHLCV F)}
    {signals : List (StrategySignal F)} {r : SimulationResult F}
    (h : run cfg bars signals = .ok r) :
    (∀ t ∈ r.trades,
        StopNeverSet (runEnv cfg bars) (orderSignals signals) t.exitBar t.ticket →
        t.exitReason ≠ .stopLoss) ↔
      ∀ i < bars.length, ∀ p ∈ filledAt (runEnv cfg bars) (orderSignals signals) i,
        StopNeverSet (runEnv cfg bars) (orderSignals signals) i p.ticket →
        ClearOfZero (barAt bars i) p.side := by
  constructor
  · intro hnever i hi p hp hunset
    by_contra hzero
    have hhit := (stopHit_of_zero (stopLoss_of_neverSet hp hunset) (barAt bars i)).mpr hzero
    obtain ⟨t, ht, hstop⟩ := exists_trade_stateAfter hp hhit
    have hmem : t ∈ r.trades := by
      have hfinal := closedBefore_run h (n := i + 1) hi
      exact (mem_filter.mp (hfinal.symm ▸ ht : t ∈ closedBefore (i + 1) r.trades)).1
    refine hnever t hmem ?_ ?_
    · rw [hstop.exitBar, hstop.ticket]
      exact hunset
    · obtain ⟨-, hidle, hunmoved⟩ := (hunset i (le_refl _)).2 p hp rfl
      rw [hstop.exitReason, stopReason, hidle, hunmoved]
      rfl
  · intro hclear t ht hunset hr
    have hloop : t ∈ (loopEnd cfg bars signals).ctx.trades := by
      obtain ⟨-, rfl⟩ := run_eq_ok.mp h
      exact (liquidate_closes _ _).of_mem ht (by rw [hr]; decide)
    obtain ⟨i, hi, p, hp, hstop⟩ := mem_trades_stateAfter hloop hr
    rw [hstop.exitBar, hstop.ticket] at hunset
    exact (stopHit_of_zero (stopLoss_of_neverSet hp hunset) (barAt bars i)).mp hstop.hit
      (hclear i hi p hp hunset)

end Sentinel

/-! ## Two runs without stops -/

/-- One signal without a stop, under a configuration without one. -/
def stopless (side : TradeSide) : StrategyConfig ℚ × List (StrategySignal ℚ) :=
  ({ StrategyConfig.defaults with
      trade := { TradeConfig.defaults with sizing := .fixedLot, fixedLot := 1, stopType := .none } },
    [{ StrategySignal.defaults with barIndex := 0, action := .open, side := side }])

/-- Prices around `100`. -/
def quietBars : List (OHLCV ℚ) :=
  [⟨0, 100, 101, 99, 100, 1⟩, ⟨60000000000, 100, 102, 98, 99, 1⟩,
    ⟨120000000000, 99, 100, 97, 98, 1⟩]

theorem stopless_not_modifiedAt (side : TradeSide) {j : Nat} (hj : j < 2) (k : Ticket) :
    ¬ModifiedAt (runEnv (stopless side).1 quietBars) (orderSignals (stopless side).2) j
      (fun sig ↦ sig.hasStopLoss = true) k := by
  have hqueue : ∀ j < 2, ∀ sig ∈ (atFills (runEnv (stopless side).1 quietBars)
      (orderSignals (stopless side).2) j).pending, sig.action ≠ .modify := by
    cases side <;> decide +kernel
  intro h
  obtain ⟨sig, hsig, -, hmodify⟩ := h.exists
  exact hqueue j hj sig hsig hmodify

/-- A long without a stop is carried to the end of the data. -/
theorem run_neverStopped_sample : ∃ r, run (stopless .long).1 quietBars (stopless .long).2 = .ok r ∧
    ∀ t ∈ r.trades, StopNeverSet (runEnv (stopless .long).1 quietBars)
      (orderSignals (stopless .long).2) t.exitBar t.ticket → t.exitReason ≠ .stopLoss := by
  obtain ⟨r, hr⟩ : ∃ r, run (stopless .long).1 quietBars (stopless .long).2 = .ok r :=
    exists_run (by decide +kernel)
  have hlong : ∀ i < quietBars.length, ∀ p ∈ filledAt (runEnv (stopless .long).1 quietBars)
      (orderSignals (stopless .long).2) i, p.side = .long := by decide +kernel
  have hlow : ∀ i < quietBars.length, 0 < (barAt quietBars i).low := by decide +kernel
  refine ⟨r, hr, (run_neverStopped_iff hr).mpr fun i hi p hp _ ↦ ?_⟩
  rw [hlong i hi p hp]
  exact hlow i hi

/-- A short without a stop is reported as stopped out on the bar of its entry, at
ordinary prices. -/
theorem short_without_stop_stopped :
    ∃ r, run (stopless .short).1 quietBars (stopless .short).2 = .ok r ∧
      ∃ t ∈ r.trades, t.exitReason = .stopLoss ∧
        StopNeverSet (runEnv (stopless .short).1 quietBars) (orderSignals (stopless .short).2)
          t.exitBar t.ticket := by
  have hacc : Accepted quietBars (stopless .short).2 := inputError_eq_none.mp (by decide +kernel)
  refine ⟨_, run_eq_ok.mpr ⟨hacc, rfl⟩, ?_⟩
  have htrade : ∃ t ∈ (simulate (stopless .short).1 quietBars (stopless .short).2).trades,
      t.exitReason = .stopLoss ∧ t.exitBar = 1 := by decide +kernel
  obtain ⟨t, ht, hr, hbar⟩ := htrade
  refine ⟨t, ht, hr, fun j hj ↦ ⟨stopless_not_modifiedAt .short (by omega) _, ?_⟩⟩
  have hidle : ∀ j < 2, ∀ p ∈ filledAt (runEnv (stopless .short).1 quietBars)
      (orderSignals (stopless .short).2) j,
      p.riskedAmount = 0 ∧ p.trailingActive = false ∧ p.breakEvenMoved = false := by
    decide +kernel
  exact fun p hp _ ↦ hidle j (by omega) p hp

end Qros.Quant.Strategy
