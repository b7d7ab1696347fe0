import Qros.Quant.Strategy.Bar

/-!
# Every moment of a run

`Moment env i ctx₀ ctx` says that the context `ctx` is reached while bar `i` is
processed from `ctx₀`: between two signals, between two managed positions, or
before and after any other step of the bar.

`BarInv env i I J` collects what has to be shown for `J` to hold at every moment
of bar `i` after the daily reset, when `I` holds before it: one obligation for
each way in which the context can change.  `BarInv.moment` and `BarInv.loopBody`
are the induction, done once; a property of whole runs is then a choice of `I`
and `J` and one `BarInv`.
-/

universe u

set_option linter.unusedSectionVars false

namespace Qros.Quant.Strategy

variable {F : Type u} [Zero F] [One F] [NatCast F] [Add F] [Sub F] [Mul F] [Div F] [Neg F]
  [LT F] [LE F] [DecidableLT F] [DecidableLE F] [CMath F]

/-- The contexts reached during bar `i`, entered with `ctx₀`. -/
inductive Moment (env : Env F) (i : Nat) (ctx₀ : Context F) : Context F → Prop
  | /-- After the daily reset. -/
    reset : Moment env i ctx₀ (dailyReset env.cfg.risk (barAt env.bars i) ctx₀)
  | /-- Some of the queued signals have been executed. -/
    fill (done todo : List (StrategySignal F))
      (h : (beforeFills env ctx₀ i).pending = done ++ todo) :
      Moment env i ctx₀ (done.foldl (executeSignal env (barAt env.bars i) i)
        (beforeFills env ctx₀ i))
  | /-- Some of the open positions have been managed. -/
    manage (done todo : List (OpenPosition F))
      (h : (fillPending env (barAt env.bars i) i (beforeFills env ctx₀ i)).positions =
        done ++ todo) :
      Moment env i ctx₀
        ((manageEach env.cfg.trade (barAt env.bars i) i
          (fillPending env (barAt env.bars i) i (beforeFills env ctx₀ i)) done).1.at
        ((manageEach env.cfg.trade (barAt env.bars i) i
          (fillPending env (barAt env.bars i) i (beforeFills env ctx₀ i)) done).2 ++ todo))
  | /-- The breaker has been evaluated. -/
    closed : Moment env i ctx₀ (closeBar env ctx₀ i).1

structure BarInv (env : Env F) (i : Nat) (I J : Context F → Prop) : Prop where
  reset : ∀ ctx, I ctx → J (dailyReset env.cfg.risk (barAt env.bars i) ctx)
  steps : ∀ ctx ctx', Steps env.cfg.trade NotEndOfData i (barAt env.bars i).timestamp ctx ctx' →
    J ctx → J ctx'
  fill : ∀ ctx sig, opens env ctx sig (barAt env.bars i) = true → J ctx →
    J (openPosition env ctx sig (barAt env.bars i) i)
  session : ∀ ctx a b, J ctx → J { ctx with prevInSession := a, prevSessionKnown := b }
  breaker : ∀ ctx ctx', Steps env.cfg.trade NotEndOfData i (barAt env.bars i).timestamp
    { ctx with lossLimitHit := true } ctx' → ctx'.positions = [] → J ctx → J ctx'
  book : ∀ ctx eq q n, J ctx →
    J { ctx with currentEquity := eq, pending := q, signalsIgnored := n }

namespace BarInv

variable {env : Env F} {i : Nat} {I J : Context F → Prop} {ctx : Context F}

theorem beforeFills (h : BarInv env i I J) (hI : I ctx) :
    J (Strategy.beforeFills env ctx i) := by
  have hJ := h.reset ctx hI
  simp only [Strategy.beforeFills, sessionClose]
  split
  · split
    · exact h.session _ _ _ (h.steps _ _ (steps_closeAll_loop (by decide) _ _ _ _) hJ)
    · exact h.session _ _ _ hJ
  · exact hJ

theorem executeSignal (h : BarInv env i I J) (hJ : J ctx) (sig : StrategySignal F) :
    J (Strategy.executeSignal env (barAt env.bars i) i ctx sig) := by
  rcases executeSignal_cases env (barAt env.bars i) i ctx sig with ⟨_, ho, heq⟩ | hsteps
  · rw [heq]
    exact h.fill ctx sig ho hJ
  · exact h.steps _ _ (hsteps.weaken fun r (hr : r = .signal) ↦ hr ▸ by decide) hJ

theorem executeSignals (h : BarInv env i I J) (hJ : J ctx) (sigs : List (StrategySignal F)) :
    J (sigs.foldl (Strategy.executeSignal env (barAt env.bars i) i) ctx) := by
  induction sigs generalizing ctx with
  | nil => exact hJ
  | cons s sigs ih => exact ih (h.executeSignal hJ s)

theorem fillPending (h : BarInv env i I J) (hJ : J ctx) :
    J (Strategy.fillPending env (barAt env.bars i) i ctx) :=
  h.book _ _ [] _ (h.executeSignals hJ ctx.pending)

theorem managed (h : BarInv env i I J) (hI : I ctx) : J (Strategy.managed env ctx i) :=
  h.steps _ _ (steps_managePositions _ _ _) (h.fillPending (h.beforeFills hI))

theorem closeBar (h : BarInv env i I J) (hI : I ctx) : J (Strategy.closeBar env ctx i).1 := by
  have hJ := h.managed hI
  simp only [Strategy.closeBar, lossLimitBreaker]
  split
  · exact h.breaker _ _ (steps_closeAll_loop (by decide) _ _ _ _) rfl hJ
  · exact hJ

theorem moment (h : BarInv env i I J) {ctx₀ : Context F} (hI : I ctx₀)
    (hm : Moment env i ctx₀ ctx) : J ctx := by
  cases hm with
  | reset => exact h.reset _ hI
  | fill done todo _ => exact h.executeSignals (h.beforeFills hI) done
  | manage done todo hsplit =>
    have hJ := h.fillPending (h.beforeFills hI)
    -- The managed positions come first, the others wait behind them.
    refine h.steps _ _ ?_ hJ
    refine (congrArg (fun c ↦ Steps _ _ _ _ c _) ?_).mp
      (steps_manageEach_done (barAt env.bars i) i
        (Strategy.fillPending env (barAt env.bars i) i (Strategy.beforeFills env ctx₀ i))
        done todo)
    rw [Context.at, ← hsplit]
  | closed => exact h.closeBar hI

theorem loopBody (h : BarInv env i I J) {st : LoopState F} (hI : I st.ctx) :
    J (Strategy.loopBody env i st).ctx := by
  rw [loopBody_frame]
  exact h.book _ _ _ _ (h.closeBar hI)

end BarInv

/-- **Run induction.**  A family of context properties that each bar carries from
its start to the start of the next one holds before every bar. -/
theorem stateAfter_induction {env : Env F} {ordered : List (StrategySignal F)}
    {I : Nat → Context F → Prop} (h₀ : I 0 (initialContext env.cfg.risk)) {n : Nat}
    (h : ∀ i < n, I i (stateAfter env ordered i).ctx →
      I (i + 1) (loopBody env i (stateAfter env ordered i)).ctx) :
    I n (stateAfter env ordered n).ctx := by
  induction n with
  | zero => exact h₀
  | succ n ih =>
    exact h n (Nat.lt_succ_self n) (ih fun i hi ↦ h i (Nat.lt_succ_of_lt hi))

/-! ## The trades of a bar -/

/-- The trades that a bar adds are closed on that bar, and not by the final
liquidation. -/
theorem barInv_closes (env : Env F) (i : Nat) (ctx₀ : Context F) :
    BarInv env i (· = ctx₀) (Closes NotEndOfData i ctx₀) where
  reset := by
    intro ctx h
    subst h
    unfold dailyReset
    split <;> exact .of_eq rfl
  steps := fun _ _ hs h ↦ h.trans hs.closes
  fill := fun _ _ _ h ↦ h
  session := fun _ _ _ h ↦ h
  breaker := fun ctx _ hs _ h ↦
    have h' : Closes NotEndOfData i ctx₀ { ctx with lossLimitHit := true } := h
    h'.trans hs.closes
  book := fun _ _ _ _ h ↦ h

theorem closes_loopBody (env : Env F) (i : Nat) (st : LoopState F) :
    Closes NotEndOfData i st.ctx (loopBody env i st).ctx :=
  (barInv_closes env i st.ctx).loopBody rfl

/-- The reported trades closed before bar `n`, the final liquidation left out. -/
def closedBefore (n : Nat) (trades : List (TradeResult F)) : List (TradeResult F) :=
  trades.filter fun t ↦ decide (t.exitBar < n) && decide (t.exitReason ≠ .endOfData)

/-- A bar adds nothing to the trades closed before it, and only trades closed
before the next one. -/
theorem closedBefore_loopBody (env : Env F) (i : Nat) (st : LoopState F) {n : Nat} (hn : n ≤ i) :
    closedBefore n (loopBody env i st).ctx.trades = closedBefore n st.ctx.trades := by
  obtain ⟨new, hnew, hall⟩ := closes_loopBody env i st
  have hnil : closedBefore n new = [] := by
    apply List.filter_eq_nil_iff.mpr
    intro t ht
    have hexit := (hall t ht).1
    simp only [Bool.and_eq_true, decide_eq_true_eq, not_and]
    intro hlt
    omega
  rw [hnew, closedBefore, List.filter_append]
  exact (congrArg (_ ++ ·) hnil).trans (List.append_nil _)

theorem closedBefore_self (env : Env F) (ordered : List (StrategySignal F)) (n : Nat) :
    closedBefore n (stateAfter env ordered n).ctx.trades =
    (stateAfter env ordered n).ctx.trades := by
  refine List.filter_eq_self.mpr ?_
  refine stateAfter_induction (I := fun n ctx ↦ ∀ t ∈ ctx.trades,
      (decide (t.exitBar < n) && decide (t.exitReason ≠ .endOfData)) = true) ?_ ?_
  · intro t ht
    cases ht
  · intro i _ ih t ht
    obtain ⟨new, hnew, hall⟩ := closes_loopBody env i (stateAfter env ordered i)
    rw [hnew] at ht
    rcases List.mem_append.mp ht with ht | ht
    · have := ih t ht
      simp only [Bool.and_eq_true, decide_eq_true_eq] at this ⊢
      exact ⟨by omega, this.2⟩
    · obtain ⟨hexit, hreason, -⟩ := hall t ht
      simp only [Bool.and_eq_true, decide_eq_true_eq]
      exact ⟨by omega, hreason⟩

/-- The trades of the first `n` bars are those that the whole loop closes before
bar `n`. -/
theorem trades_stateAfter (env : Env F) (ordered : List (StrategySignal F)) {n m : Nat}
    (h : n ≤ m) : (stateAfter env ordered n).ctx.trades =
      closedBefore n (stateAfter env ordered m).ctx.trades := by
  induction m with
  | zero =>
    rw [Nat.le_zero.mp h]
    rfl
  | succ m ih =>
    rcases Nat.lt_or_eq_of_le h with hlt | rfl
    · rw [ih (Nat.lt_succ_iff.mp hlt)]
      exact (closedBefore_loopBody env m _ (Nat.lt_succ_iff.mp hlt)).symm
    · exact (closedBefore_self env ordered (m + 1)).symm

theorem liquidate_closes (env : Env F) (ctx : Context F) :
    Closes (· = .endOfData) ((env.bars.length : Int) - 1) ctx (liquidate env ctx) :=
  (steps_closeAll _ _ _ _ ctx).closes

theorem closedBefore_liquidate (env : Env F) (ctx : Context F) (n : Nat) :
    closedBefore n (liquidate env ctx).trades = closedBefore n ctx.trades := by
  obtain ⟨new, hnew, hall⟩ := liquidate_closes env ctx
  have hnil : closedBefore n new = [] := by
    apply List.filter_eq_nil_iff.mpr
    intro t ht
    simp [(hall t ht).2.1]
  rw [hnew, closedBefore, List.filter_append]
  exact (congrArg (_ ++ ·) hnil).trans (List.append_nil _)

/-- **The report and the loop.**  The trades a run has after its first `n` bars
can be read off the final report. -/
theorem closedBefore_run [IntCast F] [BEq F] {cfg : StrategyConfig F} {bars : List (OHLCV F)}
    {signals : List (StrategySignal F)} {r : SimulationResult F}
    (h : run cfg bars signals = .ok r) {n : Nat} (hn : n ≤ bars.length) :
    closedBefore n r.trades = (contextBefore cfg bars signals n).trades := by
  obtain ⟨-, rfl⟩ := run_eq_ok.mp h
  exact (closedBefore_liquidate _ _ n).trans (trades_stateAfter _ _ hn).symm

end Qros.Quant.Strategy
