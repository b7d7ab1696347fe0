import Qros.Quant.Strategy.Moment

/-!
# No look-ahead

Cutting the bars after the first `k` and dropping the signals of the later ones
gives a second run.  `SamePast k` relates the two environments: the configuration
is the same, and so are the bars and the ATR up to `k`.  Everything a bar `n < k`
reads lies there (`closeBar_congr`); the one access that goes through a signal,
the plan of an `Open`, is anchored at the bar that queued it, which is the bar
before (`pending_stateAfter`).

The two loops then agree on the context and the curves before every bar up to
`k`; only the final liquidations differ, and those are the trades that
`closedBefore` leaves out.
-/

universe u

set_option linter.unusedSectionVars false

namespace Qros.Quant.Strategy

open Qros.Lib.KeySort List

variable {F : Type u} [Zero F] [One F] [NatCast F] [Add F] [Sub F] [Mul F] [Div F] [Neg F]
  [LT F] [LE F] [DecidableLT F] [DecidableLE F] [CMath F]

/-! ## The input up to a bar -/

theorem barAt_take (bars : List (OHLCV F)) {i k : Nat} (h : i < k) :
    barAt (bars.take k) i = barAt bars i := by
  rw [barAt, barAt, getD_eq_getElem?_getD, getD_eq_getElem?_getD,
    getElem?_take_of_lt h]

theorem trueRange_take (bars : List (OHLCV F)) {i k : Nat} (h : i < k) :
    trueRange (bars.take k) i = trueRange bars i := by
  have hprev : barAt (bars.take k) (i - 1) = barAt bars (i - 1) := barAt_take bars (by omega)
  rw [trueRange, barAt_take bars h, hprev, trueRange]

theorem trueRangeSum_take (bars : List (OHLCV F)) (period : Nat) {n k : Nat} (h : n ≤ k) :
    trueRangeSum (bars.take k) period n = trueRangeSum bars period n := by
  induction n with
  | zero => rfl
  | succ n ih =>
    have hold : trueRange (bars.take k) (n - period) = trueRange bars (n - period) :=
      trueRange_take bars (by omega)
    simp only [trueRangeSum, ih (by omega), trueRange_take bars h, hold]

theorem getD_computeAtr (bars : List (OHLCV F)) (period : Int) {i : Nat} (h : i < bars.length) :
    (computeAtr bars period).getD i 0 = trueRangeSum bars (max 1 period).toNat (i + 1) /
      ((min (i + 1) (max 1 period).toNat : Nat) : F) := by
  rw [computeAtr, getD_eq_getElem?_getD, getElem?_map, getElem?_range h]
  rfl

/-- The environments agree on everything up to bar `k`. -/
structure SamePast (k : Nat) (env env' : Env F) : Prop where
  cfg : env.cfg = env'.cfg
  bars : ∀ i < k, barAt env.bars i = barAt env'.bars i
  atr : ∀ i < k, env.atr.getD i 0 = env'.atr.getD i 0
  noAtr : env.atr.isEmpty = env'.atr.isEmpty

theorem samePast_take (cfg : StrategyConfig F) (bars : List (OHLCV F)) {k : Nat} (hpos : 0 < k)
    (hk : k ≤ bars.length) : SamePast k (runEnv cfg bars) (runEnv cfg (bars.take k)) where
  cfg := rfl
  bars := fun _ hi ↦ (barAt_take bars hi).symm
  atr := by
    intro i hi
    unfold runEnv
    dsimp only
    split
    · rw [getD_computeAtr bars _ (lt_of_lt_of_le hi hk),
        getD_computeAtr (bars.take k) _ (by rw [length_take]; omega),
        trueRangeSum_take bars _ (Nat.succ_le_of_lt hi)]
    · rfl
  noAtr := by
    unfold runEnv
    dsimp only
    split
    · rw [Bool.eq_iff_iff, isEmpty_iff_length_eq_zero, isEmpty_iff_length_eq_zero]
      simp only [computeAtr, length_map, length_range, length_take]
      omega
    · rfl

/-! ## One bar -/

theorem buildStopPlan_congr {atr atr' : List F} {sig : StrategySignal F}
    (hat : atrAt atr sig = atrAt atr' sig) (hempty : atr.isEmpty = atr'.isEmpty)
    (tc : TradeConfig F) (raw : F) :
    buildStopPlan sig tc atr raw = buildStopPlan sig tc atr' raw := by
  simp only [buildStopPlan, slDistance, tpDistance, trailingDistance, hat, hempty]

section Congr

variable {k : Nat} {env env' : Env F} (h : SamePast k env env')

include h

theorem signalPlan_congr {sig : StrategySignal F} (h₀ : 0 ≤ sig.barIndex)
    (hk : sig.barIndex < k) : signalPlan env sig = signalPlan env' sig := by
  have hlt : sig.barIndex.toNat < k := by omega
  rw [signalPlan, signalPlan, h.cfg, h.bars _ hlt, buildStopPlan_congr (h.atr _ hlt) h.noAtr]

theorem executeSignal_congr {sig : StrategySignal F} (h₀ : 0 ≤ sig.barIndex)
    (hk : sig.barIndex < k) (bar : OHLCV F) (i : Int) (ctx : Context F) :
    executeSignal env bar i ctx sig = executeSignal env' bar i ctx sig := by
  have hplan := signalPlan_congr h h₀ hk
  have hsize (plan : StopPlan F) :
      sizeQuantity env ctx sig plan = sizeQuantity env' ctx sig plan := by
    rw [sizeQuantity, h.cfg, sizeQuantity]
  have hallowed : tradingAllowed env ctx bar = tradingAllowed env' ctx bar := by
    rw [tradingAllowed, h.cfg, tradingAllowed]
  have hopens : opens env ctx sig bar = opens env' ctx sig bar := by
    rw [opens, hplan, hsize, hallowed, h.cfg, opens]
  have hnew : newPosition env ctx sig bar i = newPosition env' ctx sig bar i := by
    simp only [newPosition, hplan, hsize, h.cfg]
  have hopen : openPosition env ctx sig bar i = openPosition env' ctx sig bar i := by
    rw [openPosition, hnew, openPosition]
  rw [executeSignal, hopens, hopen, h.cfg, executeSignal]

theorem fillPending_congr {ctx : Context F}
    (hp : ∀ s ∈ ctx.pending, 0 ≤ s.barIndex ∧ s.barIndex < k) (bar : OHLCV F) (i : Int) :
    fillPending env bar i ctx = fillPending env' bar i ctx := by
  have hfold : ctx.pending.foldl (executeSignal env bar i) ctx =
      ctx.pending.foldl (executeSignal env' bar i) ctx :=
    foldl_ext _ _ _ fun c s hs ↦ executeSignal_congr h (hp s hs).1 (hp s hs).2 bar i c
  rw [fillPending, hfold, fillPending]

omit h in
theorem pending_beforeFills (env : Env F) (ctx : Context F) (i : Nat) :
    (beforeFills env ctx i).pending = ctx.pending := by
  have hreset : (dailyReset env.cfg.risk (barAt env.bars i) ctx).pending = ctx.pending := by
    unfold dailyReset
    split <;> rfl
  simp only [beforeFills, sessionClose]
  split
  · split
    · rw [(steps_closeAll _ _ _ _ _).frame]
      exact hreset
    · exact hreset
  · exact hreset

/-- **A bar before `k` reads nothing from `k` on.** -/
theorem closeBar_congr {ctx : Context F} {n : Nat} (hn : n < k)
    (hp : ∀ s ∈ ctx.pending, 0 ≤ s.barIndex ∧ s.barIndex < k) :
    closeBar env ctx n = closeBar env' ctx n := by
  have hbefore : beforeFills env ctx n = beforeFills env' ctx n := by
    simp only [beforeFills, h.cfg, h.bars n hn]
  have hp' : ∀ s ∈ (beforeFills env' ctx n).pending, 0 ≤ s.barIndex ∧ s.barIndex < k := by
    rwa [pending_beforeFills]
  have hfill := fillPending_congr h hp' (barAt env'.bars n) n
  simp only [closeBar, managed, hbefore, h.cfg, h.bars n hn, hfill]

end Congr

/-! ## The two loops -/

/-- The loop states agree on all but the rest of the signal stream. -/
structure SameSoFar (st st' : LoopState F) : Prop where
  ctx : st.ctx = st'.ctx
  equityCurve : st.equityCurve = st'.equityCurve
  drawdownCurve : st.drawdownCurve = st'.drawdownCurve
  peakEq : st.peakEq = st'.peakEq

theorem SameSoFar.barStep {st st' : LoopState F} (h : SameSoFar st st') {env env' : Env F} {n : Nat}
    (hclose : closeBar env st.ctx n = closeBar env' st.ctx n)
    (sigs rest rest' : List (StrategySignal F)) :
    SameSoFar (barStep env n sigs rest st) (barStep env' n sigs rest' st') := by
  have hclose' : closeBar env st.ctx n = closeBar env' st'.ctx n := h.ctx ▸ hclose
  constructor <;>
    simp only [Strategy.barStep, hclose', h.equityCurve, h.drawdownCurve, h.peakEq]

def signalsBefore (k : Nat) (signals : List (StrategySignal F)) : List (StrategySignal F) :=
  signals.filter fun s ↦ decide (s.barIndex < k)

theorem signalsAt_signalsBefore (signals : List (StrategySignal F)) {n k : Nat} (h : n < k) :
    signalsAt (signalsBefore k signals) n = signalsAt signals n := by
  rw [signalsAt, signalsAt, atKey, signalsBefore, filter_filter, atKey]
  apply filter_congr
  intro s _
  by_cases hs : s.barIndex = (n : Int)
  · simp [hs, h]
  · simp [hs]

/-- Up to bar `k` the run on everything and the run on what is known then are in
the same state. -/
theorem stateAfter_take {bars : List (OHLCV F)} {signals : List (StrategySignal F)}
    (hacc : Accepted bars signals) (cfg : StrategyConfig F) {k : Nat} (hpos : 0 < k)
    (hk : k ≤ bars.length) {n : Nat} (hn : n ≤ k) :
    SameSoFar (stateAfter (runEnv cfg bars) (orderSignals signals) n)
      (stateAfter (runEnv cfg (bars.take k)) (orderSignals (signalsBefore k signals)) n) := by
  have hstart : ∀ s ∈ signals, 0 ≤ s.barIndex := fun s hs ↦ (hacc.inRange s hs).1
  have hstart' : ∀ s ∈ signalsBefore k signals, 0 ≤ s.barIndex := fun s hs ↦
    hstart s (mem_filter.mp hs).1
  induction n with
  | zero => exact ⟨rfl, rfl, rfl, rfl⟩
  | succ n ih =>
    have ih := ih (Nat.le_of_succ_le hn)
    obtain ⟨rest, heq⟩ := stateAfter_succ (runEnv cfg bars) hstart n
    obtain ⟨rest', heq'⟩ := stateAfter_succ (runEnv cfg (bars.take k)) hstart' n
    rw [heq, heq', signalsAt_signalsBefore signals hn]
    refine ih.barStep (closeBar_congr (samePast_take cfg bars hpos hk) hn ?_) _ _ _
    -- The queue holds signals of the bar before.
    cases n with
    | zero => simp [stateAfter, initialState, initialContext]
    | succ n =>
      intro s hs
      have := (pending_stateAfter (runEnv cfg bars) hstart hs).1
      omega

/-! ## Prefixes of the curves -/

theorem curves_take (env : Env F) (ordered : List (StrategySignal F)) {n m : Nat} (h : n ≤ m) :
    (stateAfter env ordered m).equityCurve.take n = (stateAfter env ordered n).equityCurve ∧
      (stateAfter env ordered m).drawdownCurve.take n =
        (stateAfter env ordered n).drawdownCurve := by
  have hlen (j : Nat) : (stateAfter env ordered j).equityCurve.length = j ∧
      (stateAfter env ordered j).drawdownCurve.length = j := by
    induction j with
    | zero => exact ⟨rfl, rfl⟩
    | succ j ih =>
      simp only [stateAfter, loopBody, barStep, length_append, length_singleton,
        ih.1, ih.2, and_self]
  induction m with
  | zero =>
    rw [Nat.le_zero.mp h]
    exact ⟨rfl, rfl⟩
  | succ m ih =>
    rcases Nat.lt_or_eq_of_le h with hlt | rfl
    · have hle : n ≤ m := Nat.lt_succ_iff.mp hlt
      rw [← (ih hle).1, ← (ih hle).2]
      constructor <;> refine take_append_of_le_length ?_
      · rw [(hlen m).1]
        exact hle
      · rw [(hlen m).2]
        exact hle
    · exact ⟨take_of_length_le (hlen _).1.le, take_of_length_le (hlen _).2.le⟩

/-! ## Whole runs -/

theorem Accepted.take {bars : List (OHLCV F)} {signals : List (StrategySignal F)}
    (h : Accepted bars signals) {k : Nat} (hpos : 0 < k) (hk : k ≤ bars.length) :
    Accepted (bars.take k) (signalsBefore k signals) where
  nonempty := by
    rw [length_take]
    omega
  valid := by
    intro i hi
    rw [length_take] at hi
    rw [barAt_take bars (by omega)]
    exact h.valid i (by omega)
  ordered := by
    intro i hi
    rw [length_take] at hi
    rw [barAt_take bars (by omega), barAt_take bars (by omega)]
    exact h.ordered i (by omega)
  inRange := by
    intro s hs
    obtain ⟨hmem, hlt⟩ := mem_filter.mp hs
    rw [length_take]
    have := of_decide_eq_true hlt
    have := h.inRange s hmem
    omega

/-- **No look-ahead.**  The run on the first `k` bars and the signals up to them
succeeds, and reports the first `k` entries of both curves and the trades closed
on those bars. -/
theorem run_noLookAhead [IntCast F] [BEq F] {cfg : StrategyConfig F} {bars : List (OHLCV F)}
    {signals : List (StrategySignal F)} {r : SimulationResult F}
    (h : run cfg bars signals = .ok r) {k : Nat} (hpos : 0 < k) (hk : k ≤ bars.length) :
    ∃ r', run cfg (bars.take k) (signalsBefore k signals) = .ok r' ∧
      r'.equityCurve = r.equityCurve.take k ∧ r'.drawdownCurve = r.drawdownCurve.take k ∧
      closedBefore k r'.trades = closedBefore k r.trades := by
  have hacc := (run_eq_ok.mp h).1
  have hlen : (bars.take k).length = k := by
    rw [length_take]
    omega
  have hrun : run cfg (bars.take k) (signalsBefore k signals) =
      .ok (simulate cfg (bars.take k) (signalsBefore k signals)) :=
    run_eq_ok.mpr ⟨hacc.take hpos hk, rfl⟩
  have hsame := stateAfter_take hacc cfg hpos hk (le_refl k)
  have hcurves := curves_take (runEnv cfg bars) (orderSignals signals) hk
  refine ⟨_, hrun, ?_, ?_, ?_⟩
  · obtain ⟨-, rfl⟩ := run_eq_ok.mp h
    show (stateAfter _ _ (bars.take k).length).equityCurve = List.take k
      (stateAfter _ _ bars.length).equityCurve
    rw [hlen, hcurves.1, hsame.equityCurve]
  · obtain ⟨-, rfl⟩ := run_eq_ok.mp h
    show (stateAfter _ _ (bars.take k).length).drawdownCurve = List.take k
      (stateAfter _ _ bars.length).drawdownCurve
    rw [hlen, hcurves.2, hsame.drawdownCurve]
  · rw [closedBefore_run hrun hlen.ge, closedBefore_run h hk, contextBefore, contextBefore,
      hsame.ctx]

/-- The first two bars of a position with an ATR stop. -/
theorem run_noLookAhead_sample :
    let cfg : StrategyConfig ℚ :=
      { StrategyConfig.defaults with
        trade := { TradeConfig.defaults with
          sizing := .fixedLot, fixedLot := 1, stopType := .atr, atrSlMultiplier := 1 } }
    let bars : List (OHLCV ℚ) :=
      [⟨0, 100, 101, 99, 100, 1⟩, ⟨60000000000, 100, 103, 99, 102, 1⟩,
        ⟨120000000000, 102, 102, 94, 95, 1⟩]
    let signals := [{ StrategySignal.defaults with barIndex := 0, action := .open },
      { StrategySignal.defaults with barIndex := 2, action := .open }]
    ∃ r r', run cfg bars signals = .ok r ∧ run cfg (bars.take 2) (signalsBefore 2 signals) = .ok r' ∧
      r'.equityCurve = r.equityCurve.take 2 := by
  intro cfg bars signals
  obtain ⟨r, hr⟩ : ∃ r, run cfg bars signals = .ok r := exists_run (by decide +kernel)
  obtain ⟨r', hr', hcurve, -⟩ := run_noLookAhead hr (by decide : 0 < 2) (by decide)
  exact ⟨r, r', hr, hr', hcurve⟩

end Qros.Quant.Strategy
