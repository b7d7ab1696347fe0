import Qros.Quant.Strategy.MirrorFill

/-!
# Mirrored runs

The bar loop keeps contexts mirror images of each other, so a run on mirrored
input reports the mirrored trades and the same equity.

The permissions `allow_long` and `allow_short` name sides, so the mirrored run has
them exchanged, and half the spread is charged in proportion to the price, so it
must be zero next to the other percentages: `mirror_needs_sides_and_spread` shows
a run whose image differs without either.
-/

universe u

set_option linter.unusedSectionVars false

namespace Qros.Quant.Strategy

open Qros.Lib.KeySort List

variable {F : Type u} [Field F] [LinearOrder F] [IsStrictOrderedRing F] [CMath F] {A : F}

/-! ## One bar -/

/-- What the signal must meet when it is executed in `ctx`. -/
structure GoodFill (A : F) (env : Env F) (bar : OHLCV F) (ctx : Context F)
    (sig : StrategySignal F) : Prop where
  inRange : sig.barIndex.toNat < env.bars.length
  opened : sig.action = .open → opens env ctx sig bar = true → GoodPlan A env sig
  modify : GoodModify A sig

/-- What the signals queued in `ctx₀` must meet when bar `i` fills them, each in the
context that the ones before it leave. -/
def GoodFills (A : F) (env : Env F) (ctx₀ : Context F) (i : Nat) : Prop :=
  ∀ done sig todo, (beforeFills env ctx₀ i).pending = done ++ sig :: todo →
    GoodFill A env (barAt env.bars i)
      (done.foldl (executeSignal env (barAt env.bars i) i) (beforeFills env ctx₀ i)) sig

section Bar

variable {env env' : Env F} (he : MirrorEnv A env env') {ctx ctx' : Context F}
  (h : MirrorCtx A ctx ctx')

include he h

variable {b b' : OHLCV F}

theorem MirrorEnv.executeSignals (hb : MirrorBar A b b') (i : Int)
    {sigs : List (StrategySignal F)}
    (hgood : ∀ done sig todo, sigs = done ++ sig :: todo →
      GoodFill A env b (done.foldl (Strategy.executeSignal env b i) ctx) sig) :
    MirrorCtx A (sigs.foldl (Strategy.executeSignal env b i) ctx)
      ((sigs.map (mirrorSignal A)).foldl (Strategy.executeSignal env' b' i) ctx') := by
  induction sigs generalizing ctx ctx' with
  | nil => exact h
  | cons sig sigs ih =>
    have hsig := hgood [] sig sigs rfl
    refine ih (he.executeSignal h hb hsig.inRange hsig.opened hsig.modify i) ?_
    intro done s todo hsplit
    exact hgood (sig :: done) s todo (congrArg (sig :: ·) hsplit)

theorem MirrorEnv.dailyReset (hb : MirrorBar A b b') :
    MirrorCtx A (dailyReset env.cfg.risk b ctx) (dailyReset env'.cfg.risk b' ctx') := by
  unfold Strategy.dailyReset
  rw [he.risk, hb.timestamp, h.lastDayKey]
  split
  · exact { h with
      lastDayKey := rfl
      dailyStartEquity := h.currentEquity
      dailyTrades := rfl
      lossLimitHit := rfl }
  · exact h

theorem MirrorEnv.sessionClose (hb : MirrorBar A b b') (i : Int) :
    MirrorCtx A (sessionClose env.cfg b i ctx) (sessionClose env'.cfg b' i ctx') := by
  have hclosed := h.closeAll he.costs hb.open .sessionClose i b.timestamp
  unfold Strategy.sessionClose
  rw [he.risk, he.trade, hb.timestamp, h.prevInSession, h.prevSessionKnown]
  dsimp only
  split
  · split
    · exact { hclosed with prevInSession := rfl, prevSessionKnown := rfl }
    · exact { h with prevInSession := rfl, prevSessionKnown := rfl }
  · exact h

theorem MirrorEnv.lossLimitBreaker (hb : MirrorBar A b b') (i : Int) (eq : F) :
    MirrorCtx A (lossLimitBreaker env.cfg b i ctx eq).1 (lossLimitBreaker env'.cfg b' i ctx' eq).1 ∧
      (lossLimitBreaker env'.cfg b' i ctx' eq).2 = (lossLimitBreaker env.cfg b i ctx eq).2 := by
  have hhit : MirrorCtx A { ctx with lossLimitHit := true } { ctx' with lossLimitHit := true } :=
    { h with lossLimitHit := rfl }
  have hclosed := hhit.closeAll he.costs hb.close .dailyLossLimit i b.timestamp
  have htrips : breakerTrips env'.cfg.risk ctx' eq = breakerTrips env.cfg.risk ctx eq := by
    rw [breakerTrips, he.risk, h.lossLimitHit, h.dailyStartEquity, breakerTrips]
  unfold Strategy.lossLimitBreaker
  rw [htrips, he.trade, hb.timestamp]
  split
  · exact ⟨hclosed, hclosed.cash⟩
  · exact ⟨h, rfl⟩

omit he in
theorem MirrorCtx.markToMarket {x x' : F} (hx : Reflects A x x') :
    markToMarket ctx' x' = markToMarket ctx x := by
  have hfold {ps ps' : List (OpenPosition F)} (hps : List.Forall₂ (MirrorPos A) ps ps') (eq : F) :
      ps'.foldl (fun eq p ↦ eq + p.unrealizedPnl x') eq =
        ps.foldl (fun eq p ↦ eq + p.unrealizedPnl x) eq := by
    induction hps generalizing eq with
    | nil => rfl
    | cons hp _ ih => rw [foldl_cons, foldl_cons, hp.unrealizedPnl hx, ih]
  rw [Strategy.markToMarket, h.cash, hfold h.positions, Strategy.markToMarket]

theorem MirrorEnv.beforeFills {i : Nat} (hi : i < env.bars.length) :
    MirrorCtx A (beforeFills env ctx i) (beforeFills env' ctx' i) :=
  he.sessionClose (he.dailyReset h (he.bars i hi)) (he.bars i hi) i

theorem MirrorEnv.managed {i : Nat} (hi : i < env.bars.length) (hgood : GoodFills A env ctx i) :
    MirrorCtx A (managed env ctx i) (managed env' ctx' i) := by
  have hb := he.bars i hi
  have hbefore := he.beforeFills h hi
  have hfilled := he.executeSignals hbefore hb i hgood
  rw [← hbefore.pending] at hfilled
  have hempty : MirrorCtx A
      (Strategy.fillPending env (barAt env.bars i) i (Strategy.beforeFills env ctx i))
      (Strategy.fillPending env' (barAt env'.bars i) i (Strategy.beforeFills env' ctx' i)) :=
    { hfilled with pending := rfl }
  have hmanaged := hempty.managePositions he.costs hb i
  unfold Strategy.managed
  dsimp only
  rw [he.trade, managePositions_mirrorTradeConfig]
  exact hmanaged

theorem MirrorEnv.closeBar {i : Nat} (hi : i < env.bars.length) (hgood : GoodFills A env ctx i) :
    MirrorCtx A (closeBar env ctx i).1 (closeBar env' ctx' i).1 ∧
      (closeBar env' ctx' i).2 = (closeBar env ctx i).2 := by
  have hm := he.managed h hi hgood
  have hb := he.bars i hi
  unfold Strategy.closeBar
  dsimp only
  rw [hm.markToMarket hb.close]
  exact he.lossLimitBreaker hm hb i _

theorem MirrorEnv.liquidate (hpos : 0 < env.bars.length) :
    MirrorCtx A (liquidate env ctx) (liquidate env' ctx') := by
  have hlast := he.bars (env.bars.length - 1) (Nat.sub_lt hpos Nat.one_pos)
  have hclosed := h.closeAll he.costs hlast.close .endOfData ((env.bars.length : Int) - 1)
    (barAt env.bars (env.bars.length - 1)).timestamp
  unfold Strategy.liquidate
  dsimp only
  rw [he.trade, he.length, hlast.timestamp]
  exact hclosed

omit he in
theorem MirrorCtx.queueSignals (sigs : List (StrategySignal F)) :
    MirrorCtx A (sigs.foldl queueSignal ctx)
      ((sigs.map (mirrorSignal A)).foldl queueSignal ctx') := by
  induction sigs generalizing ctx ctx' with
  | nil => exact h
  | cons sig sigs ih =>
    refine ih ?_
    have haction : (mirrorSignal A sig).action = sig.action := rfl
    have hskip : (ctx'.lossLimitHit && decide (sig.action = .open)) =
        (ctx.lossLimitHit && decide (sig.action = .open)) := by
      rw [h.lossLimitHit]
    unfold queueSignal
    rw [haction, hskip]
    split
    · exact h.ignoreSignal
    · have hqueue : ctx'.pending ++ [mirrorSignal A sig] =
          (ctx.pending ++ [sig]).map (mirrorSignal A) := by
        rw [h.pending, map_append, map_singleton]
      exact { h with pending := hqueue }

end Bar

/-! ## The loop -/

/-- The loop state of the mirrored run: the curves are the same. -/
structure MirrorState (A : F) (st st' : LoopState F) : Prop where
  ctx : MirrorCtx A st.ctx st'.ctx
  equityCurve : st'.equityCurve = st.equityCurve
  drawdownCurve : st'.drawdownCurve = st.drawdownCurve
  peakEq : st'.peakEq = st.peakEq

variable {i : Nat} {cfg : StrategyConfig F}

theorem MirrorState.barStep {env env' : Env F} (he : MirrorEnv A env env') {st st' : LoopState F}
    (h : MirrorState A st st') (hi : i < env.bars.length) (hgood : GoodFills A env st.ctx i)
    (sigs rest rest' : List (StrategySignal F)) :
    MirrorState A (barStep env i sigs rest st)
      (barStep env' i (sigs.map (mirrorSignal A)) rest' st') := by
  obtain ⟨hctx, heq⟩ := he.closeBar h.ctx hi hgood
  have hmarked : MirrorCtx A
      { (closeBar env st.ctx i).1 with currentEquity := (closeBar env st.ctx i).2 }
      { (closeBar env' st'.ctx i).1 with currentEquity := (closeBar env' st'.ctx i).2 } :=
    { hctx with currentEquity := heq }
  unfold Strategy.barStep
  dsimp only
  exact
    { ctx := hmarked.queueSignals sigs
      equityCurve := by rw [h.equityCurve, heq]
      drawdownCurve := by rw [h.drawdownCurve, h.peakEq, heq]
      peakEq := by rw [h.peakEq, heq] }

theorem signalsAt_map (A : F) (signals : List (StrategySignal F)) (n : Nat) :
    signalsAt (signals.map (mirrorSignal A)) n = (signalsAt signals n).map (mirrorSignal A) :=
  filter_map

variable {signals : List (StrategySignal F)} {bars : List (OHLCV F)}

theorem mirrorState_stateAfter {env env' : Env F} (he : MirrorEnv A env env')
    (hpos : ∀ s ∈ signals, 0 ≤ s.barIndex) {n : Nat} (hn : n ≤ env.bars.length)
    (hgood : ∀ i < n, GoodFills A env (stateAfter env (orderSignals signals) i).ctx i) :
    MirrorState A (stateAfter env (orderSignals signals) n)
      (stateAfter env' (orderSignals (signals.map (mirrorSignal A))) n) := by
  induction n with
  | zero =>
    have hrisk := he.risk
    refine ⟨?_, rfl, rfl, congrArg RiskConfig.initialEquity hrisk⟩
    exact
      { trades := .nil
        positions := .nil
        pending := rfl
        cash := congrArg RiskConfig.initialEquity hrisk
        currentEquity := congrArg RiskConfig.initialEquity hrisk
        nextId := rfl
        lastDayKey := rfl
        dailyStartEquity := rfl
        dailyTrades := rfl
        lossLimitHit := rfl
        prevInSession := rfl
        prevSessionKnown := rfl }
  | succ n ih =>
    have hpos' : ∀ s ∈ signals.map (mirrorSignal A), 0 ≤ s.barIndex := by
      intro s hs
      obtain ⟨a, ha, rfl⟩ := mem_map.mp hs
      exact hpos a ha
    obtain ⟨rest, hstep⟩ := stateAfter_succ env hpos n
    obtain ⟨rest', hstep'⟩ := stateAfter_succ env' hpos' n
    rw [hstep, hstep', signalsAt_map]
    exact (ih (Nat.le_of_succ_le hn) fun i hi ↦ hgood i (Nat.lt_succ_of_lt hi)).barStep he hn
      (hgood n (Nat.lt_succ_self n)) _ _ _

/-! ## Whole runs -/

def Opened (cfg : StrategyConfig F) (bars : List (OHLCV F)) (signals : List (StrategySignal F))
    (i : Nat) (sig : StrategySignal F) : Prop :=
  ∃ done todo,
    (beforeFills (runEnv cfg bars) (contextBefore cfg bars signals i) i).pending =
      done ++ sig :: todo ∧
    sig.action = .open ∧
    opens (runEnv cfg bars)
      (done.foldl (executeSignal (runEnv cfg bars) (barAt bars i) i)
        (beforeFills (runEnv cfg bars) (contextBefore cfg bars signals i) i))
      sig (barAt bars i) = true

/-- The runs that have a mirror image at `A`: a fixed lot, no cost in proportion to
a price, a stop under every opened position, and levels that are positive on both
sides. -/
structure Mirrorable (A : F) (cfg : StrategyConfig F) (bars : List (OHLCV F))
    (signals : List (StrategySignal F)) : Prop where
  fixedLot : cfg.trade.sizing = .fixedLot
  costs : NoPctCosts cfg.trade
  opened : ∀ i < bars.length, ∀ sig, Opened cfg bars signals i sig →
    GoodPlan A (runEnv cfg bars) sig
  modify : ∀ sig ∈ signals, GoodModify A sig

theorem mem_pending_beforeFills (hacc : Accepted bars signals) {sig : StrategySignal F}
    (h : sig ∈ (beforeFills (runEnv cfg bars) (contextBefore cfg bars signals i) i).pending) :
    sig.barIndex + 1 = (i : Int) ∧ sig ∈ signals := by
  rw [pending_beforeFills] at h
  cases i with
  | zero => cases h
  | succ i =>
    obtain ⟨hidx, hsig⟩ := pending_stateAfter (runEnv cfg bars)
      (fun s hs ↦ (hacc.inRange s hs).1) h
    exact ⟨by rw [hidx]; rfl, hsig⟩

theorem Opened.mem (hacc : Accepted bars signals) {sig : StrategySignal F}
    (h : Opened cfg bars signals i sig) : sig ∈ signals := by
  obtain ⟨done, todo, hsplit, -, -⟩ := h
  exact (mem_pending_beforeFills hacc (hsplit ▸ mem_append_right _ mem_cons_self)).2

theorem Mirrorable.goodFills (h : Mirrorable A cfg bars signals) (hacc : Accepted bars signals)
    (hi : i < bars.length) :
    GoodFills A (runEnv cfg bars) (contextBefore cfg bars signals i) i := by
  intro done sig todo hsplit
  obtain ⟨hidx, hsig⟩ := mem_pending_beforeFills hacc
    (hsplit ▸ mem_append_right done mem_cons_self)
  have hlen : (runEnv cfg bars).bars.length = bars.length := rfl
  exact ⟨by omega, fun ha ho ↦ h.opened i hi sig ⟨done, todo, hsplit, ha, ho⟩, h.modify sig hsig⟩

theorem Accepted.mirror (h : Accepted bars signals) (A : F) :
    Accepted (bars.map (mirrorBar A)) (signals.map (mirrorSignal A)) where
  nonempty := by
    rw [length_map]
    exact h.nonempty
  valid := by
    intro i hi
    rw [length_map] at hi
    rw [barAt_map A bars hi, (mirrorBar_mirror A _).isValid]
    exact h.valid i hi
  ordered := by
    intro i hi
    rw [length_map] at hi
    rw [barAt_map A bars hi, barAt_map A bars (Nat.lt_of_succ_lt hi)]
    exact h.ordered i hi
  inRange := by
    intro s hs
    obtain ⟨a, ha, rfl⟩ := mem_map.mp hs
    rw [length_map]
    exact h.inRange a ha

/-- **Mirror symmetry of `run`.**  The run on mirrored bars and signals, under the
configuration with the permissions of the sides exchanged, reports the mirror
images of the trades and the same equity curve. -/
theorem run_mirror [ExactCMath F] [BEq F] {cfg : StrategyConfig F} {bars : List (OHLCV F)}
    {signals : List (StrategySignal F)} {r : SimulationResult F}
    (hm : Mirrorable A cfg bars signals)
    (h : run cfg bars signals = .ok r) :
    ∃ r', run (mirrorConfig cfg) (bars.map (mirrorBar A)) (signals.map (mirrorSignal A)) = .ok r' ∧
      List.Forall₂ (MirrorTrade A) r.trades r'.trades ∧ r'.equityCurve = r.equityCurve := by
  obtain ⟨hacc, rfl⟩ := run_eq_ok.mp h
  have he := mirrorEnv_runEnv A bars hm.fixedLot hm.costs
  have hend := mirrorState_stateAfter he (fun s hs ↦ (hacc.inRange s hs).1) (le_refl bars.length)
    fun i hi ↦ hm.goodFills hacc hi
  have hlen : (bars.map (mirrorBar A)).length = bars.length := length_map _
  refine ⟨_, run_eq_ok.mpr ⟨hacc.mirror A, rfl⟩, ?_, ?_⟩
  · show List.Forall₂ _ (liquidate _ _).trades (liquidate _ (loopEnd _ _ _).ctx).trades
    unfold loopEnd
    rw [hlen]
    exact (he.liquidate hend.ctx hacc.nonempty).trades
  · show (loopEnd _ _ _).equityCurve = (loopEnd _ _ _).equityCurve
    unfold loopEnd
    rw [hlen]
    exact hend.equityCurve

/-- A long position that takes half its profit at `105` and is stopped out after
its stop has moved to break-even, against its short image at `100`. -/
theorem run_mirror_sample :
    let cfg : StrategyConfig ℚ :=
      { StrategyConfig.defaults with
        trade := { TradeConfig.defaults with
          sizing := .fixedLot, fixedLot := 2, commissionPct := 0, commissionPerLot := 1
          spreadPct := 0, slippagePct := 0, stopLoss := 5, takeProfit := 20
          breakEvenActivationPct := 1, partialClosePct := 1 / 2, partialCloseTargetPct := 1
          allowShort := false } }
    let bars : List (OHLCV ℚ) :=
      [⟨0, 100, 101, 99, 100, 1⟩, ⟨60000000000, 100, 106, 99, 104, 1⟩,
        ⟨120000000000, 104, 104, 98, 99, 1⟩]
    let signals := [{ StrategySignal.defaults with barIndex := 0, action := .open }]
    ∃ r r', run cfg bars signals = .ok r ∧ r.trades.map TradeResult.exitReason = [.breakEven] ∧
      run (mirrorConfig cfg) (bars.map (mirrorBar 100)) (signals.map (mirrorSignal 100)) = .ok r' ∧
      r'.equityCurve = r.equityCurve := by
  intro cfg bars signals
  have hr : run cfg bars signals = .ok (simulate cfg bars signals) :=
    run_eq_ok.mpr ⟨inputError_eq_none.mp (by decide +kernel), rfl⟩
  have hm : Mirrorable 100 cfg bars signals :=
    { fixedLot := rfl
      costs := ⟨rfl, rfl, rfl⟩
      opened := by
        intro i _ sig ho
        have hsig := mem_singleton.mp (ho.mem (run_eq_ok.mp hr).1)
        subst hsig
        exact ⟨by decide +kernel, fun _ ↦ ⟨by decide +kernel, by decide +kernel⟩,
          fun _ ↦ ⟨by decide +kernel, by decide +kernel⟩⟩
      modify := by
        intro sig hs ha
        rw [mem_singleton.mp hs] at ha
        cases ha }
  obtain ⟨r', hr', -, hcurve⟩ := run_mirror hm hr
  exact ⟨_, r', hr, by decide +kernel, hr', hcurve⟩

/-- The image of a long position at `100` is not taken under a configuration that
forbids short positions, and has another net result under a spread of one
percent. -/
theorem mirror_needs_sides_and_spread :
    let trade : TradeConfig ℚ :=
      { TradeConfig.defaults with
        sizing := .fixedLot, fixedLot := 1, commissionPct := 0, slippagePct := 0
        spreadPct := 0, stopLoss := 5 }
    let bars : List (OHLCV ℚ) :=
      [⟨0, 110, 110, 110, 110, 1⟩, ⟨60000000000, 110, 110, 110, 110, 1⟩]
    let signals := [{ StrategySignal.defaults with barIndex := 0, action := .open }]
    let longOnly := StrategyConfig.mk { trade with allowShort := false } RiskConfig.defaults
    let spread := StrategyConfig.mk { trade with spreadPct := 1 / 100 } RiskConfig.defaults
    (∃ r r', run longOnly bars signals = .ok r ∧
      run longOnly (bars.map (mirrorBar 100)) (signals.map (mirrorSignal 100)) = .ok r' ∧
      r.trades.length = 1 ∧ r'.trades = []) ∧
    ∃ r r', run spread bars signals = .ok r ∧
      run spread (bars.map (mirrorBar 100)) (signals.map (mirrorSignal 100)) = .ok r' ∧
      r.trades.map TradeResult.netPnl = [-11 / 10] ∧
      r'.trades.map TradeResult.netPnl = [-9 / 10] := by
  intro trade bars signals longOnly spread
  have hacc : Accepted bars signals := inputError_eq_none.mp (by decide +kernel)
  have hacc' := hacc.mirror 100
  exact ⟨⟨_, _, run_eq_ok.mpr ⟨hacc, rfl⟩, run_eq_ok.mpr ⟨hacc', rfl⟩, by decide +kernel,
    by decide +kernel⟩, _, _, run_eq_ok.mpr ⟨hacc, rfl⟩, run_eq_ok.mpr ⟨hacc', rfl⟩,
    by decide +kernel, by decide +kernel⟩

end Qros.Quant.Strategy
