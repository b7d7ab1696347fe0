import Qros.Quant.Strategy.Mirror

/-!
# Mirrored runs

A run on mirrored bars and signals, with the permissions of the two sides
exchanged, is the mirror image of the original run: `MirrorCtx` relates the
contexts, and every function of the loop keeps it.

Two things must hold of the original run.  A position that is opened has a
positive stop distance, since without one the engine leaves the stop level at
zero, which only a long position never reaches.  And the take-profit and partial
levels are positive on both sides, since the engine reads other levels as absent.
-/

universe u

set_option linter.unusedSectionVars false

namespace Qros.Quant.Strategy

open Qros.Lib.KeySort List

variable {F : Type u} [Field F] [LinearOrder F] [IsStrictOrderedRing F] [CMath F]

/-! ## Mirrored input -/

def mirrorBar (A : F) (b : OHLCV F) : OHLCV F :=
  { b with
    «open» := mirror A b.open
    high := mirror A b.low
    low := mirror A b.high
    close := mirror A b.close }

/-- The other side, and the images of the levels the signal sets. -/
def mirrorSignal (A : F) (s : StrategySignal F) : StrategySignal F :=
  { s with
    side := s.side.flip
    stopLoss := if s.hasStopLoss then mirror A s.stopLoss else s.stopLoss
    takeProfit := if s.hasTakeProfit then mirror A s.takeProfit else s.takeProfit }

/-- The permissions of the two sides exchanged. -/
def mirrorTradeConfig (tc : TradeConfig F) : TradeConfig F :=
  { tc with allowLong := tc.allowShort, allowShort := tc.allowLong }

def mirrorConfig (cfg : StrategyConfig F) : StrategyConfig F :=
  { cfg with trade := mirrorTradeConfig cfg.trade }

theorem managePositions_mirrorTradeConfig (tc : TradeConfig F) (bar : OHLCV F) (i : Int)
    (ctx : Context F) :
    managePositions (mirrorTradeConfig tc) bar i ctx = managePositions tc bar i ctx := by
  have hone (ctx : Context F) (p : OpenPosition F) :
      manageOne (mirrorTradeConfig tc) bar i ctx p = manageOne tc bar i ctx p := rfl
  have heach (ps : List (OpenPosition F)) (ctx : Context F) :
      manageEach (mirrorTradeConfig tc) bar i ctx ps = manageEach tc bar i ctx ps := by
    induction ps generalizing ctx with
    | nil => rfl
    | cons p ps ih => simp only [manageEach, hone, ih]
  unfold managePositions
  rw [heach]

variable {A : F}

theorem mirrorBar_mirror (A : F) (b : OHLCV F) : MirrorBar A b (mirrorBar A b) where
  timestamp := rfl
  «open» := reflects_mirror A _
  high := reflects_mirror A _
  low := reflects_mirror A _
  close := reflects_mirror A _

theorem barAt_map (A : F) (bars : List (OHLCV F)) {i : Nat} (hi : i < bars.length) :
    barAt (bars.map (mirrorBar A)) i = mirrorBar A (barAt bars i) := by
  simp [barAt, getD_eq_getElem?_getD, getElem?_map, getElem?_eq_getElem hi]

theorem MirrorBar.isValid {b b' : OHLCV F} (h : MirrorBar A b b') : b'.isValid = b.isValid := by
  rw [Bool.eq_iff_iff]
  simp only [OHLCV.isValid, Bool.and_eq_true, decide_eq_true_eq, h.low.le_iff h.high,
    h.open.le_iff h.high, h.close.le_iff h.high, h.low.le_iff h.open, h.low.le_iff h.close]
  tauto

/-! ### The average true range -/

section

variable [ExactCMath F]

theorem trueRange_mirror (A : F) (bars : List (OHLCV F)) {i : Nat} (hi : i < bars.length) :
    trueRange (bars.map (mirrorBar A)) i = trueRange bars i := by
  have hprev : i - 1 < bars.length := by omega
  have habs (x y : F) : |mirror A x - mirror A y| = |x - y| := by
    rw [mirror, mirror, sub_sub_sub_cancel_left, abs_sub_comm]
  have hrange (b : OHLCV F) : (mirrorBar A b).high - (mirrorBar A b).low = b.high - b.low :=
    sub_sub_sub_cancel_left _ _ _
  have hprice (b : OHLCV F) (x : F) : stdMax |(mirrorBar A b).high - mirror A x|
      |(mirrorBar A b).low - mirror A x| = stdMax |b.high - x| |b.low - x| := by
    simp only [mirrorBar, habs, stdMax_eq_max]
    exact max_comm _ _
  have hclose (b : OHLCV F) : (mirrorBar A b).close = mirror A b.close := rfl
  unfold trueRange
  rw [barAt_map A bars hi, barAt_map A bars hprev, hrange]
  simp only [ExactCMath.fabs_eq_abs]
  split
  · rw [hclose, hprice]
  · rw [hclose, hprice]

theorem trueRangeSum_mirror (A : F) (bars : List (OHLCV F)) (period : Nat) {n : Nat}
    (hn : n ≤ bars.length) :
    trueRangeSum (bars.map (mirrorBar A)) period n = trueRangeSum bars period n := by
  induction n with
  | zero => rfl
  | succ n ih =>
    have hold : trueRange (bars.map (mirrorBar A)) (n - period) = trueRange bars (n - period) :=
      trueRange_mirror A bars (by omega)
    simp only [trueRangeSum, ih (by omega), trueRange_mirror A bars hn, hold]

theorem computeAtr_mirror (A : F) (bars : List (OHLCV F)) (period : Int) :
    computeAtr (bars.map (mirrorBar A)) period = computeAtr bars period := by
  unfold computeAtr
  rw [length_map]
  apply map_congr_left
  intro i hi
  rw [trueRangeSum_mirror A bars _ (mem_range.mp hi)]

end

/-- The environment of a mirrored run. -/
structure MirrorEnv (A : F) (env env' : Env F) : Prop where
  length : env'.bars.length = env.bars.length
  bars : ∀ i < env.bars.length, MirrorBar A (barAt env.bars i) (barAt env'.bars i)
  cfg : env'.cfg = mirrorConfig env.cfg
  atr : env'.atr = env.atr
  fixedLot : env.cfg.trade.sizing = .fixedLot
  costs : NoPctCosts env.cfg.trade

theorem mirrorEnv_runEnv [ExactCMath F] (A : F) {cfg : StrategyConfig F} (bars : List (OHLCV F))
    (hlot : cfg.trade.sizing = .fixedLot) (hcosts : NoPctCosts cfg.trade) :
    MirrorEnv A (runEnv cfg bars) (runEnv (mirrorConfig cfg) (bars.map (mirrorBar A))) where
  length := length_map _
  bars := by
    intro i hi
    show MirrorBar A (barAt bars i) (barAt (bars.map (mirrorBar A)) i)
    rw [barAt_map A bars hi]
    exact mirrorBar_mirror A _
  cfg := rfl
  atr := by
    unfold runEnv
    dsimp only
    rw [computeAtr_mirror]
    rfl
  fixedLot := hlot
  costs := hcosts

/-! ## Plans -/

/-- Both ends of the price range keep the level positive. -/
def Within (A x : F) : Prop := 0 < x ∧ x < 2 * A

variable {x x' : F}

theorem Within.reflectsLevel (h : Within A x) (hx : Reflects A x x') :
    ReflectsLevel A x x' := by
  refine .inr ⟨h.1, ?_, hx⟩
  have h2 := h.2
  unfold Reflects at hx
  linarith

/-- The plan of an `Open` signal that has a mirror image: there is a stop, and the
levels it sets are positive on both sides. -/
structure GoodPlan (A : F) (env : Env F) (sig : StrategySignal F) : Prop where
  stop : 0 < (signalPlan env sig).stopDistance
  takeProfit : 0 < (signalPlan env sig).tpDistance → Within A (signalPlan env sig).tpLevel
  partialTarget :
    0 < partialDistance env.cfg.trade (signalPlan env sig).stopDistance
      (signalPlan env sig).tpDistance → Within A (signalPlan env sig).partialTarget

structure MirrorPlan (A : F) (plan plan' : StopPlan F) : Prop where
  stopDistance : plan'.stopDistance = plan.stopDistance
  stopLevel : Reflects A plan.stopLevel plan'.stopLevel
  tpLevel : ReflectsLevel A plan.tpLevel plan'.tpLevel
  trailingDistance : plan'.trailingDistance = plan.trailingDistance
  activationDistance : plan'.activationDistance = plan.activationDistance
  breakEvenActivation : plan'.breakEvenActivation = plan.breakEvenActivation
  partialTarget : ReflectsLevel A plan.partialTarget plan'.partialTarget

theorem slDistance_mirror (sig : StrategySignal F) (tc : TradeConfig F) (atr : List F)
    (hx : Reflects A x x') :
    slDistance (mirrorSignal A sig) (mirrorTradeConfig tc) atr x' = slDistance sig tc atr x := by
  unfold slDistance
  by_cases hs : sig.hasStopLoss = true
  · have hlevel : Reflects A sig.stopLoss (mirrorSignal A sig).stopLoss := by
      simp only [mirrorSignal, hs, if_true]
      exact reflects_mirror A _
    have hside : (mirrorSignal A sig).side = sig.side.flip := rfl
    have hs' : (mirrorSignal A sig).hasStopLoss = true := hs
    rw [if_pos hs, if_pos hs', hside]
    cases sig.side with
    | long => simp only [TradeSide.flip, hlevel.sub_eq hx]
    | short => simp only [TradeSide.flip, hx.sub_eq hlevel]
  · have hs' : ¬ (mirrorSignal A sig).hasStopLoss = true := hs
    rw [if_neg hs, if_neg hs']
    rfl

theorem tpDistance_mirror (sig : StrategySignal F) (tc : TradeConfig F) (atr : List F)
    (hx : Reflects A x x') :
    tpDistance (mirrorSignal A sig) (mirrorTradeConfig tc) atr x' = tpDistance sig tc atr x := by
  unfold tpDistance
  by_cases hs : sig.hasTakeProfit = true
  · have hlevel : Reflects A sig.takeProfit (mirrorSignal A sig).takeProfit := by
      simp only [mirrorSignal, hs, if_true]
      exact reflects_mirror A _
    have hside : (mirrorSignal A sig).side = sig.side.flip := rfl
    have hs' : (mirrorSignal A sig).hasTakeProfit = true := hs
    rw [if_pos hs, if_pos hs', hside]
    cases sig.side with
    | long => simp only [TradeSide.flip, hx.sub_eq hlevel]
    | short => simp only [TradeSide.flip, hlevel.sub_eq hx]
  · have hs' : ¬ (mirrorSignal A sig).hasTakeProfit = true := hs
    rw [if_neg hs, if_neg hs']
    rfl

theorem against_mirror (hx : Reflects A x x') (side : TradeSide) (d : F) :
    Reflects A (against side x d) (against side.flip x' d) := by
  cases side
  · exact hx.sub_dist d
  · exact hx.add_dist d

theorem awayFrom_mirror (hx : Reflects A x x') (side : TradeSide) (d : F) :
    Reflects A (awayFrom side x d) (awayFrom side.flip x' d) := by
  cases side
  · exact hx.add_dist d
  · exact hx.sub_dist d

theorem profitLevel_mirror (hx : Reflects A x x') (side : TradeSide) {d : F}
    (h : 0 < d → Within A (if 0 < d then awayFrom side x d else 0)) :
    ReflectsLevel A (if 0 < d then awayFrom side x d else 0)
      (if 0 < d then awayFrom side.flip x' d else 0) := by
  by_cases hd : 0 < d
  · have hw := h hd
    rw [if_pos hd] at hw ⊢
    rw [if_pos hd]
    exact hw.reflectsLevel (awayFrom_mirror hx side d)
  · rw [if_neg hd, if_neg hd]
    exact .inl ⟨rfl, rfl⟩

theorem GoodPlan.mirror {env env' : Env F} (he : MirrorEnv A env env') {sig : StrategySignal F}
    (hidx : sig.barIndex.toNat < env.bars.length) (h : GoodPlan A env sig) :
    MirrorPlan A (signalPlan env sig) (signalPlan env' (mirrorSignal A sig)) := by
  have hx := (he.bars _ hidx).close
  have htc : env'.cfg.trade = mirrorTradeConfig env.cfg.trade := congrArg _ he.cfg
  -- Distances are those of the original plan; they are anchored at the mirrored close.
  have hplan : signalPlan env' (mirrorSignal A sig) =
      { signalPlan env sig with
        stopLevel := if 0 < (signalPlan env sig).stopDistance then
          against sig.side.flip (barAt env'.bars sig.barIndex.toNat).close
            (signalPlan env sig).stopDistance else 0
        tpLevel := if 0 < (signalPlan env sig).tpDistance then
          awayFrom sig.side.flip (barAt env'.bars sig.barIndex.toNat).close
            (signalPlan env sig).tpDistance else 0
        partialTarget := if 0 < partialDistance env.cfg.trade (signalPlan env sig).stopDistance
            (signalPlan env sig).tpDistance then
          awayFrom sig.side.flip (barAt env'.bars sig.barIndex.toNat).close
            (partialDistance env.cfg.trade (signalPlan env sig).stopDistance
              (signalPlan env sig).tpDistance) else 0 } := by
    have hbar : (mirrorSignal A sig).barIndex = sig.barIndex := rfl
    unfold signalPlan buildStopPlan
    rw [htc, he.atr, hbar, slDistance_mirror sig env.cfg.trade env.atr hx,
      tpDistance_mirror sig env.cfg.trade env.atr hx]
    rfl
  rw [hplan]
  refine ⟨rfl, ?_, profitLevel_mirror hx sig.side h.takeProfit, rfl, rfl, rfl,
    profitLevel_mirror hx sig.side h.partialTarget⟩
  have hlevel : (signalPlan env sig).stopLevel =
      against sig.side (barAt env.bars sig.barIndex.toNat).close
        (signalPlan env sig).stopDistance := if_pos h.stop
  rw [hlevel]
  dsimp only
  rw [if_pos h.stop]
  exact against_mirror hx sig.side _

/-! ## Contexts -/

structure MirrorCtx (A : F) (ctx ctx' : Context F) : Prop where
  trades : List.Forall₂ (MirrorTrade A) ctx.trades ctx'.trades
  positions : List.Forall₂ (MirrorPos A) ctx.positions ctx'.positions
  pending : ctx'.pending = ctx.pending.map (mirrorSignal A)
  cash : ctx'.cash = ctx.cash
  currentEquity : ctx'.currentEquity = ctx.currentEquity
  nextId : ctx'.nextId = ctx.nextId
  lastDayKey : ctx'.lastDayKey = ctx.lastDayKey
  dailyStartEquity : ctx'.dailyStartEquity = ctx.dailyStartEquity
  dailyTrades : ctx'.dailyTrades = ctx.dailyTrades
  lossLimitHit : ctx'.lossLimitHit = ctx.lossLimitHit
  prevInSession : ctx'.prevInSession = ctx.prevInSession
  prevSessionKnown : ctx'.prevSessionKnown = ctx.prevSessionKnown

namespace MirrorCtx

variable {ctx ctx' : Context F}

theorem setPositions (h : MirrorCtx A ctx ctx') {ps ps' : List (OpenPosition F)}
    (hps : List.Forall₂ (MirrorPos A) ps ps') : MirrorCtx A (ctx.at ps) (ctx'.at ps') :=
  { h with positions := hps }

theorem ignoreSignal (h : MirrorCtx A ctx ctx') :
    MirrorCtx A (ignoreSignal ctx) (ignoreSignal ctx') := { h with }

section Costs

variable {tc : TradeConfig F} (hc : NoPctCosts tc)

include hc

variable {p p' : OpenPosition F} {b b' : OHLCV F}

theorem closePartial (h : MirrorCtx A ctx ctx') (hp : MirrorPos A p p') {x x' : F}
    (hx : Reflects A x x') (pct : F) :
    MirrorCtx A (closePartial tc ctx p x pct).1 (closePartial tc ctx' p' x' pct).1 ∧
      MirrorPos A (closePartial tc ctx p x pct).2 (closePartial tc ctx' p' x' pct).2 := by
  unfold Strategy.closePartial
  dsimp only
  rw [hp.quantity]
  have hfill := hp.applyFill hc hx (p.quantity * pct)
  refine ⟨{ h with cash := ?_ }, { hfill with partialClosed := rfl, partialFillCount := ?_ }⟩
  · dsimp only
    rw [h.cash, hp.fillNet hc hx]
  · exact congrArg (· + 1) hp.partialFillCount

theorem closePosition (h : MirrorCtx A ctx ctx') (hp : MirrorPos A p p') {x x' : F}
    (hx : Reflects A x x') (reason : ExitReason) (i : Int) (ts : TimePoint) :
    MirrorCtx A (closePosition tc ctx p x reason i ts)
    (closePosition tc ctx' p' x' reason i ts) where
  __ := h
  cash := by
    simp only [Strategy.closePosition, h.cash, hp.quantity, hp.fillNet hc hx]
  trades := by
    refine rel_append h.trades (.cons ?_ .nil)
    rw [hp.quantity, hc.applyExitCosts, hc.applyExitCosts]
    exact (hp.applyFill hc hx _).tradeOf hx reason i ts

theorem closeEach (h : MirrorCtx A ctx ctx') {ps ps' : List (OpenPosition F)}
    (hps : List.Forall₂ (MirrorPos A) ps ps') {x x' : F} (hx : Reflects A x x')
    (reason : ExitReason) (i : Int) (ts : TimePoint) :
    MirrorCtx A (closeEach tc x reason i ts ctx ps) (closeEach tc x' reason i ts ctx' ps') := by
  induction hps generalizing ctx ctx' with
  | nil => exact h
  | cons hp _ ih => exact ih (h.closePosition hc hp hx reason i ts)

theorem closeAll (h : MirrorCtx A ctx ctx') {x x' : F} (hx : Reflects A x x')
    (reason : ExitReason) (i : Int) (ts : TimePoint) :
    MirrorCtx A (closeAll tc ctx x reason i ts) (closeAll tc ctx' x' reason i ts) :=
  (h.closeEach hc h.positions hx reason i ts).setPositions .nil

theorem manageOne (h : MirrorCtx A ctx ctx') (hp : MirrorPos A p p') (hb : MirrorBar A b b')
    (i : Int) :
    MirrorCtx A (manageOne tc b i ctx p).1 (manageOne tc b' i ctx' p').1 ∧
      List.Forall₂ (MirrorPos A) (manageOne tc b i ctx p).2.toList
        (manageOne tc b' i ctx' p').2.toList := by
  have hp := hp.ageOneBar hb
  unfold Strategy.manageOne
  dsimp only
  generalize ageOneBar p b = p at hp
  generalize ageOneBar p' b' = p' at hp
  rw [hp.stopHit hb, hp.tpHit hb, hp.stopReason, hb.timestamp]
  split
  · exact ⟨h.closePosition hc hp (hp.stopFill hb.open) _ i _, .nil⟩
  · split
    · rename_i htp
      have htp : 0 < p.takeProfit := by
        by_contra hle
        rw [OpenPosition.tpHit, if_pos (not_lt.mp hle)] at htp
        cases htp
      exact ⟨h.closePosition hc hp (hp.tpFill hb.open htp) _ i _, .nil⟩
    · -- The partial close comes first; what follows adjusts levels.
      have hpart : MirrorCtx A (managePartial tc ctx p b).1 (managePartial tc ctx' p' b').1 ∧
          MirrorPos A (managePartial tc ctx p b).2 (managePartial tc ctx' p' b').2 := by
        unfold managePartial
        rw [hp.partialTargetHit hb]
        split
        · rename_i hit
          have hx := hp.partialFill hb hit
          exact h.closePartial hc hp hx _
        · exact ⟨h, hp⟩
      generalize managePartial tc ctx p b = r at hpart
      generalize managePartial tc ctx' p' b' = r' at hpart
      obtain ⟨hctx, hpos⟩ := hpart
      have hbest := hpos.bestPrice hb
      have hpos := (hpos.manageBreakEven hbest).manageTrailing hbest
      rw [hpos.timeStopDue]
      split
      · exact ⟨hctx.closePosition hc hpos hb.close _ i _, .nil⟩
      · exact ⟨hctx, .cons hpos .nil⟩

theorem manageEach (h : MirrorCtx A ctx ctx') {ps ps' : List (OpenPosition F)}
    (hps : List.Forall₂ (MirrorPos A) ps ps') (hb : MirrorBar A b b') (i : Int) :
    MirrorCtx A (manageEach tc b i ctx ps).1 (manageEach tc b' i ctx' ps').1 ∧
      List.Forall₂ (MirrorPos A) (manageEach tc b i ctx ps).2 (manageEach tc b' i ctx' ps').2 := by
  induction hps generalizing ctx ctx' with
  | nil => exact ⟨h, .nil⟩
  | cons hp _ ih =>
    obtain ⟨hctx, hkept⟩ := h.manageOne hc hp hb i
    obtain ⟨hctx', hrest⟩ := ih hctx
    exact ⟨hctx', rel_append hkept hrest⟩

theorem managePositions (h : MirrorCtx A ctx ctx') (hb : MirrorBar A b b') (i : Int) :
    MirrorCtx A (managePositions tc b i ctx) (managePositions tc b' i ctx') := by
  obtain ⟨hctx, hps⟩ := h.manageEach hc h.positions hb i
  exact hctx.setPositions hps

end Costs

end MirrorCtx

/-! ## Signals -/

def MirrorSplit (A : F)
    (x x' : List (OpenPosition F) × OpenPosition F × List (OpenPosition F)) : Prop :=
  List.Forall₂ (MirrorPos A) x.1 x'.1 ∧ MirrorPos A x.2.1 x'.2.1 ∧
    List.Forall₂ (MirrorPos A) x.2.2 x'.2.2

theorem TradeSide.flip_inj {a b : TradeSide} : a.flip = b.flip ↔ a = b := by
  cases a <;> cases b <;> decide

theorem findLastOfSide_mirror {ps ps' : List (OpenPosition F)}
    (h : List.Forall₂ (MirrorPos A) ps ps') (side : TradeSide) :
    Option.Rel (MirrorSplit A) (findLastOfSide side ps) (findLastOfSide side.flip ps') := by
  induction h with
  | nil => exact .none
  | @cons p p' ps ps' hp hps ih =>
    unfold findLastOfSide
    generalize findLastOfSide side ps = r at ih
    generalize findLastOfSide side.flip ps' = r' at ih
    cases ih with
    | some hsplit => exact .some ⟨.cons hp hsplit.1, hsplit.2⟩
    | none =>
      have hside : p'.side = side.flip ↔ p.side = side := by
        rw [hp.side, TradeSide.flip_inj]
      dsimp only
      by_cases hs : p.side = side
      · rw [if_pos hs, if_pos (hside.mpr hs)]
        exact .some ⟨.nil, hp, hps⟩
      · rw [if_neg hs, if_neg (hside.not.mpr hs)]
        exact .none

section Signals

variable {env env' : Env F}

/-- What `Modify` signals may set for a mirrored run: a price on both sides. -/
def GoodModify (A : F) (sig : StrategySignal F) : Prop :=
  sig.action = .modify → sig.hasTakeProfit = true → Within A sig.takeProfit

variable {sig : StrategySignal F}

theorem MirrorPos.modifyPosition {p p' : OpenPosition F} (hp : MirrorPos A p p')
    (ha : sig.action = .modify) (hgood : GoodModify A sig) :
    MirrorPos A (modifyPosition sig p) (modifyPosition (mirrorSignal A sig) p') := by
  refine { hp with stopLoss := ?_, takeProfit := ?_, trailingDistance := ?_ }
  · simp only [Strategy.modifyPosition, mirrorSignal]
    split
    · exact reflects_mirror A _
    · exact hp.stopLoss
  · simp only [Strategy.modifyPosition, mirrorSignal]
    split
    · exact (hgood ha ‹_›).reflectsLevel (reflects_mirror A _)
    · exact hp.takeProfit
  · simp only [Strategy.modifyPosition, mirrorSignal, hp.trailingDistance]

variable (he : MirrorEnv A env env')

include he

theorem MirrorEnv.trade : env'.cfg.trade = mirrorTradeConfig env.cfg.trade :=
  congrArg StrategyConfig.trade he.cfg

theorem MirrorEnv.risk : env'.cfg.risk = env.cfg.risk := by
  rw [he.cfg]
  rfl

theorem MirrorEnv.sizeQuantity (ctx ctx' : Context F) (sig : StrategySignal F)
    (plan plan' : StopPlan F) : Strategy.sizeQuantity env' ctx' (mirrorSignal A sig) plan' =
      Strategy.sizeQuantity env ctx sig plan := by
  have hlot : env'.cfg.trade.sizing = .fixedLot := by
    rw [he.trade]
    exact he.fixedLot
  simp only [Strategy.sizeQuantity, hlot, he.fixedLot]
  rw [he.trade]
  rfl

variable {ctx ctx' : Context F} (h : MirrorCtx A ctx ctx') {b b' : OHLCV F} (hb : MirrorBar A b b')

include h hb

theorem MirrorEnv.tradingAllowed :
    Strategy.tradingAllowed env' ctx' b' = Strategy.tradingAllowed env ctx b := by
  unfold Strategy.tradingAllowed
  rw [he.risk, hb.timestamp, h.lossLimitHit, h.dailyTrades, h.positions.length_eq]

theorem MirrorEnv.opens (sig : StrategySignal F) :
    Strategy.opens env' ctx' (mirrorSignal A sig) b' = Strategy.opens env ctx sig b := by
  have hside : sideAllowed env'.cfg.trade (mirrorSignal A sig).side =
      sideAllowed env.cfg.trade sig.side := by
    rw [he.trade, mirrorSignal]
    cases sig.side <;> rfl
  unfold Strategy.opens
  rw [hside, he.tradingAllowed h hb, he.sizeQuantity ctx ctx' sig]

theorem MirrorEnv.newPosition
    (hplan : MirrorPlan A (signalPlan env sig) (signalPlan env' (mirrorSignal A sig))) (i : Int) :
    MirrorPos A (newPosition env ctx sig b i)
    (newPosition env' ctx' (mirrorSignal A sig) b' i) := by
  have hqty := he.sizeQuantity ctx ctx' sig (signalPlan env sig)
    (signalPlan env' (mirrorSignal A sig))
  have hc := he.costs
  have hc' : NoPctCosts env'.cfg.trade := by
    rw [he.trade]
    exact ⟨hc.commissionPct, hc.slippagePct, hc.spreadPct⟩
  have hcommission (qty : F) : entryCommission env'.cfg.trade b'.open qty =
      entryCommission env.cfg.trade b.open qty := by
    rw [entryCommission, entryCommission, hc.commissionPct, hc'.commissionPct, he.trade]
    simp only [mul_zero, mirrorTradeConfig]
  unfold Strategy.newPosition
  dsimp only
  rw [hqty, hcommission, hc.applyEntryCosts, hc'.applyEntryCosts, hplan.stopDistance,
    hplan.trailingDistance, hplan.activationDistance, hplan.breakEvenActivation, h.nextId,
    hb.timestamp, sub_self, sub_self]
  exact
    { ticket := rfl
      entryPrice := hb.open
      openRaw := hb.open
      stopLoss := hplan.stopLevel
      takeProfit := hplan.tpLevel
      partialTarget := hplan.partialTarget
      quantity := rfl
      entryQuantity := rfl
      trailingDistance := rfl
      activationDistance := rfl
      breakEvenActivation := rfl
      entryCommission := rfl
      totalCommission := rfl
      riskedAmount := rfl
      mfe := rfl
      mae := rfl
      realizedPnl := rfl
      slippage := rfl
      barsOpen := rfl
      trailingActive := rfl
      breakEvenMoved := rfl
      partialClosed := rfl
      partialFillCount := rfl }

theorem MirrorEnv.executeSignal (hidx : sig.barIndex.toNat < env.bars.length)
    (hopen : sig.action = .open → Strategy.opens env ctx sig b = true → GoodPlan A env sig)
    (hmodify : GoodModify A sig) (i : Int) :
    MirrorCtx A (executeSignal env b i ctx sig)
      (executeSignal env' b' i ctx' (mirrorSignal A sig)) := by
  have hsplit := findLastOfSide_mirror h.positions sig.side
  have hside : (mirrorSignal A sig).side = sig.side.flip := rfl
  have haction : (mirrorSignal A sig).action = sig.action := rfl
  unfold Strategy.executeSignal
  rw [haction, hside, he.trade, hb.timestamp]
  cases ha : sig.action with
  | none => exact h
  | «open» =>
    dsimp only
    rw [he.opens h hb]
    split
    · rename_i ho
      have hp := he.newPosition h hb ((hopen ha ho).mirror he hidx) i
      exact { h with
        nextId := congrArg (· + 1) h.nextId
        cash := congrArg₂ (· - ·) h.cash hp.entryCommission
        positions := rel_append h.positions (.cons hp .nil)
        dailyTrades := congrArg (· + 1) h.dailyTrades }
    · exact h.ignoreSignal
  | close =>
    dsimp only
    generalize findLastOfSide sig.side ctx.positions = r at hsplit
    generalize findLastOfSide sig.side.flip ctx'.positions = r' at hsplit
    cases hsplit with
    | none => exact h.ignoreSignal
    | some hs =>
      exact (h.closePosition he.costs hs.2.1 hb.open .signal i b.timestamp).setPositions
        (rel_append hs.1 hs.2.2)
  | closeAll =>
    have hempty : ctx'.positions.isEmpty = ctx.positions.isEmpty := by
      rw [Bool.eq_iff_iff, isEmpty_iff_length_eq_zero, isEmpty_iff_length_eq_zero,
        h.positions.length_eq]
    dsimp only
    rw [hempty]
    split
    · exact h.ignoreSignal
    · exact h.closeAll he.costs hb.open .signal i b.timestamp
  | modify =>
    dsimp only
    generalize findLastOfSide sig.side ctx.positions = r at hsplit
    generalize findLastOfSide sig.side.flip ctx'.positions = r' at hsplit
    cases hsplit with
    | none => exact h.ignoreSignal
    | some hs =>
      exact h.setPositions (rel_append hs.1
        (.cons (hs.2.1.modifyPosition ha hmodify) hs.2.2))

end Signals

end Qros.Quant.Strategy
