import Mathlib.Tactic.Linarith
import Mathlib.Tactic.LinearCombination
import Qros.Quant.Strategy.Causality

/-!
# The mirror image of a position

Replacing every price `x` by `2 * A - x` turns long positions into short ones.
`Reflects A x x'` relates a price to its image, `ReflectsLevel` a level that may
be absent (the engine writes `0` for that), `MirrorPos` a position to its image
and `MirrorTrade` a trade.

Each function that manages a position has a long and a short branch; the lemmas
of this file say that the branches are mirror images of each other.  They need
exact arithmetic and no costs in proportion to a price.
-/

universe u

set_option linter.unusedSectionVars false

namespace Qros.Quant.Strategy

variable {F : Type u} [Field F] [LinearOrder F] [IsStrictOrderedRing F] [CMath F]

/-! ## Prices and levels -/

/-- `x'` is the mirror image of the price `x` at `A`. -/
def Reflects (A x x' : F) : Prop := x + x' = 2 * A

/-- Both levels are absent, or both are prices and images of each other. -/
def ReflectsLevel (A x x' : F) : Prop := x = 0 ∧ x' = 0 ∨ 0 < x ∧ 0 < x' ∧ Reflects A x x'

/-- The mirror image of a price. -/
def mirror (A x : F) : F := 2 * A - x

theorem reflects_mirror (A x : F) : Reflects A x (mirror A x) := by
  unfold Reflects mirror
  ring

variable {A : F}

variable {x x' y y' : F}

theorem Reflects.le_iff (h : Reflects A x x') (k : Reflects A y y') :
    x ≤ y ↔ y' ≤ x' := by
  unfold Reflects at h k
  constructor <;> intro <;> linarith

theorem Reflects.lt_iff (h : Reflects A x x') (k : Reflects A y y') :
    x < y ↔ y' < x' := by
  unfold Reflects at h k
  constructor <;> intro <;> linarith

theorem Reflects.sub_eq (h : Reflects A x x') (k : Reflects A y y') :
    x' - y' = y - x := by
  unfold Reflects at h k
  linear_combination h - k

theorem Reflects.add_dist {x x' : F} (h : Reflects A x x') (d : F) :
    Reflects A (x + d) (x' - d) := by
  unfold Reflects at h ⊢
  linear_combination h

theorem Reflects.sub_dist {x x' : F} (h : Reflects A x x') (d : F) :
    Reflects A (x - d) (x' + d) := by
  unfold Reflects at h ⊢
  linear_combination h

theorem Reflects.stdMin (h : Reflects A x x') (k : Reflects A y y') :
    Reflects A (stdMin x y) (stdMax x' y') := by
  have hlt := k.lt_iff h
  unfold Quant.stdMin stdMax
  by_cases hxy : y < x
  · rw [if_pos hxy, if_pos (hlt.mp hxy)]
    exact k
  · rw [if_neg hxy, if_neg fun hc ↦ hxy (hlt.mpr hc)]
    exact h

theorem Reflects.symm {x x' : F} (h : Reflects A x x') : Reflects A x' x := by
  unfold Reflects at h ⊢
  linear_combination h

theorem Reflects.stdMax (h : Reflects A x x') (k : Reflects A y y') :
    Reflects A (stdMax x y) (Quant.stdMin x' y') :=
  (h.symm.stdMin k.symm).symm

theorem ReflectsLevel.pos_iff {x x' : F} (h : ReflectsLevel A x x') : 0 < x ↔ 0 < x' := by
  rcases h with ⟨rfl, rfl⟩ | ⟨hx, hx', -⟩
  · exact Iff.rfl
  · exact ⟨fun _ ↦ hx', fun _ ↦ hx⟩

theorem ReflectsLevel.reflects {x x' : F} (h : ReflectsLevel A x x') (hx : 0 < x) :
    Reflects A x x' := by
  rcases h with ⟨rfl, -⟩ | ⟨-, -, h⟩
  · exact absurd hx (lt_irrefl _)
  · exact h

structure MirrorBar (A : F) (b b' : OHLCV F) : Prop where
  timestamp : b'.timestamp = b.timestamp
  «open» : Reflects A b.open b'.open
  high : Reflects A b.high b'.low
  low : Reflects A b.low b'.high
  close : Reflects A b.close b'.close

/-! ## Positions and trades -/

structure MirrorPos (A : F) (p p' : OpenPosition F) : Prop where
  ticket : p'.ticket = { p.ticket with side := p.side.flip }
  entryPrice : Reflects A p.entryPrice p'.entryPrice
  openRaw : Reflects A p.openRaw p'.openRaw
  stopLoss : Reflects A p.stopLoss p'.stopLoss
  takeProfit : ReflectsLevel A p.takeProfit p'.takeProfit
  partialTarget : ReflectsLevel A p.partialTarget p'.partialTarget
  quantity : p'.quantity = p.quantity
  entryQuantity : p'.entryQuantity = p.entryQuantity
  trailingDistance : p'.trailingDistance = p.trailingDistance
  activationDistance : p'.activationDistance = p.activationDistance
  breakEvenActivation : p'.breakEvenActivation = p.breakEvenActivation
  entryCommission : p'.entryCommission = p.entryCommission
  totalCommission : p'.totalCommission = p.totalCommission
  riskedAmount : p'.riskedAmount = p.riskedAmount
  mfe : p'.mfe = p.mfe
  mae : p'.mae = p.mae
  realizedPnl : p'.realizedPnl = p.realizedPnl
  slippage : p'.slippage = p.slippage
  barsOpen : p'.barsOpen = p.barsOpen
  trailingActive : p'.trailingActive = p.trailingActive
  breakEvenMoved : p'.breakEvenMoved = p.breakEvenMoved
  partialClosed : p'.partialClosed = p.partialClosed
  partialFillCount : p'.partialFillCount = p.partialFillCount

structure MirrorTrade (A : F) (t t' : TradeResult F) : Prop where
  ticket : t'.ticket = { t.ticket with side := t.side.flip }
  exitBar : t'.exitBar = t.exitBar
  exitTime : t'.exitTime = t.exitTime
  entryPrice : Reflects A t.entryPrice t'.entryPrice
  exitPrice : Reflects A t.exitPrice t'.exitPrice
  quantity : t'.quantity = t.quantity
  grossPnl : t'.grossPnl = t.grossPnl
  netPnl : t'.netPnl = t.netPnl
  rMultiple : t'.rMultiple = t.rMultiple
  commission : t'.commission = t.commission
  slippage : t'.slippage = t.slippage
  mfe : t'.mfe = t.mfe
  mae : t'.mae = t.mae
  barsHeld : t'.barsHeld = t.barsHeld
  exitReason : t'.exitReason = t.exitReason
  partialClose : t'.partialClose = t.partialClose
  partialFillCount : t'.partialFillCount = t.partialFillCount

/-- No cost is in proportion to a price. -/
structure NoPctCosts (tc : TradeConfig F) : Prop where
  commissionPct : tc.commissionPct = 0
  slippagePct : tc.slippagePct = 0
  spreadPct : tc.spreadPct = 0

theorem NoPctCosts.applyExitCosts {tc : TradeConfig F} (h : NoPctCosts tc) (side : TradeSide)
    (raw : F) : applyExitCosts tc side raw = raw := by
  simp [Strategy.applyExitCosts, h.slippagePct, h.spreadPct]

theorem NoPctCosts.applyEntryCosts {tc : TradeConfig F} (h : NoPctCosts tc) (side : TradeSide)
    (raw : F) : applyEntryCosts tc side raw = raw := by
  simp [Strategy.applyEntryCosts, h.slippagePct, h.spreadPct]

section Position

variable {p p' : OpenPosition F} (h : MirrorPos A p p')

include h

theorem MirrorPos.side : p'.side = p.side.flip := congrArg Ticket.side h.ticket

theorem MirrorPos.isLong : p'.isLong = !p.isLong := by
  unfold OpenPosition.isLong
  rw [h.side]
  cases p.side <;> rfl

theorem MirrorPos.sign : p'.sign = -p.sign := by
  unfold OpenPosition.sign
  rw [h.isLong]
  cases p.isLong <;> simp

variable {x x' : F} {tc : TradeConfig F} {b b' : OHLCV F}

theorem MirrorPos.profitPerUnit (hx : Reflects A x x') :
    p'.profitPerUnit x' = p.profitPerUnit x := by
  unfold OpenPosition.profitPerUnit OpenPosition.valuePerUnit
  rw [hx.sub_eq h.openRaw, h.sign]
  ring

theorem MirrorPos.unrealizedPnl (hx : Reflects A x x') :
    p'.unrealizedPnl x' = p.unrealizedPnl x := by
  unfold OpenPosition.unrealizedPnl
  rw [hx.sub_eq h.entryPrice, h.sign, h.quantity]
  ring

theorem MirrorPos.fillNet (hc : NoPctCosts tc) (hx : Reflects A x x') (qty : F) :
    fillNet tc p' x' qty = fillNet tc p x qty := by
  unfold Strategy.fillNet
  simp only [hc.applyExitCosts, hc.commissionPct]
  rw [hx.sub_eq h.entryPrice, h.sign]
  ring

/-! ## Exits -/

theorem MirrorPos.stopHit (hb : MirrorBar A b b') :
    p'.stopHit b'.high b'.low = p.stopHit b.high b.low := by
  have hlow := hb.low.le_iff h.stopLoss
  have hhigh := h.stopLoss.le_iff hb.high
  unfold OpenPosition.stopHit
  rw [h.isLong]
  cases p.isLong <;> simp [hlow, hhigh]

theorem MirrorPos.tpHit (hb : MirrorBar A b b') :
    p'.tpHit b'.high b'.low = p.tpHit b.high b.low := by
  unfold OpenPosition.tpHit
  by_cases htp : 0 < p.takeProfit
  · have hhigh := (h.takeProfit.reflects htp).le_iff hb.high
    have hlow := hb.low.le_iff (h.takeProfit.reflects htp)
    rw [if_neg (not_le.mpr htp), if_neg (not_le.mpr (h.takeProfit.pos_iff.mp htp)), h.isLong]
    cases p.isLong <;> simp [hlow, hhigh]
  · rw [if_pos (not_lt.mp htp), if_pos (not_lt.mp fun h' ↦ htp (h.takeProfit.pos_iff.mpr h'))]

theorem MirrorPos.stopFill (hx : Reflects A x x') :
    Reflects A (p.stopFill x) (p'.stopFill x') := by
  unfold OpenPosition.stopFill
  rw [h.isLong]
  cases p.isLong
  · exact hx.stdMax h.stopLoss
  · exact hx.stdMin h.stopLoss

theorem MirrorPos.tpFill (hx : Reflects A x x') (htp : 0 < p.takeProfit) :
    Reflects A (p.tpFill x) (p'.tpFill x') := by
  unfold OpenPosition.tpFill
  rw [h.isLong]
  cases p.isLong
  · exact hx.stdMin (h.takeProfit.reflects htp)
  · exact hx.stdMax (h.takeProfit.reflects htp)

theorem MirrorPos.stopReason : stopReason p' = stopReason p := by
  rw [Strategy.stopReason, h.trailingActive, h.breakEvenMoved, Strategy.stopReason]

theorem MirrorPos.bestPrice (hb : MirrorBar A b b') :
    Reflects A (bestPrice p b) (bestPrice p' b') := by
  unfold Strategy.bestPrice
  rw [h.isLong]
  cases p.isLong
  · exact hb.low
  · exact hb.high

/-! ## Fills -/

theorem MirrorPos.applyFill (hc : NoPctCosts tc) (hx : Reflects A x x') (qty : F) :
    MirrorPos A (applyFill tc p x qty) (applyFill tc p' x' qty) where
  __ := h
  quantity := congrArg (· - qty) h.quantity
  totalCommission := by
    simp only [Strategy.applyFill, hc.commissionPct, mul_zero, h.totalCommission]
  realizedPnl := by
    simp only [Strategy.applyFill, h.realizedPnl, h.fillNet hc hx]
  slippage := by
    simp only [Strategy.applyFill, hc.applyExitCosts, sub_self, h.slippage]

theorem MirrorPos.tradeOf (hx : Reflects A x x') (reason : ExitReason) (i : Int) (ts : TimePoint) :
    MirrorTrade A (tradeOf p x reason i ts) (tradeOf p' x' reason i ts) where
  ticket := h.ticket
  exitBar := rfl
  exitTime := rfl
  entryPrice := h.entryPrice
  exitPrice := hx
  quantity := h.entryQuantity
  grossPnl := by simp only [Strategy.tradeOf, h.realizedPnl, h.totalCommission]
  netPnl := h.realizedPnl
  rMultiple := by simp only [Strategy.tradeOf, h.realizedPnl, h.riskedAmount]
  commission := h.totalCommission
  slippage := h.slippage
  mfe := h.mfe
  mae := h.mae
  barsHeld := by
    have hbar : p'.entryBar = p.entryBar := congrArg Ticket.entryBar h.ticket
    simp only [Strategy.tradeOf, hbar]
  exitReason := rfl
  partialClose := by simp only [Strategy.tradeOf, h.partialFillCount]
  partialFillCount := h.partialFillCount

/-! ## Management -/

theorem MirrorPos.ageOneBar (hb : MirrorBar A b b') :
    MirrorPos A (ageOneBar p b) (ageOneBar p' b') := by
  have hbars : p'.barsOpen + 1 = p.barsOpen + 1 := congrArg (· + 1) h.barsOpen
  unfold Strategy.ageOneBar OpenPosition.updateMfeMae
  rw [h.isLong]
  cases p.isLong
  · -- The excursions of a short position are those of its long image.
    exact { h with
      mfe := by
        show Quant.stdMax p'.mfe (b'.high - p'.openRaw) = Quant.stdMax p.mfe (p.openRaw - b.low)
        rw [h.mfe, hb.low.sub_eq h.openRaw]
      mae := by
        show Quant.stdMin p'.mae (b'.low - p'.openRaw) = Quant.stdMin p.mae (p.openRaw - b.high)
        rw [h.mae, hb.high.sub_eq h.openRaw]
      barsOpen := hbars }
  · exact { h with
      mfe := by
        show Quant.stdMax p'.mfe (p'.openRaw - b'.low) = Quant.stdMax p.mfe (b.high - p.openRaw)
        rw [h.mfe, h.openRaw.sub_eq hb.high]
      mae := by
        show Quant.stdMin p'.mae (p'.openRaw - b'.high) = Quant.stdMin p.mae (b.low - p.openRaw)
        rw [h.mae, h.openRaw.sub_eq hb.low]
      barsOpen := hbars }

theorem MirrorPos.partialTargetHit (hb : MirrorBar A b b') :
    partialTargetHit tc p' b' = partialTargetHit tc p b := by
  unfold Strategy.partialTargetHit
  by_cases hpt : 0 < p.partialTarget
  · have hhigh := (h.partialTarget.reflects hpt).le_iff hb.high
    have hlow := hb.low.le_iff (h.partialTarget.reflects hpt)
    have hpt' := h.partialTarget.pos_iff.mp hpt
    rw [h.isLong, h.partialClosed]
    cases p.isLong <;> simp [hpt, hpt', hlow, hhigh]
  · have hpt' : ¬ 0 < p'.partialTarget := fun h' ↦ hpt (h.partialTarget.pos_iff.mpr h')
    simp [hpt, hpt']

theorem MirrorPos.partialFill (hb : MirrorBar A b b')
    (hit : Strategy.partialTargetHit tc p b = true) :
    Reflects A
      (if p.isLong then Quant.stdMax b.open p.partialTarget
        else Quant.stdMin b.open p.partialTarget)
      (if p'.isLong then Quant.stdMax b'.open p'.partialTarget
        else Quant.stdMin b'.open p'.partialTarget) := by
  have hpt : 0 < p.partialTarget := by
    simp only [Strategy.partialTargetHit, Bool.and_eq_true, decide_eq_true_eq] at hit
    exact hit.1.2
  rw [h.isLong]
  cases p.isLong
  · exact hb.open.stdMin (h.partialTarget.reflects hpt)
  · exact hb.open.stdMax (h.partialTarget.reflects hpt)

variable {best best' : F}

theorem MirrorPos.manageBreakEven (hx : Reflects A best best') :
    MirrorPos A (manageBreakEven p best) (manageBreakEven p' best') := by
  unfold Strategy.manageBreakEven
  rw [h.breakEvenMoved, h.breakEvenActivation, h.profitPerUnit hx]
  split
  · exact { h with stopLoss := h.openRaw, breakEvenMoved := rfl }
  · exact h

theorem MirrorPos.ratchetTrailing (hx : Reflects A best best') :
    MirrorPos A (p.ratchetTrailing best) (p'.ratchetTrailing best') := by
  have hlong := h.stopLoss.lt_iff (hx.sub_dist p.trailingDistance)
  have hshort := (hx.add_dist p.trailingDistance).lt_iff h.stopLoss
  unfold OpenPosition.ratchetTrailing
  rw [h.trailingActive, h.trailingDistance, h.isLong]
  split
  · exact h
  · cases p.isLong
    · by_cases hlt : best + p.trailingDistance < p.stopLoss
      · simp only [Bool.false_eq_true, Bool.not_false, if_true, if_false, if_pos hlt,
          if_pos (hshort.mp hlt)]
        exact { h with stopLoss := hx.add_dist _, trailingDistance := rfl, trailingActive := rfl }
      · simp only [Bool.false_eq_true, Bool.not_false, if_true, if_false, if_neg hlt,
          if_neg fun hc ↦ hlt (hshort.mpr hc)]
        exact h
    · by_cases hlt : p.stopLoss < best - p.trailingDistance
      · simp only [Bool.false_eq_true, Bool.not_true, if_true, if_false, if_pos hlt,
          if_pos (hlong.mp hlt)]
        exact { h with stopLoss := hx.sub_dist _, trailingDistance := rfl, trailingActive := rfl }
      · simp only [Bool.false_eq_true, Bool.not_true, if_true, if_false, if_neg hlt,
          if_neg fun hc ↦ hlt (hlong.mpr hc)]
        exact h

theorem MirrorPos.manageTrailing (hx : Reflects A best best') :
    MirrorPos A (manageTrailing p best) (manageTrailing p' best') := by
  have harm : MirrorPos A { p with trailingActive := true } { p' with trailingActive := true } :=
    { h with trailingActive := rfl }
  have harmed : (!p'.trailingActive && (decide (p'.activationDistance ≤ 0) ||
      decide (p'.activationDistance ≤ p'.profitPerUnit best'))) =
      (!p.trailingActive && (decide (p.activationDistance ≤ 0) ||
        decide (p.activationDistance ≤ p.profitPerUnit best))) := by
    rw [h.trailingActive, h.activationDistance, h.profitPerUnit hx]
  have hdist : 0 < p'.trailingDistance ↔ 0 < p.trailingDistance := by rw [h.trailingDistance]
  unfold Strategy.manageTrailing
  by_cases hd : 0 < p.trailingDistance
  · rw [if_pos hd, if_pos (hdist.mpr hd), harmed]
    dsimp only
    split
    · exact harm.ratchetTrailing hx
    · rw [h.trailingActive]
      split
      · exact h.ratchetTrailing hx
      · exact h
  · rw [if_neg hd, if_neg (hdist.not.mpr hd)]
    exact h

theorem MirrorPos.timeStopDue (tc : TradeConfig F) : timeStopDue tc p' = timeStopDue tc p := by
  rw [Strategy.timeStopDue, h.barsOpen, Strategy.timeStopDue]

end Position

end Qros.Quant.Strategy
