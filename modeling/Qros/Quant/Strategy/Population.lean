import Qros.Quant.Strategy.Moment

/-!
# The positions of a run, one by one

A position comes into the positions of a bar in one of two ways: it was left over
by the bar before, or a fill of the bar opened it.  A `Modify` signal among the
fills may change it on the way; then it is managed, and stays in the run exactly
if no exit fires.

`filledAt` and `managedAt` are the positions of a bar before and after they are
managed.  `mem_filledAt` and `mem_managedAt_iff` say where each of them comes
from, and `ModifiedAt` whether a fill reached it.  They hold for any arithmetic.
-/

universe u

set_option linter.unusedSectionVars false

namespace Qros.Quant.Strategy

open List

variable {F : Type u} [Zero F] [One F] [NatCast F] [Add F] [Sub F] [Mul F] [Div F] [Neg F]
  [LT F] [LE F] [DecidableLT F] [DecidableLE F] [CMath F]

/-! ## Fills -/

def Modifies (ctx : Context F) (sig : StrategySignal F) (k : Ticket) : Prop :=
  sig.action = .modify ∧ ∃ before p after,
    findLastOfSide sig.side ctx.positions = some (before, p, after) ∧ p.ticket = k

def ModifiedBy (P : StrategySignal F → Prop) (env : Env F) (i : Nat) (k : Ticket) :
    Context F → List (StrategySignal F) → Prop
  | _, [] => False
  | ctx, sig :: sigs => P sig ∧ Modifies ctx sig k ∨
      ModifiedBy P env i k (executeSignal env (barAt env.bars i) i ctx sig) sigs

def OpenedOn (env : Env F) (i : Nat) (p : OpenPosition F) : Prop :=
  ∃ ctx sig, opens env ctx sig (barAt env.bars i) = true ∧
    p = newPosition env ctx sig (barAt env.bars i) i

variable {ctx : Context F} {env : Env F}

theorem mem_executeSignal {i : Nat} {sig : StrategySignal F} {p : OpenPosition F}
    (h : p ∈ (executeSignal env (barAt env.bars i) i ctx sig).positions) :
    p ∈ ctx.positions ∨ OpenedOn env i p ∨
      ∃ q ∈ ctx.positions, Modifies ctx sig q.ticket ∧ p = modifyPosition sig q := by
  unfold executeSignal at h
  split at h
  · split at h
    · rename_i ho
      rcases mem_append.mp h with h | h
      · exact .inl h
      · exact .inr (.inl ⟨ctx, sig, ho, mem_singleton.mp h⟩)
    · exact .inl h
  · split at h
    · exact .inl h
    · rename_i before q after hfind
      left
      rw [findLastOfSide_eq_some hfind]
      rcases mem_append.mp h with h | h
      · exact mem_append_left _ h
      · exact mem_append_right _ (mem_cons_of_mem _ h)
  · split at h
    · exact .inl h
    · cases h
  · rename_i hact
    split at h
    · exact .inl h
    · rename_i before q after hfind
      have hpos := findLastOfSide_eq_some hfind
      rcases mem_append.mp h with h | h
      · exact .inl (hpos ▸ mem_append_left _ h)
      · rcases mem_cons.mp h with h | h
        · refine .inr (.inr ⟨q, ?_, ⟨hact, before, q, after, hfind, rfl⟩, h⟩)
          exact hpos ▸ mem_append_right _ mem_cons_self
        · exact .inl (hpos ▸ mem_append_right _ (mem_cons_of_mem _ h))
  · exact .inl h

theorem ModifiedBy.exists {P : StrategySignal F → Prop} {i : Nat} {k : Ticket}
    {sigs : List (StrategySignal F)} (h : ModifiedBy P env i k ctx sigs) :
    ∃ sig ∈ sigs, P sig ∧ sig.action = .modify := by
  induction sigs generalizing ctx with
  | nil => exact h.elim
  | cons sig sigs ih =>
    rcases h with ⟨hP, hmods⟩ | h
    · exact ⟨sig, mem_cons_self, hP, hmods.1⟩
    · obtain ⟨s, hs, hrest⟩ := ih h
      exact ⟨s, mem_cons_of_mem _ hs, hrest⟩

/-- What holds of the position with ticket `k` before the fills, of a new one, and
through any modification but those that `P` singles out, holds after the fills. -/
theorem mem_executeSignals {P : StrategySignal F → Prop} {Q : OpenPosition F → Prop} {i : Nat}
    {k : Ticket} (hnew : ∀ p, OpenedOn env i p → p.ticket = k → Q p)
    (hmod : ∀ sig p, ¬P sig → Q p → Q (modifyPosition sig p)) {sigs : List (StrategySignal F)}
    (hold : ∀ p ∈ ctx.positions, p.ticket = k → Q p) (hno : ¬ModifiedBy P env i k ctx sigs)
    {p : OpenPosition F}
    (hp : p ∈ (sigs.foldl (executeSignal env (barAt env.bars i) i) ctx).positions)
    (hk : p.ticket = k) : Q p := by
  induction sigs generalizing ctx with
  | nil => exact hold p hp hk
  | cons sig sigs ih =>
    refine ih ?_ (fun h ↦ hno (.inr h)) hp
    intro q hq hqk
    rcases mem_executeSignal hq with hq | hq | ⟨o, ho, hmods, rfl⟩
    · exact hold q hq hqk
    · exact hnew q hq hqk
    · have hok : o.ticket = k := hqk
      exact hmod sig o (fun hP ↦ hno (.inl ⟨hP, hok ▸ hmods⟩)) (hold o ho hok)

/-! ## Management -/

/-- No exit fires while `p` is managed. -/
def StaysOpen (tc : TradeConfig F) (bar : OHLCV F) (p : OpenPosition F) : Prop :=
  p.stopHit bar.high bar.low = false ∧ p.tpHit bar.high bar.low = false ∧
    timeStopDue tc (ageOneBar p bar) = false

/-- `q` is entered as `p` is, and has what moves its stop in common with it. -/
structure SameStop (p q : OpenPosition F) : Prop where
  ticket : q.ticket = p.ticket
  openRaw : q.openRaw = p.openRaw
  stopLoss : q.stopLoss = p.stopLoss
  trailingDistance : q.trailingDistance = p.trailingDistance
  activationDistance : q.activationDistance = p.activationDistance
  breakEvenActivation : q.breakEvenActivation = p.breakEvenActivation
  trailingActive : q.trailingActive = p.trailingActive
  breakEvenMoved : q.breakEvenMoved = p.breakEvenMoved
  riskedAmount : q.riskedAmount = p.riskedAmount

theorem SameStop.trans {p q r : OpenPosition F} (h : SameStop p q) (h' : SameStop q r) :
    SameStop p r where
  ticket := h'.ticket.trans h.ticket
  openRaw := h'.openRaw.trans h.openRaw
  stopLoss := h'.stopLoss.trans h.stopLoss
  trailingDistance := h'.trailingDistance.trans h.trailingDistance
  activationDistance := h'.activationDistance.trans h.activationDistance
  breakEvenActivation := h'.breakEvenActivation.trans h.breakEvenActivation
  trailingActive := h'.trailingActive.trans h.trailingActive
  breakEvenMoved := h'.breakEvenMoved.trans h.breakEvenMoved
  riskedAmount := h'.riskedAmount.trans h.riskedAmount

theorem SameStop.side {p q : OpenPosition F} (h : SameStop p q) : q.side = p.side :=
  congrArg Ticket.side h.ticket

theorem sameStop_ageOneBar (p : OpenPosition F) (bar : OHLCV F) : SameStop p (ageOneBar p bar) := by
  simp only [ageOneBar, OpenPosition.updateMfeMae]
  split <;> constructor <;> rfl

theorem sameStop_managePartial (tc : TradeConfig F) (ctx : Context F) (p : OpenPosition F)
    (bar : OHLCV F) : SameStop p (managePartial tc ctx p bar).2 := by
  unfold managePartial
  split <;> constructor <;> rfl

theorem barsOpen_managePartial (tc : TradeConfig F) (ctx : Context F) (p : OpenPosition F)
    (bar : OHLCV F) : (managePartial tc ctx p bar).2.barsOpen = p.barsOpen := by
  unfold managePartial
  split <;> rfl

theorem barsOpen_manageBreakEven (p : OpenPosition F) (best : F) :
    (manageBreakEven p best).barsOpen = p.barsOpen := by
  unfold manageBreakEven
  split <;> rfl

theorem barsOpen_ratchetTrailing (p : OpenPosition F) (best : F) :
    (p.ratchetTrailing best).barsOpen = p.barsOpen := by
  unfold OpenPosition.ratchetTrailing
  split
  · rfl
  · split <;> split <;> rfl

theorem barsOpen_manageTrailing (p : OpenPosition F) (best : F) :
    (manageTrailing p best).barsOpen = p.barsOpen := by
  simp only [manageTrailing]
  split
  · split <;> split <;> first
      | exact barsOpen_ratchetTrailing _ best
      | rfl
  · rfl

/-- The stop's part of `manage_one`: break-even, then trailing. -/
def moveStop (p : OpenPosition F) (bar : OHLCV F) : OpenPosition F :=
  manageTrailing (manageBreakEven p (bestPrice p bar)) (bestPrice p bar)

theorem timeStopDue_moveStop (tc : TradeConfig F) (p : OpenPosition F) (bar : OHLCV F) :
    timeStopDue tc (moveStop p bar) = timeStopDue tc p := by
  rw [timeStopDue, timeStopDue, moveStop, barsOpen_manageTrailing, barsOpen_manageBreakEven]

theorem stopHit_ageOneBar (p : OpenPosition F) (bar : OHLCV F) (high low : F) :
    (ageOneBar p bar).stopHit high low = p.stopHit high low := by
  simp only [ageOneBar, OpenPosition.updateMfeMae]
  split <;> rfl

theorem tpHit_ageOneBar (p : OpenPosition F) (bar : OHLCV F) (high low : F) :
    (ageOneBar p bar).tpHit high low = p.tpHit high low := by
  simp only [ageOneBar, OpenPosition.updateMfeMae]
  split <;> rfl

theorem stopReason_ageOneBar (p : OpenPosition F) (bar : OHLCV F) :
    stopReason (ageOneBar p bar) = stopReason p := by
  have h := sameStop_ageOneBar p bar
  rw [stopReason, stopReason, h.trailingActive, h.breakEvenMoved]

section Manage

variable {tc : TradeConfig F} {bar : OHLCV F} {i : Int} {ctx : Context F} {p p' : OpenPosition F}

theorem manageOne_of_stopHit (h : p.stopHit bar.high bar.low = true) :
    manageOne tc bar i ctx p = (closePosition tc ctx (ageOneBar p bar)
      ((ageOneBar p bar).stopFill bar.open) (stopReason p) i bar.timestamp, none) := by
  rw [manageOne]
  dsimp only
  rw [stopHit_ageOneBar, if_pos h, stopReason_ageOneBar]

theorem StaysOpen.manageOne (i : Int) (ctx : Context F) (h : StaysOpen tc bar p) :
    ∃ q, SameStop p q ∧ (Strategy.manageOne tc bar i ctx p).2 = some (moveStop q bar) := by
  obtain ⟨hstop, htp, htime⟩ := h
  rw [Strategy.manageOne]
  dsimp only
  rw [stopHit_ageOneBar, if_neg (by simp [hstop]), tpHit_ageOneBar, if_neg (by simp [htp])]
  refine ⟨(managePartial tc ctx (ageOneBar p bar) bar).2,
    (sameStop_ageOneBar p bar).trans (sameStop_managePartial tc ctx _ bar), ?_⟩
  rw [if_neg]
  · rfl
  · rw [← moveStop, timeStopDue_moveStop, timeStopDue, barsOpen_managePartial, ← timeStopDue, htime]
    decide

theorem staysOpen_of_manageOne (h : (manageOne tc bar i ctx p).2 = some p') :
    StaysOpen tc bar p := by
  rw [manageOne] at h
  dsimp only at h
  rw [stopHit_ageOneBar, tpHit_ageOneBar] at h
  split at h
  · cases h
  · rename_i hstop
    split at h
    · cases h
    · rename_i htp
      split at h
      · cases h
      · rename_i htime
        rw [← moveStop, timeStopDue_moveStop, timeStopDue, barsOpen_managePartial,
          ← timeStopDue] at htime
        exact ⟨by simpa using hstop, by simpa using htp, by simpa using htime⟩

theorem manageOne_some (h : (manageOne tc bar i ctx p).2 = some p') :
    ∃ q, SameStop p q ∧ p' = moveStop q bar := by
  obtain ⟨q, hq, heq⟩ := (staysOpen_of_manageOne h).manageOne i ctx
  exact ⟨q, hq, Option.some_inj.mp (h.symm.trans heq)⟩

theorem mem_manageEach {ps : List (OpenPosition F)} (h : p' ∈ (manageEach tc bar i ctx ps).2) :
    ∃ p ∈ ps, StaysOpen tc bar p ∧ ∃ q, SameStop p q ∧ p' = moveStop q bar := by
  induction ps generalizing ctx with
  | nil => cases h
  | cons p ps ih =>
    simp only [manageEach] at h
    rcases mem_append.mp h with h | h
    · have hsome := Option.mem_toList.mp h
      exact ⟨p, mem_cons_self, staysOpen_of_manageOne hsome, manageOne_some hsome⟩
    · obtain ⟨q, hq, hrest⟩ := ih h
      exact ⟨q, mem_cons_of_mem _ hq, hrest⟩

theorem StaysOpen.manageEach (h : StaysOpen tc bar p) {ps : List (OpenPosition F)} (hp : p ∈ ps) :
    ∃ q, SameStop p q ∧ moveStop q bar ∈ (Strategy.manageEach tc bar i ctx ps).2 := by
  induction ps generalizing ctx with
  | nil => cases hp
  | cons o ps ih =>
    simp only [Strategy.manageEach]
    rcases mem_cons.mp hp with rfl | hp
    · obtain ⟨q, hq, heq⟩ := h.manageOne i ctx
      exact ⟨q, hq, mem_append_left _ (Option.mem_toList.mpr heq)⟩
    · obtain ⟨q, hq, hmem⟩ := ih hp
      exact ⟨q, hq, mem_append_right _ hmem⟩

end Manage

/-! ## Runs -/

section

variable (env : Env F) (ordered : List (StrategySignal F)) (i : Nat)

/-- The context in which the signals queued for bar `i` are filled. -/
def atFills : Context F := beforeFills env (stateAfter env ordered i).ctx i

/-- The positions that bar `i` manages. -/
def filledAt : List (OpenPosition F) :=
  (fillPending env (barAt env.bars i) i (atFills env ordered i)).positions

/-- The positions that bar `i` leaves open. -/
def managedAt : List (OpenPosition F) := (managed env (stateAfter env ordered i).ctx i).positions

/-- A fill of bar `i` that `P` holds of modifies the position with the ticket `k`. -/
def ModifiedAt (P : StrategySignal F → Prop) (k : Ticket) : Prop :=
  ModifiedBy P env i k (atFills env ordered i) (atFills env ordered i).pending

variable {env ordered i} {p : OpenPosition F}

theorem mem_atFills (h : p ∈ (atFills env ordered i).positions) :
    p ∈ (stateAfter env ordered i).ctx.positions := by
  have hreset : ∀ ctx : Context F,
      (dailyReset env.cfg.risk (barAt env.bars i) ctx).positions = ctx.positions := by
    intro ctx
    unfold dailyReset
    split <;> rfl
  simp only [atFills, beforeFills, sessionClose] at h
  split at h
  · split at h
    · cases h
    · exact hreset _ ▸ h
  · exact hreset _ ▸ h

theorem mem_closeBar {ctx : Context F} (h : p ∈ (closeBar env ctx i).1.positions) :
    p ∈ (managed env ctx i).positions := by
  simp only [closeBar, lossLimitBreaker] at h
  split at h
  · cases h
  · exact h

theorem mem_stateAfter_succ (h : p ∈ (stateAfter env ordered (i + 1)).ctx.positions) :
    p ∈ managedAt env ordered i := by
  rw [stateAfter, loopBody_frame] at h
  exact mem_closeBar h

theorem not_mem_stateAfter_zero : p ∉ (stateAfter env ordered 0).ctx.positions :=
  not_mem_nil

/-- **Fills.**  What holds of the position that the bar is entered with, of a new
one, and through any modification but those that `P` singles out. -/
theorem mem_filledAt {P : StrategySignal F → Prop} {Q : OpenPosition F → Prop}
    (hold : ∀ q ∈ (stateAfter env ordered i).ctx.positions, q.ticket = p.ticket → Q q)
    (hnew : ∀ q, OpenedOn env i q → q.ticket = p.ticket → Q q)
    (hmod : ∀ sig q, ¬P sig → Q q → Q (modifyPosition sig q))
    (hno : ¬ModifiedAt env ordered i P p.ticket) (hp : p ∈ filledAt env ordered i) : Q p :=
  mem_executeSignals hnew hmod (fun q hq ↦ hold q (mem_atFills hq)) hno hp rfl

/-- **Management.**  What a bar leaves open is a position it managed, with its stop
moved. -/
theorem mem_managedAt {p' : OpenPosition F} (h : p' ∈ managedAt env ordered i) :
    ∃ p ∈ filledAt env ordered i, StaysOpen env.cfg.trade (barAt env.bars i) p ∧
      ∃ q, SameStop p q ∧ p' = moveStop q (barAt env.bars i) :=
  mem_manageEach h

theorem StaysOpen.managedAt (h : StaysOpen env.cfg.trade (barAt env.bars i) p)
    (hp : p ∈ filledAt env ordered i) :
    ∃ q, SameStop p q ∧ moveStop q (barAt env.bars i) ∈ Strategy.managedAt env ordered i :=
  h.manageEach hp

theorem ticket_moveStop (p : OpenPosition F) (bar : OHLCV F) :
    (moveStop p bar).ticket = p.ticket :=
  (ticket_manageTrailing _ _).1.trans (ticket_manageBreakEven _ _).1

theorem SameStop.moveStop_ticket {p q : OpenPosition F} (h : SameStop p q) (bar : OHLCV F) :
    (moveStop q bar).ticket = p.ticket := (ticket_moveStop q bar).trans h.ticket

theorem entryBar_le (hp : p ∈ filledAt env ordered i) : p.ticket.entryBar ≤ i := by
  induction i generalizing p with
  | zero =>
    refine mem_filledAt (P := fun _ ↦ False) (Q := fun q ↦ q.ticket.entryBar ≤ (0 : Nat))
      (fun q hq ↦ absurd hq not_mem_stateAfter_zero) ?_ (fun _ _ _ hq ↦ hq)
      (fun hno ↦ let ⟨_, _, hfalse, _⟩ := hno.exists; hfalse) hp
    rintro q ⟨ctx, sig, -, rfl⟩ -
    exact le_refl _
  | succ i ih =>
    refine mem_filledAt (P := fun _ ↦ False) (Q := fun q ↦ q.ticket.entryBar ≤ (i + 1 : Nat))
      ?_ ?_ (fun _ _ _ hq ↦ hq) (fun hno ↦ let ⟨_, _, hfalse, _⟩ := hno.exists; hfalse) hp
    · intro q hq _
      obtain ⟨o, ho, -, o', hsame, rfl⟩ := mem_managedAt (mem_stateAfter_succ hq)
      rw [hsame.moveStop_ticket]
      exact (ih ho).trans (by simp)
    · rintro q ⟨ctx, sig, -, rfl⟩ -
      exact le_refl _

/-- A position that a later bar manages was left open by the bar before, unless a
fill has changed it. -/
theorem mem_managedAt_of_filledAt_succ (hp : p ∈ filledAt env ordered (i + 1))
    (hold : p.ticket.entryBar ≤ i)
    (hno : ¬ModifiedAt env ordered (i + 1) (fun _ ↦ True) p.ticket) :
    p ∈ managedAt env ordered i := by
  refine mem_filledAt (Q := (· ∈ managedAt env ordered i)) (fun q hq _ ↦ mem_stateAfter_succ hq)
    ?_ (fun _ _ hfalse ↦ absurd trivial hfalse) hno hp
  rintro q ⟨ctx, sig, -, rfl⟩ hticket
  have hentry : (newPosition env ctx sig (barAt env.bars (i + 1)) (i + 1 : Nat)).ticket.entryBar =
      (i + 1 : Nat) := rfl
  rw [← hticket, hentry] at hold
  omega

end

end Qros.Quant.Strategy
