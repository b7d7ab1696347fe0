import Qros.Quant.Strategy.Accounting
import Qros.Lib.StopGuard
import Qros.Quant.Strategy.Population

/-!
# Stops that only tighten

Between two `Modify` signals a stop is moved by break-even and by trailing.  The
trailing stop ratchets; break-even writes the entry price over whatever stop is
there.  For a position that no signal has modified this is never a loss: its stop
is beyond the entry only where trailing has put it, at a price short of the
break-even activation (`sound_of_unmodified`, the invariant `Guard.Sound`).  A
`Modify` may place the stop beyond the entry, and then the next bar that earns
break-even takes it back (`Loosens`).

`run_stopsTighten_iff` is the exact account, over whole runs.
-/

universe u

/-!
## The stop of a position

`break-even` and `trailing` write one field, with the comparisons turned around
for a short.  Seen in the direction of the position's profit both sides are one
`Guard` of `Qros.Lib.StopGuard`: `guard_moveStop` says that a bar takes one step
of it.
-/

set_option linter.unusedSectionVars false

namespace Qros.Quant.Strategy

open Qros.Lib.StopGuard

variable {F : Type u} [Field F] [LinearOrder F] [IsStrictOrderedRing F] [CMath F]

/-- A price, counted upwards in the direction of the side's profit. -/
def towards : TradeSide → F → F
  | .long, x => x
  | .short, x => -x

/-- The stop of a position, in the direction of its profit. -/
def OpenPosition.guard (p : OpenPosition F) : Guard F where
  entry := towards p.side p.openRaw
  stop := towards p.side p.stopLoss
  trail := p.trailingDistance
  arm := p.activationDistance
  lock := p.breakEvenActivation
  armed := p.trailingActive
  locked := p.breakEvenMoved

variable {p q : OpenPosition F}

theorem SameStop.guard (h : SameStop p q) : q.guard = p.guard := by
  simp only [OpenPosition.guard, h.side, h.openRaw, h.stopLoss, h.trailingDistance,
    h.activationDistance, h.breakEvenActivation, h.trailingActive, h.breakEvenMoved]

theorem SameStop.bestPrice_eq (h : SameStop p q) (bar : OHLCV F) :
    bestPrice q bar = bestPrice p bar := by
  have hlong : q.isLong = p.isLong := by rw [OpenPosition.isLong, OpenPosition.isLong, h.side]
  rw [bestPrice, bestPrice, hlong]

theorem profitPerUnit_eq (p : OpenPosition F) (price : F) :
    p.profitPerUnit price = towards p.side price - p.guard.entry := by
  have hvalue : p.profitPerUnit price = (price - p.openRaw) * p.sign := rfl
  rw [hvalue]
  cases hs : p.side with
  | long => simp [OpenPosition.sign, OpenPosition.isLong, OpenPosition.guard, towards, hs]
  | short =>
    simp only [OpenPosition.sign, OpenPosition.isLong, OpenPosition.guard, towards, hs]
    rw [if_neg (by decide)]
    ring

theorem guard_manageBreakEven (p : OpenPosition F) (best : F) :
    (manageBreakEven p best).guard = p.guard.lockIn (towards p.side best) := by
  have hdue : (!p.breakEvenMoved && decide (0 < p.breakEvenActivation) &&
      decide (p.breakEvenActivation ≤ p.profitPerUnit best)) = true ↔
      p.guard.LockDue (towards p.side best) := by
    rw [profitPerUnit_eq, Guard.LockDue, Bool.and_eq_true, Bool.and_eq_true, and_assoc,
      Bool.not_eq_true', decide_eq_true_eq, decide_eq_true_eq]
    exact Iff.rfl
  rw [manageBreakEven, Guard.lockIn, if_congr hdue rfl rfl]
  split <;> rfl

theorem guard_ratchetTrailing {p : OpenPosition F} (harmed : p.trailingActive = true)
    (hpos : 0 < p.trailingDistance) (best : F) : (p.ratchetTrailing best).guard =
      { p.guard with stop := max p.guard.stop (towards p.side best - p.guard.trail) } := by
  have hskip : (!p.trailingActive || decide (p.trailingDistance ≤ 0)) = false := by
    rw [harmed, decide_eq_false (not_le.mpr hpos)]
    rfl
  rw [OpenPosition.ratchetTrailing, if_neg (by simp [hskip])]
  cases hs : p.side with
  | long =>
    rw [if_pos (by simp [OpenPosition.isLong, hs])]
    split
    · rename_i h
      simp only [OpenPosition.guard, hs, towards]
      rw [max_eq_right (le_of_lt h)]
    · rename_i h
      simp only [OpenPosition.guard, hs, towards]
      rw [max_eq_left (not_lt.mp h)]
  | short =>
    rw [if_neg (by simp [OpenPosition.isLong, hs])]
    have hneg : -best - p.trailingDistance = -(best + p.trailingDistance) := by ring
    split
    · rename_i h
      simp only [OpenPosition.guard, hs, towards]
      rw [hneg, max_eq_right (neg_le_neg (le_of_lt h))]
    · rename_i h
      simp only [OpenPosition.guard, hs, towards]
      rw [hneg, max_eq_left (neg_le_neg (not_lt.mp h))]

theorem guard_manageTrailing (p : OpenPosition F) (best : F) :
    (manageTrailing p best).guard = p.guard.ratchet (towards p.side best) := by
  rw [Guard.ratchet]
  by_cases hpos : 0 < p.trailingDistance
  · have hreached : (!p.trailingActive && (decide (p.activationDistance ≤ 0) ||
        decide (p.activationDistance ≤ p.profitPerUnit best))) = true ↔
        p.trailingActive = false ∧
          (p.guard.arm ≤ 0 ∨ p.guard.arm ≤ towards p.side best - p.guard.entry) := by
      rw [profitPerUnit_eq, Bool.and_eq_true, Bool.not_eq_true', Bool.or_eq_true,
        decide_eq_true_eq, decide_eq_true_eq]
      exact Iff.rfl
    rw [manageTrailing, if_pos hpos]
    dsimp only
    by_cases harmed : p.trailingActive = true
    · have htrails : p.guard.Trails (towards p.side best) := ⟨hpos, .inl harmed⟩
      have hnot : ¬p.trailingActive = false := by simp [harmed]
      rw [if_neg (mt hreached.mp fun h ↦ hnot h.1), if_pos harmed, if_pos htrails,
        guard_ratchetTrailing harmed hpos]
      simp [OpenPosition.guard, harmed]
    · have hidle : p.trailingActive = false := by simpa using harmed
      by_cases hr : p.guard.arm ≤ 0 ∨ p.guard.arm ≤ towards p.side best - p.guard.entry
      · have htrails : p.guard.Trails (towards p.side best) := ⟨hpos, .inr hr⟩
        rw [if_pos (hreached.mpr ⟨hidle, hr⟩), if_pos rfl, if_pos htrails]
        exact guard_ratchetTrailing (p := { p with trailingActive := true }) rfl hpos best
      · have htrails : ¬p.guard.Trails (towards p.side best) := by
          rintro ⟨-, h | h⟩
          · exact harmed h
          · exact hr h
        rw [if_neg (mt hreached.mp fun h ↦ hr h.2), if_neg harmed, if_neg htrails]
  · rw [manageTrailing, if_neg hpos, if_neg fun h ↦ hpos h.1]

/-- **A bar takes one step of the guard**, at the bar's best price. -/
theorem guard_moveStop (p : OpenPosition F) (bar : OHLCV F) :
    (moveStop p bar).guard = p.guard.step (towards p.side (bestPrice p bar)) := by
  have hside : (manageBreakEven p (bestPrice p bar)).side = p.side :=
    congrArg Ticket.side (ticket_manageBreakEven p _).1
  rw [moveStop, guard_manageTrailing, guard_manageBreakEven, hside]
  rfl

theorem SameStop.moveStop_guard (h : SameStop p q) (bar : OHLCV F) :
    (moveStop q bar).guard = p.guard.step (towards p.side (bestPrice p bar)) := by
  rw [guard_moveStop, h.guard, h.side, h.bestPrice_eq]

end Qros.Quant.Strategy

set_option linter.unusedSectionVars false

namespace Qros.Quant.Strategy

open Qros.Lib.StopGuard

/-! ## What is asked of a run -/

section

variable {F : Type u} [Zero F] [One F] [NatCast F] [Add F] [Sub F] [Mul F] [Div F] [Neg F]
  [LT F] [LE F] [DecidableLT F] [DecidableLE F] [CMath F]

/-- `stop'` protects a position of the side at least as well as `stop`. -/
def NoLooser (stop stop' : F) : TradeSide → Prop
  | .long => stop ≤ stop'
  | .short => stop' ≤ stop

/-- No `Modify` signal reaches the position with the ticket `k` after the fills of bar
`i`, up to those of bar `j`. -/
def NoModify (env : Env F) (ordered : List (StrategySignal F)) (i j : Nat) (k : Ticket) : Prop :=
  ∀ m, i < m → m ≤ j → ¬ModifiedAt env ordered m (fun _ ↦ True) k

/-- On bar `i`, the position with the ticket `k` has had a stop since it was last
modified. -/
def StopSet (env : Env F) (ordered : List (StrategySignal F)) (i : Nat) (k : Ticket) : Prop :=
  ∃ m ≤ i, (∃ o ∈ filledAt env ordered m, o.ticket = k ∧ o.stopLoss ≠ 0) ∧ NoModify env ordered m i k

/-- Between two `Modify` signals no stop that has been set is loosened, over the first
`n` bars. -/
def StopsTighten (env : Env F) (ordered : List (StrategySignal F)) (n : Nat) : Prop :=
  ∀ i j, i ≤ j → j < n → ∀ p ∈ filledAt env ordered i, StopSet env ordered i p.ticket →
    NoModify env ordered i j p.ticket → ∀ p' ∈ managedAt env ordered j, p'.ticket = p.ticket →
    NoLooser p.stopLoss p'.stopLoss p.side

/-- Up to the fills of bar `i` a `Modify` has reached the position with the ticket `k`. -/
def ModifiedBefore (env : Env F) (ordered : List (StrategySignal F)) (i : Nat) (k : Ticket) :
    Prop := ∃ m ≤ i, ModifiedAt env ordered m (fun _ ↦ True) k

theorem NoModify.tail {env : Env F} {ordered : List (StrategySignal F)} {i j : Nat} {k : Ticket}
    (h : NoModify env ordered i (j + 1) k) : NoModify env ordered i j k :=
  fun m hi hj ↦ h m hi (Nat.le_succ_of_le hj)

theorem StopSet.mono {env : Env F} {ordered : List (StrategySignal F)} {i j : Nat} {k : Ticket}
    (h : StopSet env ordered i k) (hij : i ≤ j) (hno : NoModify env ordered i j k) :
    StopSet env ordered j k := by
  obtain ⟨m, hm, hset, hquiet⟩ := h
  refine ⟨m, hm.trans hij, hset, fun l hl hlj ↦ ?_⟩
  rcases Nat.lt_or_ge i l with hil | hli
  · exact hno l hil hlj
  · exact hquiet l hl hli

end

variable {F : Type u} [Field F] [LinearOrder F] [IsStrictOrderedRing F] [CMath F]

theorem noLooser_iff {stop stop' : F} {side : TradeSide} :
    NoLooser stop stop' side ↔ towards side stop ≤ towards side stop' := by
  cases side with
  | long => exact Iff.rfl
  | short => exact neg_le_neg_iff.symm

/-- The bar earns the position its break-even move and leaves it open, with its stop
beyond the entry, and the trailing stop does not take it back there. -/
def Loosens (tc : TradeConfig F) (bar : OHLCV F) (p : OpenPosition F) : Prop :=
  StaysOpen tc bar p ∧ p.guard.LockDue (towards p.side (bestPrice p bar)) ∧
    p.guard.entry < p.guard.stop ∧
    ¬(p.guard.Trails (towards p.side (bestPrice p bar)) ∧
      p.guard.stop ≤ towards p.side (bestPrice p bar) - p.guard.trail)

theorem loosens_iff {tc : TradeConfig F} {bar : OHLCV F} {p : OpenPosition F} :
    Loosens tc bar p ↔ StaysOpen tc bar p ∧
      (p.guard.step (towards p.side (bestPrice p bar))).stop < p.guard.stop :=
  and_congr_right fun _ ↦ Guard.stop_step_lt_iff.symm

/-! ## Positions no signal has modified -/

/-- A position entered at the open of a bar that does not hit its stop has the stop
below its entry. -/
theorem sound_of_entered {tc : TradeConfig F} {bar : OHLCV F} {p : OpenPosition F}
    (hvalid : bar.isValid = true) (hentry : p.openRaw = bar.open) (h : StaysOpen tc bar p) :
    p.guard.Sound := by
  left
  have hstop := h.1
  simp only [OHLCV.isValid, Bool.and_eq_true, decide_eq_true_eq] at hvalid
  cases hs : p.side with
  | long =>
    simp only [OpenPosition.stopHit, OpenPosition.isLong, hs, decide_true, if_true,
      decide_eq_false_iff_not, not_le] at hstop
    simp only [OpenPosition.guard, hs, towards, hentry]
    exact hstop.le.trans hvalid.1.2
  | short =>
    simp only [OpenPosition.stopHit, OpenPosition.isLong, hs] at hstop
    rw [if_neg (by decide), decide_eq_false_iff_not, not_le] at hstop
    simp only [OpenPosition.guard, hs, towards, hentry]
    exact neg_le_neg (hvalid.1.1.1.2.trans hstop.le)

section Run

variable {env : Env F} {ordered : List (StrategySignal F)}

variable {i : Nat} {p : OpenPosition F}

theorem sound_of_unmodified (hvalid : ∀ m < i, (barAt env.bars m).isValid = true)
    (hp : p ∈ filledAt env ordered i) (hno : ¬ModifiedBefore env ordered i p.ticket) :
    p.guard.Sound ∨ p.openRaw = (barAt env.bars i).open := by
  have hquiet : ∀ m ≤ i, ¬ModifiedAt env ordered m (fun _ ↦ True) p.ticket :=
    fun m hm hmod ↦ hno ⟨m, hm, hmod⟩
  induction i generalizing p with
  | zero =>
    refine mem_filledAt (Q := fun q ↦ q.guard.Sound ∨ q.openRaw = _)
      (fun q hq ↦ absurd hq not_mem_stateAfter_zero) ?_ (fun _ _ hfalse ↦ absurd trivial hfalse)
      (hquiet 0 (le_refl _)) hp
    rintro q ⟨ctx, sig, -, rfl⟩ -
    exact .inr rfl
  | succ i ih =>
    refine mem_filledAt (Q := fun q ↦ q.guard.Sound ∨ q.openRaw = _) ?_ ?_
      (fun _ _ hfalse ↦ absurd trivial hfalse) (hquiet (i + 1) (le_refl _)) hp
    · intro q hq hticket
      obtain ⟨o, ho, hopen, o', hsame, rfl⟩ := mem_managedAt (mem_stateAfter_succ hq)
      rw [hsame.moveStop_ticket] at hticket
      have hbefore : ∀ m ≤ i, ¬ModifiedAt env ordered m (fun _ ↦ True) o.ticket :=
        fun m hm ↦ hticket ▸ hquiet m (Nat.le_succ_of_le hm)
      have ho' := ih (fun m hm ↦ hvalid m (Nat.lt_succ_of_lt hm)) ho
        (fun ⟨m, hm, hmod⟩ ↦ hbefore m hm hmod) hbefore
      have hsound : o.guard.Sound :=
        ho'.elim id fun hentry ↦ sound_of_entered (hvalid i (Nat.lt_succ_self i)) hentry hopen
      left
      rw [hsame.moveStop_guard]
      exact hsound.step
    · rintro q ⟨ctx, sig, -, rfl⟩ -
      exact .inr rfl

theorem not_loosens_of_unmodified (hvalid : ∀ m ≤ i, (barAt env.bars m).isValid = true)
    (hp : p ∈ filledAt env ordered i) (hno : ¬ModifiedBefore env ordered i p.ticket) :
    ¬Loosens env.cfg.trade (barAt env.bars i) p := by
  intro h
  obtain ⟨hopen, hlt⟩ := loosens_iff.mp h
  have hsound : p.guard.Sound := by
    rcases sound_of_unmodified (fun m hm ↦ hvalid m hm.le) hp hno with hs | hentry
    · exact hs
    · exact sound_of_entered (hvalid i (le_refl _)) hentry hopen
  exact absurd hsound.stop_le_step (not_le.mpr hlt)

/-! ## Tickets -/

theorem Accounts.eq_of_ticket {base : F} {ctx : Context F} (h : Accounts base ctx)
    {p q : OpenPosition F} (hp : p ∈ ctx.positions) (hq : q ∈ ctx.positions)
    (hticket : p.ticket = q.ticket) : p = q := by
  have hall : (ctx.entries.map Ticket.id).Nodup := by
    rw [h.ids.nodup_iff, idsUpTo]
    refine List.nodup_range.map fun a b hab ↦ ?_
    simpa using hab
  have hopen : (ctx.positions.map fun p ↦ p.ticket.id).Nodup := by
    rw [Context.entries, List.map_append, List.map_map] at hall
    exact (List.nodup_append.mp hall).1
  exact List.inj_on_of_nodup_map hopen hp hq (congrArg Ticket.id hticket)

theorem eq_of_ticket_filledAt {p q : OpenPosition F} (hp : p ∈ filledAt env ordered i)
    (hq : q ∈ filledAt env ordered i) (hticket : p.ticket = q.ticket) : p = q := by
  have hbar := Accounts.barInv env i env.cfg.risk.initialEquity
  exact (hbar.fillPending (hbar.beforeFills (Accounts.stateAfter env ordered i))).eq_of_ticket
    hp hq hticket

/-! ## Runs -/

theorem stop_le_managedAt {p p' : OpenPosition F} (hp : p ∈ filledAt env ordered i)
    (hno : ¬Loosens env.cfg.trade (barAt env.bars i) p) (hp' : p' ∈ managedAt env ordered i)
    (hticket : p'.ticket = p.ticket) : p.guard.stop ≤ p'.guard.stop := by
  obtain ⟨q, hq, hopen, q', hsame, rfl⟩ := mem_managedAt hp'
  rw [hsame.moveStop_ticket] at hticket
  obtain rfl := eq_of_ticket_filledAt hq hp hticket
  rw [hsame.moveStop_guard]
  exact not_lt.mp fun hlt ↦ hno (loosens_iff.mpr ⟨hopen, hlt⟩)

theorem stop_le_run {i j : Nat} (hij : i ≤ j)
    (hno : ∀ m ≤ j, ∀ q ∈ filledAt env ordered m, StopSet env ordered m q.ticket →
      ¬Loosens env.cfg.trade (barAt env.bars m) q)
    (hp : p ∈ filledAt env ordered i) (hset : StopSet env ordered i p.ticket)
    (hquiet : NoModify env ordered i j p.ticket) {p' : OpenPosition F}
    (hp' : p' ∈ managedAt env ordered j) (hticket : p'.ticket = p.ticket) :
    p.guard.stop ≤ p'.guard.stop := by
  induction j, hij using Nat.le_induction generalizing p' with
  | base => exact stop_le_managedAt hp (hno i (le_refl _) p hp hset) hp' hticket
  | succ j hij ih =>
    obtain ⟨q, hq, -, q', hsame, rfl⟩ := mem_managedAt hp'
    have hqp : q.ticket = p.ticket := (hsame.moveStop_ticket _).symm.trans hticket
    have hentered : q.ticket.entryBar ≤ j :=
      (congrArg Ticket.entryBar hqp).trans_le ((entryBar_le hp).trans (by exact_mod_cast hij))
    have hleft : q ∈ managedAt env ordered j :=
      mem_managedAt_of_filledAt_succ hq hentered
        (hqp ▸ hquiet (j + 1) (Nat.lt_succ_of_le hij) (le_refl _))
    have hqset : StopSet env ordered (j + 1) q.ticket :=
      hqp ▸ hset.mono (Nat.le_succ_of_le hij) hquiet
    calc
      p.guard.stop ≤ q.guard.stop :=
        ih (fun m hm ↦ hno m (Nat.le_succ_of_le hm)) hquiet.tail hleft hqp
      _ ≤ (moveStop q' (barAt env.bars (j + 1))).guard.stop :=
        stop_le_managedAt hq (hno (j + 1) (le_refl _) q hq hqset) hp'
          (hsame.moveStop_ticket _)

theorem stopsTighten_iff {n : Nat} (hvalid : ∀ m < n, (barAt env.bars m).isValid = true) :
    StopsTighten env ordered n ↔
      ∀ i < n, ∀ p ∈ filledAt env ordered i, StopSet env ordered i p.ticket →
        ModifiedBefore env ordered i p.ticket →
        ¬Loosens env.cfg.trade (barAt env.bars i) p := by
  constructor
  · intro htight i hi p hp hset _ hloosens
    obtain ⟨hopen, hlt⟩ := loosens_iff.mp hloosens
    obtain ⟨q, hsame, hmem⟩ := hopen.managedAt hp
    have hticket := hsame.moveStop_ticket (barAt env.bars i)
    have hle := noLooser_iff.mp (htight i i (le_refl _) hi p hp hset
      (fun m hm hmi ↦ absurd hm (not_lt.mpr hmi)) _ hmem hticket)
    have hside : (moveStop q (barAt env.bars i)).side = p.side := congrArg Ticket.side hticket
    have hstep : towards p.side (moveStop q (barAt env.bars i)).stopLoss =
        (p.guard.step (towards p.side (bestPrice p (barAt env.bars i)))).stop := by
      rw [← hsame.moveStop_guard, ← hside]
      rfl
    exact absurd hle (not_le.mpr (hstep ▸ hlt))
  · intro hno i j hij hj p hp hset hquiet p' hp' hticket
    have hside : p'.side = p.side := congrArg Ticket.side hticket
    have hle : p.guard.stop ≤ p'.guard.stop := by
      refine stop_le_run hij (fun m hm q hq hqset hloosens ↦ ?_) hp hset hquiet hp' hticket
      by_cases hmod : ModifiedBefore env ordered m q.ticket
      · exact hno m (hm.trans_lt hj) q hq hqset hmod hloosens
      · exact not_loosens_of_unmodified (fun l hl ↦ hvalid l ((hl.trans hm).trans_lt hj)) hq hmod
          hloosens
    rw [noLooser_iff]
    have heq : p'.guard.stop = towards p.side p'.stopLoss := by
      rw [← hside]
      rfl
    exact heq ▸ hle

end Run

/-- **Protective stops.**  The stops of a run tighten between `Modify` signals exactly
if no bar moves a modified position back to break-even from a stop that was set
beyond its entry. -/
theorem run_stopsTighten_iff {cfg : StrategyConfig F} {bars : List (OHLCV F)}
    {signals : List (StrategySignal F)} {r : SimulationResult F}
    (h : run cfg bars signals = .ok r) :
    StopsTighten (runEnv cfg bars) (orderSignals signals) bars.length ↔
      ∀ i < bars.length, ∀ p ∈ filledAt (runEnv cfg bars) (orderSignals signals) i,
        StopSet (runEnv cfg bars) (orderSignals signals) i p.ticket →
        ModifiedBefore (runEnv cfg bars) (orderSignals signals) i p.ticket →
        ¬Loosens cfg.trade (barAt bars i) p :=
  stopsTighten_iff (run_eq_ok.mp h).1.valid

/-! ## Two runs -/

/-- A stop ten below the entry, moved to break-even after a gain of five. -/
def evenConfig : StrategyConfig ℚ :=
  { StrategyConfig.defaults with
    trade := { TradeConfig.defaults with
      sizing := .fixedLot, fixedLot := 2, stopLoss := 10, breakEvenActivationPct := 1 / 2
      trailingStop := 4, trailingActivationPct := 1, partialClosePct := 1 / 2
      partialCloseTargetPct := 1 } }

/-- A rise from `100` to above `110`. -/
def risingBars : List (OHLCV ℚ) :=
  [⟨0, 100, 101, 99, 100, 1⟩, ⟨60000000000, 100, 104, 99, 104, 1⟩,
    ⟨120000000000, 104, 106, 104, 105, 1⟩, ⟨180000000000, 105, 112, 104, 111, 1⟩]

def openLong : StrategySignal ℚ := { StrategySignal.defaults with barIndex := 0, action := .open }

/-- Break-even, a partial close and the trailing stop, one after the other. -/
theorem run_stopsTighten_sample : ∃ r, run evenConfig risingBars [openLong] = .ok r ∧
    StopsTighten (runEnv evenConfig risingBars) (orderSignals [openLong]) risingBars.length := by
  obtain ⟨r, hr⟩ : ∃ r, run evenConfig risingBars [openLong] = .ok r :=
    exists_run (by decide +kernel)
  have hqueue : ∀ i < 4, ∀ sig ∈ (atFills (runEnv evenConfig risingBars)
      (orderSignals [openLong]) i).pending, sig.action ≠ .modify := by decide +kernel
  refine ⟨r, hr, (run_stopsTighten_iff hr).mpr fun i hi p _ _ hmod ↦ ?_⟩
  obtain ⟨m, hm, hmodified⟩ := hmod
  obtain ⟨sig, hsig, -, hmodify⟩ := hmodified.exists
  exact absurd hmodify (hqueue m (hm.trans_lt hi) sig hsig)

/-- The entry, and a `Modify` on bar `1` that raises the stop to `103`. -/
def raiseStop : List (StrategySignal ℚ) :=
  [openLong,
    { openLong with barIndex := 1, action := .modify, stopLoss := 103, hasStopLoss := true }]

/-- On bar `2` break-even takes the raised stop back to the entry at `100`. -/
theorem modified_stop_loosened : ∃ r, run evenConfig risingBars raiseStop = .ok r ∧
    ¬StopsTighten (runEnv evenConfig risingBars) (orderSignals raiseStop) risingBars.length := by
  obtain ⟨r, hr⟩ : ∃ r, run evenConfig risingBars raiseStop = .ok r :=
    exists_run (by decide +kernel)
  refine ⟨r, hr, fun htight ↦ ?_⟩
  have hmoved : ∃ p ∈ filledAt (runEnv evenConfig risingBars) (orderSignals raiseStop) 2,
      ∃ p' ∈ managedAt (runEnv evenConfig risingBars) (orderSignals raiseStop) 2,
        (p'.id = p.id ∧ p'.entryBar = p.entryBar ∧ p'.entryTime = p.entryTime ∧ p'.side = p.side) ∧
        p.stopLoss = 103 ∧ p'.stopLoss = 100 ∧ p.side = .long := by decide +kernel
  obtain ⟨p, hp, p', hp', ⟨hid, hbar, htime, hside⟩, hstop, hstop', hlong⟩ := hmoved
  have hnone : ∀ k, NoModify (runEnv evenConfig risingBars) (orderSignals raiseStop) 2 2 k :=
    fun k m hm hm2 ↦ absurd hm (not_lt.mpr hm2)
  have hset : StopSet (runEnv evenConfig risingBars) (orderSignals raiseStop) 2 p.ticket :=
    ⟨2, le_refl _, ⟨p, hp, rfl, by rw [hstop]; decide⟩, hnone _⟩
  have hle := htight 2 2 (le_refl _) (by decide) p hp hset (hnone _) p' hp'
    (Ticket.ext hid hbar htime hside)
  rw [hlong, hstop, hstop'] at hle
  exact absurd hle (by show ¬((103 : ℚ) ≤ 100); decide)

end Qros.Quant.Strategy
