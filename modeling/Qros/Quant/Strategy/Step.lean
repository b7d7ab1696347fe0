import Qros.Quant.Strategy.Kernel
import Qros.Lib.Ledger

/-!
# What the kernel can do to its context

Apart from opening a position, every function of the kernel acts on the context
through four elementary steps: a signal is ignored, a position's levels or
excursions are adjusted, part of a position is closed, or a position is settled.
`Step` lists them and the theorems of this file show that the forced closes, the
management of positions and every signal but a filled `Open` are sequences of
them.

What holds of each `Step` then holds of whole bars.  `Steps.moves` reads a
sequence of steps as postings in the books of `Qros.Lib.Ledger`, an account being
the `Ticket` of an entry; `Steps.frame` says which fields stay as they are;
`Steps.closes` describes the trades that were added.

All of it holds for any arithmetic.
-/

universe u

-- Every theorem is stated under the one list of operations the engine computes with.
set_option linter.unusedSectionVars false

namespace Qros.Quant.Strategy

open Qros.Lib.Ledger List

/-- What identifies an entry, from its fill to its trade record. -/
@[ext]
structure Ticket where
  id : Int
  entryBar : Int
  entryTime : TimePoint
  side : TradeSide

variable {F : Type u}

def OpenPosition.ticket (p : OpenPosition F) : Ticket := ⟨p.id, p.entryBar, p.entryTime, p.side⟩

def TradeResult.ticket (t : TradeResult F) : Ticket := ⟨t.tradeId, t.entryBar, t.entryTime, t.side⟩

/-- The books of a run: the cash, the realized result of each open position and
the net result of each trade. -/
def Context.book (ctx : Context F) : Book Ticket F where
  cash := ctx.cash
  opened := ctx.positions.map fun p ↦ (p.ticket, p.realizedPnl)
  closed := ctx.trades.map fun t ↦ (t.ticket, t.netPnl)

/-- All entries made so far. -/
def Context.entries (ctx : Context F) : List Ticket :=
  ctx.positions.map OpenPosition.ticket ++ ctx.trades.map TradeResult.ticket

theorem Context.tags_book (ctx : Context F) : ctx.book.tags = ctx.entries := by
  simp only [Book.tags, Context.book, Context.entries, map_map, Function.comp_def]

variable [Zero F] [One F] [NatCast F] [Add F] [Sub F] [Mul F] [Div F] [Neg F]
  [LT F] [LE F] [DecidableLT F] [DecidableLE F] [CMath F]

/-- One elementary step, on bar `i` with time stamp `ts`; `ok` says which exit
reasons may occur. -/
inductive Step (tc : TradeConfig F) (ok : ExitReason → Prop) (i : Int) (ts : TimePoint) :
    Context F → Context F → Prop
  | ignore {ctx : Context F} : Step tc ok i ts ctx (ignoreSignal ctx)
  | adjust {ctx : Context F} {before after : List (OpenPosition F)} {p p' : OpenPosition F}
      (h : ctx.positions = before ++ p :: after) (ht : p'.ticket = p.ticket)
      (hr : p'.realizedPnl = p.realizedPnl) :
      Step tc ok i ts ctx { ctx with positions := before ++ p' :: after }
  | part {ctx : Context F} {before after : List (OpenPosition F)} {p : OpenPosition F}
      (rawFill pct : F) (h : ctx.positions = before ++ p :: after) :
      Step tc ok i ts ctx { (closePartial tc ctx p rawFill pct).1 with
        positions := before ++ (closePartial tc ctx p rawFill pct).2 :: after }
  | settle {ctx : Context F} {before after : List (OpenPosition F)} {p : OpenPosition F}
      (rawFill : F) {reason : ExitReason} (hok : ok reason)
      (h : ctx.positions = before ++ p :: after) :
      Step tc ok i ts ctx { closePosition tc ctx p rawFill reason i ts with
        positions := before ++ after }

/-- Any number of elementary steps. -/
abbrev Steps (tc : TradeConfig F) (ok : ExitReason → Prop) (i : Int) (ts : TimePoint) :
    Context F → Context F → Prop := Relation.ReflTransGen (Step tc ok i ts)

section Facts

variable {tc : TradeConfig F} {ok : ExitReason → Prop} {i : Int} {ts : TimePoint}
  {ctx ctx' : Context F}

/-! ## What steps preserve -/

theorem Steps.weaken {ok' : ExitReason → Prop} (hok : ∀ r, ok r → ok' r)
    (h : Steps tc ok i ts ctx ctx') : Steps tc ok' i ts ctx ctx' := by
  induction h with
  | refl => exact .refl
  | tail _ hstep ih =>
    refine ih.tail ?_
    cases hstep with
    | ignore => exact .ignore
    | adjust h ht hr => exact .adjust h ht hr
    | part rawFill pct h => exact .part rawFill pct h
    | settle rawFill hr h => exact .settle rawFill (hok _ hr) h

theorem Step.moves (h : Step tc ok i ts ctx ctx') : Book.Moves ctx.book ctx'.book := by
  cases h with
  | ignore => exact .refl
  | adjust h ht hr =>
    refine (congrArg (Book.Moves ctx.book) ?_).mp .refl
    simp [Context.book, h, ht, hr]
  | part rawFill pct h =>
    refine Relation.ReflTransGen.single ?_
    simp only [Context.book, h, map_append, map_cons]
    exact Book.Move.post
  | settle rawFill hok h =>
    refine Relation.ReflTransGen.single ?_
    simp only [Context.book, h, map_append, map_cons, closePosition, map_nil]
    exact Book.Move.settle

theorem Steps.moves (h : Steps tc ok i ts ctx ctx') : Book.Moves ctx.book ctx'.book := by
  induction h with
  | refl => exact .refl
  | tail _ hstep ih => exact ih.trans hstep.moves

theorem Steps.entries_perm (h : Steps tc ok i ts ctx ctx') : ctx'.entries.Perm ctx.entries := by
  have := h.moves.tags_perm
  rwa [Context.tags_book, Context.tags_book] at this

/-- **Frame.**  Steps change the cash, the trades, the positions and the count of
ignored signals, and nothing else. -/
theorem Steps.frame (h : Steps tc ok i ts ctx ctx') :
    ctx' = { ctx with
      cash := ctx'.cash
      trades := ctx'.trades
      positions := ctx'.positions
      signalsIgnored := ctx'.signalsIgnored } := by
  induction h with
  | refl => rfl
  | tail _ hstep ih => cases hstep <;> rw [ih] <;> rfl

theorem Steps.length_le (h : Steps tc ok i ts ctx ctx') :
    ctx'.positions.length ≤ ctx.positions.length := by
  induction h with
  | refl => exact le_refl _
  | tail _ hstep ih =>
    refine le_trans ?_ ih
    cases hstep with
    | ignore => exact le_refl _
    | adjust h => simp [h]
    | part _ _ h => simp [h]
    | settle _ _ h => simp [h]

/-- `ctx'` has the trades of `ctx` and new ones, each closed on bar `i` for an
allowed reason and with its gross result the net result plus the commission. -/
def Closes (ok : ExitReason → Prop) (i : Int) (ctx ctx' : Context F) : Prop :=
  ∃ new, ctx'.trades = ctx.trades ++ new ∧
    ∀ t ∈ new, t.exitBar = i ∧ ok t.exitReason ∧ t.grossPnl = t.netPnl + t.commission

theorem Closes.of_eq (h : ctx'.trades = ctx.trades) : Closes ok i ctx ctx' :=
  ⟨[], by rw [h, append_nil], by simp⟩

theorem Closes.trans {ctx'' : Context F} (h : Closes ok i ctx ctx') (h' : Closes ok i ctx' ctx'') :
    Closes ok i ctx ctx'' := by
  obtain ⟨new, hnew, hall⟩ := h
  obtain ⟨new', hnew', hall'⟩ := h'
  refine ⟨new ++ new', by rw [hnew', hnew, append_assoc], fun t ht ↦ ?_⟩
  rcases mem_append.mp ht with ht | ht
  · exact hall t ht
  · exact hall' t ht

theorem Steps.closes (h : Steps tc ok i ts ctx ctx') : Closes ok i ctx ctx' := by
  induction h with
  | refl => exact .of_eq rfl
  | tail _ hstep ih =>
    refine ih.trans ?_
    cases hstep with
    | ignore => exact .of_eq rfl
    | adjust => exact .of_eq rfl
    | part => exact .of_eq rfl
    | settle rawFill hok h =>
      refine ⟨[_], rfl, fun t ht ↦ ?_⟩
      rw [mem_singleton.mp ht]
      exact ⟨rfl, hok, rfl⟩

end Facts

/-! ## The functions of the kernel as steps -/

section

variable {tc : TradeConfig F}

/-- Reasons other than the final liquidation. -/
abbrev NotEndOfData (r : ExitReason) : Prop := r ≠ .endOfData

abbrev Context.at (ctx : Context F) (ps : List (OpenPosition F)) : Context F :=
  { ctx with positions := ps }

theorem steps_closeEach (rawFill : F) (reason : ExitReason) (i : Int) (ts : TimePoint)
    (ctx : Context F) (ps : List (OpenPosition F)) :
    Steps tc (· = reason) i ts (ctx.at ps) ((closeEach tc rawFill reason i ts ctx ps).at []) := by
  induction ps generalizing ctx with
  | nil => exact .refl
  | cons p ps ih =>
    have hp : Step tc (· = reason) i ts (ctx.at (p :: ps))
        ((closePosition tc ctx p rawFill reason i ts).at ([] ++ ps)) :=
      Step.settle rawFill rfl rfl
    exact .trans (.single hp) (ih (closePosition tc ctx p rawFill reason i ts))

theorem steps_closeAll (rawFill : F) (reason : ExitReason) (i : Int) (ts : TimePoint)
    (ctx : Context F) : Steps tc (· = reason) i ts ctx (closeAll tc ctx rawFill reason i ts) :=
  steps_closeEach rawFill reason i ts ctx ctx.positions

theorem steps_closeAll_loop {reason : ExitReason} (h : NotEndOfData reason) (rawFill : F) (i : Int)
    (ts : TimePoint) (ctx : Context F) :
    Steps tc NotEndOfData i ts ctx (closeAll tc ctx rawFill reason i ts) :=
  (steps_closeAll rawFill reason i ts ctx).weaken fun r (hr : r = reason) ↦ hr ▸ h

theorem ticket_ageOneBar (p : OpenPosition F) (bar : OHLCV F) :
    (ageOneBar p bar).ticket = p.ticket ∧ (ageOneBar p bar).realizedPnl = p.realizedPnl := by
  simp only [ageOneBar, OpenPosition.updateMfeMae]
  split <;> exact ⟨rfl, rfl⟩

theorem ticket_manageBreakEven (p : OpenPosition F) (best : F) :
    (manageBreakEven p best).ticket = p.ticket ∧
      (manageBreakEven p best).realizedPnl = p.realizedPnl := by
  unfold manageBreakEven
  split <;> exact ⟨rfl, rfl⟩

theorem ticket_ratchetTrailing (p : OpenPosition F) (best : F) :
    (p.ratchetTrailing best).ticket = p.ticket ∧
      (p.ratchetTrailing best).realizedPnl = p.realizedPnl := by
  unfold OpenPosition.ratchetTrailing
  split
  · exact ⟨rfl, rfl⟩
  · split <;> split <;> exact ⟨rfl, rfl⟩

theorem ticket_manageTrailing (p : OpenPosition F) (best : F) :
    (manageTrailing p best).ticket = p.ticket ∧
      (manageTrailing p best).realizedPnl = p.realizedPnl := by
  simp only [manageTrailing]
  split
  · split <;> split <;> first
      | exact ticket_ratchetTrailing _ best
      | exact ⟨rfl, rfl⟩
  · exact ⟨rfl, rfl⟩

theorem steps_manageOne (bar : OHLCV F) (i : Int) (ctx : Context F)
    (before : List (OpenPosition F)) (p : OpenPosition F)
    (after : List (OpenPosition F)) :
    Steps tc NotEndOfData i bar.timestamp (ctx.at (before ++ p :: after))
      ((manageOne tc bar i ctx p).1.at
        (before ++ (manageOne tc bar i ctx p).2.toList ++ after)) := by
  obtain ⟨ht, hr⟩ := ticket_ageOneBar p bar
  refine .trans (.single (Step.adjust rfl ht hr)) ?_
  simp only [manageOne]
  generalize ageOneBar p bar = p
  split
  · have hreason : NotEndOfData (stopReason p) := by
      unfold stopReason
      split
      · decide
      · split <;> decide
    rw [Option.toList_none, append_nil]
    exact .single (Step.settle (p.stopFill bar.open) hreason rfl)
  · split
    · rw [Option.toList_none, append_nil]
      exact .single (Step.settle (p.tpFill bar.open) (by decide) rfl)
    · -- The partial close is a step of its own; what follows adjusts levels.
      have hpart : Steps tc NotEndOfData i bar.timestamp (ctx.at (before ++ p :: after))
          ((managePartial tc ctx p bar).1.at
            (before ++ (managePartial tc ctx p bar).2 :: after)) := by
        unfold managePartial
        split
        · exact .single (Step.part _ _ rfl)
        · exact .refl
      refine hpart.trans ?_
      generalize managePartial tc ctx p bar = r
      obtain ⟨ctx, p⟩ := r
      have ht' := (ticket_manageTrailing (manageBreakEven p (bestPrice p bar))
        (bestPrice p bar)).1.trans (ticket_manageBreakEven p (bestPrice p bar)).1
      have hr' := (ticket_manageTrailing (manageBreakEven p (bestPrice p bar))
        (bestPrice p bar)).2.trans (ticket_manageBreakEven p (bestPrice p bar)).2
      refine .trans (.single (Step.adjust rfl ht' hr')) ?_
      dsimp only
      split
      · rw [Option.toList_none, append_nil]
        exact .single (Step.settle bar.close (by decide) rfl)
      · rw [Option.toList_some, append_assoc, singleton_append]

theorem steps_manageEach (bar : OHLCV F) (i : Int) (ctx : Context F)
    (before ps after : List (OpenPosition F)) :
    Steps tc NotEndOfData i bar.timestamp (ctx.at (before ++ (ps ++ after)))
      ((manageEach tc bar i ctx ps).1.at
        (before ++ ((manageEach tc bar i ctx ps).2 ++ after))) := by
  induction ps generalizing ctx before with
  | nil => exact .refl
  | cons p ps ih =>
    refine (steps_manageOne bar i ctx before p (ps ++ after)).trans ?_
    have h := ih (manageOne tc bar i ctx p).1 (before ++ (manageOne tc bar i ctx p).2.toList)
    have hend : before ++ (manageOne tc bar i ctx p).2.toList ++
        ((manageEach tc bar i (manageOne tc bar i ctx p).1 ps).2 ++ after) =
        before ++ ((manageEach tc bar i ctx (p :: ps)).2 ++ after) := by
      simp only [manageEach, append_assoc]
    rw [hend] at h
    exact h

theorem steps_manageEach_done (bar : OHLCV F) (i : Int) (ctx : Context F)
    (ps todo : List (OpenPosition F)) :
    Steps tc NotEndOfData i bar.timestamp (ctx.at (ps ++ todo))
      ((manageEach tc bar i ctx ps).1.at ((manageEach tc bar i ctx ps).2 ++ todo)) :=
  steps_manageEach bar i ctx [] ps todo

theorem steps_managePositions (bar : OHLCV F) (i : Int) (ctx : Context F) :
    Steps tc NotEndOfData i bar.timestamp ctx (managePositions tc bar i ctx) := by
  have h : Steps tc NotEndOfData i bar.timestamp _ _ :=
    steps_manageEach_done bar i ctx ctx.positions []
  rw [append_nil, append_nil] at h
  exact h

theorem findLastOfSide_eq_some {side : TradeSide} {v before after : List (OpenPosition F)}
    {p : OpenPosition F} (h : findLastOfSide side v = some (before, p, after)) :
    v = before ++ p :: after := by
  induction v generalizing before p after with
  | nil => simp [findLastOfSide] at h
  | cons q v ih =>
    simp only [findLastOfSide] at h
    split at h
    · rename_i before' q' after' heq
      cases h
      rw [ih heq]
      rfl
    · split at h
      · cases h
        rfl
      · cases h

/-- A signal either opens a position or takes steps, closing for no reason but the
signal. -/
theorem executeSignal_cases (env : Env F) (bar : OHLCV F) (i : Int) (ctx : Context F)
    (sig : StrategySignal F) :
    (sig.action = .open ∧ opens env ctx sig bar = true ∧
        executeSignal env bar i ctx sig = openPosition env ctx sig bar i) ∨
      Steps env.cfg.trade (· = .signal) i bar.timestamp ctx (executeSignal env bar i ctx sig) := by
  unfold executeSignal
  split
  · by_cases ho : opens env ctx sig bar = true
    · exact .inl ⟨by assumption, ho, if_pos ho⟩
    · rw [if_neg ho]
      exact .inr (.single .ignore)
  · right
    split
    · exact .single .ignore
    · rename_i before p after h
      exact .single (.settle bar.open rfl (findLastOfSide_eq_some h))
  · right
    split
    · exact .single .ignore
    · exact steps_closeAll _ _ _ _ _
  · right
    split
    · exact .single .ignore
    · rename_i before p after h
      exact .single (.adjust (findLastOfSide_eq_some h) rfl rfl)
  · exact .inr .refl

end

end Qros.Quant.Strategy
