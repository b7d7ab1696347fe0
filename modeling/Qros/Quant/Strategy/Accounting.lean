import Qros.Quant.Strategy.Moment

/-!
# Cash accounting

In exact arithmetic the books of a run balance at every moment: the cash is the
initial equity plus the net results of the closed trades plus what has been
realized on the open positions.  Closing a position in full, closing part of it,
closing everything and opening are four separate places in the source; here they
are postings in the books of `Qros.Lib.Ledger`, so that `Accounts` is carried by
`Steps` once for all of them.

The second half of `Accounts` follows the ids: the positions and trades of a run
carry `1, …, signals_opened`, each once.  After the final liquidation no position
is left, so the ids of the trades are all of them.
-/

universe u

set_option linter.unusedSectionVars false

namespace Qros.Quant.Strategy

open Qros.Lib.Ledger List

variable {F : Type u} [Field F] [LinearOrder F] [CMath F]

def idsUpTo (n : Nat) : List Int := (List.range n).map fun k : Nat ↦ (k : Int) + 1

theorem idsUpTo_succ (n : Nat) : idsUpTo (n + 1) = idsUpTo n ++ [(n : Int) + 1] := by
  simp [idsUpTo, range_succ]

structure Accounts (base : F) (ctx : Context F) : Prop where
  balanced : ctx.book.Balanced base
  ids : (ctx.entries.map Ticket.id).Perm (idsUpTo ctx.signalsOpened)
  next : ctx.nextId = (ctx.signalsOpened : Int) + 1
  gross : ∀ t ∈ ctx.trades, t.grossPnl = t.netPnl + t.commission

namespace Accounts

variable {base : F} {ctx ctx' : Context F}

theorem initial (rc : RiskConfig F) : Accounts rc.initialEquity (initialContext rc) where
  balanced := by simp [Book.Balanced, Context.book, initialContext]
  ids := List.Perm.refl _
  next := rfl
  gross := by simp [initialContext]

theorem steps {tc : TradeConfig F} {ok : ExitReason → Prop} {i : Int} {ts : TimePoint}
    (h : Accounts base ctx) (hs : Steps tc ok i ts ctx ctx') : Accounts base ctx' where
  balanced := h.balanced.moves hs.moves
  ids := by
    rw [hs.frame]
    exact (hs.entries_perm.map _).trans h.ids
  next := by
    rw [hs.frame]
    exact h.next
  gross := by
    intro t ht
    obtain ⟨new, hnew, hall⟩ := hs.closes
    rw [hnew] at ht
    rcases mem_append.mp ht with ht | ht
    · exact h.gross t ht
    · exact (hall t ht).2.2

theorem openPosition (h : Accounts base ctx) (env : Env F) (sig : StrategySignal F)
    (bar : OHLCV F) (i : Int) : Accounts base (openPosition env ctx sig bar i) where
  balanced := by
    have hbook : (Strategy.openPosition env ctx sig bar i).book =
        ctx.book.enroll (newPosition env ctx sig bar i).ticket
          (-(newPosition env ctx sig bar i).entryCommission) := by
      simp only [Context.book, Book.enroll, Strategy.openPosition, map_append, map_cons,
        map_nil, sub_eq_add_neg]
      rfl
    rw [hbook]
    exact h.balanced.enroll _ _
  ids := by
    have hentries : (Strategy.openPosition env ctx sig bar i).entries.Perm
        (ctx.entries ++ [(newPosition env ctx sig bar i).ticket]) := by
      simp only [Context.entries, Strategy.openPosition, map_append, map_cons,
        map_nil, append_assoc]
      exact perm_append_comm.append_left _
    refine (hentries.map _).trans ?_
    rw [map_append]
    refine (h.ids.append_right _).trans ?_
    show List.Perm (_ ++ [ctx.nextId]) (idsUpTo (ctx.signalsOpened + 1))
    rw [idsUpTo_succ, h.next]
  next := by
    show ctx.nextId + 1 = ((ctx.signalsOpened + 1 : Nat) : Int) + 1
    rw [h.next]
    push_cast
    rfl
  gross := h.gross

theorem barInv (env : Env F) (i : Nat) (base : F) :
    BarInv env i (Accounts base) (Accounts base) where
  reset := by
    intro ctx h
    unfold dailyReset
    split
    · exact ⟨h.balanced, h.ids, h.next, h.gross⟩
    · exact h
  steps := fun _ _ hs h ↦ h.steps hs
  fill := fun _ sig _ h ↦ h.openPosition env sig _ _
  session := fun _ _ _ h ↦ ⟨h.balanced, h.ids, h.next, h.gross⟩
  breaker := fun ctx _ hs _ h ↦
    have h' : Accounts base { ctx with lossLimitHit := true } :=
      ⟨h.balanced, h.ids, h.next, h.gross⟩
    h'.steps hs
  book := fun _ _ _ _ h ↦ ⟨h.balanced, h.ids, h.next, h.gross⟩

theorem stateAfter (env : Env F) (ordered : List (StrategySignal F)) (n : Nat) :
    Accounts env.cfg.risk.initialEquity (stateAfter env ordered n).ctx :=
  stateAfter_induction (I := fun _ ↦ Accounts env.cfg.risk.initialEquity)
    (initial env.cfg.risk) fun i _ ih ↦ (barInv env i _).loopBody ih

theorem liquidate (h : Accounts base ctx) (env : Env F) : Accounts base (liquidate env ctx) :=
  h.steps (steps_closeAll _ _ _ _ ctx)

theorem cash_eq (h : Accounts base ctx) : ctx.cash =
    base + (ctx.trades.map TradeResult.netPnl).sum +
      (ctx.positions.map OpenPosition.realizedPnl).sum := by
  have hb := h.balanced
  simp only [Book.Balanced, Book.total, Context.book, map_map, Function.comp_def] at hb
  exact hb

end Accounts

theorem markToMarket_eq_sum (ctx : Context F) (close : F) :
    markToMarket ctx close = ctx.cash + (ctx.positions.map fun p ↦ p.unrealizedPnl close).sum := by
  unfold markToMarket
  generalize ctx.cash = c
  induction ctx.positions generalizing c with
  | nil => simp
  | cons p ps ih =>
    rw [foldl_cons, ih, map_cons, sum_cons, add_assoc]

theorem sum_map_add {α : Type u} (f g : α → F) (l : List α) :
    (l.map fun a ↦ f a + g a).sum = (l.map f).sum + (l.map g).sum := by
  induction l with
  | nil => simp
  | cons a l ih =>
    simp only [map_cons, sum_cons, ih]
    ring

/-- **Cash accounting of `run`.**  The final equity, the equity at each bar, the
gross result of each trade and the trade ids, whatever exits occurred. -/
theorem run_accounting {cfg : StrategyConfig F} {bars : List (OHLCV F)}
    {signals : List (StrategySignal F)} {r : SimulationResult F}
    (h : run cfg bars signals = .ok r) :
    r.finalEquity = cfg.risk.initialEquity + (r.trades.map TradeResult.netPnl).sum ∧
      (∀ i < bars.length, r.equityCurve[i]? = some (cfg.risk.initialEquity +
        ((closedBefore (i + 1) r.trades).map TradeResult.netPnl).sum +
        ((openAfter cfg bars signals i).map fun p ↦
          p.realizedPnl + p.unrealizedPnl (barAt bars i).close).sum)) ∧
      (∀ t ∈ r.trades, t.grossPnl = t.netPnl + t.commission) ∧
      r.trades.length = r.signalsOpened ∧
      (r.trades.map TradeResult.tradeId).Perm (idsUpTo r.signalsOpened) := by
  have hacc : Accounts cfg.risk.initialEquity (liquidate (runEnv cfg bars)
      (loopEnd cfg bars signals).ctx) :=
    (Accounts.stateAfter (runEnv cfg bars) (orderSignals signals) bars.length).liquidate _
  have hids : (r.trades.map TradeResult.tradeId).Perm (idsUpTo r.signalsOpened) := by
    obtain ⟨-, rfl⟩ := run_eq_ok.mp h
    have := hacc.ids
    simp only [Context.entries, liquidate, closeAll, map_nil, nil_append,
      map_map, Function.comp_def] at this
    exact this
  refine ⟨?_, ?_, ?_, ?_, hids⟩
  · obtain ⟨-, rfl⟩ := run_eq_ok.mp h
    have hcash := hacc.cash_eq
    simp only [liquidate, closeAll, map_nil, sum_nil, add_zero] at hcash
    exact hcash
  · intro i hi
    rw [closedBefore_run h hi, contextBefore]
    obtain ⟨-, rfl⟩ := run_eq_ok.mp h
    have hcash := (Accounts.stateAfter (runEnv cfg bars) (orderSignals signals) (i + 1)).cash_eq
    show (stateAfter (runEnv cfg bars) (orderSignals signals) bars.length).equityCurve[i]? = _
    rw [equityCurve_eq, getElem?_map, getElem?_range hi, Option.map_some,
      markToMarket_eq_sum, hcash, openAfter, contextBefore, sum_map_add, add_assoc, add_assoc, add_assoc]
    rfl
  · obtain ⟨-, rfl⟩ := run_eq_ok.mp h
    exact hacc.gross
  · rw [← length_map TradeResult.tradeId, hids.length_eq, idsUpTo, length_map,
      length_range]

/-- A position opened on the second bar and stopped out on the third. -/
theorem run_accounting_sample :
    let cfg : StrategyConfig ℚ :=
      { StrategyConfig.defaults with
        trade := { TradeConfig.defaults with
          sizing := .fixedLot, fixedLot := 2, stopLoss := 5, partialClosePct := 1 / 2 } }
    let bars : List (OHLCV ℚ) :=
      [⟨0, 100, 101, 99, 100, 1⟩, ⟨60000000000, 100, 103, 99, 102, 1⟩,
        ⟨120000000000, 102, 102, 94, 95, 1⟩]
    let signals := [{ StrategySignal.defaults with barIndex := 0, action := .open }]
    ∃ r, run cfg bars signals = .ok r ∧
      r.finalEquity = cfg.risk.initialEquity + (r.trades.map TradeResult.netPnl).sum := by
  intro cfg bars signals
  obtain ⟨r, hr⟩ : ∃ r, run cfg bars signals = .ok r :=
    exists_run (by decide +kernel)
  exact ⟨r, hr, (run_accounting hr).1⟩

end Qros.Quant.Strategy
