import Qros.Quant.Backtest.Engine

/-!
# What the trade book accounts for

A trade book is kept so that the equity can be explained by it: no trade is left
open, and the final equity is the initial capital plus the results of the trades.
The engine keeps the book beside an account of cash and position (`desk`), and the
two part in three ways.

* A position that returns to zero is not liquidated, and its trades stay open.
* A sale out of a long position is booked as a trade of its own, from the close to
  the fill, while the purchases are exited at the last close all the same.
* A buy against a short position is booked as a closed trade with a commission that
  is not paid.

Exiting the open trades at a price turns the gap between equity and book into a
potential of the engine.  Opening a position does not change it; `misstated` is what
the other two do to it, a function of the order and of the account it meets.  So the
book accounts for the equity exactly if nothing was filled, or a position is left at
the end and the misstatements add up to zero (`Offset`).
-/

universe u

set_option linter.unusedSectionVars false

namespace Qros.Quant.Backtest

open Qros.Lib List

variable {F : Type u} [Field F] [LinearOrder F]

/-! ## The account -/

/-- Cash and position, without the book that is kept of them. -/
structure Account (F : Type u) where
  cash : F
  position : F
deriving DecidableEq

def Account.opening (cfg : BacktestConfig F) : Account F := ⟨cfg.initialCapital, 0⟩

/-- A buy is filled if the cash pays for it, a sale if something is held or may be
sold short. -/
def Fills (cfg : BacktestConfig F) (t : Tick F) (a : Account F) : Prop :=
  0 < t.signal.quantity ∧
    (t.signal.direction = .buy ∧
        buyCost cfg t.signal t.bar + buyCost cfg t.signal t.bar * cfg.commissionPct ≤ a.cash ∨
      t.signal.direction = .sell ∧ (0 < a.position ∨ cfg.allowShort = true))

instance (cfg : BacktestConfig F) (t : Tick F) (a : Account F) : Decidable (Fills cfg t a) :=
  inferInstanceAs (Decidable (_ ∧ _))

/-- The units a sale delivers: no more than are held, unless it sells short. -/
def saleUnits (t : Tick F) (a : Account F) : F :=
  if 0 < a.position then min t.signal.quantity a.position else t.signal.quantity

def fill (cfg : BacktestConfig F) (t : Tick F) (a : Account F) : Account F :=
  match t.signal.direction with
  | .buy =>
    { cash := a.cash -
        (buyCost cfg t.signal t.bar + buyCost cfg t.signal t.bar * cfg.commissionPct)
      position := a.position + t.signal.quantity }
  | .sell =>
    { cash := a.cash + (saleUnits t a * (t.bar.close - slippage cfg t.bar) -
        saleUnits t a * t.bar.close * cfg.commissionPct)
      position := a.position - saleUnits t a }

/-- The account, driven by the ticks; the answer is whether the order was filled. -/
def desk (cfg : BacktestConfig F) : Machine (Account F) (Tick F) Bool where
  init := .opening cfg
  step t a := if Fills cfg t a then (true, fill cfg t a) else (false, a)

def Ledgers.account (l : Ledgers F) : Account F := ⟨l.cash, l.position⟩

section Desk

variable {cfg : BacktestConfig F} {t : Tick F} {a : Account F}

theorem fills_buy (h : t.signal.direction = .buy) : Fills cfg t a ↔ 0 < t.signal.quantity ∧
    buyCost cfg t.signal t.bar + buyCost cfg t.signal t.bar * cfg.commissionPct ≤ a.cash := by
  simp [Fills, h]

theorem fills_sell (h : t.signal.direction = .sell) : Fills cfg t a ↔ 0 < t.signal.quantity ∧
    (0 < a.position ∨ cfg.allowShort = true) := by
  simp [Fills, h]

end Desk

section Account

variable (cfg : BacktestConfig F) (signal : SignalResult F) (bar : OHLCV F) (l : Ledgers F)

theorem account_coverShort : (coverShort cfg signal bar l).account = l.account := by
  unfold coverShort
  split <;> rfl

theorem account_executed (hq : 0 < signal.quantity) : (executed cfg signal bar l).account =
    if Fills cfg ⟨bar, signal⟩ l.account then fill cfg ⟨bar, signal⟩ l.account else l.account := by
  unfold executed fill
  cases hd : signal.direction with
  | buy =>
    have hcover := account_coverShort cfg signal bar l
    have hcash : (coverShort cfg signal bar l).cash = l.account.cash :=
      congrArg Account.cash hcover
    have hposition : (coverShort cfg signal bar l).position = l.account.position :=
      congrArg Account.position hcover
    simp only [fills_buy (t := ⟨bar, signal⟩) hd, hq, true_and, hcash]
    split
    · simp only [Ledgers.account, enterLong, hcash, hposition]
    · exact hcover
  | sell =>
    simp only [fills_sell (t := ⟨bar, signal⟩) hd, hq, true_and]
    by_cases hheld : 0 < l.position
    · have hunits : saleUnits ⟨bar, signal⟩ l.account = stdMin signal.quantity l.position :=
        (if_pos hheld).trans (stdMin_eq_min _ _).symm
      rw [if_pos hheld, if_pos (.inl hheld), hunits]
      rfl
    · have hunits : saleUnits ⟨bar, signal⟩ l.account = signal.quantity := if_neg hheld
      rw [if_neg hheld, hunits]
      by_cases hshort : cfg.allowShort = true
      · rw [if_pos hshort, if_pos (.inr hshort)]
        rfl
      · have hno : ¬ (0 < l.account.position ∨ cfg.allowShort = true) :=
          not_or.mpr ⟨hheld, hshort⟩
        rw [if_neg hshort, if_neg hno]

end Account

theorem projects_account (cfg : BacktestConfig F) :
    Machine.Projects Ledgers.account (engine cfg) (desk cfg) where
  init := rfl
  step := by
    rintro ⟨bar, signal⟩ l
    simp only [engine, desk]
    by_cases hq : 0 < signal.quantity
    · rw [if_pos hq, account_executed cfg signal bar l hq]
      split <;> rfl
    · have hfills : ¬ Fills cfg ⟨bar, signal⟩ l.account := fun h ↦ hq h.1
      rw [if_neg hq, if_neg hfills]

/-! ## The gap between equity and book -/

/-- The equity at a price, less what the book would then show as its result. -/
def Ledgers.unbooked (mark : F) (l : Ledgers F) : F :=
  l.cash + l.position * mark - l.book.totalPnlAt mark

/-- By how much an order misstates the result of a book exited at `mark`. -/
def misstated (cfg : BacktestConfig F) (mark : F) (a : Account F) (t : Tick F) : F :=
  if 0 < t.signal.quantity then
    match t.signal.direction with
    | .buy =>
      if a.position < 0 then
        min t.signal.quantity (-a.position) *
          ((t.bar.close + slippage cfg t.bar) * cfg.commissionPct)
      else 0
    | .sell =>
      if 0 < a.position then
        min t.signal.quantity a.position *
          (t.bar.close - 2 * slippage cfg t.bar - mark)
      else 0
  else 0

section Unbooked

variable (cfg : BacktestConfig F) (signal : SignalResult F) (bar : OHLCV F) (mark : F)
  (l : Ledgers F)

theorem unbooked_coverShort : (coverShort cfg signal bar l).unbooked mark = l.unbooked mark +
    if l.position < 0 then
      min signal.quantity (-l.position) * ((bar.close + slippage cfg bar) * cfg.commissionPct)
    else 0 := by
  unfold coverShort
  split
  · simp only [Ledgers.unbooked, TradeBook.totalPnlAt_addTrade, stdMin_eq_min]
    rw [Trade.pnl_exitAt_of_closed _ _ rfl]
    ring
  · rw [add_zero]

theorem unbooked_enterLong : (enterLong cfg signal bar l).unbooked mark = l.unbooked mark := by
  simp only [Ledgers.unbooked, enterLong, buyCost, TradeBook.totalPnlAt_addTrade]
  rw [Trade.pnl_exitAt_of_open _ _ rfl]
  simp only [↓reduceIte]
  ring

theorem unbooked_reduceLong : (reduceLong cfg signal bar l).unbooked mark = l.unbooked mark +
    min signal.quantity l.position * (bar.close - 2 * slippage cfg bar - mark) := by
  simp only [Ledgers.unbooked, reduceLong, TradeBook.totalPnlAt_addTrade, stdMin_eq_min]
  rw [Trade.pnl_exitAt_of_closed _ _ rfl]
  simp only [reduceCtorEq, ↓reduceIte]
  ring

theorem unbooked_enterShort : (enterShort cfg signal bar l).unbooked mark = l.unbooked mark := by
  simp only [Ledgers.unbooked, enterShort, TradeBook.totalPnlAt_addTrade]
  rw [Trade.pnl_exitAt_of_open _ _ rfl]
  simp only [reduceCtorEq, ↓reduceIte]
  ring

theorem unbooked_step (t : Tick F) : (((engine cfg).step t l).2).unbooked mark =
    l.unbooked mark + misstated cfg mark l.account t := by
  simp only [engine, misstated]
  by_cases hq : 0 < t.signal.quantity
  · rw [if_pos hq, if_pos hq]
    unfold executed
    cases t.signal.direction with
    | buy =>
      dsimp only
      split
      · rw [unbooked_enterLong, unbooked_coverShort]
        rfl
      · exact unbooked_coverShort cfg t.signal t.bar mark l
    | sell =>
      dsimp only
      by_cases hheld : 0 < l.position
      · rw [if_pos hheld, if_pos (show 0 < l.account.position from hheld), unbooked_reduceLong]
        rfl
      · rw [if_neg hheld, if_neg (show ¬ 0 < l.account.position from hheld), add_zero]
        split
        · rw [unbooked_enterShort]
        · rfl
  · rw [if_neg hq, if_neg hq, add_zero]

end Unbooked

/-! ## The open trades -/

section

variable (cfg : BacktestConfig F) (t : Tick F) (l : Ledgers F)

theorem openTrades_coverShort :
    (coverShort cfg t.signal t.bar l).book.openTrades = l.book.openTrades := by
  unfold coverShort
  split
  · rw [TradeBook.openTrades_addTrade]
    exact append_nil _
  · rfl

theorem openTrades_enterLong_ne_nil :
    (enterLong cfg t.signal t.bar l).book.openTrades ≠ [] := by
  rw [enterLong, TradeBook.openTrades_addTrade]
  exact append_ne_nil_of_right_ne_nil _ (cons_ne_nil _ _)

theorem openTrades_enterShort_ne_nil :
    (enterShort cfg t.signal t.bar l).book.openTrades ≠ [] := by
  rw [enterShort, TradeBook.openTrades_addTrade]
  exact append_ne_nil_of_right_ne_nil _ (cons_ne_nil _ _)

theorem openTrades_step_ne_nil (h : l.book.openTrades ≠ []) :
    (((engine cfg).step t l).2).book.openTrades ≠ [] := by
  simp only [engine, executed]
  split
  · cases t.signal.direction with
    | buy =>
      dsimp only
      split
      · exact openTrades_enterLong_ne_nil cfg t _
      · rwa [openTrades_coverShort]
    | sell =>
      dsimp only
      split
      · rw [reduceLong, TradeBook.openTrades_addTrade]
        exact append_ne_nil_of_left_ne_nil h _
      · split
        · exact openTrades_enterShort_ne_nil cfg t l
        · exact h
  · exact h

variable {cfg t l}

theorem openTrades_step_of_fills (h : Fills cfg t l.account) (hpos : l.position = 0) :
    (((engine cfg).step t l).2).book.openTrades ≠ [] := by
  have hflat : ¬ 0 < l.position := hpos.not_gt
  simp only [engine, executed, if_pos h.1]
  cases hd : t.signal.direction with
  | buy =>
    have hcash : (coverShort cfg t.signal t.bar l).cash = l.account.cash :=
      congrArg Account.cash (account_coverShort cfg t.signal t.bar l)
    rw [fills_buy hd, ← hcash] at h
    dsimp only
    rw [if_pos h.2]
    exact openTrades_enterLong_ne_nil cfg t _
  | sell =>
    rw [fills_sell hd] at h
    dsimp only
    rw [if_neg hflat, if_pos (h.2.resolve_left hflat)]
    exact openTrades_enterShort_ne_nil cfg t l

theorem step_of_not_fills (h : ¬ Fills cfg t l.account) (hpos : l.position = 0) :
    ((engine cfg).step t l).2 = l := by
  have hflat : ¬ 0 < l.position := hpos.not_gt
  have hcover : coverShort cfg t.signal t.bar l = l := if_neg hpos.not_lt
  simp only [engine, executed]
  by_cases hq : 0 < t.signal.quantity
  · rw [if_pos hq]
    cases hd : t.signal.direction with
    | buy =>
      rw [fills_buy hd, not_and] at h
      dsimp only
      rw [hcover]
      exact if_neg (h hq)
    | sell =>
      rw [fills_sell hd, not_and, not_or] at h
      dsimp only
      rw [if_neg hflat]
      exact if_neg (h hq).2
  · rw [if_neg hq]

end

section Run

variable {cfg : BacktestConfig F} {is : List (Tick F)}

theorem after_of_unfilled (h : ∀ t ∈ is, ¬ Fills cfg t (.opening cfg)) :
    (engine cfg).after is = .initial cfg := by
  induction is using reverseRecOn with
  | nil => rfl
  | append_singleton is t ih =>
    have hprev := ih fun t' ht' ↦ h t' (mem_append_left _ ht')
    rw [Machine.after_concat, hprev]
    exact step_of_not_fills (h t (mem_append_right _ (mem_singleton_self t))) rfl

theorem openTrades_after_eq_nil_iff : ((engine cfg).after is).book.openTrades = [] ↔
    ∀ t ∈ is, ¬ Fills cfg t (.opening cfg) := by
  constructor
  · induction is using reverseRecOn with
    | nil => exact fun _ t ht ↦ absurd ht not_mem_nil
    | append_singleton is t ih =>
      intro h
      rw [Machine.after_concat] at h
      have hprev : ∀ t' ∈ is, ¬ Fills cfg t' (.opening cfg) := by
        apply ih
        by_contra hopen
        exact openTrades_step_ne_nil cfg t _ hopen h
      rw [after_of_unfilled hprev] at h
      intro t' ht'
      rcases mem_append.mp ht' with ht' | ht'
      · exact hprev t' ht'
      · cases mem_singleton.mp ht'
        exact fun hfills ↦ openTrades_step_of_fills hfills rfl h
  · intro h
    rw [after_of_unfilled h]
    rfl

theorem unbooked_after (mark : F) : ((engine cfg).after is).unbooked mark =
    cfg.initialCapital + (desk cfg).charge (misstated cfg mark) is := by
  have hinit : (engine cfg).init.unbooked mark = cfg.initialCapital := by
    simp [Ledgers.unbooked, engine, Ledgers.initial]
  have hstep : ∀ t l, (((engine cfg).step t l).2).unbooked mark =
      l.unbooked mark + misstated cfg mark l.account t :=
    fun t l ↦ unbooked_step cfg mark l t
  rw [Machine.potential_after _ hstep is, hinit, (projects_account cfg).charge]

end Run

/-! ## The result of a run -/

/-- When the book of a run accounts for its equity: nothing was ever filled, or a
position is left at the end and the misstatements offset each other. -/
def Offset (cfg : BacktestConfig F) (mark : F) (is : List (Tick F)) : Prop :=
  (∀ t ∈ is, ¬ Fills cfg t (.opening cfg)) ∨
    ((desk cfg).after is).position ≠ 0 ∧ (desk cfg).charge (misstated cfg mark) is = 0

theorem liquidate_accounts_iff (cfg : BacktestConfig F) (data : List (OHLCV F))
    (is : List (Tick F)) :
    (liquidate data ((engine cfg).after is)).book.openTrades = [] ∧
        (liquidate data ((engine cfg).after is)).cash =
          cfg.initialCapital + (liquidate data ((engine cfg).after is)).book.totalPnl ↔
      Offset cfg (lastBar data).close is := by
  have hposition : ((desk cfg).after is).position = ((engine cfg).after is).position :=
    congrArg Account.position ((projects_account cfg).after is).symm
  have hgap := @unbooked_after F _ _ cfg is (lastBar data).close
  rw [Offset, hposition]
  by_cases hpos : ((engine cfg).after is).position = 0
  · -- the book is returned as it is
    have hkeep : liquidate data ((engine cfg).after is) = (engine cfg).after is :=
      if_neg (by simpa using hpos)
    rw [hkeep, openTrades_after_eq_nil_iff]
    constructor
    · exact fun h ↦ .inl h.1
    · rintro (h | h)
      · refine ⟨h, ?_⟩
        rw [after_of_unfilled h]
        exact (add_zero _).symm
      · exact absurd hpos h.1
  · have hexit : liquidate data ((engine cfg).after is) =
        { cash := ((engine cfg).after is).cash +
            ((engine cfg).after is).position * (lastBar data).close
          position := 0
          book := ((engine cfg).after is).book.exitOpenTrades (lastBar data).close
            (lastBar data).timestamp } :=
      if_pos (by simpa using hpos)
    have hfilled : ¬ ∀ t ∈ is, ¬ Fills cfg t (.opening cfg) := by
      intro h
      exact hpos (congrArg Ledgers.position (after_of_unfilled h))
    rw [hexit]
    simp only [TradeBook.openTrades_exitOpenTrades, TradeBook.totalPnl_exitOpenTrades, true_and,
      or_iff_right hfilled, ne_eq, hpos, not_false_eq_true]
    rw [Ledgers.unbooked, sub_eq_iff_eq_add] at hgap
    rw [hgap, add_assoc, add_right_inj, add_eq_right]

section OneSided

variable [IsStrictOrderedRing F]

/-- An order that does not trade against the position it meets. -/
def Extends (cfg : BacktestConfig F) (pre : List (Tick F)) (t : Tick F) : Prop :=
  (t.signal.direction = .buy → 0 ≤ ((desk cfg).after pre).position) ∧
    (t.signal.direction = .sell → ((desk cfg).after pre).position ≤ 0)

variable {cfg : BacktestConfig F}

theorem misstated_of_extends {pre : List (Tick F)} {t : Tick F} (mark : F) (h : Extends cfg pre t) :
    misstated cfg mark ((desk cfg).after pre) t = 0 := by
  unfold misstated
  split
  · cases hd : t.signal.direction with
    | buy => exact if_neg (h.1 hd).not_gt
    | sell => exact if_neg (h.2 hd).not_gt
  · rfl

theorem position_fill_ne_zero {pre : List (Tick F)} {t : Tick F} (h : Extends cfg pre t)
    (hfills : Fills cfg t ((desk cfg).after pre)) :
    (fill cfg t ((desk cfg).after pre)).position ≠ 0 := by
  have hq := hfills.1
  unfold fill
  cases hd : t.signal.direction with
  | buy => exact (add_pos_of_nonneg_of_pos (h.1 hd) hq).ne'
  | sell =>
    have hunits : saleUnits t ((desk cfg).after pre) = t.signal.quantity :=
      if_neg (h.2 hd).not_gt
    dsimp only
    rw [hunits]
    exact (sub_neg.mpr ((h.2 hd).trans_lt hq)).ne

theorem unfilled_or_position_ne_zero {cfg : BacktestConfig F} {is : List (Tick F)}
    (h : Meets (Extends cfg) is) :
    (∀ t ∈ is, ¬ Fills cfg t (.opening cfg)) ∨ ((desk cfg).after is).position ≠ 0 := by
  refine Meets.induction
    (I := fun is ↦ (∀ t ∈ is, ¬ Fills cfg t (.opening cfg)) ∨ ((desk cfg).after is).position ≠ 0)
    h (.inl fun t ht ↦ absurd ht not_mem_nil) ?_
  intro is t _ ih hextends
  rw [Machine.after_concat]
  by_cases hfills : Fills cfg t ((desk cfg).after is)
  · right
    simp only [desk] at hfills ⊢
    rw [if_pos hfills]
    exact position_fill_ne_zero hextends hfills
  · have hkeep : ((desk cfg).step t ((desk cfg).after is)).2 = (desk cfg).after is :=
      congrArg Prod.snd (if_neg hfills)
    rw [hkeep]
    refine ih.imp_left fun hnone t' ht' ↦ ?_
    rcases mem_append.mp ht' with ht' | ht'
    · exact hnone t' ht'
    · cases mem_singleton.mp ht'
      rwa [← (projects_account cfg).after, after_of_unfilled hnone] at hfills

theorem offset_of_meets {is : List (Tick F)} (mark : F) (h : Meets (Extends cfg) is) :
    Offset cfg mark is := by
  have hfree : Meets (fun pre t ↦ misstated cfg mark ((desk cfg).after pre) t = 0) is :=
    fun pre t hpre ↦ misstated_of_extends mark (h pre t hpre)
  rcases unfilled_or_position_ne_zero h with hnone | hpos
  · exact .inl hnone
  · exact .inr ⟨hpos, Machine.charge_eq_zero _ hfree⟩

end OneSided

variable [CMath F]

/-- **The trade book and the equity of `run`.** -/
theorem run_accounts_iff (cfg : BacktestConfig F) (data : List (OHLCV F))
    (signalFn : SignalFn F) :
    ∃ r, run cfg data signalFn = .ok r ∧
      (r.tradeBook.openTrades = [] ∧ r.finalEquity = cfg.initialCapital + r.tradeBook.totalPnl ↔
        Offset cfg (lastBar data).close (ticks data signalFn data.length)) := by
  obtain ⟨r, hr, hbook, hequity⟩ := run_eq_ok cfg data signalFn
  refine ⟨r, hr, ?_⟩
  rw [hbook, hequity]
  exact liquidate_accounts_iff cfg data _

/-- One unit bought at 100 and sold at 110: the purchase stays open, and the book shows
a loss where the equity shows the profit. -/
theorem round_trip_unaccounted :
    let cfg : BacktestConfig ℚ := .defaults
    let data : List (OHLCV ℚ) := [⟨0, 100, 101, 99, 100, 1⟩, ⟨60000000000, 100, 111, 99, 110, 1⟩]
    let signalFn : SignalFn ℚ := fun i _ ↦ ⟨if i = 0 then .buy else .sell, 1⟩
    (∀ bar ∈ data, bar.isValid) ∧ ∃ r, run cfg data signalFn = .ok r ∧
      r.tradeBook.openTrades ≠ [] ∧
      r.finalEquity ≠ cfg.initialCapital + r.tradeBook.totalPnl := by
  intro cfg data signalFn
  obtain ⟨r, hr, hbook, hequity⟩ := run_eq_ok cfg data signalFn
  refine ⟨by decide +kernel, r, hr, ?_⟩
  rw [hbook, hequity]
  decide +kernel

theorem run_accounts_of_meets [IsStrictOrderedRing F] {cfg : BacktestConfig F}
    {data : List (OHLCV F)} {signalFn : SignalFn F}
    (h : Meets (Extends cfg) (ticks data signalFn data.length)) :
    ∃ r, run cfg data signalFn = .ok r ∧ r.tradeBook.openTrades = [] ∧
      r.finalEquity = cfg.initialCapital + r.tradeBook.totalPnl := by
  obtain ⟨r, hr, hbook, hequity⟩ := run_eq_ok cfg data signalFn
  refine ⟨r, hr, ?_⟩
  rw [hbook, hequity]
  exact (liquidate_accounts_iff cfg data _).mpr (offset_of_meets _ h)

end Qros.Quant.Backtest
