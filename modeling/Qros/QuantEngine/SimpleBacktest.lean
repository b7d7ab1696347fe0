import Mathlib.Algebra.Order.BigOperators.Group.List
import Mathlib.Algebra.Order.Field.Basic
import Mathlib.Data.List.Induction
import Mathlib.Tactic.Linarith
import Mathlib.Tactic.LinearCombination
import Mathlib.Tactic.Ring
import Qros.Lib.Checks

/-!
# The simple backtests

`vectorized_backtest_with_tpsl` of `quant_engine/backtest_tpsl.py` and `vectorized_backtest` of
`quant_engine/vectorized_backtest.py`, in exact arithmetic.  Where the two have the same lines
these are one definition here.

An entry takes its costs out of the capital, but the profit of its trade is reckoned from the
bare price (`Account.exit`).  What the trades leave out is the rate of the costs times what was
entered (`Ledger.balance`), so the trades account for every cost just when the rate is zero or
nothing is bought (`accounts_for_costs_iff`).
-/

namespace Qros.QuantEngine.SimpleBacktest

open Qros.Lib List

/-- What a signal says; any other text does nothing. -/
inductive Action where
  | buy
  | sell
  | other
deriving DecidableEq

/-- What closed a trade, or that it was opened. -/
inductive Label where
  | buy
  | sell
  | stopLoss
  | takeProfit
  | close
deriving DecidableEq

/-- `trades`. -/
structure Trade (F : Type) where
  label : Label
  price : F
  size : F
  pnl : F

structure Costs (F : Type) where
  commission : F
  slippage : F

structure Round (F : Type) where
  pnl : F
  capitalBefore : F
  capitalAfter : F

/-- The variables of the two loops.  The last three are not variables of the source: the capital
before the entry, what the entries were worth, and the closed trades. -/
structure Account (F : Type) where
  capital : F
  position : F
  entryPrice : F
  entryCapital : F
  entered : List F
  closed : List (Round F)

structure Stats (F : Type) where
  totalReturn : F
  sharpe : F
  maxDrawdown : F
  winRate : F
  numTrades : Nat

section

variable {F : Type} [Field F] [LinearOrder F]

/-- `a / b` of numbers that are not arrays. -/
def divide (a b : F) : Except String F :=
  if b = 0 then .error "float division by zero" else .ok (a / b)

/-! ## The account -/

/-- What the costs take of a price, at the entry and at the exit. -/
def Costs.rate (k : Costs F) : F := k.commission + k.slippage

def Costs.unitCost (k : Costs F) (price : F) : F := price * (1 + k.commission + k.slippage)

namespace Account

def start (initialCapital : F) : Account F := ⟨initialCapital, 0, 0, 0, [], []⟩

def enter (k : Costs F) (a : Account F) (price size : F) : Account F where
  capital := a.capital - size * k.unitCost price
  position := size
  entryPrice := price
  entryCapital := a.capital
  entered := a.entered ++ [size * price]
  closed := a.closed

def revenue (k : Costs F) (a : Account F) (price : F) : F :=
  a.position * price * (1 - k.commission - k.slippage)

/-- The profit that is recorded. -/
def pnl (k : Costs F) (a : Account F) (price : F) : F :=
  a.revenue k price - a.position * a.entryPrice

def exit (k : Costs F) (a : Account F) (price : F) : Account F :=
  { a with
    capital := a.capital + a.revenue k price
    position := 0
    closed := a.closed ++ [⟨a.pnl k price, a.entryCapital, a.capital + a.revenue k price⟩] }

def equity (a : Account F) (price : F) : F := a.capital + a.position * price

end Account

/-! ## The statistics -/

/-- `np.maximum.accumulate`. -/
def peaks : List F → List F
  | [] => []
  | e :: es => es.scanl max e

/-- The greatest fall from a peak, as a fraction of it, below zero. -/
def maxDrawdown (equity : List F) : F :=
  match (List.zipWith (fun peak e ↦ (peak - e) / peak) (peaks equity) equity).max? with
  | some fall => -fall
  | none => 0

def sharpe (sqrt : F → F) (equity : List F) : F :=
  let returns := List.zipWith (fun a b ↦ (b - a) / a) equity equity.tail
  let mean := returns.sum / (returns.length : F)
  let std := sqrt ((returns.map fun r ↦ (r - mean) * (r - mean)).sum / (returns.length : F))
  if 1 < returns.length then
    mean / (std + 1 / ((100000000 : Nat) : F)) * sqrt ((252 : Nat) : F)
  else 0

def winRate (pnls : List F) : F :=
  if pnls = [] then 0
  else ((pnls.filter fun pnl ↦ decide (0 < pnl)).length : F) / (pnls.length : F)

/-- What is returned of the capital at the end, the equity curve and the profits of the trades. -/
def stats (sqrt : F → F) (initialCapital capital : F) (equity pnls : List F) :
    Except String (Stats F) := do
  let totalReturn ← divide (capital - initialCapital) initialCapital
  return ⟨totalReturn, sharpe sqrt equity, maxDrawdown equity, winRate pnls, pnls.length⟩

/-! ## `vectorized_backtest` -/

structure VectorizedState (F : Type) where
  account : Account F
  trades : List (Trade F)
  equityValues : List F

namespace VectorizedState

def start (initialCapital : F) : VectorizedState F := ⟨.start initialCapital, [], [initialCapital]⟩

def exit (k : Costs F) (s : VectorizedState F) (label : Label) (price : F) : VectorizedState F :=
  { s with
    account := s.account.exit k price
    trades := s.trades ++ [⟨label, price, s.account.position, s.account.pnl k price⟩] }

/-- The entry or the sale of a round. -/
def trade (k : Costs F) (s : VectorizedState F) (signal : Action × F) :
    Except String (VectorizedState F) :=
  if signal.1 = .buy ∧ s.account.position = 0 then do
    let size ← divide s.account.capital (k.unitCost signal.2)
    return if 0 < size then { s with account := s.account.enter k signal.2 size } else s
  else if signal.1 = .sell ∧ 0 < s.account.position then return s.exit k .sell signal.2
  else return s

/-- One signal. -/
def step (k : Costs F) (s : VectorizedState F) (signal : Action × F) :
    Except String (VectorizedState F) := do
  let price := signal.2
  let s ← s.trade k signal
  return { s with equityValues := s.equityValues ++ [s.account.equity price] }

/-- What is open at the end is closed at the price of the last signal. -/
def finish (k : Costs F) (s : VectorizedState F) (signals : List (Action × F)) :
    VectorizedState F :=
  match signals.getLast? with
  | some (_, closingPrice) =>
    if 0 < s.account.position then
      let s := s.exit k .close closingPrice
      { s with equityValues := s.equityValues ++ [s.account.capital] }
    else s
  | none => s

end VectorizedState

/-- The variables at the end. -/
def vectorizedRun (k : Costs F) (initialCapital : F) (signals : List (Action × F)) :
    Except String (VectorizedState F) := do
  let s ← signals.foldlM (VectorizedState.step k) (.start initialCapital)
  return s.finish k signals

def vectorizedBacktest (sqrt : F → F) (k : Costs F) (initialCapital : F)
    (signals : List (Action × F)) : Except String (Stats F) := do
  if signals = [] then
    return ⟨0, 0, 0, 0, 0⟩
  let s ← vectorizedRun k initialCapital signals
  stats sqrt initialCapital s.account.capital s.equityValues (s.trades.map fun t ↦ t.pnl)

/-! ## `vectorized_backtest_with_tpsl` -/

structure Barriers (F : Type) where
  stopLossPct : F
  takeProfitPct : F
  trailingStop : Bool

structure TpslState (F : Type) where
  account : Account F
  trades : List (Trade F)
  equityCurve : List F
  slPrice : Option F
  tpPrice : Option F
  trailingHigh : Option F

namespace TpslState

def start (initialCapital : F) : TpslState F :=
  ⟨.start initialCapital, [], [initialCapital], none, none, none⟩

def enter (k : Costs F) (b : Barriers F) (s : TpslState F) (price size : F) : TpslState F :=
  { s with
    account := s.account.enter k price size
    trades := s.trades ++ [⟨.buy, price, size, 0⟩]
    slPrice := some (price * (1 - b.stopLossPct))
    tpPrice := some (price * (1 + b.takeProfitPct))
    trailingHigh := some price }

def exit (k : Costs F) (s : TpslState F) (label : Label) (price : F) : TpslState F :=
  { s with
    account := { s.account.exit k price with entryPrice := 0 }
    trades := s.trades ++ [⟨label, price, s.account.position, s.account.pnl k price⟩]
    slPrice := none
    tpPrice := none
    trailingHigh := none }

/-- The first half of a round. -/
def trade (k : Costs F) (b : Barriers F) (s : TpslState F) (signal : Action × F) :
    Except String (TpslState F) :=
  if signal.1 = .buy ∧ s.account.position = 0 then do
    let size ← divide s.account.capital (k.unitCost signal.2)
    return if 0 < size then s.enter k b signal.2 size else s
  else if signal.1 = .sell ∧ 0 < s.account.position then return s.exit k .sell signal.2
  else return s

/-- A new high takes the stop along. -/
def trail (b : Barriers F) (s : TpslState F) (price : F) : TpslState F :=
  if b.trailingStop = true ∧ ∃ high ∈ s.trailingHigh, high < price then
    { s with trailingHigh := some price, slPrice := some (price * (1 - b.stopLossPct)) }
  else s

/-- The second half, while a position is open. -/
def barriers (k : Costs F) (s : TpslState F) (price : F) : TpslState F :=
  if ∃ sl ∈ s.slPrice, price ≤ sl then s.exit k .stopLoss price
  else if ∃ tp ∈ s.tpPrice, tp ≤ price then s.exit k .takeProfit price
  else s

/-- One signal. -/
def step (k : Costs F) (b : Barriers F) (s : TpslState F) (signal : Action × F) :
    Except String (TpslState F) := do
  let price := signal.2
  let s ← s.trade k b signal
  let s := if 0 < s.account.position then (s.trail b price).barriers k price else s
  return { s with equityCurve := s.equityCurve ++ [s.account.equity price] }

/-- What is open at the end is closed at the last price, if there is one. -/
def finish (k : Costs F) (s : TpslState F) (prices : List F) : TpslState F :=
  match prices.getLast? with
  | some closingPrice =>
    if 0 < s.account.position then
      let s := s.exit k .close closingPrice
      { s with equityCurve := s.equityCurve ++ [s.account.capital] }
    else s
  | none => s

end TpslState

/-- The variables after the loop. -/
def tpslLoop (k : Costs F) (b : Barriers F) (initialCapital : F) (signals : List (Action × F)) :
    Except String (TpslState F) :=
  signals.foldlM (TpslState.step k b) (.start initialCapital)

/-- The variables at the end. -/
def tpslRun (k : Costs F) (b : Barriers F) (initialCapital : F) (prices : List F)
    (signals : List (Action × F)) : Except String (TpslState F) := do
  let s ← tpslLoop k b initialCapital signals
  return s.finish k prices

structure TpslResult (F : Type) where
  stats : Stats F
  trades : List (Trade F)
  equityCurve : List F

def closedPnls (trades : List (Trade F)) : List F :=
  (trades.filter fun t ↦ decide (t.label ≠ .buy)).map fun t ↦ t.pnl

def vectorizedBacktestWithTpsl (sqrt : F → F) (k : Costs F) (b : Barriers F) (initialCapital : F)
    (prices : List F) (signals : List (Action × F)) : Except String (TpslResult F) := do
  let s ← tpslRun k b initialCapital prices signals
  let stats ← stats sqrt initialCapital s.account.capital s.equityCurve (closedPnls s.trades)
  return ⟨stats, s.trades, s.equityCurve⟩

/-! ## The ledger -/

/-- What the account says of the money. -/
structure Ledger (k : Costs F) (initialCapital : F) (a : Account F) : Prop where
  /-- The recorded profits leave out the costs of the entries. -/
  balance : a.capital + a.position * a.entryPrice =
    initialCapital + (a.closed.map fun r ↦ r.pnl).sum - k.rate * a.entered.sum
  position_nonneg : 0 ≤ a.position
  worth_pos : 0 < a.position → 0 < a.position * a.entryPrice
  entered_pos : ∀ x ∈ a.entered, 0 < x
  entryCapital_eq : 0 < a.position →
    a.entryCapital = a.capital + a.position * a.entryPrice + k.rate * (a.position * a.entryPrice)
  rounds : ∀ r ∈ a.closed, ∃ worth ∈ a.entered,
    r.capitalAfter - r.capitalBefore = r.pnl - k.rate * worth
  open_entered : 0 < a.position → a.position * a.entryPrice ∈ a.entered

/-- What entries and exits keep is kept by every signal. -/
structure Preserved (k : Costs F) (P : Account F → Prop) : Prop where
  enter : ∀ a price size, P a → a.position = 0 → 0 < price → 0 < size → P (a.enter k price size)
  exit : ∀ a price, P a → 0 < a.position → P (a.exit k price)
  forget : ∀ a : Account F, P a → a.position = 0 → P { a with entryPrice := 0 }

variable {k : Costs F} {initialCapital : F}

theorem Ledger.start : Ledger k initialCapital (.start initialCapital) where
  balance := by simp [Account.start]
  position_nonneg := le_refl 0
  worth_pos h := absurd h (lt_irrefl 0)
  entered_pos x hx := absurd hx not_mem_nil
  entryCapital_eq h := absurd h (lt_irrefl 0)
  rounds r hr := absurd hr not_mem_nil
  open_entered h := absurd h (lt_irrefl 0)

omit [LinearOrder F] in
theorem Costs.unitCost_eq (k : Costs F) (price : F) : k.unitCost price = price * (1 + k.rate) := by
  rw [unitCost, rate, add_assoc]

theorem Ledger.preserved [IsStrictOrderedRing F] : Preserved k (Ledger k initialCapital) where
  enter a price size h hflat hprice hsize := by
    have hbalance := h.balance
    rw [hflat, zero_mul, add_zero] at hbalance
    exact {
      balance := by
        rw [Account.enter, k.unitCost_eq, sum_append, sum_singleton, hbalance]
        ring
      position_nonneg := hsize.le
      worth_pos := fun _ ↦ mul_pos hsize hprice
      entered_pos := fun x hx ↦ by
        rcases mem_append.mp hx with hx | hx
        · exact h.entered_pos x hx
        · rw [mem_singleton.mp hx]
          exact mul_pos hsize hprice
      entryCapital_eq := fun _ ↦ by
        rw [Account.enter, k.unitCost_eq]
        ring
      rounds := fun r hr ↦ by
        obtain ⟨worth, hworth, heq⟩ := h.rounds r hr
        exact ⟨worth, mem_append_left _ hworth, heq⟩
      open_entered := fun _ ↦ mem_append_right _ (mem_singleton_self _) }
  exit a price h hopen := {
    balance := by
      have hbalance := h.balance
      change a.capital + a.revenue k price + 0 * a.entryPrice = initialCapital +
        ((a.closed ++ [(⟨a.pnl k price, _, _⟩ : Round F)]).map fun r ↦ r.pnl).sum -
          k.rate * a.entered.sum
      rw [map_append, sum_append, map_singleton, sum_singleton, Account.pnl]
      linear_combination hbalance
    position_nonneg := le_refl 0
    worth_pos := fun hpos ↦ absurd hpos (lt_irrefl 0)
    entered_pos := h.entered_pos
    entryCapital_eq := fun hpos ↦ absurd hpos (lt_irrefl 0)
    rounds := fun r hr ↦ by
      rcases mem_append.mp hr with hr | hr
      · exact h.rounds r hr
      · rw [mem_singleton.mp hr]
        refine ⟨_, h.open_entered hopen, ?_⟩
        rw [h.entryCapital_eq hopen, Account.pnl]
        ring
    open_entered := fun hpos ↦ absurd hpos (lt_irrefl 0) }
  forget a h hflat := by
    have hnot : ¬ 0 < a.position := by rw [hflat]; exact lt_irrefl 0
    have hbalance := h.balance
    rw [hflat, zero_mul] at hbalance
    exact {
      balance := by rw [hflat, zero_mul]; exact hbalance
      position_nonneg := h.position_nonneg
      worth_pos := fun hpos ↦ absurd hpos hnot
      entered_pos := h.entered_pos
      entryCapital_eq := fun hpos ↦ absurd hpos hnot
      rounds := h.rounds
      open_entered := fun hpos ↦ absurd hpos hnot }

theorem preserved_entered (before : List F) : Preserved k fun a ↦ before <+: a.entered where
  enter _ _ _ h _ _ _ := h.trans (List.prefix_append _ _)
  exit _ _ h _ := h
  forget _ h _ := h

/-! ## Accounting for costs -/

/-- The profits that are recorded account for the change of the capital. -/
structure AccountsForCosts (initialCapital : F) (a : Account F) (recorded : List F) : Prop where
  recorded_eq : recorded = a.closed.map fun r ↦ r.pnl
  total : a.capital - initialCapital = recorded.sum
  wins : ∀ r ∈ a.closed, 0 < r.pnl ↔ r.capitalBefore < r.capitalAfter

/-- **An account without an open position** accounts for its costs just when there are none. -/
theorem Ledger.accountsForCosts_iff [IsStrictOrderedRing F] {a : Account F} {recorded : List F}
    (h : Ledger k initialCapital a) (hrecorded : recorded = a.closed.map fun r ↦ r.pnl)
    (hflat : a.position = 0) :
    AccountsForCosts initialCapital a recorded ↔ k.rate = 0 ∨ a.entered = [] := by
  have hbalance := h.balance
  rw [hflat, zero_mul, add_zero, ← hrecorded] at hbalance
  constructor
  · rintro ⟨-, htotal, -⟩
    by_contra hcosts
    obtain ⟨hrate, hentered⟩ := not_or.mp hcosts
    have hzero : k.rate * a.entered.sum = 0 := by linear_combination hbalance - htotal
    rcases mul_eq_zero.mp hzero with hzero | hzero
    · exact hrate hzero
    · exact absurd hzero (sum_pos _ h.entered_pos hentered).ne'
  · intro hcosts
    have hzero : k.rate * a.entered.sum = 0 := by
      rcases hcosts with hrate | hentered
      · rw [hrate, zero_mul]
      · rw [hentered, sum_nil, mul_zero]
    refine ⟨hrecorded, by linear_combination hbalance - hzero, fun r hr ↦ ?_⟩
    obtain ⟨worth, hworth, heq⟩ := h.rounds r hr
    rcases hcosts with hrate | hentered
    · rw [hrate, zero_mul, sub_zero] at heq
      rw [← heq, sub_pos]
    · rw [hentered] at hworth
      exact absurd hworth not_mem_nil

theorem Ledger.not_accountsForCosts [IsStrictOrderedRing F] {a : Account F} {recorded : List F}
    (h : Ledger k initialCapital a) (hopen : 0 < a.position) (hrate : 0 ≤ k.rate) :
    ¬ AccountsForCosts initialCapital a recorded := by
  rintro ⟨hrecorded, htotal, -⟩
  have hbalance := h.balance
  rw [← hrecorded] at hbalance
  have hworth := h.worth_pos hopen
  have hcosts : 0 ≤ k.rate * a.entered.sum :=
    mul_nonneg hrate
      (sum_pos _ h.entered_pos (ne_nil_of_mem (h.open_entered hopen))).le
  linarith

theorem divide_eq_ok {a b c : F} : divide a b = .ok c ↔ b ≠ 0 ∧ c = a / b := by
  rw [divide]
  by_cases hb : b = 0
  · rw [if_pos hb]
    exact iff_of_false (fun h ↦ by cases h) fun h ↦ h.1 hb
  · rw [if_neg hb]
    constructor
    · intro h
      exact ⟨hb, (Except.ok.inj h).symm⟩
    · rintro ⟨-, rfl⟩
      rfl

/-! ## The two loops -/

variable (k) in
structure Loop (S : Type) where
  account : S → Account F
  step : S → Action × F → Except String S
  returns : ∀ s signal,
    (signal.1 = .buy → (account s).position = 0 → k.unitCost signal.2 ≠ 0) →
      ∃ s', step s signal = .ok s'
  divides : ∀ s signal s', step s signal = .ok s' → signal.1 = .buy →
    (account s).position = 0 → k.unitCost signal.2 ≠ 0
  opens : ∀ s signal s', step s signal = .ok s' → signal.1 = .buy → (account s).position = 0 →
    0 < (account s).capital / k.unitCost signal.2 → (account s').entered ≠ []
  idles : ∀ s signal s', step s signal = .ok s' → (account s).position = 0 →
    (signal.1 = .buy → (account s).capital / k.unitCost signal.2 ≤ 0) → account s' = account s
  preserves : ∀ {P : Account F → Prop}, Preserved k P → ∀ s signal s', 0 < signal.2 →
    step s signal = .ok s' → P (account s) → P (account s')

variable (k) in
/-- No entry can be paid from the capital. -/
def OpensNothing (initialCapital : F) (signals : List (Action × F)) : Prop :=
  ∀ signal ∈ signals, signal.1 = .buy →
    k.unitCost signal.2 ≠ 0 ∧ initialCapital / k.unitCost signal.2 ≤ 0

namespace Loop

variable {S : Type} (L : Loop k S) {signals : List (Action × F)} {s s' : S}

include L in
theorem run_preserves {P : Account F → Prop} (hP : Preserved k P)
    (hprices : ∀ signal ∈ signals, 0 < signal.2) (h : signals.foldlM L.step s = .ok s')
    (hs : P (L.account s)) : P (L.account s') := by
  induction signals generalizing s with
  | nil =>
    obtain rfl := Except.ok.inj h
    exact hs
  | cons signal signals ih =>
    obtain ⟨s₁, h₁, hrest⟩ := bind_eq_ok.mp h
    refine ih (fun x hx ↦ hprices x (mem_cons_of_mem _ hx)) hrest ?_
    exact L.preserves hP s signal s₁ (hprices signal mem_cons_self) h₁ hs

theorem run_returns (hrate : k.rate = 0) (hprices : ∀ signal ∈ signals, 0 < signal.2) :
    ∃ s', signals.foldlM L.step s = .ok s' := by
  induction signals generalizing s with
  | nil => exact ⟨s, rfl⟩
  | cons signal signals ih =>
    have hcost : k.unitCost signal.2 ≠ 0 := by
      rw [k.unitCost_eq, hrate, add_zero, mul_one]
      exact (hprices signal mem_cons_self).ne'
    obtain ⟨s₁, h₁⟩ := L.returns s signal fun _ _ ↦ hcost
    obtain ⟨s', hs'⟩ := @ih s₁ fun x hx ↦ hprices x (mem_cons_of_mem _ hx)
    exact ⟨s', bind_eq_ok.mpr ⟨s₁, h₁, hs'⟩⟩

theorem run_idles (hs : L.account s = .start initialCapital)
    (hnothing : OpensNothing k initialCapital signals) :
    ∃ s', signals.foldlM L.step s = .ok s' ∧ L.account s' = .start initialCapital := by
  induction signals generalizing s with
  | nil => exact ⟨s, rfl, hs⟩
  | cons signal signals ih =>
    have hsignal := hnothing signal mem_cons_self
    obtain ⟨s₁, h₁⟩ := L.returns s signal fun hbuy _ ↦ (hsignal hbuy).1
    have haccount : L.account s₁ = .start initialCapital := by
      rw [L.idles s signal s₁ h₁ (by rw [hs]; rfl) fun hbuy ↦ by rw [hs]; exact (hsignal hbuy).2,
        hs]
    obtain ⟨s', hs', hend⟩ := ih haccount fun x hx ↦ hnothing x (mem_cons_of_mem _ hx)
    exact ⟨s', bind_eq_ok.mpr ⟨s₁, h₁, hs'⟩, hend⟩

/-- **A run that enters nothing** could pay nothing. -/
theorem opensNothing_of_entered (hs : L.account s = .start initialCapital)
    (hprices : ∀ signal ∈ signals, 0 < signal.2) (h : signals.foldlM L.step s = .ok s')
    (hnone : (L.account s').entered = []) : OpensNothing k initialCapital signals := by
  induction signals generalizing s with
  | nil => exact fun x hx ↦ absurd hx not_mem_nil
  | cons signal signals ih =>
    obtain ⟨s₁, h₁, hrest⟩ := bind_eq_ok.mp h
    have hprices' : ∀ x ∈ signals, 0 < x.2 := fun x hx ↦ hprices x (mem_cons_of_mem _ hx)
    have hflat : (L.account s).position = 0 := by rw [hs]; rfl
    have hnone₁ : (L.account s₁).entered = [] := by
      have hprefix := L.run_preserves (preserved_entered (L.account s₁).entered) hprices' hrest
        (List.prefix_refl _)
      rw [hnone] at hprefix
      exact List.prefix_nil.mp hprefix
    have hsignal : signal.1 = .buy →
        k.unitCost signal.2 ≠ 0 ∧ initialCapital / k.unitCost signal.2 ≤ 0 := by
      intro hbuy
      refine ⟨L.divides s signal s₁ h₁ hbuy hflat, not_lt.mp fun hpaid ↦ ?_⟩
      exact L.opens s signal s₁ h₁ hbuy hflat (by rw [hs]; exact hpaid) hnone₁
    have haccount : L.account s₁ = .start initialCapital := by
      rw [L.idles s signal s₁ h₁ hflat fun hbuy ↦ by rw [hs]; exact (hsignal hbuy).2, hs]
    intro x hx
    rcases mem_cons.mp hx with rfl | hx
    · exact hsignal
    · exact ih haccount hprices' hrest x hx

end Loop

/-! ### What one signal does -/

/-- The account after an entry or a sale; `leave` is what an exit leaves. -/
inductive Traded (k : Costs F) (leave : Account F → Account F) (a : Account F)
    (signal : Action × F) : Account F → Prop
  | opened (hbuy : signal.1 = .buy) (hflat : a.position = 0) (hcost : k.unitCost signal.2 ≠ 0)
      (hpaid : 0 < a.capital / k.unitCost signal.2) :
      Traded k leave a signal (a.enter k signal.2 (a.capital / k.unitCost signal.2))
  | unpaid (hbuy : signal.1 = .buy) (hcost : k.unitCost signal.2 ≠ 0)
      (hpaid : ¬ 0 < a.capital / k.unitCost signal.2) : Traded k leave a signal a
  | sold (hsell : signal.1 = .sell) (hopen : 0 < a.position) :
      Traded k leave a signal (leave (a.exit k signal.2))
  | idle (hidle : ¬ (signal.1 = .buy ∧ a.position = 0)) : Traded k leave a signal a

/-- The account after the barriers. -/
inductive Settled (k : Costs F) (leave : Account F → Account F) (a : Account F) (price : F) :
    Account F → Prop
  | kept : Settled k leave a price a
  | left (hopen : 0 < a.position) : Settled k leave a price (leave (a.exit k price))

/-- An exit may forget the price of the entry. -/
structure Leaves (k : Costs F) (leave : Account F → Account F) : Prop where
  entered : ∀ a, (leave a).entered = a.entered
  preserves : ∀ {P : Account F → Prop}, Preserved k P → ∀ a, P a → a.position = 0 → P (leave a)

theorem leaves_id : Leaves k id where
  entered _ := rfl
  preserves _ _ h _ := h

theorem leaves_forget : Leaves k fun a ↦ { a with entryPrice := 0 } where
  entered _ := rfl
  preserves hP a h hflat := hP.forget a h hflat

def Loop.ofTraded {S : Type} (account : S → Account F)
    (step : S → Action × F → Except String S) {leave : Account F → Account F}
    (hleave : Leaves k leave)
    (hreturns : ∀ s signal,
      (signal.1 = .buy → (account s).position = 0 → k.unitCost signal.2 ≠ 0) →
        ∃ s', step s signal = .ok s')
    (hstep : ∀ s signal s', step s signal = .ok s' → ∃ a, Traded k leave (account s) signal a ∧
      Settled k leave a signal.2 (account s')) : Loop k S where
  account := account
  step := step
  returns := hreturns
  divides s signal s' h hbuy hflat := by
    obtain ⟨a, htraded, -⟩ := hstep s signal s' h
    cases htraded with
    | opened _ _ hcost => exact hcost
    | unpaid _ hcost => exact hcost
    | sold hsell => exact absurd (hbuy.symm.trans hsell) fun h ↦ by cases h
    | idle hidle => exact absurd ⟨hbuy, hflat⟩ hidle
  opens s signal s' h hbuy hflat hpaid := by
    obtain ⟨a, htraded, hsettled⟩ := hstep s signal s' h
    generalize account s' = a' at hsettled ⊢
    have hentered : a'.entered = a.entered := by
      cases hsettled with
      | kept => rfl
      | left => exact hleave.entered _
    rw [hentered]
    cases htraded with
    | opened => exact append_ne_nil_of_right_ne_nil _ (cons_ne_nil _ _)
    | unpaid _ _ hunpaid => exact absurd hpaid hunpaid
    | sold hsell => exact absurd (hbuy.symm.trans hsell) fun h ↦ by cases h
    | idle hidle => exact absurd ⟨hbuy, hflat⟩ hidle
  idles s signal s' h hflat hunpaid := by
    obtain ⟨a, htraded, hsettled⟩ := hstep s signal s' h
    have ha : a = account s := by
      cases htraded with
      | opened hbuy _ _ hpaid => exact absurd hpaid (not_lt.mpr (hunpaid hbuy))
      | unpaid => rfl
      | sold _ hopen => exact absurd hflat hopen.ne'
      | idle => rfl
    rw [ha] at hsettled
    generalize account s' = a' at hsettled ⊢
    cases hsettled with
    | kept => rfl
    | left hopen => exact absurd hflat hopen.ne'
  preserves {P} hP s signal s' hprice h hs := by
    obtain ⟨a, htraded, hsettled⟩ := hstep s signal s' h
    have ha : P a := by
      cases htraded with
      | opened _ hflat _ hpaid => exact hP.enter _ _ _ hs hflat hprice hpaid
      | unpaid => exact hs
      | sold _ hopen => exact hleave.preserves hP _ (hP.exit _ _ hs hopen) rfl
      | idle => exact hs
    generalize account s' = a' at hsettled ⊢
    cases hsettled with
    | kept => exact ha
    | left hopen => exact hleave.preserves hP _ (hP.exit _ _ ha hopen) rfl

theorem VectorizedState.step_returns (s : VectorizedState F) (signal : Action × F)
    (h : signal.1 = .buy → s.account.position = 0 → k.unitCost signal.2 ≠ 0) :
    ∃ s', s.step k signal = .ok s' := by
  have htrade : ∃ s₁, s.trade k signal = .ok s₁ := by
    rw [trade]
    split
    · rename_i hbuy
      exact ⟨_, bind_eq_ok.mpr ⟨_, divide_eq_ok.mpr ⟨h hbuy.1 hbuy.2, rfl⟩, rfl⟩⟩
    · split
      · exact ⟨_, rfl⟩
      · exact ⟨_, rfl⟩
  obtain ⟨s₁, h₁⟩ := htrade
  exact ⟨_, bind_eq_ok.mpr ⟨s₁, h₁, rfl⟩⟩

variable {signal : Action × F} {b : Barriers F} {s : TpslState F} {signals : List (Action × F)}
  {v : VectorizedState F}

theorem VectorizedState.traded {s s' : VectorizedState F} (h : s.trade k signal = .ok s') :
    Traded k id s.account signal s'.account := by
  rw [trade] at h
  split at h
  · rename_i hbuy
    obtain ⟨size, hsize, h⟩ := bind_eq_ok.mp h
    obtain ⟨hcost, rfl⟩ := divide_eq_ok.mp hsize
    obtain rfl := Except.ok.inj h
    split
    · rename_i hpaid
      exact .opened hbuy.1 hbuy.2 hcost hpaid
    · rename_i hpaid
      exact .unpaid hbuy.1 hcost hpaid
  · rename_i hidle
    split at h
    · rename_i hsell
      obtain rfl := Except.ok.inj h
      exact .sold hsell.1 hsell.2
    · obtain rfl := Except.ok.inj h
      exact .idle hidle

theorem VectorizedState.step_settled {s s' : VectorizedState F} (h : s.step k signal = .ok s') :
    ∃ a, Traded k id s.account signal a ∧
      Settled k id a signal.2 s'.account := by
  obtain ⟨s₁, h₁, h⟩ := bind_eq_ok.mp h
  obtain rfl := Except.ok.inj h
  exact ⟨s₁.account, traded h₁, .kept⟩

theorem TpslState.trade_returns (b : Barriers F) (s : TpslState F) (signal : Action × F)
    (h : signal.1 = .buy → s.account.position = 0 → k.unitCost signal.2 ≠ 0) :
    ∃ s', s.trade k b signal = .ok s' := by
  rw [trade]
  split
  · rename_i hbuy
    exact ⟨_, bind_eq_ok.mpr ⟨_, divide_eq_ok.mpr ⟨h hbuy.1 hbuy.2, rfl⟩, rfl⟩⟩
  · split
    · exact ⟨_, rfl⟩
    · exact ⟨_, rfl⟩

theorem TpslState.traded {s s' : TpslState F} (h : s.trade k b signal = .ok s') :
    Traded k (fun a ↦ { a with entryPrice := 0 }) s.account signal s'.account := by
  rw [trade] at h
  split at h
  · rename_i hbuy
    obtain ⟨size, hsize, h⟩ := bind_eq_ok.mp h
    obtain ⟨hcost, rfl⟩ := divide_eq_ok.mp hsize
    obtain rfl := Except.ok.inj h
    split
    · rename_i hpaid
      exact .opened hbuy.1 hbuy.2 hcost hpaid
    · rename_i hpaid
      exact .unpaid hbuy.1 hcost hpaid
  · rename_i hidle
    split at h
    · rename_i hsell
      obtain rfl := Except.ok.inj h
      exact .sold hsell.1 hsell.2
    · obtain rfl := Except.ok.inj h
      exact .idle hidle

theorem TpslState.trail_account (b : Barriers F) (s : TpslState F) (price : F) :
    (s.trail b price).account = s.account := by
  rw [trail]
  split
  · rfl
  · rfl

theorem TpslState.barriers_settled {price : F} (hopen : 0 < s.account.position) :
    Settled k (fun a ↦ { a with entryPrice := 0 }) s.account price
      (s.barriers k price).account := by
  rw [barriers]
  split
  · exact .left hopen
  · split
    · exact .left hopen
    · exact .kept

theorem TpslState.step_settled {s s' : TpslState F} (h : s.step k b signal = .ok s') :
    ∃ a, Traded k (fun a ↦ { a with entryPrice := 0 }) s.account signal a ∧
      Settled k (fun a ↦ { a with entryPrice := 0 }) a signal.2 s'.account := by
  rw [step] at h
  obtain ⟨s₁, h₁, h⟩ := bind_eq_ok.mp h
  obtain rfl := Except.ok.inj h
  refine ⟨s₁.account, traded h₁, ?_⟩
  split
  · rename_i hopen
    rw [← trail_account b s₁ signal.2] at hopen ⊢
    exact barriers_settled hopen
  · exact .kept

theorem TpslState.step_returns (b : Barriers F) (s : TpslState F) (signal : Action × F)
    (h : signal.1 = .buy → s.account.position = 0 → k.unitCost signal.2 ≠ 0) :
    ∃ s', s.step k b signal = .ok s' := by
  obtain ⟨s₁, h₁⟩ := trade_returns b s signal h
  exact ⟨_, bind_eq_ok.mpr ⟨s₁, h₁, rfl⟩⟩

variable (k) in
def vectorizedSteps : Loop k (VectorizedState F) :=
  .ofTraded (fun s ↦ s.account) (VectorizedState.step k) leaves_id VectorizedState.step_returns
    fun _ _ _ h ↦ VectorizedState.step_settled h

variable (k) in
def tpslSteps (b : Barriers F) : Loop k (TpslState F) :=
  .ofTraded (fun s ↦ s.account) (TpslState.step k b) leaves_forget (TpslState.step_returns b)
    fun _ _ _ h ↦ TpslState.step_settled h

/-! ### The recorded trades -/

/-- The recorded profits are those of the closed trades. -/
def VectorizedState.Recorded (s : VectorizedState F) : Prop :=
  (s.trades.map fun t ↦ t.pnl) = s.account.closed.map fun r ↦ r.pnl

/-- The recorded profits are those of the closed trades. -/
def TpslState.Recorded (s : TpslState F) : Prop :=
  closedPnls s.trades = s.account.closed.map fun r ↦ r.pnl

omit [LinearOrder F] in
theorem VectorizedState.exit_recorded {s : VectorizedState F} (h : s.Recorded) (label : Label)
    (price : F) : (s.exit k label price).Recorded := by
  rw [Recorded, exit, Account.exit, map_append, map_append, h]
  rfl

theorem VectorizedState.step_recorded {s s' : VectorizedState F} (h : s.Recorded)
    (hs : s.step k signal = .ok s') : s'.Recorded := by
  obtain ⟨s₁, h₁, hs⟩ := bind_eq_ok.mp hs
  obtain rfl := Except.ok.inj hs
  change s₁.Recorded
  rw [trade] at h₁
  split at h₁
  · obtain ⟨size, -, h₁⟩ := bind_eq_ok.mp h₁
    obtain rfl := Except.ok.inj h₁
    split
    · exact h
    · exact h
  · split at h₁
    · obtain rfl := Except.ok.inj h₁
      exact exit_recorded h _ _
    · obtain rfl := Except.ok.inj h₁
      exact h

omit [Field F] [LinearOrder F] in
theorem closedPnls_append (trades : List (Trade F)) (t : Trade F) :
    closedPnls (trades ++ [t]) = closedPnls trades ++ if t.label = .buy then [] else [t.pnl] := by
  rw [closedPnls, filter_append, map_append, closedPnls]
  refine congrArg (_ ++ ·) ?_
  by_cases hbuy : t.label = .buy
  · rw [if_pos hbuy, filter_cons_of_neg (by simp [hbuy]), filter_nil, map_nil]
  · rw [if_neg hbuy, filter_cons_of_pos (by simp [hbuy]), filter_nil, map_singleton]

omit [LinearOrder F] in
theorem TpslState.exit_recorded (h : s.Recorded) {label : Label} (price : F)
    (hlabel : label ≠ .buy) : (s.exit k label price).Recorded := by
  rw [Recorded, exit, closedPnls_append, if_neg hlabel, h, Account.exit, map_append]
  rfl

theorem TpslState.step_recorded {s s' : TpslState F} (h : s.Recorded)
    (hs : s.step k b signal = .ok s') : s'.Recorded := by
  obtain ⟨s₁, h₁, hs⟩ := bind_eq_ok.mp hs
  obtain rfl := Except.ok.inj hs
  have htrade : s₁.Recorded := by
    rw [trade] at h₁
    split at h₁
    · obtain ⟨size, -, h₁⟩ := bind_eq_ok.mp h₁
      obtain rfl := Except.ok.inj h₁
      split
      · rw [Recorded, enter, closedPnls_append, if_pos rfl, append_nil]
        exact h
      · exact h
    · split at h₁
      · obtain rfl := Except.ok.inj h₁
        exact exit_recorded h _ fun hlabel ↦ by cases hlabel
      · obtain rfl := Except.ok.inj h₁
        exact h
  have htrail : (s₁.trail b signal.2).Recorded := by
    rw [trail]
    split
    · exact htrade
    · exact htrade
  change (if 0 < s₁.account.position then _ else s₁ : TpslState F).Recorded
  split
  · rw [barriers]
    split
    · exact exit_recorded htrail _ fun hlabel ↦ by cases hlabel
    · split
      · exact exit_recorded htrail _ fun hlabel ↦ by cases hlabel
      · exact htrail
  · exact htrade

/-! ### The last exit -/

omit [Field F] [LinearOrder F] in
theorem foldlM_invariant {S : Type} {step : S → Action × F → Except String S} {P : S → Prop}
    (hP : ∀ s signal s', P s → step s signal = .ok s' → P s') {s s' : S} (hs : P s)
    (h : signals.foldlM step s = .ok s') : P s' := by
  induction signals generalizing s with
  | nil =>
    obtain rfl := Except.ok.inj h
    exact hs
  | cons signal signals ih =>
    obtain ⟨s₁, h₁, hrest⟩ := bind_eq_ok.mp h
    exact ih (hP s signal s₁ hs h₁) hrest

theorem VectorizedState.finish_spec [IsStrictOrderedRing F] {s : VectorizedState F}
    (h : Ledger k initialCapital s.account) (hrecorded : s.Recorded)
    (hsignals : signals = [] → s.account.position = 0) :
    Ledger k initialCapital (s.finish k signals).account ∧ (s.finish k signals).Recorded ∧
      (s.finish k signals).account.position = 0 ∧
        (s.finish k signals).account.entered = s.account.entered := by
  rw [finish]
  split
  · split
    · rename_i hopen
      exact ⟨Ledger.preserved.exit _ _ h hopen, exit_recorded hrecorded _ _, rfl, rfl⟩
    · rename_i hclosed
      exact ⟨h, hrecorded, le_antisymm (not_lt.mp hclosed) h.position_nonneg, rfl⟩
  · rename_i hnone
    exact ⟨h, hrecorded, hsignals (getLast?_eq_none_iff.mp hnone), rfl⟩

variable {prices : List F}

theorem TpslState.finish_spec [IsStrictOrderedRing F] (h : Ledger k initialCapital s.account)
    (hrecorded : s.Recorded) (hprices : prices ≠ [] ∨ s.account.position = 0) :
    Ledger k initialCapital (s.finish k prices).account ∧ (s.finish k prices).Recorded ∧
      (s.finish k prices).account.position = 0 ∧
        (s.finish k prices).account.entered = s.account.entered := by
  rw [finish]
  split
  · rename_i closingPrice _
    split
    · rename_i hopen
      have hexit : (s.exit k .close closingPrice).Recorded :=
        exit_recorded hrecorded _ fun hlabel ↦ by cases hlabel
      exact ⟨Ledger.preserved.forget _ (Ledger.preserved.exit _ _ h hopen) rfl, hexit, rfl, rfl⟩
    · rename_i hclosed
      exact ⟨h, hrecorded, le_antisymm (not_lt.mp hclosed) h.position_nonneg, rfl⟩
  · rename_i hnone
    exact ⟨h, hrecorded,
      hprices.resolve_left fun hne ↦ hne (getLast?_eq_none_iff.mp hnone), rfl⟩

/-! ## Agreement -/

def TpslState.Touched (s : TpslState F) (price : F) : Prop :=
  (∃ sl ∈ s.slPrice, price ≤ sl) ∨ ∃ tp ∈ s.tpPrice, tp ≤ price

/-- No stop and no target is touched in the loop from `s` on. -/
def Untouched (k : Costs F) (b : Barriers F) : TpslState F → List (Action × F) → Prop
  | _, [] => True
  | s, signal :: signals =>
    (∀ s₁, s.trade k b signal = .ok s₁ → 0 < s₁.account.position →
      ¬ (s₁.trail b signal.2).Touched signal.2) ∧
    ∀ s', s.step k b signal = .ok s' → Untouched k b s' signals

/-- What the two loops have in common. -/
structure Agree (s : TpslState F) (v : VectorizedState F) : Prop where
  capital : v.account.capital = s.account.capital
  position : v.account.position = s.account.position
  entryPrice : 0 < s.account.position → v.account.entryPrice = s.account.entryPrice
  equity : v.equityValues = s.equityCurve
  pnls : (v.trades.map fun t ↦ t.pnl) = closedPnls s.trades

theorem Agree.start : Agree (TpslState.start initialCapital) (.start initialCapital) :=
  ⟨rfl, rfl, fun _ ↦ rfl, rfl, rfl⟩

theorem Agree.exit (h : Agree s v) {label : Label} (price : F) (hopen : 0 < s.account.position)
    (hlabel : label ≠ .buy) :
    Agree (s.exit k label price) (v.exit k label price) := by
  have hrevenue : v.account.revenue k price = s.account.revenue k price := by
    rw [Account.revenue, Account.revenue, h.position]
  have hpnl : v.account.pnl k price = s.account.pnl k price := by
    rw [Account.pnl, Account.pnl, hrevenue, h.position, h.entryPrice hopen]
  refine ⟨?_, rfl, fun hpos ↦ absurd hpos (lt_irrefl 0), h.equity, ?_⟩
  · change v.account.capital + v.account.revenue k price =
      s.account.capital + s.account.revenue k price
    rw [h.capital, hrevenue]
  · change (v.trades ++ [(_ : Trade F)]).map (fun t ↦ t.pnl) = closedPnls (s.trades ++ [_])
    rw [closedPnls_append, if_neg hlabel, map_append, h.pnls, map_singleton]
    exact congrArg (fun pnl ↦ closedPnls s.trades ++ [pnl]) hpnl

theorem Agree.trade (h : Agree s v) (signal : Action × F) :
    (∀ e, s.trade k b signal = .error e → v.trade k signal = .error e) ∧
      ∀ s₁, s.trade k b signal = .ok s₁ → ∃ v₁, v.trade k signal = .ok v₁ ∧ Agree s₁ v₁ := by
  rw [TpslState.trade, VectorizedState.trade, h.position, h.capital]
  split
  · cases hsize : divide s.account.capital (k.unitCost signal.2) with
    | error e =>
      refine ⟨fun e' he' ↦ ?_, fun s₁ hs₁ ↦ ?_⟩
      · obtain rfl := Except.error.inj he'
        rfl
      · cases hs₁
    | ok size =>
      refine ⟨fun e he ↦ (by cases he), fun s₁ hs₁ ↦ ⟨_, rfl, ?_⟩⟩
      obtain rfl := Except.ok.inj hs₁
      by_cases hpaid : 0 < size
      · rw [if_pos hpaid, if_pos hpaid]
        refine ⟨?_, rfl, fun _ ↦ rfl, h.equity, ?_⟩
        · change v.account.capital - _ = s.account.capital - _
          rw [h.capital]
        · change v.trades.map (fun t ↦ t.pnl) = closedPnls (s.trades ++ [_])
          rw [closedPnls_append, if_pos rfl, append_nil, h.pnls]
      · rw [if_neg hpaid, if_neg hpaid]
        exact h
  · split
    · rename_i hsell
      refine ⟨fun e he ↦ (by cases he), fun s₁ hs₁ ↦ ⟨_, rfl, ?_⟩⟩
      obtain rfl := Except.ok.inj hs₁
      exact h.exit _ hsell.2 fun hlabel ↦ by cases hlabel
    · refine ⟨fun e he ↦ (by cases he), fun s₁ hs₁ ↦ ⟨_, rfl, ?_⟩⟩
      obtain rfl := Except.ok.inj hs₁
      exact h

theorem TpslState.barriers_of_untouched {price : F} (h : ¬ s.Touched price) :
    s.barriers k price = s := by
  rw [barriers, if_neg fun hsl ↦ h (Or.inl hsl), if_neg fun htp ↦ h (Or.inr htp)]

theorem Agree.trail (h : Agree s v) (price : F) : Agree (s.trail b price) v := by
  rw [TpslState.trail]
  split
  · exact ⟨h.capital, h.position, h.entryPrice, h.equity, h.pnls⟩
  · exact h

theorem Agree.record (h : Agree s v) (price : F) :
    Agree { s with equityCurve := s.equityCurve ++ [s.account.equity price] }
      { v with equityValues := v.equityValues ++ [v.account.equity price] } := by
  refine ⟨h.capital, h.position, h.entryPrice, ?_, h.pnls⟩
  change v.equityValues ++ [v.account.equity price] = s.equityCurve ++ [s.account.equity price]
  rw [Account.equity, Account.equity, h.equity, h.capital, h.position]

/-- **The loops agree** while nothing is touched. -/
theorem Agree.run (h : Agree s v) (huntouched : Untouched k b s signals) :
    (∀ e, signals.foldlM (TpslState.step k b) s = .error e →
      signals.foldlM (VectorizedState.step k) v = .error e) ∧
    ∀ s', signals.foldlM (TpslState.step k b) s = .ok s' →
      ∃ v', signals.foldlM (VectorizedState.step k) v = .ok v' ∧ Agree s' v' := by
  induction signals generalizing s v with
  | nil =>
    refine ⟨fun e he ↦ (by cases he), fun s' hs' ↦ ⟨v, rfl, ?_⟩⟩
    obtain rfl := Except.ok.inj hs'
    exact h
  | cons signal signals ih =>
    obtain ⟨hsignal, hrest⟩ := huntouched
    rw [foldlM_cons, foldlM_cons, TpslState.step, VectorizedState.step]
    cases htrade : s.trade k b signal with
    | error e =>
      rw [(h.trade signal).1 e htrade]
      refine ⟨fun e' he' ↦ ?_, fun s' hs' ↦ by cases hs'⟩
      obtain rfl := Except.error.inj he'
      rfl
    | ok s₁ =>
      obtain ⟨v₁, hv₁, hagree⟩ := (h.trade signal).2 s₁ htrade
      rw [hv₁]
      have hsettled : Agree (if 0 < s₁.account.position then
          (s₁.trail b signal.2).barriers k signal.2 else s₁) v₁ := by
        by_cases hopen : 0 < s₁.account.position
        · rw [if_pos hopen, TpslState.barriers_of_untouched (hsignal s₁ htrade hopen)]
          exact hagree.trail _
        · rw [if_neg hopen]
          exact hagree
      refine ih (hsettled.record signal.2) (hrest _ ?_)
      rw [TpslState.step, htrade]
      rfl

theorem Agree.finish (h : Agree s v)
    (hlast : prices.getLast? = signals.getLast?.map fun signal ↦ signal.2) :
    Agree (s.finish k prices) (v.finish k signals) := by
  rw [TpslState.finish, VectorizedState.finish, hlast]
  cases signals.getLast? with
  | none => exact h
  | some signal =>
    simp only [Option.map_some]
    by_cases hopen : 0 < s.account.position
    · rw [if_pos hopen, if_pos (h.position.symm ▸ hopen)]
      have hexit : Agree (s.exit k .close signal.2) (v.exit k .close signal.2) :=
        h.exit signal.2 hopen fun hlabel ↦ by cases hlabel
      refine ⟨hexit.capital, hexit.position, hexit.entryPrice, ?_, hexit.pnls⟩
      exact congrArg₂ (fun l c ↦ l ++ [c]) hexit.equity hexit.capital
    · rw [if_neg hopen, if_neg (h.position.symm ▸ hopen)]
      exact h

/-- **Where nothing is touched the backtests return the same statistics.** -/
theorem stats_eq (sqrt : F → F) (hsignals : signals ≠ [])
    (hlast : prices.getLast? = signals.getLast?.map fun signal ↦ signal.2)
    (huntouched : Untouched k b (.start initialCapital) signals) :
    (vectorizedBacktestWithTpsl sqrt k b initialCapital prices signals).map (fun r ↦ r.stats) =
      vectorizedBacktest sqrt k initialCapital signals := by
  obtain ⟨herror, hok⟩ := Agree.start.run huntouched
  rw [vectorizedBacktestWithTpsl, vectorizedBacktest, if_neg hsignals, tpslRun, vectorizedRun,
    tpslLoop]
  cases hloop : signals.foldlM (TpslState.step k b) (.start initialCapital) with
  | error e =>
    rw [herror e hloop]
    rfl
  | ok s =>
    obtain ⟨v, hv, hagree⟩ := hok s hloop
    have hfinish := hagree.finish (k := k) hlast
    rw [hv]
    change Except.map _ (stats sqrt initialCapital (s.finish k prices).account.capital
      (s.finish k prices).equityCurve (closedPnls (s.finish k prices).trades) >>= _) =
        stats sqrt initialCapital (v.finish k signals).account.capital
          (v.finish k signals).equityValues ((v.finish k signals).trades.map fun t ↦ t.pnl)
    rw [hfinish.capital, hfinish.equity, hfinish.pnls]
    cases stats sqrt initialCapital (s.finish k prices).account.capital
      (s.finish k prices).equityCurve (closedPnls (s.finish k prices).trades) with
    | error e => rfl
    | ok r => rfl

/-! ## Every cost -/

/-- Both backtests return and account for their costs, and they agree where nothing is touched. -/
structure AccountForCosts (sqrt : F → F) (k : Costs F) (b : Barriers F) (initialCapital : F)
    (prices : List F) (signals : List (Action × F)) : Prop where
  tpsl : ∃ s r, tpslRun k b initialCapital prices signals = .ok s ∧
    vectorizedBacktestWithTpsl sqrt k b initialCapital prices signals = .ok r ∧
      AccountsForCosts initialCapital s.account (closedPnls s.trades)
  vectorized : ∃ s r, vectorizedRun k initialCapital signals = .ok s ∧
    vectorizedBacktest sqrt k initialCapital signals = .ok r ∧
      AccountsForCosts initialCapital s.account (s.trades.map fun t ↦ t.pnl)
  agree : signals ≠ [] → prices.getLast? = signals.getLast?.map (fun signal ↦ signal.2) →
    Untouched k b (.start initialCapital) signals →
      (vectorizedBacktestWithTpsl sqrt k b initialCapital prices signals).map (fun r ↦ r.stats) =
        vectorizedBacktest sqrt k initialCapital signals

/-- The loop ends without an open position. -/
def EndsFlat (k : Costs F) (b : Barriers F) (initialCapital : F) (signals : List (Action × F)) :
    Prop :=
  ∀ s, tpslLoop k b initialCapital signals = .ok s → s.account.position = 0

theorem stats_eq_ok {sqrt : F → F} {capital : F} {equity pnls : List F} {r : Stats F}
    (h : stats sqrt initialCapital capital equity pnls = .ok r) : initialCapital ≠ 0 := by
  obtain ⟨_, hreturn, -⟩ := bind_eq_ok.mp h
  exact (divide_eq_ok.mp hreturn).1

theorem exists_stats (sqrt : F → F) (hinitial : initialCapital ≠ 0) (capital : F)
    (equity pnls : List F) : ∃ r, stats sqrt initialCapital capital equity pnls = .ok r :=
  ⟨_, bind_eq_ok.mpr ⟨_, divide_eq_ok.mpr ⟨hinitial, rfl⟩, rfl⟩⟩

section Every

variable [IsStrictOrderedRing F] {b : Barriers F} {signals : List (Action × F)} {prices : List F}

theorem vectorizedLoop_spec {s : VectorizedState F} (hsignals : ∀ signal ∈ signals, 0 < signal.2)
    (h : signals.foldlM (VectorizedState.step k) (.start initialCapital) = .ok s) :
    Ledger k initialCapital s.account ∧ s.Recorded ∧ (signals = [] → s.account.position = 0) := by
  have hstart : (VectorizedState.start initialCapital).Recorded := rfl
  refine ⟨(vectorizedSteps k).run_preserves Ledger.preserved hsignals h Ledger.start,
    foldlM_invariant (fun s signal s' hs h ↦ VectorizedState.step_recorded hs h) hstart h, ?_⟩
  rintro rfl
  obtain rfl := Except.ok.inj h
  rfl

theorem tpslLoop_spec {s : TpslState F} (hsignals : ∀ signal ∈ signals, 0 < signal.2)
    (h : tpslLoop k b initialCapital signals = .ok s) :
    Ledger k initialCapital s.account ∧ s.Recorded := by
  have hstart : (TpslState.start initialCapital).Recorded := rfl
  exact ⟨(tpslSteps k b).run_preserves Ledger.preserved hsignals h Ledger.start,
    foldlM_invariant (fun s signal s' hs h ↦ TpslState.step_recorded hs h) hstart h⟩

/-- **Every cost is accounted for** just when no entry can be paid, or nothing is taken for
costs and no position is left open. -/
theorem accounts_for_costs_iff (sqrt : F → F) (hsignals : ∀ signal ∈ signals, 0 < signal.2) :
    AccountForCosts sqrt k b initialCapital prices signals ↔
      initialCapital ≠ 0 ∧ (OpensNothing k initialCapital signals ∨
        k.rate = 0 ∧ (prices ≠ [] ∨ EndsFlat k b initialCapital signals)) := by
  constructor
  · rintro ⟨⟨s, r, hs, hr, haccounts⟩, ⟨v, -, hv, -, hvaccounts⟩, -⟩
    obtain ⟨s₁, hs₁, hs⟩ := bind_eq_ok.mp hs
    obtain rfl := Except.ok.inj hs
    obtain ⟨v₁, hv₁, hv⟩ := bind_eq_ok.mp hv
    obtain rfl := Except.ok.inj hv
    have hinitial : initialCapital ≠ 0 := by
      obtain ⟨_, -, hr⟩ := bind_eq_ok.mp hr
      obtain ⟨_, hr, -⟩ := bind_eq_ok.mp hr
      exact stats_eq_ok hr
    refine ⟨hinitial, ?_⟩
    obtain ⟨hledger, hrecorded, hnone⟩ := vectorizedLoop_spec hsignals hv₁
    obtain ⟨hledger', hrecorded', hflat', hentered'⟩ :=
      VectorizedState.finish_spec hledger hrecorded hnone
    rcases (hledger'.accountsForCosts_iff hrecorded' hflat').mp hvaccounts with hzero | hnothing
    · by_cases hprices : prices = []
      · refine Or.inr ⟨hzero, Or.inr fun s₂ hs₂ ↦ ?_⟩
        obtain rfl := Except.ok.inj (hs₁.symm.trans hs₂)
        -- Without a price the position would be left open.
        obtain ⟨hledger₁, -⟩ := tpslLoop_spec hsignals hs₁
        rw [hprices] at haccounts
        by_contra hopen
        exact hledger₁.not_accountsForCosts
          (lt_of_le_of_ne hledger₁.position_nonneg (Ne.symm hopen)) hzero.ge haccounts
      · exact Or.inr ⟨hzero, Or.inl hprices⟩
    · rw [hentered'] at hnothing
      exact Or.inl ((vectorizedSteps k).opensNothing_of_entered rfl hsignals hv₁ hnothing)
  · rintro ⟨hinitial, hcosts⟩
    -- Both loops return, and what they leave is closed at the end.
    have hloops : ∃ s v, tpslLoop k b initialCapital signals = .ok s ∧
        signals.foldlM (VectorizedState.step k) (.start initialCapital) = .ok v ∧
          (k.rate = 0 ∨ s.account.entered = []) ∧ (k.rate = 0 ∨ v.account.entered = []) ∧
            (prices ≠ [] ∨ s.account.position = 0) := by
      rcases hcosts with hnothing | ⟨hzero, hclosed⟩
      · obtain ⟨s, hs, hsaccount⟩ :=
          (tpslSteps k b).run_idles (s := .start initialCapital) rfl hnothing
        obtain ⟨v, hv, hvaccount⟩ :=
          (vectorizedSteps k).run_idles (s := .start initialCapital) rfl hnothing
        refine ⟨s, v, hs, hv, Or.inr ?_, Or.inr ?_, Or.inr ?_⟩
        · exact congrArg Account.entered hsaccount
        · exact congrArg Account.entered hvaccount
        · exact congrArg Account.position hsaccount
      · obtain ⟨s, hs⟩ := (tpslSteps k b).run_returns (s := .start initialCapital) hzero hsignals
        obtain ⟨v, hv⟩ :=
          (vectorizedSteps k).run_returns (s := .start initialCapital) hzero hsignals
        exact ⟨s, v, hs, hv, Or.inl hzero, Or.inl hzero, hclosed.imp_right fun h ↦ h s hs⟩
    obtain ⟨s, v, hs, hv, hsentered, hventered, hclosed⟩ := hloops
    obtain ⟨hledger, hrecorded⟩ := tpslLoop_spec hsignals hs
    obtain ⟨hledger', hrecorded', hflat', hentered'⟩ :=
      TpslState.finish_spec hledger hrecorded hclosed
    obtain ⟨hvledger, hvrecorded, hvnone⟩ := vectorizedLoop_spec hsignals hv
    obtain ⟨hvledger', hvrecorded', hvflat', hventered'⟩ :=
      VectorizedState.finish_spec hvledger hvrecorded hvnone
    have hrun : tpslRun k b initialCapital prices signals = .ok (s.finish k prices) :=
      bind_eq_ok.mpr ⟨s, hs, rfl⟩
    have hvrun : vectorizedRun k initialCapital signals = .ok (v.finish k signals) :=
      bind_eq_ok.mpr ⟨v, hv, rfl⟩
    obtain ⟨r, hr⟩ := exists_stats sqrt hinitial (s.finish k prices).account.capital
      (s.finish k prices).equityCurve (closedPnls (s.finish k prices).trades)
    have hvresult : ∃ r, vectorizedBacktest sqrt k initialCapital signals = .ok r := by
      rw [vectorizedBacktest]
      split
      · exact ⟨_, rfl⟩
      · obtain ⟨r, hr⟩ := exists_stats sqrt hinitial (v.finish k signals).account.capital
          (v.finish k signals).equityValues ((v.finish k signals).trades.map fun t ↦ t.pnl)
        exact ⟨r, bind_eq_ok.mpr ⟨_, hvrun, hr⟩⟩
    obtain ⟨vr, hvr⟩ := hvresult
    refine ⟨⟨_, _, hrun, bind_eq_ok.mpr ⟨_, hrun, bind_eq_ok.mpr ⟨r, hr, rfl⟩⟩, ?_⟩,
      ⟨_, vr, hvrun, hvr, ?_⟩, fun hsome hlast huntouched ↦ stats_eq sqrt hsome hlast huntouched⟩
    · exact (hledger'.accountsForCosts_iff hrecorded' hflat').mpr
        (hsentered.imp_right hentered'.trans)
    · exact (hvledger'.accountsForCosts_iff hvrecorded' hvflat').mpr
        (hventered.imp_right hventered'.trans)

end Every

end

/-! ### A trade at the costs that are preset -/

def presetCosts : Costs ℚ := ⟨1 / 1000, 1 / 2000⟩

def presetBarriers : Barriers ℚ := ⟨2 / 100, 4 / 100, true⟩

def oneTrade : List (Action × ℚ) := [(.buy, 100), (.sell, 103)]

/-- A trade with costs is not accounted for. -/
theorem entry_costs_not_recorded :
    ¬ AccountForCosts id presetCosts presetBarriers 100000 [103] oneTrade := by
  rintro ⟨-, ⟨s, -, hs, -, haccounts⟩, -⟩
  have hbalance : (vectorizedRun presetCosts 100000 oneTrade).map (fun s ↦
      decide (s.account.capital - 100000 = (s.trades.map fun t ↦ t.pnl).sum)) = .ok false := by
    decide +kernel
  rw [hs] at hbalance
  have hfalse : decide (s.account.capital - 100000 = (s.trades.map fun t ↦ t.pnl).sum) = false :=
    Except.ok.inj hbalance
  rw [decide_eq_true haccounts.total] at hfalse
  cases hfalse

/-- Without costs the trade is accounted for. -/
theorem accounts_for_free_trade :
    AccountForCosts id ⟨0, 0⟩ presetBarriers (100000 : ℚ) [103] oneTrade := by
  refine (accounts_for_costs_iff id fun signal hsignal ↦ ?_).mpr ⟨by decide +kernel,
    Or.inr ⟨by decide +kernel, Or.inl (cons_ne_nil _ _)⟩⟩
  simp only [oneTrade, mem_cons, not_mem_nil, or_false] at hsignal
  rcases hsignal with rfl | rfl
  · exact (by decide +kernel : (0 : ℚ) < 100)
  · exact (by decide +kernel : (0 : ℚ) < 103)

end Qros.QuantEngine.SimpleBacktest
