import Mathlib.Algebra.BigOperators.Group.List.Basic
import Qros.Quant.Market

/-!
# The trade book

`src/backtest/trade_book.cpp`.  A trade counts towards the result of a book once it
is closed.  Ids are handed out from a 64-bit counter, and `close_trade` closes the
first open trade that carries the id it is given.

The exit that a book makes of its open trades one by one is the map of `Trade.exitAt`
over all of them (`exitOpenTrades_eq`), whatever ids they carry.
-/

universe u

namespace Qros.Quant.Backtest

open List

inductive TradeDirection where
  | buy
  | sell
deriving DecidableEq

inductive TradeStatus where
  | open
  | closed
  | canceled
deriving DecidableEq

structure Trade (F : Type u) where
  id : UInt64
  symbol : String
  direction : TradeDirection
  quantity : F
  entryPrice : F
  exitPrice : F
  entryCommission : F
  exitCommission : F
  entryTime : TimePoint
  exitTime : TimePoint
  status : TradeStatus
deriving DecidableEq

structure TradeBook (F : Type u) where
  symbol : String
  trades : List (Trade F)
  nextId : UInt64

namespace Trade

variable {F : Type u}

/-- The default member initializers. -/
def initial [Zero F] : Trade F where
  id := 0
  symbol := ""
  direction := .buy
  quantity := 0
  entryPrice := 0
  exitPrice := 0
  entryCommission := 0
  exitCommission := 0
  entryTime := 0
  exitTime := 0
  status := .open

section Pnl

variable [Zero F] [One F] [Neg F] [Add F] [Sub F] [Mul F]

def totalCommission (t : Trade F) : F := t.entryCommission + t.exitCommission

def pnl (t : Trade F) : F :=
  if t.status ≠ .closed then 0
  else
    let multiplier : F := if t.direction = .buy then 1 else -1
    (t.exitPrice - t.entryPrice) * t.quantity * multiplier - t.totalCommission

end Pnl

def close (t : Trade F) (exitPrice : F) (exitTime : TimePoint) (commission : F) : Trade F :=
  { t with exitPrice, exitTime, exitCommission := commission, status := .closed }

/-- An open trade closed at a price without commission, any other as it is. -/
def exitAt [Zero F] (price : F) (time : TimePoint) (t : Trade F) : Trade F :=
  if t.status = .open then t.close price time 0 else t

section Exact

variable [Ring F] {t : Trade F} (price : F) (time : TimePoint)

theorem pnl_exitAt_of_open (h : t.status = .open) : (t.exitAt price time).pnl =
    (price - t.entryPrice) * t.quantity * (if t.direction = .buy then 1 else -1) -
      t.entryCommission := by
  rw [exitAt, if_pos h]
  show (price - t.entryPrice) * t.quantity * _ - (t.entryCommission + 0) = _
  rw [add_zero]
  rfl

theorem pnl_exitAt_of_closed (h : t.status = .closed) : (t.exitAt price time).pnl =
    (t.exitPrice - t.entryPrice) * t.quantity * (if t.direction = .buy then 1 else -1) -
      (t.entryCommission + t.exitCommission) := by
  have hopen : t.status ≠ .open := by
    rw [h]
    exact TradeStatus.noConfusion
  rw [exitAt, if_neg hopen, pnl, if_neg (not_not_intro h)]
  rfl

end Exact

theorem status_exitAt_ne_open [Zero F] (price : F) (time : TimePoint) (t : Trade F) :
    (t.exitAt price time).status ≠ .open := by
  unfold exitAt
  split
  · exact TradeStatus.noConfusion
  · assumption

end Trade

namespace TradeBook

variable {F : Type u}

/-- A default-constructed book. -/
def empty : TradeBook F := ⟨"", [], 1⟩

def addTrade (b : TradeBook F) (trade : Trade F) : TradeBook F :=
  { b with trades := b.trades ++ [{ trade with id := b.nextId }], nextId := b.nextId + 1 }

/-- The loop of `close_trade`, which ends at the trade it closes. -/
def closeIn (tradeId : UInt64) (exitPrice : F) (exitTime : TimePoint) (commission : F) :
    List (Trade F) → List (Trade F)
  | [] => []
  | t :: ts =>
    if t.id = tradeId ∧ t.status = .open then t.close exitPrice exitTime commission :: ts
    else t :: closeIn tradeId exitPrice exitTime commission ts

def closeTrade (b : TradeBook F) (tradeId : UInt64) (exitPrice : F) (exitTime : TimePoint)
    (commission : F) : TradeBook F :=
  { b with trades := closeIn tradeId exitPrice exitTime commission b.trades }

def openTrades (b : TradeBook F) : List (Trade F) := b.trades.filter (·.status = .open)

def totalPnl [Zero F] [One F] [Neg F] [Add F] [Sub F] [Mul F] (b : TradeBook F) : F :=
  b.trades.foldl (fun sum t ↦ sum + t.pnl) 0

/-- The loop over `open_trades()` that closes each of them at one price. -/
def exitOpenTrades [Zero F] (b : TradeBook F) (price : F) (time : TimePoint) : TradeBook F :=
  b.openTrades.foldl (fun b t ↦ b.closeTrade t.id price time 0) b

section Exit

variable [Zero F] {price : F} {time : TimePoint}

theorem foldl_closeIn_cons {t : Trade F} (ht : t.status ≠ .open) (ts l : List (Trade F)) :
    ts.foldl (fun l t ↦ closeIn t.id price time 0 l) (t :: l) =
      t :: ts.foldl (fun l t ↦ closeIn t.id price time 0 l) l := by
  induction ts generalizing l with
  | nil => rfl
  | cons a ts ih =>
    have hpass : closeIn a.id price time 0 (t :: l) = t :: closeIn a.id price time 0 l :=
      if_neg fun h ↦ ht h.2
    rw [foldl_cons, hpass, ih, foldl_cons]

/-- The open trades come in the order of the book, so each call of `close_trade` finds
the trade it is meant for even if a later one has the same id. -/
theorem foldl_closeIn_open (l : List (Trade F)) :
    (l.filter (·.status = .open)).foldl (fun l t ↦ closeIn t.id price time 0 l) l =
      l.map (Trade.exitAt price time) := by
  induction l with
  | nil => rfl
  | cons t l ih =>
    rw [map_cons, ← ih]
    by_cases ht : t.status = .open
    · have hfound : closeIn t.id price time 0 (t :: l) = t.close price time 0 :: l :=
        if_pos ⟨rfl, ht⟩
      have hexit : t.exitAt price time = t.close price time 0 := if_pos ht
      rw [filter_cons_of_pos (by simpa using ht), foldl_cons, hfound, hexit,
        foldl_closeIn_cons TradeStatus.noConfusion]
    · have hexit : t.exitAt price time = t := if_neg ht
      rw [filter_cons_of_neg (by simpa using ht), hexit, foldl_closeIn_cons ht]

theorem exitOpenTrades_eq (b : TradeBook F) :
    b.exitOpenTrades price time = { b with trades := b.trades.map (Trade.exitAt price time) } := by
  have hfold : ∀ (ts : List (Trade F)) (b : TradeBook F),
      ts.foldl (fun b t ↦ b.closeTrade t.id price time 0) b =
        { b with trades := ts.foldl (fun l t ↦ closeIn t.id price time 0 l) b.trades } := by
    intro ts
    induction ts with
    | nil => exact fun b ↦ rfl
    | cons t ts ih => exact fun b ↦ ih _
  rw [exitOpenTrades, hfold, openTrades, foldl_closeIn_open]

theorem openTrades_exitOpenTrades (b : TradeBook F) :
    (b.exitOpenTrades price time).openTrades = [] := by
  rw [exitOpenTrades_eq, openTrades, filter_eq_nil_iff]
  intro t ht
  obtain ⟨t, -, rfl⟩ := mem_map.mp ht
  simpa using t.status_exitAt_ne_open price time

end Exit

/-! ## Adding a trade -/

@[simp]
theorem openTrades_addTrade (b : TradeBook F) (t : Trade F) :
    (b.addTrade t).openTrades =
      b.openTrades ++ if t.status = .open then [{ t with id := b.nextId }] else [] := by
  simp only [openTrades, addTrade, filter_append, filter_cons, filter_nil,
    decide_eq_true_eq]

section Exact

variable {F : Type u} [Ring F] (b : TradeBook F) (price : F)

/-- The result of the book if its open trades were exited at a price. -/
def totalPnlAt : F := (b.trades.map fun t ↦ (t.exitAt price 0).pnl).sum

theorem totalPnl_eq_sum : b.totalPnl = (b.trades.map Trade.pnl).sum := by
  rw [totalPnl, sum_eq_foldl, foldl_map]

theorem totalPnl_exitOpenTrades (time : TimePoint) :
    (b.exitOpenTrades price time).totalPnl = b.totalPnlAt price := by
  rw [exitOpenTrades_eq, totalPnl_eq_sum, map_map, totalPnlAt]
  congr 1
  refine map_congr_left fun t _ ↦ ?_
  -- the exit time does not enter the result
  show (t.exitAt price time).pnl = (t.exitAt price 0).pnl
  unfold Trade.exitAt
  split <;> rfl

@[simp]
theorem totalPnlAt_empty : (empty : TradeBook F).totalPnlAt price = 0 := rfl

@[simp]
theorem totalPnlAt_addTrade (t : Trade F) :
    (b.addTrade t).totalPnlAt price = b.totalPnlAt price + (t.exitAt price 0).pnl := by
  have hid : (Trade.exitAt price 0 { t with id := b.nextId }).pnl = (t.exitAt price 0).pnl := by
    unfold Trade.exitAt
    dsimp only
    split <;> rfl
  simp only [totalPnlAt, addTrade, map_append, map_cons, map_nil,
    sum_append, sum_cons, sum_nil, add_zero, hid]

end Exact

end TradeBook

end Qros.Quant.Backtest
