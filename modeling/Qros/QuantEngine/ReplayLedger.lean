import Mathlib.Data.List.DropRight
import Qros.QuantEngine.Replay

/-!
# The books of a replay

With exact numbers, cash is at all times the initial capital and the realized result less
what the open position cost (`Books`).  The last point of the equity curve is marked
before the liquidation at the end of the data, which is why the reported final equity is
the cash only of runs that end flat or are liquidated without cost (`EndsWithoutCost`).
-/

set_option linter.unusedSectionVars false

namespace Qros.QuantEngine

/-! ## Which way the position is held -/

inductive Held where
  | flat
  | long
  | short
deriving DecidableEq

namespace Held

/-- A signal opens a position, closes the opposite one or changes nothing. -/
def on : Held → OrderSide → Held
  | .flat, .buy => .long
  | .flat, .sell => .short
  | .long, .buy => .long
  | .long, .sell => .flat
  | .short, .buy => .flat
  | .short, .sell => .short

def units {F : Type} [Zero F] [One F] [Neg F] : Held → F
  | .flat => 0
  | .long => 1
  | .short => -1

/-- The side that closes the position. -/
def exit : Held → Option OrderSide
  | .flat => none
  | .long => some .sell
  | .short => some .buy

def onSignal {F : Type} (h : Held) (signal : Option (Signal F)) : Held :=
  match signal with
  | none => h
  | some x => h.on x.side

def after {F : Type} (h : Held) (signals : List (Option (Signal F))) : Held :=
  signals.foldl onSignal h

end Held

/-- The signals that a strategy emits on bars, as long as it raises nothing. -/
def emitted {σ F T X : Type} (strategy : Strategy σ F T X) :
    List (Item F T X) → Nat → List (Item F T X) → σ → List (Option (Signal F))
  | [], _, _, _ => []
  | bar :: bars, i, history, q =>
    match strategy.evaluate q bar history i with
    | (.error _, _) => []
    | (.ok signal, q) => signal :: emitted strategy bars (i + 1) (history ++ [bar]) q

section Exact

variable {F : Type} [Field F] [LinearOrder F] [Rounding F]

def Trade.fills (t : Trade F) : List (OrderFill F) := [t.entryFill, t.exitFill]

def totalPnl (trades : List (Trade F)) : F := (trades.map Trade.pnl).sum

/-- What it costs to close a position of the given size at a price. -/
def closingCost (cfg : ExecutionConfig F) (price : F) (side : OrderSide) : F :=
  slippageOffset cfg price * cfg.positionSize +
    commissionFor cfg (fillPrice cfg price side) cfg.positionSize

variable (cfg : ExecutionConfig F)

/-- The books of a layer that holds `h`, where `extra` are fills that are not applied yet. -/
structure Books (h : Held) (extra : List (OrderFill F)) (s : Execution F) : Prop where
  qty : s.positionQty = h.units * cfg.positionSize
  flat : h = .flat → s.entryFill = none ∧ s.entryPrice = 0 ∧ s.entryCommission = 0
  entry : h ≠ .flat →
    ∃ f, s.entryFill = some f ∧ f.fillPrice = s.entryPrice ∧ f.commission = s.entryCommission
  cash : s.cash =
    cfg.initialCapital + s.realizedPnl - s.positionQty * s.entryPrice - s.entryCommission
  realized : s.realizedPnl = totalPnl s.trades
  fills : s.fills = s.trades.flatMap Trade.fills ++ s.entryFill.toList ++ extra

/-- A point of the curve is what the snapshot of its bar says. -/
def Curve (s : Execution F) : Prop :=
  s.equityCurve =
    s.positionSnapshots.map fun p ↦ cfg.initialCapital + p.realizedPnl + p.unrealizedPnl

/-- A snapshot has the realized result of the trades closed until then. -/
def RealizedSoFar (trades : List (Trade F)) (p : Position F) : Prop :=
  ∃ closed later, trades = closed ++ later ∧ p.realizedPnl = totalPnl closed ∧
    (∀ t ∈ closed, t.exitBarIndex ≤ p.barIndex) ∧ ∀ t ∈ later, p.barIndex ≤ t.exitBarIndex

structure Timeline (i : Nat) (s : Execution F) : Prop where
  numbered : s.fills.map (fun f ↦ f.order.signalIndex) = List.range s.signalCounter
  closed : ∀ t ∈ s.trades, t.exitBarIndex ≤ i
  marked : ∀ p ∈ s.positionSnapshots, p.barIndex ≤ i
  realized : ∀ p ∈ s.positionSnapshots, RealizedSoFar s.trades p

variable {cfg} {h : Held} {s : Execution F}

theorem books_fresh : Books cfg .flat [] (Execution.fresh cfg) where
  qty := by simp [Execution.fresh, Held.units]
  flat _ := ⟨rfl, rfl, rfl⟩
  entry h := absurd rfl h
  cash := by simp [Execution.fresh]
  realized := rfl
  fills := rfl

theorem curve_fresh : Curve cfg (Execution.fresh cfg) := rfl

theorem timeline_fresh : Timeline 0 (Execution.fresh cfg) where
  numbered := rfl
  closed _ h := absurd h List.not_mem_nil
  marked _ h := absurd h List.not_mem_nil
  realized _ h := absurd h List.not_mem_nil

theorem totalPnl_concat (trades : List (Trade F)) (t : Trade F) :
    totalPnl (trades ++ [t]) = totalPnl trades + t.pnl := by
  simp [totalPnl]

/-! ## One fill -/

variable [IsStrictOrderedRing F] [ExactRounding F] {f : OrderFill F}

theorem Execution.applyFill_opens (hqty : s.positionQty = 0) :
    s.applyFill f =
      { s with
        cash :=
          if f.order.side = .buy then s.cash - (f.fillPrice * f.fillQuantity + f.commission)
          else s.cash + (f.fillPrice * f.fillQuantity - f.commission)
        positionQty := if f.order.side = .buy then f.fillQuantity else -f.fillQuantity
        entryPrice := f.fillPrice
        entryCommission := f.commission
        entryBarIndex := some f.barIndex
        entryFill := some f } := by
  cases hside : f.order.side <;> simp [applyFill, hside, hqty, setEntry]

theorem Execution.applyFill_closes {entry : OrderFill F} (hentry : s.entryFill = some entry)
    (hside : (f.order.side = .sell ∧ 0 < s.positionQty ∧ s.positionQty = f.fillQuantity) ∨
      (f.order.side = .buy ∧ s.positionQty < 0 ∧ s.positionQty = -f.fillQuantity)) :
    s.applyFill f =
      { s with
        cash := s.cash + s.positionQty * f.fillPrice - f.commission
        positionQty := 0
        trades := s.trades ++
          [tradeOf s.entryPrice entry f f.fillQuantity (decide (f.order.side = .buy))]
        realizedPnl := s.realizedPnl +
          (tradeOf s.entryPrice entry f f.fillQuantity (decide (f.order.side = .buy))).pnl
        entryPrice := 0
        entryCommission := 0
        entryBarIndex := none
        entryFill := none } := by
  rcases hside with ⟨hside, hpos, hqty⟩ | ⟨hside, hneg, hqty⟩
  · have hcash : s.cash + (f.fillPrice * f.fillQuantity - f.commission) =
        s.cash + s.positionQty * f.fillPrice - f.commission := by rw [hqty]; ring
    have hsize : 0 < f.fillQuantity := hqty ▸ hpos
    simp [applyFill, hside, recordTradeClose, hentry, hcash, hqty, hsize]
  · have hcash : s.cash - (f.fillPrice * f.fillQuantity + f.commission) =
        s.cash + s.positionQty * f.fillPrice - f.commission := by rw [hqty]; ring
    have hsize : 0 < f.fillQuantity := by rwa [hqty, neg_lt_zero] at hneg
    simp [applyFill, hside, recordTradeClose, hentry, hcash, hqty, hsize]

theorem pnl_tradeOf (entryPrice : F) (entry : OrderFill F) (closingShort : Bool) :
    (Execution.tradeOf entryPrice entry f f.fillQuantity closingShort).pnl =
      (if closingShort = true then -f.fillQuantity else f.fillQuantity) *
        (f.fillPrice - entryPrice) - entry.commission - f.commission := by
  cases closingShort with
  | true =>
    simp only [Execution.tradeOf, round10_eq, if_true]
    ring
  | false =>
    simp only [Execution.tradeOf, round10_eq, Bool.false_eq_true, if_false]
    ring

theorem Books.opens (hb : Books cfg .flat [f] s) (hq : f.fillQuantity = cfg.positionSize) :
    Books cfg (Held.flat.on f.order.side) [] (s.applyFill f) := by
  have hqty : s.positionQty = 0 := by rw [hb.qty, Held.units, zero_mul]
  obtain ⟨hnone, hprice, hcomm⟩ := hb.flat rfl
  have hcash := hb.cash
  rw [hqty, hcomm] at hcash
  have hfills := hb.fills
  rw [hnone] at hfills
  rw [Execution.applyFill_opens hqty]
  cases hside : f.order.side with
  | buy =>
    exact {
      qty := by simp [Held.on, Held.units, hq]
      flat := nofun
      entry := fun _ ↦ ⟨f, rfl, rfl, rfl⟩
      cash := by
        simp only [if_true, hcash]
        ring
      realized := hb.realized
      fills := by simpa using hfills }
  | sell =>
    exact {
      qty := by simp [Held.on, Held.units, hq]
      flat := nofun
      entry := fun _ ↦ ⟨f, rfl, rfl, rfl⟩
      cash := by
        simp only [reduceCtorEq, if_false, hcash]
        ring
      realized := hb.realized
      fills := by simpa using hfills }

theorem Books.closes (hb : Books cfg h [f] s) (hsize : 0 < cfg.positionSize)
    (hq : f.fillQuantity = cfg.positionSize) (hexit : h.exit = some f.order.side) :
    ∃ t, t.exitBarIndex = f.barIndex ∧ (s.applyFill f).trades = s.trades ++ [t] ∧
      (s.applyFill f).cash = s.cash + s.positionQty * f.fillPrice - f.commission ∧
      Books cfg .flat [] (s.applyFill f) := by
  have hne : h ≠ .flat := by
    rintro rfl
    exact absurd hexit nofun
  obtain ⟨entry, hentry, hprice, hcomm⟩ := hb.entry hne
  have hside : (f.order.side = .sell ∧ 0 < s.positionQty ∧ s.positionQty = f.fillQuantity) ∨
      (f.order.side = .buy ∧ s.positionQty < 0 ∧ s.positionQty = -f.fillQuantity) := by
    cases h with
    | flat => exact absurd rfl hne
    | long =>
      have hqty : s.positionQty = f.fillQuantity := by rw [hb.qty, Held.units, one_mul, hq]
      exact .inl ⟨(Option.some_inj.mp hexit).symm, by rwa [hqty, hq], hqty⟩
    | short =>
      have hqty : s.positionQty = -f.fillQuantity := by rw [hb.qty, Held.units, neg_one_mul, hq]
      refine .inr ⟨(Option.some_inj.mp hexit).symm, ?_, hqty⟩
      rwa [hqty, hq, neg_lt_zero]
  have hunits : s.positionQty =
      if decide (f.order.side = .buy) = true then -f.fillQuantity else f.fillQuantity := by
    rcases hside with ⟨hside, -, hqty⟩ | ⟨hside, -, hqty⟩
    · simp [hside, hqty]
    · simp [hside, hqty]
  have hfills := hb.fills
  rw [hentry] at hfills
  rw [Execution.applyFill_closes hentry hside]
  refine ⟨_, rfl, rfl, rfl, ?_⟩
  exact {
    qty := by simp [Held.units]
    flat := fun _ ↦ ⟨rfl, rfl, rfl⟩
    entry := fun h ↦ absurd rfl h
    cash := by
      show s.cash + s.positionQty * f.fillPrice - f.commission = _
      dsimp only
      rw [pnl_tradeOf, ← hunits, hb.cash, hcomm]
      ring
    realized := by
      dsimp only
      rw [hb.realized, totalPnl_concat]
    fills := by simpa [Trade.fills, Execution.tradeOf] using hfills }

/-! ## One signal -/

variable {signal : Signal F} {price : F} {i : Nat} {timestamp : String}

/-- `f` is the fill of a signal at bar `i`, entered in the books but not applied. -/
structure Placed (cfg : ExecutionConfig F) (s : Execution F) (d : OrderSide) (x : F)
    (i : Nat) (f : OrderFill F) (s' : Execution F) : Prop where
  side : f.order.side = d
  quantity : f.fillQuantity = cfg.positionSize
  barIndex : f.barIndex = i
  signalIndex : f.order.signalIndex = s.signalCounter
  price : f.fillPrice = fillPrice cfg x d
  commission : f.commission = commissionFor cfg (fillPrice cfg x d) cfg.positionSize
  fills : s'.fills = s.fills ++ [f]
  signalCounter : s'.signalCounter = s.signalCounter + 1
  cash : s'.cash = s.cash
  positionQty : s'.positionQty = s.positionQty
  entryPrice : s'.entryPrice = s.entryPrice
  entryCommission : s'.entryCommission = s.entryCommission
  entryFill : s'.entryFill = s.entryFill
  realizedPnl : s'.realizedPnl = s.realizedPnl
  trades : s'.trades = s.trades
  equityCurve : s'.equityCurve = s.equityCurve
  positionSnapshots : s'.positionSnapshots = s.positionSnapshots

theorem Placed.books {side : OrderSide} {s' : Execution F} (hp : Placed cfg s side price i f s')
    (hb : Books cfg h [] s) : Books cfg h [f] s' where
  qty := hp.positionQty ▸ hb.qty
  flat := by
    rw [hp.entryFill, hp.entryPrice, hp.entryCommission]
    exact hb.flat
  entry := by
    rw [hp.entryFill, hp.entryPrice, hp.entryCommission]
    exact hb.entry
  cash := by
    rw [hp.cash, hp.realizedPnl, hp.positionQty, hp.entryPrice, hp.entryCommission]
    exact hb.cash
  realized := by
    rw [hp.realizedPnl, hp.trades]
    exact hb.realized
  fills := by rw [hp.fills, hp.trades, hp.entryFill, hb.fills, List.append_nil]

theorem Books.redundant_iff (hb : Books cfg h [] s) (hsize : 0 < cfg.positionSize)
    (side : OrderSide) : s.Redundant side ↔ h.on side = h := by
  have hqty := hb.qty
  cases h <;> cases side <;>
    simp [Execution.Redundant, hqty, Held.units, Held.on, hsize, hsize.le]

theorem Books.quantity_eq (hb : Books cfg h [] s) (hsize : 0 < cfg.positionSize)
    (side : OrderSide) (hmove : h.on side ≠ h) : s.quantity cfg side = cfg.positionSize := by
  have hqty := hb.qty
  cases h <;> cases side <;>
    simp_all [Execution.quantity, Held.units, Held.on, absolute, hsize.le, not_lt]

theorem Execution.processSignal_redundant (hred : s.Redundant signal.side) :
    s.processSignal cfg signal price i timestamp = { s with signals := s.signals ++ [signal] } :=
  if_pos hred

theorem Books.processSignal_placed (hb : Books cfg h [] s) (hsize : 0 < cfg.positionSize)
    (hmove : h.on signal.side ≠ h) :
    ∃ f s', Placed cfg s signal.side price i f s' ∧
      s.processSignal cfg signal price i timestamp = s'.applyFill f := by
  have hred : ¬ s.Redundant signal.side := fun hr ↦ hmove ((hb.redundant_iff hsize _).mp hr)
  have hq := hb.quantity_eq hsize signal.side hmove
  refine ⟨_, _, ?_, if_neg hred⟩
  constructor <;> first | rfl | exact hq | exact congrArg (commissionFor cfg _) hq

theorem Held.exit_of_on_ne {d : OrderSide} (hne : h ≠ .flat) (hmove : h.on d ≠ h) :
    h.exit = some d ∧ h.on d = .flat := by
  cases h <;> cases d <;> simp_all [Held.exit, Held.on]

theorem Books.processSignal_cases (hb : Books cfg h [] s) (hsize : 0 < cfg.positionSize) :
    ∃ s', s' = s.processSignal cfg signal price i timestamp ∧
      Books cfg (h.on signal.side) [] s' ∧ s'.equityCurve = s.equityCurve ∧
      s'.positionSnapshots = s.positionSnapshots ∧
      (s'.fills = s.fills ∧ s'.signalCounter = s.signalCounter ∨
        ∃ f, s'.fills = s.fills ++ [f] ∧ s'.signalCounter = s.signalCounter + 1 ∧
          f.order.signalIndex = s.signalCounter) ∧
      (s'.trades = s.trades ∨ ∃ t, s'.trades = s.trades ++ [t] ∧ t.exitBarIndex = i) := by
  refine ⟨_, rfl, ?_⟩
  by_cases hmove : h.on signal.side = h
  · rw [Execution.processSignal_redundant ((hb.redundant_iff hsize _).mpr hmove), hmove]
    exact ⟨⟨hb.qty, hb.flat, hb.entry, hb.cash, hb.realized, hb.fills⟩, rfl, rfl,
      .inl ⟨rfl, rfl⟩, .inl rfl⟩
  · obtain ⟨f, s', hp, heq⟩ : ∃ f s', Placed cfg s signal.side price i f s' ∧
        s.processSignal cfg signal price i timestamp = s'.applyFill f :=
      hb.processSignal_placed hsize hmove
    have hb' := hp.books hb
    rw [heq, ← hp.side]
    rw [← hp.side] at hmove
    rw [Execution.applyFill_equityCurve, Execution.applyFill_positionSnapshots,
      Execution.applyFill_fills, Execution.applyFill_signalCounter, hp.equityCurve,
      hp.positionSnapshots, hp.fills, hp.signalCounter, ← hp.trades]
    by_cases hflat : h = .flat
    · subst hflat
      refine ⟨hb'.opens hp.quantity, rfl, rfl, .inr ⟨f, rfl, rfl, hp.signalIndex⟩, .inl ?_⟩
      rw [Execution.applyFill_opens (by rw [hb'.qty, Held.units, zero_mul])]
    · obtain ⟨hexit, hon⟩ := Held.exit_of_on_ne hflat hmove
      obtain ⟨t, hidx, htrades, -, hclosed⟩ := hb'.closes hsize hp.quantity hexit
      rw [hon]
      exact ⟨hclosed, rfl, rfl, .inr ⟨f, rfl, rfl, hp.signalIndex⟩,
        .inr ⟨t, htrades, hidx.trans hp.barIndex⟩⟩

theorem Books.cash_processSignal (hb : Books cfg h [] s) (hsize : 0 < cfg.positionSize)
    (hexit : h.exit = some signal.side) :
    (s.processSignal cfg signal price i timestamp).cash =
      s.cash + s.positionQty * price - closingCost cfg price signal.side := by
  have hne : h ≠ .flat := by
    rintro rfl
    exact absurd hexit nofun
  have hmove : h.on signal.side ≠ h := by
    cases h <;> cases hside : signal.side <;> simp_all [Held.exit, Held.on]
  obtain ⟨f, s', hp, heq⟩ : ∃ f s', Placed cfg s signal.side price i f s' ∧
      s.processSignal cfg signal price i timestamp = s'.applyFill f :=
    hb.processSignal_placed hsize hmove
  obtain ⟨-, -, -, hcash, -⟩ := (hp.books hb).closes hsize hp.quantity (hp.side ▸ hexit)
  rw [heq, hcash, hp.cash, hp.positionQty, hp.price, hp.commission, closingCost, hb.qty]
  cases h with
  | flat => exact absurd rfl hne
  | long =>
    rw [← Option.some_inj.mp hexit]
    simp only [Held.units, fillPrice, round10_eq]
    ring
  | short =>
    rw [← Option.some_inj.mp hexit]
    simp only [Held.units, fillPrice, round10_eq]
    ring

end Exact

end Qros.QuantEngine
