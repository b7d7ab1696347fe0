import Qros.QuantEngine.ReplayLedger

/-!
# The reported equity of a replay

Each step of a replay keeps its books, its curve and the order of its trades (`Sound`).
After a run the position is flat and cash is the initial capital and the results of the
trades, but the final equity that is reported is this cash just when nothing is lost in
the liquidation at the end of the data.
-/

set_option linter.unusedSectionVars false

namespace Qros.QuantEngine

open List

section Exact

variable {F : Type} [Field F] [LinearOrder F] [IsStrictOrderedRing F] [Rounding F]
  [ExactRounding F]
variable {cfg : ExecutionConfig F} {h : Held} {i : Nat} {s : Execution F} {signal : Signal F}
  {price : F} {timestamp : String}

structure Sound (cfg : ExecutionConfig F) (h : Held) (i : Nat) (s : Execution F) : Prop where
  books : Books cfg h [] s
  curve : Curve cfg s
  timeline : Timeline i s

theorem sound_fresh : Sound cfg .flat 0 (Execution.fresh cfg) :=
  ⟨books_fresh, curve_fresh, timeline_fresh⟩

/-! ## Steps -/

theorem RealizedSoFar.concat {trades : List (Trade F)} {p : Position F} {t : Trade F}
    (hp : RealizedSoFar trades p) (ht : p.barIndex ≤ t.exitBarIndex) :
    RealizedSoFar (trades ++ [t]) p := by
  obtain ⟨closed, later, rfl, hpnl, hclosed, hlater⟩ := hp
  refine ⟨closed, later ++ [t], append_assoc _ _ _, hpnl, hclosed, ?_⟩
  intro t' ht'
  rcases mem_append.mp ht' with ht' | ht'
  · exact hlater t' ht'
  · rwa [mem_singleton.mp ht']

theorem Sound.processSignal (hs : Sound cfg h i s) (hsize : 0 < cfg.positionSize) :
    Sound cfg (h.on signal.side) i (s.processSignal cfg signal price i timestamp) := by
  obtain ⟨s', rfl, hb, hcurve, hsnap, hfills, htrades⟩ :=
    hs.books.processSignal_cases hsize
  have ht := hs.timeline
  refine ⟨hb, ?_, ?_, ?_, ?_, ?_⟩
  · rw [Curve, hcurve, hsnap]
    exact hs.curve
  · rcases hfills with ⟨hf, hc⟩ | ⟨f, hf, hc, hidx⟩
    · rw [hf, hc]
      exact ht.numbered
    · rw [hf, hc, map_append, ht.numbered, range_succ, map_singleton, hidx]
  · intro t hmem
    rcases htrades with heq | ⟨t', heq, hidx⟩
    · exact ht.closed t (heq ▸ hmem)
    · rw [heq] at hmem
      rcases mem_append.mp hmem with hmem | hmem
      · exact ht.closed t hmem
      · rw [mem_singleton.mp hmem, hidx]
  · rw [hsnap]
    exact ht.marked
  · rw [hsnap]
    intro p hp
    rcases htrades with heq | ⟨t', heq, hidx⟩
    · rw [heq]
      exact ht.realized p hp
    · rw [heq]
      exact (ht.realized p hp).concat (hidx ▸ ht.marked p hp)

theorem Books.equity (hb : Books cfg h [] s) (hsize : 0 < cfg.positionSize) :
    s.cash + s.positionQty * price =
      cfg.initialCapital + s.realizedPnl + s.unrealized price := by
  have hqty := hb.qty
  have hcash := hb.cash
  cases h with
  | flat =>
    have hzero : s.positionQty = 0 := by rw [hqty, Held.units, zero_mul]
    obtain ⟨-, -, hcomm⟩ := hb.flat rfl
    rw [hcash, hcomm, Execution.unrealized, hzero]
    simp
  | long =>
    have hpos : 0 < s.positionQty := by rwa [hqty, Held.units, one_mul]
    rw [hcash, Execution.unrealized]
    simp only [beq_iff_eq, hpos.ne', if_false, hpos, if_true, round10_eq]
    ring
  | short =>
    have hneg : s.positionQty < 0 := by rwa [hqty, Held.units, neg_one_mul, neg_lt_zero]
    rw [hcash, Execution.unrealized]
    simp only [beq_iff_eq, hneg.ne, if_false, hneg.le.not_gt, round10_eq, absolute, hneg, if_true]
    ring

theorem Sound.markToMarket (hs : Sound cfg h i s) (hsize : 0 < cfg.positionSize) :
    Sound cfg h i (s.markToMarket cfg price i timestamp) := by
  have ht := hs.timeline
  refine ⟨⟨hs.books.qty, hs.books.flat, hs.books.entry, hs.books.cash, hs.books.realized,
    hs.books.fills⟩, ?_, ht.numbered, ht.closed, ?_, ?_⟩
  · simp only [Curve, Execution.markToMarket, map_append, map_singleton, round10_eq]
    rw [hs.curve, hs.books.equity hsize]
  · intro p hp
    rcases mem_append.mp hp with hp | hp
    · exact ht.marked p hp
    · rw [mem_singleton.mp hp]
  · intro p hp
    rcases mem_append.mp hp with hp | hp
    · exact ht.realized p hp
    · rw [mem_singleton.mp hp]
      exact ⟨s.trades, [], (append_nil _).symm, (round10_eq _).trans hs.books.realized,
        ht.closed, fun _ h ↦ absurd h not_mem_nil⟩

theorem Sound.next (hs : Sound cfg h i s) : Sound cfg h (i + 1) s :=
  ⟨hs.books, hs.curve, hs.timeline.numbered, fun t ht ↦ (hs.timeline.closed t ht).trans (by omega),
    fun p hp ↦ (hs.timeline.marked p hp).trans (by omega), hs.timeline.realized⟩

/-! ## The loop -/

variable {σ T X : Type} [Timestamp T] {strategy : Strategy σ F T X}

variable {pending : Option (Signal F × String)} {bars : List (Item F T X)}

variable {s' : Execution F} {q q' : σ}

theorem Sound.executePending {bar : Item F T X} (hs : Sound cfg h i s)
    (hsize : 0 < cfg.positionSize) (hexec : executePending cfg pending bar i s = .ok s') :
    Sound cfg (h.onSignal (pending.map Prod.fst)) i s' := by
  unfold QuantEngine.executePending at hexec
  cases pending with
  | none =>
    obtain rfl := Except.ok.inj hexec
    exact hs
  | some p =>
    obtain ⟨price, -, hok⟩ := Lib.bind_eq_ok.mp hexec
    obtain rfl := Except.ok.inj hok
    exact hs.processSignal hsize

theorem Sound.barLoop {history : List (Item F T X)} (hs : Sound cfg h i s)
    (hsize : 0 < cfg.positionSize)
    (hloop : barLoop strategy cfg bars i history pending (q, s) = (.ok (), (q', s')))
    (hbars : bars ≠ []) :
    ∃ lastBar price, bars.getLast? = some lastBar ∧ lastBar.close = .ok price ∧
      s'.equityCurve.getLast? = some (s'.cash + s'.positionQty * price) ∧
      Sound cfg (h.after (pending.map Prod.fst :: emitted strategy bars i history q).dropLast)
        (i + bars.length - 1) s' := by
  induction bars generalizing h i history pending q s with
  | nil => exact absurd rfl hbars
  | cons bar bars ih =>
    obtain ⟨s₁, x, q₁, close, hexec, heval, hclose, hrest⟩ := barLoop_cons_ok hloop
    have hs₁ : Sound cfg (h.onSignal (pending.map Prod.fst)) i
        (s₁.markToMarket cfg close i (iso bar.timestamp)) :=
      (hs.executePending hsize hexec).markToMarket hsize
    have hemit : emitted strategy (bar :: bars) i history q =
        x :: emitted strategy bars (i + 1) (history ++ [bar]) q₁ := by
      rw [emitted, heval]
    rw [hemit, dropLast_cons_cons]
    cases bars with
    | nil =>
      obtain ⟨rfl, rfl⟩ := Prod.mk.inj (Prod.mk.inj hrest).2
      refine ⟨bar, close, rfl, hclose, ?_, hs₁⟩
      simp [Execution.markToMarket]
    | cons bar' bars =>
      obtain ⟨lastBar, price, hlast, hprice, hequity, hs'⟩ :=
        ih hs₁.next hrest (cons_ne_nil _ _)
      refine ⟨lastBar, price, by rwa [getLast?_cons_cons], hprice, hequity, ?_⟩
      have hx : (x.map fun y ↦ (y, iso bar.timestamp)).map Prod.fst = x := by
        cases x <;> rfl
      rw [hx] at hs'
      have hidx : i + 1 + (bar' :: bars).length - 1 = i + (bar :: bar' :: bars).length - 1 := by
        simp only [length_cons]
        omega
      rw [← hidx]
      exact hs'

theorem Books.positionQty_eq_zero_iff (hb : Books cfg h [] s) (hsize : 0 < cfg.positionSize) :
    s.positionQty = 0 ↔ h = .flat := by
  rw [hb.qty, mul_eq_zero, or_iff_left hsize.ne']
  cases h with
  | flat => exact iff_of_true rfl rfl
  | long => exact iff_of_false one_ne_zero nofun
  | short => exact iff_of_false (neg_ne_zero.mpr one_ne_zero) nofun

theorem Books.exit_liquidationSignal (hb : Books cfg h [] s) (hsize : 0 < cfg.positionSize)
    (hne : h ≠ .flat) (lastBar : Item F T X) :
    h.exit = some (liquidationSignal strategy s lastBar i).side := by
  have hqty := hb.qty
  cases h with
  | flat => exact absurd rfl hne
  | long =>
    have hpos : 0 < s.positionQty := by rwa [hqty, Held.units, one_mul]
    rw [liquidationSignal, if_pos hpos, Held.exit]
  | short =>
    have hneg : s.positionQty < 0 := by rwa [hqty, Held.units, neg_one_mul, neg_lt_zero]
    rw [liquidationSignal, if_neg hneg.le.not_gt, Held.exit]

/-- After the liquidation the position is flat, and cash is the worth at the last close less
the cost of closing. -/
theorem Sound.liquidate {lastBar : Item F T X} (hs : Sound cfg h i s)
    (hsize : 0 < cfg.positionSize) (hprice : lastBar.close = .ok price)
    (hliq : liquidate strategy cfg lastBar i s = .ok s') :
    Sound cfg .flat i s' ∧ s'.equityCurve = s.equityCurve ∧
      s'.cash = s.cash + s.positionQty * price - (h.exit.elim 0 (closingCost cfg price)) := by
  unfold QuantEngine.liquidate at hliq
  by_cases hflat : h = .flat
  · have hzero := (hs.books.positionQty_eq_zero_iff hsize).mpr hflat
    simp only [hzero, bne_self_eq_false, Bool.false_eq_true, if_false] at hliq
    obtain rfl := Except.ok.inj hliq
    subst hflat
    refine ⟨hs, rfl, ?_⟩
    rw [hzero, Held.exit, Option.elim_none, zero_mul, add_zero, sub_zero]
  · have hne : s.positionQty ≠ 0 := fun h ↦ hflat ((hs.books.positionQty_eq_zero_iff hsize).mp h)
    rw [if_pos (bne_iff_ne.mpr hne), hprice] at hliq
    obtain rfl := Except.ok.inj hliq
    have hexit : h.exit = some (liquidationSignal strategy s lastBar i).side :=
      hs.books.exit_liquidationSignal hsize hflat lastBar
    have hon : h.on (liquidationSignal strategy s lastBar i).side = .flat := by
      cases h <;> cases hside : (liquidationSignal strategy s lastBar i).side <;>
        simp_all [Held.exit, Held.on]
    refine ⟨hon ▸ hs.processSignal hsize, ?_, ?_⟩
    · obtain ⟨_, rfl, -, hcurve, -⟩ := hs.books.processSignal_cases hsize
      exact hcurve
    · rw [hs.books.cash_processSignal hsize hexit, hexit, Option.elim_some]

/-! ## Runs -/

/-- The accounts of a finished run, apart from the equity that it reports. -/
structure Balanced (cfg : ExecutionConfig F) (out : ReplayOutput F) (s : Execution F) : Prop where
  flat : s.positionQty = 0
  cash : s.cash = cfg.initialCapital + s.realizedPnl
  trades : s.cash = cfg.initialCapital + totalPnl out.trades
  fills : s.fills = out.trades.flatMap Trade.fills
  nodup : s.fills.Nodup
  curve : out.equityCurve =
    out.positions.map fun p ↦ cfg.initialCapital + p.realizedPnl + p.unrealizedPnl
  realized : ∀ p ∈ out.positions, RealizedSoFar out.trades p

/-- The accounts are in order, and the final equity is the cash. -/
structure Reconciled (cfg : ExecutionConfig F) (out : ReplayOutput F) (s : Execution F) : Prop
    extends Balanced cfg out s where
  finalEquity : out.executionStats.finalEquity = s.cash

/-- What the signals before the last bar leave open costs nothing to close at the last
close. -/
def EndsWithoutCost (strategy : Strategy σ F T X) (cfg : ExecutionConfig F)
    (bars : List (Item F T X)) (q : σ) : Prop :=
  ∀ lastBar ∈ bars.getLast?, ∀ price, lastBar.close = .ok price →
    (Held.flat.after (emitted strategy bars 0 [] q).dropLast).exit.elim 0
      (closingCost cfg price) = 0

theorem Timeline.nodup (ht : Timeline i s) : s.fills.Nodup := by
  refine List.Nodup.of_map (fun f ↦ f.order.signalIndex) ?_
  rw [ht.numbered]
  exact nodup_range

theorem after_none_cons {signals : List (Option (Signal F))} (hne : signals ≠ []) :
    h.after (none :: signals).dropLast = h.after signals.dropLast := by
  obtain ⟨x, xs, rfl⟩ := exists_cons_of_ne_nil hne
  rfl

theorem Sound.balanced (hs : Sound cfg .flat i s) (hsize : 0 < cfg.positionSize)
    (firstBar lastBar : Item F T X) (n : Nat) :
    Balanced cfg (outputOf strategy cfg firstBar lastBar n s) s := by
  have hflat : s.positionQty = 0 := (hs.books.positionQty_eq_zero_iff hsize).mpr rfl
  obtain ⟨hentry, -, hcomm⟩ := hs.books.flat rfl
  have hcapital : s.cash = cfg.initialCapital + s.realizedPnl := by
    rw [hs.books.cash, hflat, hcomm, zero_mul, sub_zero, sub_zero]
  exact {
    flat := hflat
    cash := hcapital
    trades := hs.books.realized ▸ hcapital
    fills := by
      show s.fills = s.trades.flatMap Trade.fills
      rw [hs.books.fills, hentry]
      simp
    nodup := hs.timeline.nodup
    curve := hs.curve
    realized := hs.timeline.realized }

/-- The accounts of a run are in order, and its final equity is the cash just when the
position costs nothing to close. -/
theorem runBars_balanced {out : ReplayOutput F} {s : Execution F} (hsize : 0 < cfg.positionSize)
    (hrun : runBars strategy cfg bars (q, .fresh cfg) = (.ok out, (q', s))) :
    Balanced cfg out s ∧
      (out.executionStats.finalEquity = s.cash ↔ EndsWithoutCost strategy cfg bars q) := by
  obtain ⟨firstBar, lastBar, s₁, hlast, hlen, hloop, hliq, rfl⟩ := runBars_ok hrun
  have hbars : bars ≠ [] := by
    rintro rfl
    cases hlast
  obtain ⟨lastBar', price, hlast', hprice, hequity, hs₁⟩ := sound_fresh.barLoop hsize hloop hbars
  obtain rfl := Option.some_inj.mp (hlast'.symm.trans hlast)
  rw [zero_add] at hs₁
  obtain ⟨hs, hcurve, hcash⟩ := hs₁.liquidate hsize hprice hliq
  refine ⟨hs.balanced hsize _ _ _, ?_⟩
  have hfinal : (s.executionStats cfg).finalEquity = s₁.cash + s₁.positionQty * price := by
    simp only [Execution.executionStats, Execution.finalEquity, hcurve, hequity, Option.getD_some,
      round10_eq]
  have hheld : Held.flat.after ((none : Option (Signal F)) :: emitted strategy bars 0 [] q).dropLast =
      Held.flat.after (emitted strategy bars 0 [] q).dropLast := by
    refine after_none_cons ?_
    cases bars with
    | nil => exact absurd rfl hbars
    | cons bar bars =>
      obtain ⟨_, x, q₁, _, -, heval, -⟩ := barLoop_cons_ok hloop
      rw [emitted, heval]
      exact cons_ne_nil _ _
  have hends : EndsWithoutCost strategy cfg bars q ↔
      (Held.flat.after (emitted strategy bars 0 [] q).dropLast).exit.elim 0
        (closingCost cfg price) = 0 := by
    constructor
    · intro h
      exact h lastBar' hlast price hprice
    · rintro h bar hbar x hx
      obtain rfl := Option.some_inj.mp (hbar.symm.trans hlast)
      obtain rfl := Except.ok.inj (hx.symm.trans hprice)
      exact h
  show (s.executionStats cfg).finalEquity = s.cash ↔ _
  rw [hends, hfinal, hcash, ← hheld]
  constructor
  · intro h
    exact sub_eq_self.mp h.symm
  · intro h
    exact (sub_eq_self.mpr h).symm

theorem runBars_reconciled_iff {out : ReplayOutput F} {s : Execution F}
    (hsize : 0 < cfg.positionSize)
    (hrun : runBars strategy cfg bars (q, .fresh cfg) = (.ok out, (q', s))) :
    Reconciled cfg out s ↔ EndsWithoutCost strategy cfg bars q := by
  obtain ⟨hbal, hiff⟩ := runBars_balanced hsize hrun
  constructor
  · intro h
    exact hiff.mp h.finalEquity
  · intro h
    exact ⟨hbal, hiff.mpr h⟩

theorem barLoop_returns {bars history : List (Item F T X)} {state : σ × Execution F}
    (hclose : ∀ bar ∈ bars, ∃ x, bar.close = .ok x)
    (hstrategy : ∀ q bar history i, ∃ signal, (strategy.evaluate q bar history i).1 = .ok signal) :
    ∃ state', barLoop strategy cfg bars i history pending state = (.ok (), state') := by
  induction bars generalizing i history pending state with
  | nil => exact ⟨state, rfl⟩
  | cons bar bars ih =>
    obtain ⟨q, s⟩ := state
    obtain ⟨close, hbar⟩ := hclose bar mem_cons_self
    have hexec : ∃ s', executePending cfg pending bar i s = .ok s' := by
      have hopen : ∃ x, bar.openOrClose = .ok x := by
        unfold Item.openOrClose
        split
        · exact ⟨close, hbar⟩
        · split
          · exact ⟨close, hbar⟩
          · exact ⟨_, rfl⟩
      obtain ⟨x, hx⟩ := hopen
      cases pending with
      | none => exact ⟨s, rfl⟩
      | some p => exact ⟨_, by rw [executePending, hx]; rfl⟩
    obtain ⟨s', hs'⟩ := hexec
    obtain ⟨signal, hsignal⟩ := hstrategy q bar history i
    obtain ⟨q', heval⟩ : ∃ q', strategy.evaluate q bar history i = (.ok signal, q') :=
      ⟨_, Prod.ext hsignal rfl⟩
    rw [barLoop, hs']
    simp only [heval, hbar]
    exact ih fun b hb ↦ hclose b (mem_cons_of_mem _ hb)

theorem runBars_returns {bars : List (Item F T X)} {state : σ × Execution F}
    (hlen : 2 ≤ bars.length) (hclose : ∀ bar ∈ bars, ∃ x, bar.close = .ok x)
    (hstrategy : ∀ q bar history i, ∃ signal, (strategy.evaluate q bar history i).1 = .ok signal) :
    ∃ out state', runBars strategy cfg bars state = (.ok out, state') := by
  obtain ⟨⟨q, s⟩, hloop⟩ : ∃ state', barLoop strategy cfg bars 0 [] none state = (.ok (), state') :=
    barLoop_returns hclose hstrategy
  have hne : bars ≠ [] := by
    rintro rfl
    exact absurd hlen (Nat.not_succ_le_zero 1)
  obtain ⟨close, hlast⟩ := hclose _ (getLast_mem hne)
  obtain ⟨s', hliq⟩ : ∃ s', QuantEngine.liquidate strategy cfg (bars.getLast hne)
      (bars.length - 1) s = .ok s' := by
    unfold QuantEngine.liquidate
    split
    · exact ⟨_, by rw [hlast]; rfl⟩
    · exact ⟨s, rfl⟩
  refine ⟨outputOf strategy cfg (bars.head hne) (bars.getLast hne) bars.length s', (q, s'), ?_⟩
  simp only [runBars, head?_eq_some_head hne, getLast?_eq_some_getLast hne, hloop, hliq,
    if_neg (not_lt.mpr hlen)]

/-- **The books of a run.**  The accounts of a run that returns are in order just when the
strategy's signals leave nothing open at the end of the data that it costs anything to
close. -/
theorem run_reconciled_iff {asOf : Option T} {dataset : Dataset F T X} {q q' : σ}
    {out : ReplayOutput F} {s : Execution F} (hsize : 0 < cfg.positionSize)
    (hrun : run strategy cfg asOf dataset (q, .fresh cfg) = (.ok out, (q', s))) :
    Reconciled cfg out s ↔
      ∀ bars, extractBars asOf dataset = .ok bars →
        EndsWithoutCost strategy cfg bars (strategy.reset q) := by
  unfold run at hrun
  dsimp only at hrun
  cases hbars : extractBars asOf dataset with
  | error e => simp [hbars] at hrun
  | ok bars =>
    simp only [hbars] at hrun
    rw [runBars_reconciled_iff hsize hrun]
    constructor
    · rintro h _ hok
      obtain rfl := Except.ok.inj hok
      exact h
    · intro h
      exact h bars rfl

end Exact

/-! ## Buying and holding -/

def buyAndHold (F T X : Type) [One F] [Timestamp T] : Strategy Unit F T X where
  identifier := "buy_and_hold"
  version := "1.0.0"
  evaluate q bar _ i :=
    if i = 0 then
      (.ok (some
        { barIndex := 0
          timestamp := iso bar.timestamp
          side := .buy
          confidence := 1
          metadata :=
            [("strategy", .str "buy_and_hold"), ("reason", .str "buy_and_hold_entry")] }), q)
    else (.ok none, q)
  reset q := q

def freeOfCost : ExecutionConfig ℚ where
  initialCapital := 1000
  commissionSpec := some "fixed:0.0"
  slippageSpec := some "fixed:0.0"
  symbol := "XAUUSD"
  positionSize := 1
  commissionKind := .fixed
  commissionValue := 0
  slippageKind := .fixed
  slippageValue := 0

def withCommission : ExecutionConfig ℚ :=
  { freeOfCost with commissionSpec := some "fixed:10.0", commissionValue := 10 }

def twoBars : Dataset ℚ Int Unit :=
  .list [.replayBar 150 (some 1767225600) (some 100), .replayBar 250 (some 1767312000) (some 200)]

/-- The final equity is the cash, of a run that returns. -/
def equityIsCash (r : Except String (ReplayOutput ℚ) × (Unit × Execution ℚ)) : Option Bool :=
  match r with
  | (.ok out, (_, s)) => some (decide (out.executionStats.finalEquity = s.cash))
  | (.error _, _) => none

/-- Held to the end without costs, the position is worth its price. -/
theorem buyAndHold_reconciled :
    ∃ out q s, run (buyAndHold ℚ Int Unit) freeOfCost none twoBars ((), .fresh freeOfCost) =
      (.ok out, (q, s)) ∧ Reconciled freeOfCost out s := by
  have hcash : equityIsCash
      (run (buyAndHold ℚ Int Unit) freeOfCost none twoBars ((), .fresh freeOfCost)) =
        some true := by decide +kernel
  rcases hrun : run (buyAndHold ℚ Int Unit) freeOfCost none twoBars ((), .fresh freeOfCost)
    with ⟨e | out, q, s⟩
  · rw [hrun] at hcash
    cases hcash
  · refine ⟨out, q, s, rfl, (run_reconciled_iff (by decide) hrun).mpr ?_⟩
    intro bars hbars
    obtain rfl := Except.ok.inj hbars
    intro lastBar hlast price hprice
    obtain rfl := Option.some_inj.mp hlast
    obtain rfl := Except.ok.inj hprice
    decide +kernel

/-- A commission on the liquidation is missing in the final equity. -/
theorem commission_not_reconciled :
    ∃ out q s, run (buyAndHold ℚ Int Unit) withCommission none twoBars
      ((), .fresh withCommission) = (.ok out, (q, s)) ∧ ¬ Reconciled withCommission out s := by
  have hcash : equityIsCash
      (run (buyAndHold ℚ Int Unit) withCommission none twoBars ((), .fresh withCommission)) =
        some false := by decide +kernel
  rcases hrun : run (buyAndHold ℚ Int Unit) withCommission none twoBars
    ((), .fresh withCommission) with ⟨e | out, q, s⟩
  · rw [hrun] at hcash
    cases hcash
  · refine ⟨out, q, s, rfl, fun h ↦ ?_⟩
    rw [hrun] at hcash
    exact of_decide_eq_false (Option.some_inj.mp hcash) h.finalEquity

end Qros.QuantEngine
