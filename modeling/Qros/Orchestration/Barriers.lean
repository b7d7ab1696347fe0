import Qros.Orchestration.GridStatistics
import Qros.Orchestration.VectorizedBacktest

/-!
# The barriers of the vectorised backtester

`_apply_barrier_step` and the loop of `run_grid` around it, which carry all trades of one
parameter set from bar to bar, and the walk of a single trade.  Of the four price arrays,
which have one length, `data` is the list of bars.
-/

namespace Qros.Orchestration

open List

structure OhlcBar (F : Type) where
  openPrice : F
  high : F
  low : F
  close : F
deriving DecidableEq

/-- Why a trade ends. -/
inductive ExitReason where
  | stop
  | take
  | horizon
deriving DecidableEq

structure TradeExit (F : Type) where
  index : Nat
  price : F
  reason : ExitReason
deriving DecidableEq

/-! ## Masked arrays -/

section

variable {α : Type}

def gather (xs : List α) (ids : List Nat) : Except ArrayError (List α) :=
  ids.mapM fun i ↦ match xs[i]? with
    | some x => .ok x
    | none => .error .indexError

def npWhere (mask : List Bool) (xs ys : List α) : List α :=
  List.zipWith (fun f y ↦ f y) (List.zipWith (fun m x y ↦ if m then x else y) mask xs) ys

def maskAnd (xs ys : List Bool) : List Bool := List.zipWith (· && ·) xs ys

def maskOr (xs ys : List Bool) : List Bool := List.zipWith (· || ·) xs ys

theorem getElem?_zipWith_some {β γ : Type} {f : α → β → γ} {xs : List α} {ys : List β} {p : Nat}
    {x : α} {y : β} (hx : xs[p]? = some x) (hy : ys[p]? = some y) :
    (List.zipWith f xs ys)[p]? = some (f x y) := by
  rw [getElem?_zipWith, hx, hy]

theorem getElem?_npWhere {mask : List Bool} {xs ys : List α} {p : Nat} {m : Bool} {x y : α}
    (hm : mask[p]? = some m) (hx : xs[p]? = some x) (hy : ys[p]? = some y) :
    (npWhere mask xs ys)[p]? = some (if m then x else y) :=
  getElem?_zipWith_some (getElem?_zipWith_some hm hx) hy

theorem gather_ok (xs : List α) (ids : List Nat) (h : ∀ i ∈ ids, i < xs.length) :
    ∃ ys, gather xs ids = .ok ys ∧ ∀ p : Nat, ys[p]? = ids[p]?.bind fun i ↦ xs[i]? := by
  induction ids with
  | nil => exact ⟨[], rfl, fun p ↦ rfl⟩
  | cons i ids ih =>
    obtain ⟨ys, hys, hget⟩ := ih fun i hi ↦ h i (mem_cons_of_mem _ hi)
    obtain ⟨x, hi⟩ : ∃ x, xs[i]? = some x :=
      ⟨_, getElem?_eq_getElem (h i mem_cons_self)⟩
    refine ⟨x :: ys, ?_, fun p ↦ ?_⟩
    · rw [gather, mapM_cons, hi]
      rw [gather] at hys
      rw [hys]
      rfl
    · cases p with
      | zero => exact hi.symm
      | succ p => exact hget p

end

variable {F : Type} [Zero F] [LE F] [LT F] [DecidableLE F] [DecidableLT F]

/-! ## All trades at once -/

/-- The arrays of `run_grid` that stay as they are, with one entry for each trade. -/
structure Barriers (F : Type) where
  direction : List F
  stopPrice : List F
  takePrice : List F

/-- The arrays that a step writes to. -/
structure BarrierState (F : Type) where
  alive : List Bool
  exitPrice : List F

structure BarrierMasks where
  stop : List Bool
  take : List Bool
  stopGap : List Bool

def barrierMasks (openPrice high low : List F) (b : Barriers F) (alive : List Bool) :
    BarrierMasks :=
  let long := b.direction.map fun d ↦ decide (d > 0)
  let stop := maskAnd alive (npWhere long
    (List.zipWith (fun x y ↦ decide (x ≤ y)) low b.stopPrice)
    (List.zipWith (fun x y ↦ decide (x ≥ y)) high b.stopPrice))
  let take := maskAnd (maskAnd alive (stop.map not)) (npWhere long
    (List.zipWith (fun x y ↦ decide (x ≥ y)) high b.takePrice)
    (List.zipWith (fun x y ↦ decide (x ≤ y)) low b.takePrice))
  let stopGap := maskAnd stop (npWhere long
    (List.zipWith (fun x y ↦ decide (x < y)) openPrice b.stopPrice)
    (List.zipWith (fun x y ↦ decide (x > y)) openPrice b.stopPrice))
  { stop, take, stopGap }

def BarrierMasks.apply (m : BarrierMasks) (openPrice : List F) (b : Barriers F)
    (s : BarrierState F) : BarrierState F :=
  let exitPrice := npWhere m.stop b.stopPrice s.exitPrice
  let exitPrice := npWhere m.stopGap openPrice exitPrice
  let exitPrice := npWhere m.take b.takePrice exitPrice
  { alive := maskAnd s.alive ((maskOr m.stop m.take).map not), exitPrice }

/-- The loop of `run_grid` over `steps`, with the masks that its steps form. -/
def barrierLoop (data : List (OhlcBar F)) (entryIx : List Nat) (b : Barriers F) :
    List Nat → BarrierState F → Except ArrayError (List BarrierMasks × BarrierState F)
  | [], s => .ok ([], s)
  | step :: steps, s => do
      let j := entryIx.map (· + step)
      let openPrice ← gather (data.map OhlcBar.openPrice) j
      let high ← gather (data.map OhlcBar.high) j
      let low ← gather (data.map OhlcBar.low) j
      let masks := barrierMasks openPrice high low b s.alive
      let (rest, s) ← barrierLoop data entryIx b steps (masks.apply openPrice b s)
      return (masks :: rest, s)

/-- The first of the steps at which trade `p` ends, and why. -/
def endedAt (p : Nat) : List BarrierMasks → Option (Nat × ExitReason)
  | [] => none
  | m :: rest =>
    if m.stop.getD p false then some (0, .stop)
    else if m.take.getD p false then some (0, .take)
    else (endedAt p rest).map fun e ↦ (e.1 + 1, e.2)

/-! ## One trade -/

structure BarrierTrade (F : Type) where
  direction : F
  stop : F
  take : F

namespace BarrierTrade

variable (t : BarrierTrade F) (bar : OhlcBar F)

/-- The bar reaches the stop. -/
def hitsStop : Bool :=
  if t.direction > 0 then decide (bar.low ≤ t.stop) else decide (bar.high ≥ t.stop)

/-- The bar opens beyond the stop. -/
def gapsStop : Bool :=
  if t.direction > 0 then decide (bar.openPrice < t.stop) else decide (bar.openPrice > t.stop)

/-- The bar reaches the target. -/
def hitsTake : Bool :=
  if t.direction > 0 then decide (bar.high ≥ t.take) else decide (bar.low ≤ t.take)

/-- What one bar does to an open trade: the stop comes before the target, and is filled at the
open by a gap. -/
def touch : Option (ExitReason × F) :=
  if t.hitsStop bar then some (.stop, if t.gapsStop bar then bar.openPrice else t.stop)
  else if t.hitsTake bar then some (.take, t.take)
  else none

/-- The walk over the bars that a trade may be open for, from bar number `index` on. -/
def walk : List (OhlcBar F) → Nat → Option (TradeExit F)
  | [], _ => none
  | bar :: bars, index =>
    match t.touch bar with
    | some (reason, price) => some { index, price, reason }
    | none =>
      if bars.isEmpty then some { index, price := bar.close, reason := .horizon }
      else walk bars (index + 1)

end BarrierTrade

/-! ## The whole run -/

section

variable [Add F] [Sub F] [Mul F]

/-- From the entries of the trades to the end of the loop. -/
def runBarriers (data : List (OhlcBar F)) (atr : List F) (sig : List Nat) (direction : List F)
    (tp sl : F) (hz : Nat) : Except ArrayError (List BarrierMasks × BarrierState F) := do
  let entryIx := sig.map (· + 1)
  let entry ← gather (data.map OhlcBar.openPrice) entryIx
  let risk ← gather atr sig
  let reach := fun k : F ↦ List.zipWith (fun d r ↦ d * k * r) direction risk
  let exitPrice ← gather (data.map OhlcBar.close) (sig.map (· + hz))
  barrierLoop data entryIx
    { direction
      takePrice := List.zipWith (· + ·) entry (reach tp)
      stopPrice := List.zipWith (· - ·) entry (reach sl) }
    (List.range hz) { alive := List.replicate sig.length true, exitPrice }

/-- How the loop ends each trade.  The source keeps the price only; the bar and the reason are
read from the masks. -/
def barrierExits (data : List (OhlcBar F)) (atr : List F) (sig : List Nat) (direction : List F)
    (tp sl : F) (hz : Nat) : Except ArrayError (List (TradeExit F)) := do
  let (masks, s) ← runBarriers data atr sig direction tp sl hz
  return List.zipWith (fun e price ↦ match endedAt e.2 masks with
    | some (step, reason) => { index := e.1 + 1 + step, price, reason }
    | none => { index := e.1 + hz, price, reason := .horizon }) sig.zipIdx s.exitPrice

/-- The walk of the trade that is signalled at bar `s` and entered at the next one. -/
def walkTrade (data : List (OhlcBar F)) (atr : List F) (tp sl : F) (hz s : Nat) (direction : F) :
    Option (TradeExit F) := do
  let bars := (data.drop (s + 1)).take hz
  let entry ← bars.head?
  let risk ← atr[s]?
  let t : BarrierTrade F :=
    { direction
      take := entry.openPrice + direction * tp * risk
      stop := entry.openPrice - direction * sl * risk }
  t.walk bars (s + 1)

end

/-! ## What a step does to each trade -/

structure Barriers.Has (b : Barriers F) (p : Nat) (t : BarrierTrade F) : Prop where
  direction : b.direction[p]? = some t.direction
  stop : b.stopPrice[p]? = some t.stop
  take : b.takePrice[p]? = some t.take

structure BarrierState.Has (s : BarrierState F) (p : Nat) (alive : Bool) (price : F) : Prop where
  alive : s.alive[p]? = some alive
  price : s.exitPrice[p]? = some price

/-- The prices of the step at trade `p` are those of `bar`. -/
structure SeesBar (openPrice high low : List F) (p : Nat) (bar : OhlcBar F) : Prop where
  openPrice : openPrice[p]? = some bar.openPrice
  high : high[p]? = some bar.high
  low : low[p]? = some bar.low

section Step

variable {b : Barriers F} {s : BarrierState F} {p : Nat} {t : BarrierTrade F} {alive : Bool}
  {price : F} {openPrice high low : List F} {bar : OhlcBar F}

omit [LE F] [DecidableLE F] in
theorem getElem?_direction (hb : b.Has p t) :
    (b.direction.map fun d ↦ decide (d > 0))[p]? = some (decide (t.direction > 0)) := by
  rw [getElem?_map, hb.direction]
  rfl

variable {flags : List Bool}

theorem getElem?_stop (hb : b.Has p t) (hbar : SeesBar openPrice high low p bar)
    (halive : flags[p]? = some alive) :
    (barrierMasks openPrice high low b flags).stop[p]? = some (alive && t.hitsStop bar) := by
  refine (getElem?_zipWith_some halive (getElem?_npWhere (getElem?_direction hb)
    (getElem?_zipWith_some hbar.low hb.stop) (getElem?_zipWith_some hbar.high hb.stop))).trans ?_
  simp [BarrierTrade.hitsStop]

theorem getElem?_take (hb : b.Has p t) (hbar : SeesBar openPrice high low p bar)
    (halive : flags[p]? = some alive) :
    (barrierMasks openPrice high low b flags).take[p]? =
      some (alive && !t.hitsStop bar && t.hitsTake bar) := by
  have hstop : ((barrierMasks openPrice high low b flags).stop.map not)[p]? =
      some (!(alive && t.hitsStop bar)) := by
    rw [getElem?_map, getElem?_stop hb hbar halive]
    rfl
  refine (getElem?_zipWith_some (getElem?_zipWith_some halive hstop)
    (getElem?_npWhere (getElem?_direction hb)
      (getElem?_zipWith_some hbar.high hb.take)
      (getElem?_zipWith_some hbar.low hb.take))).trans ?_
  cases alive <;> simp [BarrierTrade.hitsTake]

theorem getElem?_stopGap (hb : b.Has p t) (hbar : SeesBar openPrice high low p bar)
    (halive : flags[p]? = some alive) :
    (barrierMasks openPrice high low b flags).stopGap[p]? =
      some (alive && t.hitsStop bar && t.gapsStop bar) := by
  refine (getElem?_zipWith_some (getElem?_stop hb hbar halive)
    (getElem?_npWhere (getElem?_direction hb)
      (getElem?_zipWith_some hbar.openPrice hb.stop)
      (getElem?_zipWith_some hbar.openPrice hb.stop))).trans ?_
  simp [BarrierTrade.gapsStop]

theorem has_apply (hb : b.Has p t) (hbar : SeesBar openPrice high low p bar)
    (hs : s.Has p alive price) :
    ((barrierMasks openPrice high low b s.alive).apply openPrice b s).Has p
      (alive && (t.touch bar).isNone)
      (if alive then ((t.touch bar).map Prod.snd).getD price else price) := by
  have hstop := getElem?_stop hb hbar hs.alive
  have htake := getElem?_take hb hbar hs.alive
  have hgap := getElem?_stopGap hb hbar hs.alive
  constructor
  · have hended : ((maskOr (barrierMasks openPrice high low b s.alive).stop
        (barrierMasks openPrice high low b s.alive).take).map not)[p]? =
          some (!(alive && t.hitsStop bar || alive && !t.hitsStop bar && t.hitsTake bar)) := by
      rw [getElem?_map, maskOr, getElem?_zipWith_some hstop htake]
      rfl
    refine (getElem?_zipWith_some hs.alive hended).trans ?_
    cases alive <;> cases hhit : t.hitsStop bar <;> cases htarget : t.hitsTake bar <;>
      simp [BarrierTrade.touch, hhit, htarget]
  · refine (getElem?_npWhere htake hb.take
      (getElem?_npWhere hgap hbar.openPrice (getElem?_npWhere hstop hb.stop hs.price))).trans ?_
    cases alive <;> cases hhit : t.hitsStop bar <;> cases htarget : t.hitsTake bar <;>
      cases hopen : t.gapsStop bar <;> simp [BarrierTrade.touch, hhit, htarget, hopen]

theorem endedAt_cons (hb : b.Has p t) (hbar : SeesBar openPrice high low p bar)
    (hopen : flags[p]? = some true) (rest : List BarrierMasks) :
    endedAt p (barrierMasks openPrice high low b flags :: rest) =
      match t.touch bar with
      | some e => some (0, e.1)
      | none => (endedAt p rest).map fun e ↦ (e.1 + 1, e.2) := by
  rw [endedAt, getD_eq_getElem?_getD, getD_eq_getElem?_getD,
    getElem?_stop hb hbar hopen, getElem?_take hb hbar hopen, BarrierTrade.touch]
  cases t.hitsStop bar <;> cases t.hitsTake bar <;> rfl

end Step

/-! ## What the loop does to each trade -/

def BarrierTrade.firstTouch (t : BarrierTrade F) :
    List (OhlcBar F) → Option (Nat × ExitReason × F)
  | [] => none
  | bar :: bars =>
    match t.touch bar with
    | some e => some (0, e)
    | none => (t.firstTouch bars).map fun e ↦ (e.1 + 1, e.2)

theorem BarrierTrade.walk_eq (t : BarrierTrade F) {bars : List (OhlcBar F)} (h : bars ≠ [])
    (index : Nat) :
    t.walk bars index = some (match t.firstTouch bars with
      | some (step, reason, price) => { index := index + step, price, reason }
      | none => {
          index := index + (bars.length - 1)
          price := (bars.getLast h).close
          reason := .horizon }) := by
  induction bars generalizing index with
  | nil => exact absurd rfl h
  | cons bar bars ih =>
    rw [BarrierTrade.walk, BarrierTrade.firstTouch]
    cases htouch : t.touch bar with
    | some e => rfl
    | none =>
      dsimp only
      cases bars with
      | nil => rfl
      | cons next bars =>
        rw [isEmpty_cons, if_neg Bool.false_ne_true, ih (cons_ne_nil _ _)]
        cases t.firstTouch (next :: bars) with
        | some e => simp [Nat.add_assoc, Nat.add_comm 1]
        | none => simp [Nat.add_assoc, Nat.add_comm 1]

theorem firstTouch_lt {t : BarrierTrade F} {bars : List (OhlcBar F)} {e : Nat × ExitReason × F}
    (h : t.firstTouch bars = some e) : e.1 < bars.length := by
  induction bars generalizing e with
  | nil => cases h
  | cons bar bars ih =>
    rw [BarrierTrade.firstTouch] at h
    cases htouch : t.touch bar with
    | some ended =>
      rw [htouch] at h
      cases h
      exact Nat.succ_pos _
    | none =>
      rw [htouch] at h
      obtain ⟨later, hlater, rfl⟩ := Option.map_eq_some_iff.mp h
      exact Nat.succ_lt_succ (ih hlater)

section Loop

variable {data : List (OhlcBar F)} {entryIx : List Nat} {b : Barriers F} {p e : Nat}
  {t : BarrierTrade F}

omit [Zero F] [LE F] [LT F] [DecidableLE F] [DecidableLT F] in
theorem gather_step {k : Nat} (hlt : ∀ e ∈ entryIx, e + k < data.length) (f : OhlcBar F → F) :
    ∃ ys, gather (data.map f) (entryIx.map (· + k)) = .ok ys ∧
      ∀ (p e : Nat) (bar : OhlcBar F), entryIx[p]? = some e → data[e + k]? = some bar →
        ys[p]? = some (f bar) := by
  obtain ⟨ys, hys, hget⟩ := gather_ok (data.map f) (entryIx.map (· + k)) (by
    intro i hi
    obtain ⟨e, he, rfl⟩ := mem_map.mp hi
    rw [length_map]
    exact hlt e he)
  refine ⟨ys, hys, fun p e bar he hbar ↦ ?_⟩
  rw [hget, getElem?_map, he]
  simp [hbar]

theorem barrierLoop_cons {k : Nat} (hlt : ∀ e ∈ entryIx, e + k < data.length)
    (steps : List Nat) (s : BarrierState F) :
    ∃ openPrice high low,
      (∀ (p e : Nat) (bar : OhlcBar F), entryIx[p]? = some e → data[e + k]? = some bar →
        SeesBar openPrice high low p bar) ∧
      barrierLoop data entryIx b (k :: steps) s =
        (barrierLoop data entryIx b steps
          ((barrierMasks openPrice high low b s.alive).apply openPrice b s)).map fun r ↦
            (barrierMasks openPrice high low b s.alive :: r.1, r.2) := by
  obtain ⟨openPrice, hopen, hopenAt⟩ := gather_step hlt OhlcBar.openPrice
  obtain ⟨high, hhigh, hhighAt⟩ := gather_step hlt OhlcBar.high
  obtain ⟨low, hlow, hlowAt⟩ := gather_step hlt OhlcBar.low
  refine ⟨openPrice, high, low, fun p e bar he hbar ↦
    ⟨hopenAt p e bar he hbar, hhighAt p e bar he hbar, hlowAt p e bar he hbar⟩, ?_⟩
  rw [barrierLoop, hopen, hhigh, hlow]
  cases h : barrierLoop data entryIx b steps
    ((barrierMasks openPrice high low b s.alive).apply openPrice b s) <;>
      simp [bind, Except.bind, Except.map, h, pure, Except.pure]

variable {k r : Nat}

theorem barrierLoop_ok (hlt : ∀ e ∈ entryIx, e + (k + r) ≤ data.length) (s : BarrierState F) :
    ∃ masks s', barrierLoop data entryIx b (List.range' k r) s = .ok (masks, s') := by
  induction r generalizing k s with
  | zero => exact ⟨[], s, rfl⟩
  | succ r ih =>
    have hk : ∀ e ∈ entryIx, e + k < data.length := fun e he ↦ by
      have := hlt e he
      omega
    obtain ⟨openPrice, high, low, -, hcons⟩ :=
      barrierLoop_cons (b := b) hk (List.range' (k + 1) r) s
    obtain ⟨masks, s', hloop⟩ := ih (k := k + 1) (fun e he ↦ by
      have := hlt e he
      omega) ((barrierMasks openPrice high low b s.alive).apply openPrice b s)
    exact ⟨_ :: masks, s', by rw [range'_succ, hcons, hloop]; rfl⟩

theorem barrierLoop_closed (hb : b.Has p t) (he : entryIx[p]? = some e)
    (hlt : ∀ e ∈ entryIx, e + (k + r) ≤ data.length) {s : BarrierState F} {price : F}
    (hs : s.Has p false price) :
    ∃ masks s', barrierLoop data entryIx b (List.range' k r) s = .ok (masks, s') ∧
      s'.exitPrice[p]? = some price := by
  induction r generalizing k s with
  | zero => exact ⟨[], s, rfl, hs.price⟩
  | succ r ih =>
    rw [range'_succ]
    have hk : ∀ e ∈ entryIx, e + k < data.length := fun e he ↦ by
      have := hlt e he
      omega
    obtain ⟨openPrice, high, low, hsees, hcons⟩ :=
      barrierLoop_cons (b := b) hk (List.range' (k + 1) r) s
    have hbar := getElem?_eq_getElem (hk e (mem_of_getElem? he))
    obtain ⟨masks, s', hloop, hprice⟩ := ih (k := k + 1) (fun e he ↦ by
      have := hlt e he
      omega) (has_apply hb (hsees p e _ he hbar) hs)
    exact ⟨_ :: masks, s', by rw [hcons, hloop]; rfl, hprice⟩

theorem barrierLoop_open (hb : b.Has p t) (he : entryIx[p]? = some e)
    (hlt : ∀ e ∈ entryIx, e + (k + r) ≤ data.length) {s : BarrierState F} {price : F}
    (hs : s.Has p true price) :
    ∃ masks s', barrierLoop data entryIx b (List.range' k r) s = .ok (masks, s') ∧
      endedAt p masks =
        (t.firstTouch ((data.drop (e + k)).take r)).map (fun e ↦ (e.1, e.2.1)) ∧
      s'.exitPrice[p]? =
        some (((t.firstTouch ((data.drop (e + k)).take r)).map fun e ↦ e.2.2).getD price) := by
  induction r generalizing k s with
  | zero => exact ⟨[], s, rfl, by simp [endedAt, BarrierTrade.firstTouch],
      by simpa [BarrierTrade.firstTouch] using hs.price⟩
  | succ r ih =>
    rw [range'_succ]
    have hk : ∀ e ∈ entryIx, e + k < data.length := fun e he ↦ by
      have := hlt e he
      omega
    have hrest : ∀ e ∈ entryIx, e + (k + 1 + r) ≤ data.length := fun e he ↦ by
      have := hlt e he
      omega
    obtain ⟨openPrice, high, low, hsees, hcons⟩ :=
      barrierLoop_cons (b := b) hk (List.range' (k + 1) r) s
    have hek := hk e (mem_of_getElem? he)
    have hbar := hsees p e _ he (getElem?_eq_getElem hek)
    have hstep := has_apply hb hbar hs
    have hended := endedAt_cons hb hbar hs.alive
    rw [drop_eq_getElem_cons hek, take_succ_cons, BarrierTrade.firstTouch]
    cases htouch : t.touch data[e + k] with
    | some ended =>
      rw [htouch] at hstep hended
      obtain ⟨masks, s', hloop, hprice⟩ := barrierLoop_closed hb he hrest hstep
      exact ⟨_ :: masks, s', by rw [hcons, hloop]; rfl, hended masks, hprice⟩
    | none =>
      rw [htouch] at hstep hended
      obtain ⟨masks, s', hloop, hrestEnded, hprice⟩ := ih hrest hstep
      refine ⟨_ :: masks, s', by rw [hcons, hloop]; rfl, ?_, ?_⟩
      · rw [hended, hrestEnded]
        dsimp only
        rw [Option.map_map, Option.map_map]
        rfl
      · rw [hprice]
        dsimp only
        rw [Option.map_map]
        rfl

end Loop

/-! ## The loop is the walk of each trade -/

section

variable [Add F] [Sub F] [Mul F]

omit [LE F] [LT F] [DecidableLE F] [DecidableLT F] [Zero F] [Add F] [Sub F] in
theorem getElem?_reach {direction risk : List F} {p : Nat} {d r : F}
    (hd : direction[p]? = some d) (hr : risk[p]? = some r) (k : F) :
    (List.zipWith (fun d r ↦ d * k * r) direction risk)[p]? = some (d * k * r) :=
  getElem?_zipWith_some hd hr

theorem walkTrade_eq {data : List (OhlcBar F)} {atr : List F} {tp sl : F} {hz s : Nat} {d r : F}
    (hr : atr[s]? = some r) (hhz : 1 ≤ hz) {first last : OhlcBar F}
    (hfirst : data[s + 1]? = some first) (hlast : data[s + hz]? = some last) :
    walkTrade data atr tp sl hz s d = some (
      let t : BarrierTrade F :=
        ⟨d, first.openPrice - d * sl * r, first.openPrice + d * tp * r⟩
      match t.firstTouch ((data.drop (s + 1)).take hz) with
      | some (step, reason, price) => ⟨s + 1 + step, price, reason⟩
      | none => ⟨s + hz, last.close, .horizon⟩) := by
  have hlt : s + hz < data.length := (List.getElem?_eq_some_iff.mp hlast).1
  have hlen : ((data.drop (s + 1)).take hz).length = hz := by
    rw [length_take, length_drop]
    omega
  have hne : (data.drop (s + 1)).take hz ≠ [] := ne_nil_of_length_pos (by omega)
  have hgetLast : ((data.drop (s + 1)).take hz).getLast hne = last := by
    have hat : ((data.drop (s + 1)).take hz)[hz - 1]? = some last := by
      rw [List.getElem?_take, if_pos (by omega), List.getElem?_drop,
        show s + 1 + (hz - 1) = s + hz by omega, hlast]
    rw [← Option.some_inj, ← getLast?_eq_some_getLast hne, getLast?_eq_getElem?, hlen, hat]
  have hhead : ((data.drop (s + 1)).take hz).head? = some first := by
    rw [head?_take, if_neg (by omega), head?_drop, hfirst]
  rw [walkTrade, hhead, hr]
  refine (BarrierTrade.walk_eq _ hne (s + 1)).trans ?_
  rw [hgetLast, hlen, show s + 1 + (hz - 1) = s + hz by omega]

/-- The trade that is signalled at bar `s`, when `first` is the bar after it and `r` its ATR. -/
def enteredTrade (tp sl d r : F) (first : OhlcBar F) : BarrierTrade F :=
  { direction := d
    stop := first.openPrice - d * sl * r
    take := first.openPrice + d * tp * r }

theorem runBarriers_ok {data : List (OhlcBar F)} {atr : List F} {sig : List Nat}
    (direction : List F) (tp sl : F) {hz : Nat} (hatr : atr.length = data.length) (hhz : 1 ≤ hz)
    (hsig : ∀ s ∈ sig, s + hz < data.length) :
    ∃ masks s', runBarriers data atr sig direction tp sl hz = .ok (masks, s') ∧
      ∀ (p s : Nat) (d : F), sig[p]? = some s → direction[p]? = some d →
        ∃ first last r, data[s + 1]? = some first ∧ data[s + hz]? = some last ∧
          atr[s]? = some r ∧
          let touched := (enteredTrade tp sl d r first).firstTouch ((data.drop (s + 1)).take hz)
          endedAt p masks = touched.map (fun e ↦ (e.1, e.2.1)) ∧
          s'.exitPrice[p]? = some ((touched.map fun e ↦ e.2.2).getD last.close) := by
  have hentry : ∀ e ∈ sig.map (· + 1), e + (0 + hz) ≤ data.length := by
    intro e he
    obtain ⟨s, hs, rfl⟩ := mem_map.mp he
    have := hsig s hs
    omega
  obtain ⟨entry, hentryOk, hentryAt⟩ := gather_ok (data.map OhlcBar.openPrice)
    (sig.map (· + 1)) (by
      intro i hi
      have := hentry i hi
      rw [length_map]
      omega)
  obtain ⟨risk, hriskOk, hriskAt⟩ := gather_ok atr sig (by
    intro i hi
    have := hsig i hi
    omega)
  obtain ⟨closes, hclosesOk, hclosesAt⟩ := gather_ok (data.map OhlcBar.close)
    (sig.map (· + hz)) (by
      intro i hi
      obtain ⟨s, hs, rfl⟩ := mem_map.mp hi
      rw [length_map]
      exact hsig s hs)
  let b : Barriers F :=
    { direction
      takePrice := List.zipWith (· + ·) entry
        (List.zipWith (fun d r ↦ d * tp * r) direction risk)
      stopPrice := List.zipWith (· - ·) entry
        (List.zipWith (fun d r ↦ d * sl * r) direction risk) }
  let start : BarrierState F :=
    { alive := List.replicate sig.length true, exitPrice := closes }
  obtain ⟨masks, s', hloop⟩ := barrierLoop_ok (b := b) hentry start
  have hrun : runBarriers data atr sig direction tp sl hz = .ok (masks, s') := by
    rw [← hloop, ← range_eq_range', runBarriers, hentryOk, hriskOk, hclosesOk]
    rfl
  refine ⟨masks, s', hrun, fun p s d hs hd ↦ ?_⟩
  have hlt := hsig s (mem_of_getElem? hs)
  obtain ⟨first, hfirst⟩ : ∃ bar, data[s + 1]? = some bar :=
    ⟨_, getElem?_eq_getElem (by omega)⟩
  obtain ⟨last, hlast⟩ : ∃ bar, data[s + hz]? = some bar := ⟨_, getElem?_eq_getElem hlt⟩
  obtain ⟨r, hr⟩ : ∃ r, atr[s]? = some r := ⟨_, getElem?_eq_getElem (by omega)⟩
  have hhas : b.Has p (enteredTrade tp sl d r first) := by
    have hentryP : entry[p]? = some first.openPrice := by
      rw [hentryAt, getElem?_map, hs]
      simp [hfirst]
    have hriskP : risk[p]? = some r := by
      rw [hriskAt, hs]
      exact hr
    exact ⟨hd, getElem?_zipWith_some hentryP (getElem?_reach hd hriskP sl),
      getElem?_zipWith_some hentryP (getElem?_reach hd hriskP tp)⟩
  have hopen : start.Has p true last.close := by
    constructor
    · rw [List.getElem?_replicate, if_pos (List.getElem?_eq_some_iff.mp hs).1]
    · rw [hclosesAt, getElem?_map, hs]
      simp [hlast]
  have hentryIx : (sig.map (· + 1))[p]? = some (s + 1) := by
    rw [getElem?_map, hs]
    rfl
  obtain ⟨masks', s'', hloop', hended, hprice⟩ := barrierLoop_open hhas hentryIx hentry hopen
  obtain ⟨rfl, rfl⟩ := Prod.mk.inj (Except.ok.inj (hloop.symm.trans hloop'))
  exact ⟨first, last, r, hfirst, hlast, hr, hended, hprice⟩

/-- For every trade that `run_grid` can enter, the loop over all trades gives the exit that the
walk of this trade gives, and no later than `horizon` bars after the entry. -/
theorem barrierExits_eq_walk (data : List (OhlcBar F)) (atr : List F) (sig : List Nat)
    (direction : List F) (tp sl : F) (hz : Nat) (hatr : atr.length = data.length)
    (hdirection : direction.length = sig.length) (hhz : 1 ≤ hz)
    (hsig : ∀ s ∈ sig, s + hz < data.length) :
    ∃ exits, barrierExits data atr sig direction tp sl hz = .ok exits ∧
      exits.length = sig.length ∧
      ∀ (p s : Nat) (d : F), sig[p]? = some s → direction[p]? = some d →
        ∃ e, exits[p]? = some e ∧ walkTrade data atr tp sl hz s d = some e ∧
          e.index ≤ (s + 1) + hz := by
  obtain ⟨masks, s', hrun, hrows⟩ := runBarriers_ok direction tp sl hatr hhz hsig
  have hexits : ∀ (p s : Nat) (d : F), sig[p]? = some s → direction[p]? = some d →
      ∃ e, (List.zipWith (fun e price ↦ match endedAt e.2 masks with
          | some (step, reason) => (⟨e.1 + 1 + step, price, reason⟩ : TradeExit F)
          | none => ⟨e.1 + hz, price, .horizon⟩) sig.zipIdx s'.exitPrice)[p]? = some e ∧
        walkTrade data atr tp sl hz s d = some e ∧ e.index ≤ (s + 1) + hz := by
    intro p s d hs hd
    obtain ⟨first, last, r, hfirst, hlast, hr, hended, hprice⟩ := hrows p s d hs hd
    have hidx : sig.zipIdx[p]? = some (s, p) := by
      rw [getElem?_zipIdx, hs, Nat.zero_add]
      rfl
    refine ⟨_, getElem?_zipWith_some hidx hprice, ?_, ?_⟩
    · rw [walkTrade_eq (d := d) hr hhz hfirst hlast]
      dsimp only
      rw [hended, enteredTrade]
      cases BarrierTrade.firstTouch _ ((data.drop (s + 1)).take hz) <;> rfl
    · dsimp only
      rw [hended]
      cases htouch : BarrierTrade.firstTouch _ ((data.drop (s + 1)).take hz) with
      | some e =>
        have hlt := (firstTouch_lt htouch).trans_le (length_take_le _ _)
        exact Nat.add_le_add_left hlt.le _
      | none => exact Nat.add_le_add_right (Nat.le_succ s) hz
  refine ⟨_, ?_, ?_, hexits⟩
  · rw [barrierExits, hrun]
    rfl
  · refine Nat.le_antisymm ?_ (Nat.le_of_not_lt fun hshort ↦ ?_)
    · rw [length_zipWith, length_zipIdx]
      exact Nat.min_le_left _ _
    · obtain ⟨e, he, -⟩ := hexits _ _ _ (getElem?_eq_getElem hshort)
        (getElem?_eq_getElem (hshort.trans_eq hdirection.symm))
      exact absurd (List.getElem?_eq_some_iff.mp he).1 (lt_irrefl _)

end

/-! ## The trades of the grid -/

/-- The bars from which the next `hz` bars follow without a gap. -/
def contiguous (gaps : List Int) (n hz : Nat) : List Bool :=
  (List.range n).map fun i ↦
    decide (i + hz < n) && decide (gaps.getD (min (i + hz) (n - 1)) 0 - gaps.getD i 0 = 0)

/-- `sig` of `run_grid`. -/
def gridSignals [NumpyFloat F] (score atr : List F) (z : F) (news : List Bool)
    (gaps : List Int) (hz : Nat) : List Nat :=
  flatnonzero (maskAnd (maskAnd (maskAnd (maskAnd (score.map NumpyFloat.isfinite)
    (score.map fun x ↦ decide (NumpyFloat.abs x ≥ z))) (atr.map NumpyFloat.isfinite))
      (news.map not)) (contiguous gaps score.length hz))

omit [Zero F] [LT F] [DecidableLT F] in
theorem add_lt_of_mem_gridSignals [NumpyFloat F] {score atr : List F} {z : F} {news : List Bool}
    {gaps : List Int} {hz s : Nat} (h : s ∈ gridSignals score atr z news gaps hz) :
    s + hz < score.length := by
  rw [gridSignals, mem_flatnonzero, maskAnd, getElem?_zipWith_eq_some] at h
  obtain ⟨_, within, -, hwithin, hboth⟩ := h
  obtain rfl : within = true := (Bool.and_eq_true_iff.mp hboth).2
  rw [contiguous, getElem?_map] at hwithin
  obtain ⟨i, hi, hflag⟩ := Option.map_eq_some_iff.mp hwithin
  obtain ⟨hlt, hi⟩ := List.getElem?_eq_some_iff.mp hi
  obtain rfl : s = i := (getElem_range _).symm.trans hi
  exact of_decide_eq_true (Bool.and_eq_true_iff.mp hflag).1

/-- The second bar opens beyond the stop of a trade sold at the first one. -/
def risingBars : List (OhlcBar ℚ) :=
  [⟨10, 11, 9, 10⟩, ⟨10, 11, 10, 11⟩, ⟨14, 15, 13, 14⟩, ⟨14, 15, 13, 14⟩]

theorem barrierExits_eq_walk_sample :
    ∃ exits, barrierExits risingBars [1, 1, 1, 1] [0, 1] [-1, 1] 2 3 2 = .ok exits ∧
      exits.length = 2 ∧
      ∃ e, exits[0]? = some e ∧ walkTrade risingBars [1, 1, 1, 1] 2 3 2 0 (-1) = some e ∧
        e.index ≤ 3 := by
  obtain ⟨exits, hexits, hlen, hrows⟩ :=
    barrierExits_eq_walk risingBars [1, 1, 1, 1] [0, 1] [-1, 1] 2 3 2 rfl rfl (by decide)
      (by decide)
  exact ⟨exits, hexits, hlen, hrows 0 0 (-1) rfl rfl⟩

example : walkTrade risingBars [1, 1, 1, 1] 2 3 2 0 (-1) = some ⟨2, 14, .stop⟩ := by
  decide +kernel

end Qros.Orchestration
