import Qros.QuantEngine.ReplayEquity

/-!
# Order and repetition of replays

What a strategy is shown is read off a strategy that keeps it (`Strategy.recorded`).
A run shows the extracted bars one after the other.  Only the records of a dataset with a
symbol are held against `as_of`, and no form of dataset is sorted, so the bars come in
order just when the dataset is stored that way (`Timely`).

The execution layer is not set back before a run.
-/

set_option linter.unusedSectionVars false

namespace Qros.QuantEngine

open Qros.Lib List

section Recorded

variable {σ F T X : Type} [Zero F] [One F] [Add F] [Sub F] [Neg F] [Mul F] [Div F] [BEq F] [LT F]
  [DecidableLT F] [NatCast F] [OfScientific F] [Rounding F] [Timestamp T]

/-- The strategy that keeps the bars that it was shown since its last reset. -/
def Strategy.recorded (strategy : Strategy σ F T X) : Strategy (σ × List (Item F T X)) F T X where
  identifier := strategy.identifier
  version := strategy.version
  evaluate q bar history i :=
    ((strategy.evaluate q.1 bar history i).1,
      ((strategy.evaluate q.1 bar history i).2, q.2 ++ [bar]))
  reset q := (strategy.reset q.1, [])

variable {strategy : Strategy σ F T X} {cfg : ExecutionConfig F} {bars : List (Item F T X)}
  {q : σ} {s : Execution F}

theorem barLoop_recorded (i : Nat) (history log : List (Item F T X))
    (pending : Option (Signal F × String)) :
    ∃ log', barLoop strategy.recorded cfg bars i history pending ((q, log), s) =
        ((barLoop strategy cfg bars i history pending (q, s)).1,
          (((barLoop strategy cfg bars i history pending (q, s)).2.1, log ++ log'),
            (barLoop strategy cfg bars i history pending (q, s)).2.2)) ∧
      ((barLoop strategy cfg bars i history pending (q, s)).1 = .ok () → log' = bars) := by
  induction bars generalizing i history log pending q s with
  | nil => exact ⟨[], by simp [barLoop], fun _ ↦ rfl⟩
  | cons bar bars ih =>
    rw [barLoop, barLoop]
    cases hexec : executePending cfg pending bar i s with
    | error e => exact ⟨[], by simp, fun h ↦ by cases h⟩
    | ok s' =>
      rcases heval : strategy.evaluate q bar history i with ⟨e | signal, q'⟩
      · exact ⟨[bar], by simp [Strategy.recorded, heval], fun h ↦ by cases h⟩
      · cases hclose : bar.close with
        | error e => exact ⟨[bar], by simp [Strategy.recorded, heval], fun h ↦ by cases h⟩
        | ok close =>
          obtain ⟨log', hrest, hlog⟩ := ih (i + 1) (history ++ [bar]) (log ++ [bar])
            (signal.map fun x ↦ (x, iso bar.timestamp))
          refine ⟨bar :: log', ?_, fun h ↦ congrArg (bar :: ·) (hlog h)⟩
          rw [← append_cons] at hrest
          simpa [Strategy.recorded, heval] using hrest

theorem runBars_recorded :
    ∃ log', runBars strategy.recorded cfg bars ((q, []), s) =
        ((runBars strategy cfg bars (q, s)).1,
          (((runBars strategy cfg bars (q, s)).2.1, log'),
            (runBars strategy cfg bars (q, s)).2.2)) ∧
      ∀ out, (runBars strategy cfg bars (q, s)).1 = .ok out → log' = bars := by
  unfold runBars
  cases bars.head? with
  | none => exact ⟨[], rfl, nofun⟩
  | some firstBar =>
    cases bars.getLast? with
    | none => exact ⟨[], rfl, nofun⟩
    | some lastBar =>
      dsimp only
      split
      · exact ⟨[], rfl, nofun⟩
      · obtain ⟨log', hrec, hlog⟩ : ∃ log', barLoop strategy.recorded cfg bars 0 [] none
              ((q, []), s) = ((barLoop strategy cfg bars 0 [] none (q, s)).1,
                (((barLoop strategy cfg bars 0 [] none (q, s)).2.1, [] ++ log'),
                  (barLoop strategy cfg bars 0 [] none (q, s)).2.2)) ∧ _ :=
          barLoop_recorded 0 [] [] none
        rw [nil_append] at hrec
        rcases hloop : barLoop strategy cfg bars 0 [] none (q, s) with ⟨e | _, q', s'⟩
        · rw [hloop] at hrec
          exact ⟨log', by rw [hrec], nofun⟩
        · rw [hloop] at hrec hlog
          refine ⟨log', ?_, fun _ _ ↦ hlog rfl⟩
          rw [hrec]
          have hliq : liquidate strategy.recorded cfg lastBar (bars.length - 1) s' =
              liquidate strategy cfg lastBar (bars.length - 1) s' := rfl
          dsimp only
          rw [hliq]
          cases liquidate strategy cfg lastBar (bars.length - 1) s' with
          | error e => rfl
          | ok s'' => rfl

/-- The bars that a run shows to the strategy. -/
def shown (strategy : Strategy σ F T X) (cfg : ExecutionConfig F) (asOf : Option T)
    (dataset : Dataset F T X) (state : σ × Execution F) : List (Item F T X) :=
  (run strategy.recorded cfg asOf dataset ((state.1, []), state.2)).2.1.2

theorem shown_eq {asOf : Option T} {dataset : Dataset F T X} {out : ReplayOutput F}
    {state : σ × Execution F} (hrun : run strategy cfg asOf dataset (q, s) = (.ok out, state)) :
    extractBars asOf dataset = .ok (shown strategy cfg asOf dataset (q, s)) := by
  unfold run at hrun
  unfold shown run
  dsimp only at hrun ⊢
  cases hbars : extractBars asOf dataset with
  | error e => simp [hbars] at hrun
  | ok bars =>
    simp only [hbars] at hrun
    obtain ⟨log', hrec, hlog⟩ : ∃ log', runBars strategy.recorded cfg bars
        ((strategy.reset q, []), s) = ((runBars strategy cfg bars (strategy.reset q, s)).1,
          (((runBars strategy cfg bars (strategy.reset q, s)).2.1, log'), _)) ∧
        ∀ out, (runBars strategy cfg bars (strategy.reset q, s)).1 = .ok out → log' = bars :=
      runBars_recorded
    have hreset : strategy.recorded.reset (q, []) = (strategy.reset q, []) := rfl
    rw [hreset]
    dsimp only
    rw [hrec, hlog out (by rw [hrun])]

end Recorded

/-! ## Order -/

section

variable {F T X : Type} [Timestamp T]

/-- Times come in order, and none is later than the cutoff. -/
def InOrder (asOf : Option T) (times : List T) : Prop :=
  times.Pairwise (· ≤ ·) ∧ ∀ a ∈ asOf, ∀ t ∈ times, t ≤ a

instance (asOf : Option T) (times : List T) : Decidable (InOrder asOf times) :=
  inferInstanceAs (Decidable (_ ∧ _))

def timestamps (items : List (Item F T X)) : List T := items.filterMap Item.timestamp

/-- The first `n` days from 2020 on, while there are dates for them. -/
def days (n : Nat) : List T := (List.range n).filterMap fun i ↦ (Timestamp.day i).toOption

/-- The times of a dataset in the order in which it is stored; where it has none the engine
counts days. -/
def storedTimes : Dataset F T X → List T
  | .none => days 252
  | .historical records => timestamps records
  | .recorded records => timestamps (records.getD [])
  | .list [] => []
  | .list (first :: items) =>
    if first.hasClose = true ∧ first.hasTimestamp = true then timestamps (first :: items)
    else
      match first with
      | .dict (some _) _ _ =>
        (first :: items).zipIdx.filterMap fun r ↦ (r.1.dictTime r.2).toOption
      | _ => days (first :: items).length
  | .iterable items => timestamps items
  | .other => []

/-- The times that the engine gets of a dataset: those of a dataset with a symbol only up to
the cutoff. -/
def seenTimes (asOf : Option T) (dataset : Dataset F T X) : List T :=
  match dataset with
  | .none => storedTimes dataset
  | .historical _ => (storedTimes dataset).filter fun t ↦ ∀ a ∈ asOf, t ≤ a
  | .recorded _ => (storedTimes dataset).filter fun t ↦ ∀ a ∈ asOf, t ≤ a
  | .list _ => storedTimes dataset
  | .iterable _ => storedTimes dataset
  | .other => storedTimes dataset

/-- The dataset is stored in the order of time and, if it has no symbol, holds nothing that is
later than the cutoff. -/
def Timely (asOf : Option T) (dataset : Dataset F T X) : Prop :=
  match dataset with
  | .none => InOrder asOf (storedTimes dataset)
  | .historical _ => (seenTimes asOf dataset).Pairwise (· ≤ ·)
  | .recorded _ => (seenTimes asOf dataset).Pairwise (· ≤ ·)
  | .list _ => InOrder asOf (storedTimes dataset)
  | .iterable _ => InOrder asOf (storedTimes dataset)
  | .other => InOrder asOf (storedTimes dataset)

theorem filterMap_getElem?_zipIdx {α : Type} (p : α → Bool) (l : List α) :
    ((l.zipIdx.filter fun r ↦ p r.1).map Prod.snd).filterMap (fun i ↦ l[i]?) = l.filter p := by
  calc ((l.zipIdx.filter fun r ↦ p r.1).map Prod.snd).filterMap (fun i ↦ l[i]?)
      = (l.zipIdx.filter fun r ↦ p r.1).filterMap fun r ↦ some r.1 := by
        rw [filterMap_map]
        refine filterMap_congr fun r hr ↦ ?_
        exact mem_zipIdx_iff_getElem?.mp (mem_of_mem_filter hr)
    _ = (l.zipIdx.filter fun r ↦ p r.1).map Prod.fst := by rw [← filterMap_eq_map]; rfl
    _ = (l.zipIdx.map Prod.fst).filter p := by rw [filter_map]; rfl
    _ = l.filter p := by rw [zipIdx_map_fst]

theorem historicalIterator_eq (records : List (Item F T X)) (asOf : Option T) :
    historicalIterator records asOf =
      records.filter fun r ↦ decide (Visible none none asOf r) :=
  filterMap_getElem?_zipIdx (fun r ↦ decide (Visible none none asOf r)) records

theorem timestamps_historicalIterator (records : List (Item F T X)) (asOf : Option T) :
    timestamps (historicalIterator records asOf) =
      (timestamps records).filter fun t ↦ ∀ a ∈ asOf, t ≤ a := by
  rw [historicalIterator_eq]
  induction records with
  | nil => rfl
  | cons r records ih =>
    unfold timestamps at ih ⊢
    cases ht : r.timestamp with
    | none =>
      have hvis : ¬ Visible none none asOf r := by simp [Visible, ht]
      rw [filter_cons_of_neg (by simpa using hvis), ih, filterMap_cons_none ht]
    | some t =>
      have hvis : Visible none none asOf r ↔ ∀ a ∈ asOf, t ≤ a := by
        simp [Visible, ht]
      rw [filterMap_cons_some ht, filter_cons, filter_cons]
      simp only [hvis, decide_eq_true_eq]
      split
      · rw [filterMap_cons_some ht, ih]
      · exact ih

theorem timestamps_of_mapM {α : Type} {f : α → Except String (Item F T X)}
    {time : α → Except String T} {as : List α} {bars : List (Item F T X)}
    (hf : ∀ a bar, f a = .ok bar → ∃ t, time a = .ok t ∧ bar.timestamp = some t)
    (h : as.mapM f = .ok bars) : timestamps bars = as.filterMap fun a ↦ (time a).toOption := by
  induction as generalizing bars with
  | nil =>
    obtain rfl := Except.ok.inj h
    rfl
  | cons a as ih =>
    rw [mapM_cons] at h
    obtain ⟨bar, hbar, h⟩ := bind_eq_ok.mp h
    obtain ⟨rest, hrest, h⟩ := bind_eq_ok.mp h
    obtain rfl := Except.ok.inj h
    obtain ⟨t, htime, ht⟩ := hf a bar hbar
    rw [timestamps, filterMap_cons_some ht, filterMap_cons_some (by rw [htime]; rfl)]
    exact congrArg (t :: ·) (ih hrest)

theorem filterMap_zipIdx_days (items : List (Item F T X)) :
    (items.zipIdx.filterMap fun r ↦ (Timestamp.day r.2 : Except String T).toOption) =
      days items.length := by
  rw [days, range_eq_range', ← zipIdx_map_snd, filterMap_map]
  rfl

variable [Zero F] [One F] [Add F] [Mul F] [NatCast F] [OfScientific F]

variable {asOf : Option T}

theorem timestamps_extractBars_list {first : Item F T X} {items bars : List (Item F T X)}
    (h : extractBars asOf (.list (first :: items)) = .ok bars) (hne : bars ≠ []) :
    timestamps bars = storedTimes (.list (first :: items)) := by
  -- the bars of values without times count days
  have hdays : ∀ close : Item F T X → Except String F,
      enumerateBars (fun i c ↦ do
        return .replayBar (← close c) (some (← Timestamp.day i)) none) (first :: items) = .ok bars →
      timestamps bars = days (first :: items).length := by
    intro close h
    rw [← filterMap_zipIdx_days]
    refine timestamps_of_mapM ?_ h
    rintro ⟨c, i⟩ bar hbar
    obtain ⟨x, -, hbar⟩ := bind_eq_ok.mp hbar
    obtain ⟨t, ht, hbar⟩ := bind_eq_ok.mp hbar
    obtain rfl := Except.ok.inj hbar
    exact ⟨t, ht, rfl⟩
  unfold extractBars at h
  unfold storedTimes
  dsimp only at h ⊢
  split at h
  · rename_i hobject
    rw [if_pos hobject, ← Except.ok.inj h]
  · rename_i hobject
    rw [if_neg hobject]
    split at h
    · rename_i hclose
      rw [hdays _ h]
      cases first with
      | replayBar _ _ _ => rfl
      | object _ _ _ _ => rfl
      | number _ => rfl
      | dict _ _ _ => cases hclose
      | other _ _ => rfl
    · rename_i hclose
      cases first with
      | replayBar _ _ _ => exact absurd rfl hclose
      | object _ _ _ _ => exact absurd (Except.ok.inj h).symm hne
      | number _ => exact hdays _ h
      | dict close t rest =>
        cases close with
        | none => exact absurd (Except.ok.inj h).symm hne
        | some close =>
          refine timestamps_of_mapM ?_ h
          rintro ⟨d, i⟩ bar hbar
          obtain ⟨t, ht, hbar⟩ := bind_eq_ok.mp hbar
          obtain ⟨x, -, hbar⟩ := bind_eq_ok.mp hbar
          obtain rfl := Except.ok.inj hbar
          exact ⟨t, ht, rfl⟩
      | other _ _ => exact absurd (Except.ok.inj h).symm hne

theorem timestamps_extractBars {dataset : Dataset F T X} {bars : List (Item F T X)}
    (h : extractBars asOf dataset = .ok bars) (hne : bars ≠ []) :
    timestamps bars = seenTimes asOf dataset := by
  cases dataset with
  | none =>
    unfold extractBars syntheticBars at h
    refine timestamps_of_mapM ?_ h
    rintro i bar hbar
    obtain ⟨t, ht, hbar⟩ := bind_eq_ok.mp hbar
    obtain rfl := Except.ok.inj hbar
    exact ⟨t, ht, rfl⟩
  | historical records =>
    obtain rfl := Except.ok.inj h
    exact timestamps_historicalIterator records asOf
  | recorded records =>
    cases records with
    | none => cases h
    | some records =>
      obtain rfl := Except.ok.inj h
      exact timestamps_historicalIterator records asOf
  | list items =>
    cases items with
    | nil =>
      obtain rfl := Except.ok.inj h
      exact absurd rfl hne
    | cons first items => exact timestamps_extractBars_list h hne
  | iterable items =>
    simp only [extractBars, Except.ok.injEq] at h
    split at h
    · rw [← h]
      rfl
    · exact absurd h.symm hne
  | other =>
    obtain rfl := Except.ok.inj h
    exact absurd rfl hne

theorem inOrder_seenTimes_iff {dataset : Dataset F T X} :
    InOrder asOf (seenTimes asOf dataset) ↔ Timely asOf dataset := by
  have hcut : ∀ times : List T, ∀ a ∈ asOf,
      ∀ t ∈ times.filter (fun t ↦ decide (∀ a ∈ asOf, t ≤ a)), t ≤ a := by
    intro times a ha t ht
    exact of_decide_eq_true (mem_filter.mp ht).2 a ha
  cases dataset with
  | historical records => exact and_iff_left (hcut _)
  | recorded records => exact and_iff_left (hcut _)
  | none => exact Iff.rfl
  | list items => exact Iff.rfl
  | iterable items => exact Iff.rfl
  | other => exact Iff.rfl

end

/-! ## Repetition -/

section

variable {σ F T X : Type} [Zero F] [One F] [Add F] [Sub F] [Neg F] [Mul F] [Div F] [BEq F] [LT F]
  [DecidableLT F] [NatCast F] [OfScientific F] [Rounding F] [Timestamp T]
  {strategy : Strategy σ F T X} {cfg : ExecutionConfig F} {bars : List (Item F T X)}
  {q : σ} {s : Execution F}

theorem length_positionSnapshots_barLoop {i : Nat} {history : List (Item F T X)}
    {pending : Option (Signal F × String)} {q' : σ} {s' : Execution F}
    (hloop : barLoop strategy cfg bars i history pending (q, s) = (.ok (), (q', s'))) :
    s'.positionSnapshots.length = s.positionSnapshots.length + bars.length := by
  induction bars generalizing i history pending q s with
  | nil =>
    obtain ⟨rfl, rfl⟩ := Prod.mk.inj (Prod.mk.inj hloop).2
    rfl
  | cons bar bars ih =>
    obtain ⟨s₁, x, q₁, close, hexec, -, -, hrest⟩ := barLoop_cons_ok hloop
    have hsnap : s₁.positionSnapshots = s.positionSnapshots := by
      cases pending with
      | none => rw [← Except.ok.inj hexec]
      | some p =>
        obtain ⟨price, -, hok⟩ := bind_eq_ok.mp hexec
        rw [← Except.ok.inj hok]
        exact Execution.processSignal_positionSnapshots _ _ _ _
    rw [ih hrest, length_cons, Execution.markToMarket, length_append, hsnap,
      length_singleton]
    omega

theorem length_positions_run {asOf : Option T} {dataset : Dataset F T X} {out : ReplayOutput F}
    {q' : σ} {s' : Execution F}
    (hrun : run strategy cfg asOf dataset (q, s) = (.ok out, (q', s'))) :
    out.positions = s'.positionSnapshots ∧
      s.positionSnapshots.length < out.positions.length := by
  unfold run at hrun
  dsimp only at hrun
  cases hbars : extractBars asOf dataset with
  | error e => simp [hbars] at hrun
  | ok bars =>
    simp only [hbars] at hrun
    obtain ⟨firstBar, lastBar, s₁, -, hlen, hloop, hliq, rfl⟩ := runBars_ok hrun
    have hsnap : s'.positionSnapshots = s₁.positionSnapshots := by
      unfold liquidate at hliq
      split at hliq
      · obtain ⟨price, -, hok⟩ := bind_eq_ok.mp hliq
        rw [← Except.ok.inj hok]
        exact Execution.processSignal_positionSnapshots _ _ _ _
      · rw [← Except.ok.inj hliq]
    refine ⟨rfl, ?_⟩
    show _ < s'.positionSnapshots.length
    rw [hsnap, length_positionSnapshots_barLoop hloop]
    omega

/-- **Order and repetition.**  A run that returns has shown the bars in order just when the
dataset is stored that way, and the same run again never returns the same. -/
theorem replay_timely_not_repeated {asOf : Option T} {dataset : Dataset F T X}
    {out : ReplayOutput F} {state : σ × Execution F}
    (hrun : run strategy cfg asOf dataset (q, s) = (.ok out, state)) :
    (InOrder asOf (timestamps (shown strategy cfg asOf dataset (q, s))) ↔ Timely asOf dataset) ∧
      (run strategy cfg asOf dataset state).1 ≠ .ok out := by
  obtain ⟨q', s'⟩ := state
  obtain ⟨hpos, hlt⟩ := length_positions_run hrun
  constructor
  · have hbars := shown_eq hrun
    have hne : shown strategy cfg asOf dataset (q, s) ≠ [] := by
      intro hnil
      rw [hnil] at hbars
      unfold run at hrun
      simp [hbars, runBars] at hrun
    rw [timestamps_extractBars hbars hne]
    exact inOrder_seenTimes_iff
  · rcases hagain : run strategy cfg asOf dataset (q', s') with ⟨e | out', q'', s''⟩
    · intro heq
      cases heq
    · obtain ⟨-, hlt'⟩ := length_positions_run hagain
      rintro heq
      obtain rfl := Except.ok.inj heq
      rw [← hpos] at hlt'
      exact lt_irrefl _ hlt'

end

def twoBarsReversed : Dataset ℚ Int Unit :=
  .list [.replayBar 250 (some 1767312000) (some 200), .replayBar 150 (some 1767225600) (some 100)]

/-- Two bars in order are shown in order. -/
theorem twoBars_timely :
    InOrder (some 1767312000) (timestamps
        (shown (buyAndHold ℚ Int Unit) freeOfCost (some 1767312000) twoBars
          ((), .fresh freeOfCost))) ∧
      ∃ out state, run (buyAndHold ℚ Int Unit) freeOfCost (some 1767312000) twoBars
          ((), .fresh freeOfCost) = (.ok out, state) ∧
        (run (buyAndHold ℚ Int Unit) freeOfCost (some 1767312000) twoBars state).1 ≠ .ok out := by
  have hreturns : (run (buyAndHold ℚ Int Unit) freeOfCost (some 1767312000) twoBars
      ((), .fresh freeOfCost)).1.isOk = true := by decide +kernel
  have htimely : InOrder (some 1767312000) (storedTimes twoBars) := by decide +kernel
  rcases hrun : run (buyAndHold ℚ Int Unit) freeOfCost (some 1767312000) twoBars
    ((), .fresh freeOfCost) with ⟨e | out, state⟩
  · rw [hrun] at hreturns
    cases hreturns
  · obtain ⟨hiff, hne⟩ := replay_timely_not_repeated hrun
    exact ⟨hiff.mpr htimely, out, state, rfl, hne⟩

/-- Bars are shown in the stored order, whatever the times and the cutoff, and the second run
of an engine goes on where the first one ended. -/
theorem reversed_shown_reversed :
    timestamps (shown (buyAndHold ℚ Int Unit) freeOfCost (some 1767225600) twoBarsReversed
        ((), .fresh freeOfCost)) = [1767312000, 1767225600] ∧
      let first := run (buyAndHold ℚ Int Unit) freeOfCost (some 1767225600) twoBarsReversed
        ((), .fresh freeOfCost)
      let second := run (buyAndHold ℚ Int Unit) freeOfCost (some 1767225600) twoBarsReversed first.2
      first.1.toOption.map (fun out ↦ out.positions.length) = some 2 ∧
        second.1.toOption.map (fun out ↦ out.positions.length) = some 4 := by
  decide +kernel

end Qros.QuantEngine
