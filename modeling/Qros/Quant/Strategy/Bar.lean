import Qros.Quant.Strategy.Run
import Qros.Quant.Strategy.Step

/-!
# The bar loop, bar by bar

What one pass of the loop does to each part of the loop state, and what follows
for the state after `n` bars:

* the equity curve lists the mark-to-market value at each close
  (`equityCurve_eq`), also on a bar on which the breaker fires;
* the cursor hands bar `n` the signals stamped `n`, in the order they were
  supplied (`stateAfter_succ`), and consumes every signal exactly once
  (`signalsProcessed_eq`);
* the queue is emptied before it is filled again, so that a signal waits for
  exactly one bar (`pending_stateAfter`).
-/

universe u

set_option linter.unusedSectionVars false

namespace Qros.Quant.Strategy

open Qros.Lib.KeySort List

variable {F : Type u} [Zero F] [One F] [NatCast F] [Add F] [Sub F] [Mul F] [Div F] [Neg F]
  [LT F] [LE F] [DecidableLT F] [DecidableLE F]

/-! ## Accepted input -/

/-- What `run` checks before it starts. -/
structure Accepted (bars : List (OHLCV F)) (signals : List (StrategySignal F)) : Prop where
  nonempty : 0 < bars.length
  valid : ∀ i < bars.length, (barAt bars i).isValid = true
  ordered : ∀ i, i + 1 < bars.length →
    (barAt bars i).timestamp ≤ (barAt bars (i + 1)).timestamp
  inRange : ∀ s ∈ signals, 0 ≤ s.barIndex ∧ s.barIndex < bars.length

variable {bars : List (OHLCV F)} {signals : List (StrategySignal F)}

theorem barError_eq_none {i : Nat} :
    barError bars i = none ↔ (barAt bars i).isValid = true ∧
      (0 < i → (barAt bars (i - 1)).timestamp ≤ (barAt bars i).timestamp) := by
  unfold barError
  split
  · rename_i h
    simp_all
  · rename_i h
    split
    · rename_i h'
      simp only [reduceCtorEq, false_iff, not_and]
      intro _ hle
      exact absurd (hle h'.1) (not_le.mpr h'.2)
    · rename_i h'
      simp only [true_iff]
      refine ⟨by simpa using h, fun hi ↦ ?_⟩
      exact not_lt.mp fun hlt ↦ h' ⟨hi, hlt⟩

theorem inputError_eq_none :
    inputError bars signals = none ↔ Accepted bars signals := by
  unfold inputError
  split
  · rename_i h
    simp only [reduceCtorEq, false_iff]
    intro hacc
    have := hacc.nonempty
    simp_all
  · rename_i h
    have hne : 0 < bars.length := length_pos_iff.mpr (by simpa using h)
    split
    · rename_i e he
      simp only [reduceCtorEq, false_iff]
      intro hacc
      obtain ⟨i, hi, hei⟩ := exists_of_findSome?_eq_some he
      have hnone : barError bars i = none := barError_eq_none.mpr
        ⟨hacc.valid i (mem_range.mp hi), fun hpos ↦ by
          have := hacc.ordered (i - 1) (by have := mem_range.mp hi; omega)
          rwa [Nat.sub_add_cancel hpos] at this⟩
      rw [hnone] at hei
      cases hei
    · rename_i hnone
      rw [findSome?_eq_none_iff] at hnone
      have hbar : ∀ i < bars.length, _ := fun i hi ↦
        barError_eq_none.mp (hnone i (mem_range.mpr hi))
      split
      · rename_i hany
        simp only [reduceCtorEq, false_iff]
        intro hacc
        obtain ⟨s, hs, hbad⟩ := any_eq_true.mp hany
        have := hacc.inRange s hs
        simp only [Bool.or_eq_true, decide_eq_true_eq] at hbad
        omega
      · rename_i hany
        simp only [true_iff]
        refine ⟨hne, fun i hi ↦ (hbar i hi).1, fun i hi ↦ (hbar (i + 1) hi).2 (Nat.succ_pos i),
          fun s hs ↦ ?_⟩
        have hgood : ¬ _ := fun hbad ↦ hany (any_eq_true.mpr ⟨s, hs, hbad⟩)
        simp only [Bool.or_eq_true, decide_eq_true_eq] at hgood
        omega

theorem Accepted.timestamp_mono (h : Accepted bars signals) {i j : Nat} (hij : i ≤ j)
    (hj : j < bars.length) :
    (barAt bars i).timestamp ≤ (barAt bars j).timestamp := by
  induction j with
  | zero => rw [Nat.le_zero.mp hij]
  | succ j ih =>
    rcases Nat.lt_or_eq_of_le hij with hlt | rfl
    · exact le_trans (ih (Nat.lt_succ_iff.mp hlt) (by omega)) (h.ordered j hj)
    · exact le_refl _

variable [CMath F]

theorem run_eq_ok [IntCast F] [BEq F] {cfg : StrategyConfig F} {r : SimulationResult F} :
    run cfg bars signals = .ok r ↔ Accepted bars signals ∧ simulate cfg bars signals = r := by
  rw [← inputError_eq_none]
  unfold run
  split <;> simp_all

theorem exists_run [IntCast F] [BEq F] {cfg : StrategyConfig F}
    (h : (inputError bars signals).isNone = true) :
    ∃ r, run cfg bars signals = .ok r :=
  ⟨_, run_eq_ok.mpr ⟨inputError_eq_none.mp (Option.isNone_iff_eq_none.mp h), rfl⟩⟩

/-! ## Queueing -/

theorem queueSignals_frame (sigs : List (StrategySignal F)) (ctx : Context F) :
    sigs.foldl queueSignal ctx = { ctx with
      pending := (sigs.foldl queueSignal ctx).pending
      signalsIgnored := (sigs.foldl queueSignal ctx).signalsIgnored } := by
  induction sigs generalizing ctx with
  | nil => rfl
  | cons s sigs ih =>
    rw [foldl_cons, ih (queueSignal ctx s)]
    unfold queueSignal
    split <;> rfl

theorem mem_pending_queueSignals {sigs : List (StrategySignal F)} {ctx : Context F}
    {s : StrategySignal F} (h : s ∈ (sigs.foldl queueSignal ctx).pending) :
    s ∈ ctx.pending ∨ s ∈ sigs := by
  induction sigs generalizing ctx with
  | nil => exact .inl h
  | cons a sigs ih =>
    rcases ih h with h | h
    · unfold queueSignal at h
      split at h
      · exact .inl h
      · rcases mem_append.mp h with h | h
        · exact .inl h
        · exact .inr (mem_singleton.mp h ▸ mem_cons_self)
    · exact .inr (mem_cons_of_mem _ h)

/-! ## One bar -/

/-- The equity reported for a bar is the value of the positions the bar ends
with, also when the breaker has just closed them. -/
theorem closeBar_equity (env : Env F) (ctx : Context F) (i : Nat) :
    (closeBar env ctx i).2 = markToMarket (closeBar env ctx i).1 (barAt env.bars i).close := by
  simp only [closeBar, lossLimitBreaker]
  split <;> rfl

theorem barStep_ctx (env : Env F) (i : Nat) (sigs rest : List (StrategySignal F))
    (st : LoopState F) : (barStep env i sigs rest st).ctx =
      sigs.foldl queueSignal { (closeBar env st.ctx i).1 with
        currentEquity := (closeBar env st.ctx i).2 } := rfl

theorem loopBody_frame (env : Env F) (i : Nat) (st : LoopState F) :
    (loopBody env i st).ctx = { (closeBar env st.ctx i).1 with
      currentEquity := (closeBar env st.ctx i).2
      pending := (loopBody env i st).ctx.pending
      signalsIgnored := (loopBody env i st).ctx.signalsIgnored } :=
  queueSignals_frame _ _

theorem loopBody_equityCurve (env : Env F) (i : Nat) (st : LoopState F) :
    (loopBody env i st).equityCurve = st.equityCurve ++
      [markToMarket (loopBody env i st).ctx (barAt env.bars i).close] := by
  rw [loopBody_frame]
  show _ = _ ++ [markToMarket (closeBar env st.ctx i).1 _]
  rw [← closeBar_equity]
  rfl

theorem equityCurve_eq (env : Env F) (ordered : List (StrategySignal F)) (n : Nat) :
    (stateAfter env ordered n).equityCurve = (List.range n).map fun i ↦
      markToMarket (stateAfter env ordered (i + 1)).ctx (barAt env.bars i).close := by
  induction n with
  | zero => rfl
  | succ n ih =>
    rw [range_succ, map_append, ← ih]
    exact loopBody_equityCurve env n _

theorem length_equityCurve (env : Env F) (ordered : List (StrategySignal F)) (n : Nat) :
    (stateAfter env ordered n).equityCurve.length = n := by
  rw [equityCurve_eq, length_map, length_range]

/-! ## The cursor -/

structure CursorAt (signals : List (StrategySignal F)) (n : Nat)
    (rest : List (StrategySignal F)) : Prop where
  sorted : rest.Pairwise (fun a b ↦ a.barIndex ≤ b.barIndex)
  notBefore : ∀ s ∈ rest, (n : Int) ≤ s.barIndex
  complete : ∀ k : Int, (n : Int) ≤ k → atKey StrategySignal.barIndex k rest =
    atKey StrategySignal.barIndex k signals

/-- The signals stamped with bar `i`, in the order they were supplied. -/
def signalsAt (signals : List (StrategySignal F)) (i : Nat) : List (StrategySignal F) :=
  atKey StrategySignal.barIndex (i : Int) signals

theorem cursorAt_zero (h : ∀ s ∈ signals, 0 ≤ s.barIndex) :
    CursorAt signals 0 (orderSignals signals) where
  sorted := stableSortBy_sorted _ _
  notBefore := fun s hs ↦ h s ((mem_stableSortBy _).mp hs)
  complete := fun k _ ↦ atKey_stableSortBy _ k signals

theorem CursorAt.takeWhile_eq {signals rest : List (StrategySignal F)} {n : Nat}
    (h : CursorAt signals n rest) :
    rest.takeWhile (fun s ↦ decide (s.barIndex = (n : Int))) = signalsAt signals n :=
  (takeWhile_eq_atKey _ h.sorted h.notBefore).trans (h.complete n (le_refl _))

theorem CursorAt.dropWhile {signals rest : List (StrategySignal F)} {n : Nat}
    (h : CursorAt signals n rest) :
    CursorAt signals (n + 1) (rest.dropWhile (fun s ↦ decide (s.barIndex = (n : Int)))) where
  sorted := dropWhile_sorted _ h.sorted
  notBefore := by
    intro s hs
    have := lt_of_mem_dropWhile _ h.sorted h.notBefore hs
    omega
  complete := by
    intro k hk
    rw [atKey_dropWhile _ (by omega), h.complete k (by omega)]

theorem cursorAt_stateAfter (env : Env F) (h : ∀ s ∈ signals, 0 ≤ s.barIndex) (n : Nat) :
    CursorAt signals n (stateAfter env (orderSignals signals) n).rest := by
  induction n with
  | zero => exact cursorAt_zero h
  | succ n ih => exact ih.dropWhile

/-- **Bar `n` is handed the signals stamped `n`.** -/
theorem stateAfter_succ (env : Env F) (h : ∀ s ∈ signals, 0 ≤ s.barIndex) (n : Nat) :
    ∃ rest, stateAfter env (orderSignals signals) (n + 1) =
      barStep env n (signalsAt signals n) rest (stateAfter env (orderSignals signals) n) :=
  ⟨_, by rw [← (cursorAt_stateAfter env h n).takeWhile_eq]; rfl⟩

/-- Filling the queued signals empties the queue, and the rest of the bar leaves
it empty. -/
theorem pending_closeBar (env : Env F) (ctx : Context F) (i : Nat) :
    (closeBar env ctx i).1.pending = [] := by
  have hm : (managed env ctx i).pending = [] := by
    rw [managed, (steps_managePositions _ _ _).frame]
    rfl
  simp only [closeBar, lossLimitBreaker]
  split
  · rw [(steps_closeAll _ _ _ _ _).frame]
    exact hm
  · exact hm

theorem pending_stateAfter (env : Env F) (h : ∀ s ∈ signals, 0 ≤ s.barIndex) {n : Nat}
    {s : StrategySignal F} (hs : s ∈ (stateAfter env (orderSignals signals) (n + 1)).ctx.pending) :
    s.barIndex = (n : Int) ∧ s ∈ signals := by
  obtain ⟨rest, heq⟩ := stateAfter_succ env h n
  rw [heq, barStep_ctx] at hs
  rcases mem_pending_queueSignals hs with hs | hs
  · rw [pending_closeBar] at hs
    cases hs
  · obtain ⟨hmem, hkey⟩ := mem_filter.mp hs
    exact ⟨of_decide_eq_true hkey, hmem⟩

theorem length_takeWhile_add_dropWhile {α : Type u} (p : α → Bool) (l : List α) :
    (l.takeWhile p).length + (l.dropWhile p).length = l.length := by
  rw [← length_append, takeWhile_append_dropWhile]

theorem signalsProcessed_add_rest (env : Env F) (ordered : List (StrategySignal F)) (n : Nat) :
    (stateAfter env ordered n).signalsProcessed + (stateAfter env ordered n).rest.length =
      ordered.length := by
  induction n with
  | zero => exact Nat.zero_add _
  | succ n ih =>
    rw [← ih, ← length_takeWhile_add_dropWhile (fun s ↦ decide (s.barIndex = (n : Int)))
      (stateAfter env ordered n).rest, ← Nat.add_assoc]
    rfl

/-- **Each signal is consumed exactly once.** -/
theorem signalsProcessed_eq (h : Accepted bars signals) (cfg : StrategyConfig F) :
    (loopEnd cfg bars signals).signalsProcessed = signals.length := by
  have hcur := cursorAt_stateAfter (runEnv cfg bars) (fun s hs ↦ (h.inRange s hs).1) bars.length
  have hrest : (loopEnd cfg bars signals).rest = [] := by
    apply eq_nil_iff_forall_not_mem.mpr
    intro s hs
    have hge := hcur.notBefore s hs
    have hmem : s ∈ atKey StrategySignal.barIndex s.barIndex signals := by
      rw [← hcur.complete _ hge]
      exact mem_filter.mpr ⟨hs, by simp⟩
    have := (h.inRange s (mem_filter.mp hmem).1).2
    omega
  have hsum := signalsProcessed_add_rest (runEnv cfg bars) (orderSignals signals) bars.length
  have hlen : (orderSignals signals).length = signals.length :=
    (stableSortBy_perm _ signals).length_eq
  unfold loopEnd at hrest ⊢
  rw [hrest, length_nil, Nat.add_zero, hlen] at hsum
  exact hsum

end Qros.Quant.Strategy
