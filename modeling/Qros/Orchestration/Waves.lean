import Mathlib.Data.List.Nodup
import Qros.Orchestration.Parallel

/-!
# Waves one after the other

The invariant `InvAt` says of every branch of the plan what the log has about it.
Of a branch in a wave that is over it is one start and one finish with a value,
and the value stands at the branch's place in `completed`; of a branch in the
current wave it is what its future says; of a branch in a later wave it is
nothing.

Each move keeps it.  The moves of the main thread change nothing that the log
speaks of (`InvAt.move`), except that `join` puts a wave among those that are
over; the moves of the workers are all instances of `InvAt.work`.
-/

universe u

namespace Qros.Orchestration

open Qros.Lib List

variable {V : Type u}

/-! ## What the log has about a branch -/

def history (log : List (RunEvent V)) (branchId : String) : List (RunEvent V) :=
  log.filter fun e ↦ decide (e.branchId = branchId)

theorem history_concat (log : List (RunEvent V)) (e : RunEvent V) (branchId : String) :
    history (log ++ [e]) branchId =
      if e.branchId = branchId then history log branchId ++ [e] else history log branchId := by
  rw [history, filter_append]
  by_cases h : e.branchId = branchId
  · rw [if_pos h, filter_singleton, decide_eq_true h]
    rfl
  · rw [if_neg h, filter_singleton, decide_eq_false h]
    exact append_nil _

variable {branchId : String}

theorem history_concat_of_ne {log : List (RunEvent V)} {e : RunEvent V}
    (h : e.branchId ≠ branchId) : history (log ++ [e]) branchId = history log branchId := by
  rw [history_concat, if_neg h]

theorem mem_history {log : List (RunEvent V)} {e : RunEvent V} :
    e ∈ history log e.branchId ↔ e ∈ log := by
  rw [history, mem_filter]
  simp

/-- What a future says about the log. -/
def FutureState.events (branchId : String) : FutureState V → List (RunEvent V)
  | .pending | .cancelled => []
  | .running => [.started branchId]
  | .finished outcome => [.started branchId, .finished branchId outcome]

theorem FutureState.events_cancel (future : FutureState V) (branchId : String) :
    future.cancel.events branchId = future.events branchId := by
  cases future <;> rfl

/-- The future of the branch at a position; one that is not submitted is as good as pending. -/
def futureAt (futures : List (FutureState V)) (index : Nat) : FutureState V :=
  futures[index]?.getD .pending

variable {index : Nat}

theorem futureAt_eq {futures : List (FutureState V)} {future : FutureState V}
    (h : futures[index]? = some future) : futureAt futures index = future := by
  rw [futureAt, h]
  rfl

theorem futureAt_set {futures : List (FutureState V)} {future : FutureState V}
    (h : index < futures.length) (j : Nat) :
    futureAt (futures.set index future) j = if index = j then future else futureAt futures j := by
  rw [futureAt, getElem?_set]
  by_cases hj : index = j
  · rw [if_pos hj, if_pos hj, if_pos (hj ▸ h)]
    rfl
  · rw [if_neg hj, if_neg hj]
    rfl

theorem futureAt_submit (futures : List (FutureState V)) (j : Nat) :
    futureAt (futures ++ [.pending]) j = futureAt futures j := by
  rw [futureAt, futureAt, getElem?_append]
  by_cases hj : j < futures.length
  · rw [if_pos hj]
  · rw [if_neg hj, getElem?_eq_none (Nat.le_of_not_lt hj)]
    cases j - futures.length with
    | zero => rfl
    | succ n => rfl

theorem events_futureAt_cancel (futures : List (FutureState V)) (index j : Nat)
    (branchId : String) :
    (futureAt (futures.modify index FutureState.cancel) j).events branchId =
      (futureAt futures j).events branchId := by
  rw [futureAt, getElem?_modify, futureAt]
  cases futures[j]? with
  | none => rfl
  | some future =>
    show (if index = j then future.cancel else future).events branchId = future.events branchId
    split
    · exact future.events_cancel branchId
    · rfl

/-! ## The names of a plan -/

/-- The names of the branches of a wave. -/
def ResearchWave.ids (wave : ResearchWave) : List String :=
  wave.branches.map ResearchBranch.branchId

theorem branchIds_append (plan plan' : List ResearchWave) :
    branchIds (plan ++ plan') = branchIds plan ++ branchIds plan' := flatMap_append

theorem branchIds_cons (wave : ResearchWave) (plan : List ResearchWave) :
    branchIds (wave :: plan) = wave.ids ++ branchIds plan := flatMap_cons

theorem mem_branchIds {plan : List ResearchWave} :
    branchId ∈ branchIds plan ↔ ∃ wave ∈ plan, branchId ∈ wave.ids := mem_flatMap

theorem branchIdAt_eq {wave : ResearchWave} (h : wave.ids[index]? = some branchId) :
    branchIdAt wave index = branchId := by
  rw [ResearchWave.ids, getElem?_map] at h
  rw [branchIdAt, h]
  rfl

theorem exists_id {wave : ResearchWave} (h : index < wave.branches.length) :
    ∃ branchId, wave.ids[index]? = some branchId :=
  ⟨_, getElem?_eq_getElem (by rwa [ResearchWave.ids, length_map])⟩

theorem before_eq_of_nodup {before before' later later' : List ResearchWave}
    {wave wave' : ResearchWave} (hnodup : (branchIds (before ++ wave :: later)).Nodup)
    (heq : before ++ wave :: later = before' ++ wave' :: later') (h : branchId ∈ wave.ids)
    (h' : branchId ∈ wave'.ids) : before = before' ∧ wave = wave' ∧ later = later' := by
  rcases append_eq_append_iff.mp heq with ⟨as, rfl, has⟩ | ⟨bs, rfl, hbs⟩
  · cases as with
    | nil =>
      obtain ⟨rfl, rfl⟩ := List.cons.inj has
      exact ⟨(append_nil _).symm, rfl, rfl⟩
    | cons a as =>
      obtain ⟨rfl, rfl⟩ := List.cons.inj has
      rw [branchIds_append, branchIds_cons, nodup_append'] at hnodup
      have hdisj := (nodup_append'.mp hnodup.2.1).2.2
      refine absurd (mem_branchIds.mpr ⟨wave', ?_, h'⟩) (hdisj h)
      exact mem_append_right _ mem_cons_self
  · cases bs with
    | nil =>
      obtain ⟨rfl, rfl⟩ := List.cons.inj hbs
      exact ⟨append_nil _, rfl, rfl⟩
    | cons b bs =>
      obtain ⟨rfl, rfl⟩ := List.cons.inj hbs
      rw [branchIds_append, nodup_append'] at hnodup
      refine absurd (mem_branchIds.mpr ⟨wave, mem_cons_self, h⟩) (hnodup.2.2 ?_)
      exact mem_branchIds.mpr ⟨wave', mem_append_right _ mem_cons_self, h'⟩

/-! ## The invariant -/

def RanOnce (log : List (RunEvent V)) (branchId : String)
    (result : Option (ParallelBranchResult V)) : Prop :=
  ∃ v, result = some ⟨branchId, some v⟩ ∧
    history log branchId = [.started branchId, .finished branchId (.value v)]

/-- Every branch of the wave has run once, and `row` has the results in declared order. -/
def WaveRan (log : List (RunEvent V)) (wave : ResearchWave) (row : List (ParallelBranchResult V)) :
    Prop :=
  row.length = wave.branches.length ∧
    ∀ (i : Nat) (id : String), wave.ids[i]? = some id → RanOnce log id row[i]?

/-- The waves that are over, each with its results in its place. -/
def WavesRan (log : List (RunEvent V)) (waves : List ResearchWave)
    (rows : List (List (ParallelBranchResult V))) : Prop :=
  ∀ (k : Nat) (wave : ResearchWave), waves[k]? = some wave →
    ∃ row, rows[k]? = some row ∧ WaveRan log wave row

def Outcome.Fails : Outcome V → Prop
  | .value _ => False
  | _ => True

/-- Something outside the branches gets in the way of the main thread. -/
def RunInput.Obstructs : RunInput V → Prop
  | .openExecutor refusal => refusal.isSome
  | .submit refusal => refusal.isSome
  | .interrupt _ => True
  | _ => False

/-- There is a reason for the run to fail. -/
def Cause (is : List (RunInput V)) (log : List (RunEvent V)) : Prop :=
  (∃ i ∈ is, i.Obstructs) ∨ ∃ id outcome, RunEvent.finished id outcome ∈ log ∧ outcome.Fails

theorem Cause.mono {is is' : List (RunInput V)} {log log' : List (RunEvent V)}
    (h : Cause is log) (his : is ⊆ is') (hlog : log ⊆ log') : Cause is' log' := by
  rcases h with ⟨i, hi, ho⟩ | ⟨id, outcome, hmem, hfails⟩
  · exact .inl ⟨i, his hi, ho⟩
  · exact .inr ⟨id, outcome, hlog hmem, hfails⟩

def Returned (futures : List (FutureState V)) (values : List (Option V)) (n : Nat)
    (p : Nat → Prop) : Prop :=
  ∀ i, i < n → p i → ∃ v, futures[i]? = some (.finished (.value v)) ∧ values[i]? = some (some v)

/-- What is known where the main thread is, as long as there is a current wave. -/
def PhaseOk (is : List (RunInput V)) (log : List (RunEvent V)) (wave : ResearchWave)
    (s : RunState V) : Prop :=
  match s.main with
  | .opening => s.futures = [] ∧ s.completed.length = s.ran.length
  | .submitting =>
    s.futures.length < wave.branches.length ∧ .cancelled ∉ s.futures ∧
      s.completed.length = s.ran.length
  | .observing values waiting =>
    (s.futures.length = wave.branches.length ∧ waiting ≠ [] ∧
      ∀ i ∈ waiting, i < wave.branches.length) ∧
    values.length = wave.branches.length ∧ .cancelled ∉ s.futures ∧
      s.completed.length = s.ran.length ∧
      Returned s.futures values wave.branches.length (· ∉ waiting)
  | .shuttingDown none =>
    s.completed.length = s.ran.length + 1 ∧
      ∃ values, s.completed[s.ran.length]? = some (waveResults wave values) ∧
        values.length = wave.branches.length ∧
        Returned s.futures values wave.branches.length fun _ ↦ True
  | .cancelling _ _ | .shuttingDown (some _) | .raised _ => Cause is log
  | .returned _ => False

attribute [grind =] PhaseOk stepWave

/-- `wave` is the current wave of the run, and `later` are the waves behind it. -/
structure InvAt (plan : List ResearchWave) (is : List (RunInput V)) (log : List (RunEvent V))
    (wave : ResearchWave) (later : List ResearchWave) (s : RunState V) : Prop where
  plan_eq : s.ran ++ wave :: later = plan
  ahead : s.ahead = wave :: later
  ran : WavesRan log s.ran s.completed
  current : ∀ (i : Nat) (id : String), wave.ids[i]? = some id →
    history log id = (futureAt s.futures i).events id
  later : ∀ id ∈ branchIds later, history log id = []
  length : s.futures.length ≤ wave.branches.length
  phase : PhaseOk is log wave s

structure InvDone (plan : List ResearchWave) (log : List (RunEvent V)) (s : RunState V) : Prop where
  ahead : s.ahead = []
  main : s.main = .returned ⟨s.completed, plan.map ResearchWave.waveId⟩
  ran : WavesRan log plan s.completed
  length : s.completed.length = plan.length

def Inv (plan : List ResearchWave) (is : List (RunInput V)) (log : List (RunEvent V))
    (s : RunState V) : Prop :=
  (∃ wave later, InvAt plan is log wave later s) ∨ InvDone plan log s

/-! ## Moves of the main thread -/

section

variable {plan : List ResearchWave} {is : List (RunInput V)} {log : List (RunEvent V)}
variable {wave : ResearchWave} {later : List ResearchWave} {s : RunState V}

theorem PhaseOk.mono {is' : List (RunInput V)} (h : PhaseOk is log wave s) (his : is ⊆ is') :
    PhaseOk is' log wave s := by
  unfold PhaseOk at h ⊢
  split at h
  · exact h
  · exact h
  · exact h
  · exact h
  · exact h.mono his (List.Subset.refl _)
  · exact h.mono his (List.Subset.refl _)
  · exact h.mono his (List.Subset.refl _)
  · exact h

theorem WavesRan.exists_history {waves : List ResearchWave}
    {rows : List (List (ParallelBranchResult V))} (h : WavesRan log waves rows) {id : String}
    (hid : id ∈ branchIds waves) :
    ∃ v, history log id = [.started id, .finished id (.value v)] := by
  obtain ⟨w, hw, hid⟩ := mem_branchIds.mp hid
  obtain ⟨k, hk⟩ := mem_iff_getElem?.mp hw
  obtain ⟨i, hi⟩ := mem_iff_getElem?.mp hid
  obtain ⟨row, _, _, hran⟩ := h k w hk
  obtain ⟨v, _, hhistory⟩ := hran i id hi
  exact ⟨v, hhistory⟩

theorem WavesRan.mono {waves : List ResearchWave}
    {rows rows' : List (List (ParallelBranchResult V))} (h : WavesRan log waves rows)
    (hrows : rows <+: rows') : WavesRan log waves rows' := by
  intro k w hk
  obtain ⟨row, hrow, hran⟩ := h k w hk
  obtain ⟨rows, rfl⟩ := hrows
  refine ⟨row, ?_, hran⟩
  rw [List.getElem?_append_left (List.getElem?_eq_some_iff.mp hrow).1, hrow]

theorem InvAt.move (h : InvAt plan is log wave later s) {s' : RunState V}
    (hran : s'.ran = s.ran) (hahead : s'.ahead = s.ahead)
    (hcompleted : s.completed <+: s'.completed)
    (hfutures : ∀ j id, (futureAt s'.futures j).events id = (futureAt s.futures j).events id)
    (hlength : s'.futures.length ≤ wave.branches.length) (hphase : PhaseOk is log wave s') :
    InvAt plan is log wave later s' where
  plan_eq := by rw [hran, h.plan_eq]
  ahead := hahead.trans h.ahead
  ran := by
    rw [hran]
    exact h.ran.mono hcompleted
  current := by
    intro i id hid
    rw [hfutures, h.current i id hid]
  later := h.later
  length := hlength
  phase := hphase

theorem InvAt.goto (h : InvAt plan is log wave later s) {main : MainPhase V}
    (hphase : PhaseOk is log wave { s with main }) :
    InvAt plan is log wave later { s with main } :=
  h.move rfl rfl (List.prefix_refl _) (fun _ _ ↦ rfl) h.length hphase

theorem FutureState.eq_finished {future : FutureState V} {outcome : Outcome V}
    (h : future.result? = some outcome) (hne : future ≠ .cancelled) :
    future = .finished outcome := by
  cases future with
  | pending => cases h
  | running => cases h
  | finished o => exact congrArg FutureState.finished (Option.some.inj h)
  | cancelled => exact absurd rfl hne

theorem InvAt.finished_mem (h : InvAt plan is log wave later s) {index : Nat} {outcome : Outcome V}
    (hindex : s.futures[index]? = some (.finished outcome)) :
    ∃ id, .finished id outcome ∈ log := by
  have hlt : index < s.futures.length := (List.getElem?_eq_some_iff.mp hindex).1
  obtain ⟨id, hid⟩ := exists_id (Nat.lt_of_lt_of_le hlt h.length)
  have hhistory := h.current index id hid
  rw [futureAt_eq hindex] at hhistory
  refine ⟨id, mem_history.mp ?_⟩
  show RunEvent.finished id outcome ∈ history log id
  rw [hhistory]
  exact mem_cons_of_mem _ mem_cons_self

theorem wave_length_pos (wave : ResearchWave) : 0 < wave.branches.length :=
  length_pos_iff.mpr wave.branches_ne_nil

theorem InvAt.openExecutor (h : InvAt plan is log wave later s) {refusal : Option PyException}
    (hi : .openExecutor refusal ∈ is) :
    InvAt plan is log wave later (stepWave plan wave later s (.openExecutor refusal)).2 := by
  have hphase := h.phase
  simp only [stepWave]
  split
  · rename_i hmain
    simp only [PhaseOk, hmain] at hphase
    refine h.move rfl rfl (List.prefix_refl _) (fun j id ↦ ?_) (Nat.zero_le _)
      ⟨wave_length_pos wave, not_mem_nil, hphase.2⟩
    rw [hphase.1]
  · exact h.goto (.inl ⟨_, hi, rfl⟩)
  · exact h

theorem InvAt.submit (h : InvAt plan is log wave later s) {refusal : Option PyException}
    (hi : .submit refusal ∈ is) :
    InvAt plan is log wave later (stepWave plan wave later s (.submit refusal)).2 := by
  have hphase := h.phase
  simp only [stepWave]
  split
  · rename_i hmain
    simp only [PhaseOk, hmain] at hphase
    obtain ⟨hlt, hcancelled, hcompleted⟩ := hphase
    have hcancelled' : .cancelled ∉ s.futures ++ [.pending] := by
      simpa using hcancelled
    refine h.move rfl rfl (List.prefix_refl _) (fun j id ↦ ?_) ?_ ?_
    · exact congrArg _ (futureAt_submit s.futures j)
    · rw [length_append, length_singleton]
      exact hlt
    · by_cases hall : (s.futures ++ [FutureState.pending]).length = wave.branches.length
      · simp only [PhaseOk, if_pos hall]
        have hrange : List.range (s.futures ++ [FutureState.pending]).length ≠ [] := by
          rw [ne_eq, range_eq_nil, length_append]
          exact Nat.succ_ne_zero _
        refine ⟨⟨hall, hrange, fun i hi ↦ hall ▸ mem_range.mp hi⟩,
          by rw [length_replicate, hall], hcancelled', hcompleted, ?_⟩
        intro i hi hwaiting
        exact absurd (mem_range.mpr (hall ▸ hi)) hwaiting
      · simp only [PhaseOk, if_neg hall]
        refine ⟨?_, hcancelled', hcompleted⟩
        rw [length_append, length_singleton] at hall ⊢
        omega
  · exact h.goto (.inl ⟨_, hi, rfl⟩)
  · exact h

theorem Returned.observe {futures : List (FutureState V)} {values : List (Option V)} {n index : Nat}
    {waiting : List Nat} {v : V} (h : Returned futures values n (· ∉ waiting))
    (hindex : futures[index]? = some (.finished (.value v))) (hlt : index < values.length) :
    Returned futures (values.set index (some v)) n (· ∉ waiting.erase index) := by
  intro i hi hwaiting
  by_cases heq : index = i
  · subst heq
    exact ⟨v, hindex, by rw [getElem?_set_self hlt]⟩
  · have hnot : i ∉ waiting := fun hmem ↦
      hwaiting ((mem_erase_of_ne (Ne.symm heq)).mpr hmem)
    obtain ⟨w, hfuture, hvalue⟩ := h i hi hnot
    exact ⟨w, hfuture, by rw [getElem?_set_ne heq, hvalue]⟩

theorem InvAt.observe (h : InvAt plan is log wave later s) {index : Nat} :
    InvAt plan is log wave later (stepWave plan wave later s (.observe index)).2 := by
  have hphase := h.phase
  simp only [stepWave]
  split
  · rename_i values waiting outcome hmain hresult
    split
    · obtain ⟨future, hindex, hresult⟩ := Option.bind_eq_some_iff.mp hresult
      simp only [PhaseOk, hmain] at hphase
      obtain ⟨⟨hfutures, _, hwaiting⟩, hlength, hcancelled, hcompleted, hreturned⟩ := hphase
      obtain rfl := FutureState.eq_finished hresult fun heq ↦
        hcancelled (heq ▸ mem_of_getElem? hindex)
      have hlt : index < values.length := by
        have := (List.getElem?_eq_some_iff.mp hindex).1
        have := h.length
        omega
      cases outcome with
      | value v =>
        have hreturned' := hreturned.observe hindex hlt
        by_cases hnil : waiting.erase index = []
        · simp only [observeOutcome, if_pos hnil]
          refine h.move rfl rfl (List.prefix_append _ _) (fun _ _ ↦ rfl) h.length ?_
          simp only [PhaseOk]
          refine ⟨by rw [length_append, hcompleted]; rfl, values.set index (some v), ?_,
            by rw [length_set, hlength], ?_⟩
          · rw [← hcompleted, getElem?_concat_length]
          · intro i hi _
            exact hreturned' i hi (by rw [hnil]; exact not_mem_nil)
        · simp only [observeOutcome, if_neg hnil]
          refine h.goto ?_
          simp only [PhaseOk]
          exact ⟨⟨hfutures, hnil, fun i hi ↦ hwaiting i (mem_of_mem_erase hi)⟩,
            by rw [length_set, hlength], hcancelled, hcompleted, hreturned'⟩
      | exception exc =>
        obtain ⟨id, hmem⟩ := h.finished_mem hindex
        exact h.goto (.inr ⟨id, _, hmem, trivial⟩)
      | baseException exc =>
        obtain ⟨id, hmem⟩ := h.finished_mem hindex
        exact h.goto (.inr ⟨id, _, hmem, trivial⟩)
    · exact h
  · exact h

theorem InvAt.cancel (h : InvAt plan is log wave later s) :
    InvAt plan is log wave later (stepWave plan wave later s .cancel).2 := by
  have hphase := h.phase
  simp only [stepWave]
  split
  · rename_i hmain
    simp only [PhaseOk, hmain] at hphase
    exact h.goto hphase
  · rename_i hmain
    simp only [PhaseOk, hmain] at hphase
    exact h.move rfl rfl (List.prefix_refl _) (fun j id ↦ events_futureAt_cancel _ _ _ _)
      (by rw [length_modify]; exact h.length) hphase
  · exact h

theorem Returned.cancel {futures : List (FutureState V)} {values : List (Option V)} {n index : Nat}
    {p : Nat → Prop} (h : Returned futures values n p) :
    Returned (futures.modify index FutureState.cancel) values n p := by
  intro i hi hp
  obtain ⟨v, hfuture, hvalue⟩ := h i hi hp
  refine ⟨v, ?_, hvalue⟩
  rw [getElem?_modify, hfuture]
  show some (if index = i then _ else _) = _
  split
  · rfl
  · rfl

theorem InvAt.drain (h : InvAt plan is log wave later s) {index : Nat} :
    InvAt plan is log wave later (stepWave plan wave later s (.drain index)).2 := by
  have hphase := h.phase
  simp only [stepWave]
  split
  · rename_i error hmain
    refine h.move rfl rfl (List.prefix_refl _) (fun j id ↦ events_futureAt_cancel _ _ _ _)
      (by rw [length_modify]; exact h.length) ?_
    cases error with
    | none =>
      simp only [PhaseOk, hmain] at hphase ⊢
      obtain ⟨hcompleted, values, hrow, hlength, hreturned⟩ := hphase
      exact ⟨hcompleted, values, hrow, hlength, hreturned.cancel⟩
    | some error =>
      simp only [PhaseOk, hmain] at hphase ⊢
      exact hphase
  · exact h

theorem InvAt.interrupt (h : InvAt plan is log wave later s) {exc : PyException}
    (hi : .interrupt exc ∈ is) :
    InvAt plan is log wave later (stepWave plan wave later s (.interrupt exc)).2 := by
  have hcause : Cause is log := .inl ⟨_, hi, trivial⟩
  have hphase := h.phase
  refine h.goto ?_
  cases hmain : s.main with
  | returned result =>
    simp only [PhaseOk, hmain] at hphase
  | _ => exact hcause

theorem InvAt.wavesRan_concat (h : InvAt plan is log wave later s)
    (hmain : s.main = .shuttingDown none) : WavesRan log (s.ran ++ [wave]) s.completed := by
  have hphase := h.phase
  simp only [PhaseOk, hmain] at hphase
  obtain ⟨-, values, hrow, hlength, hreturned⟩ := hphase
  intro k w hk
  rw [getElem?_append] at hk
  split at hk
  · exact h.ran k w hk
  · have hzero : k - s.ran.length = 0 := by
      have := (List.getElem?_eq_some_iff.mp hk).1
      rw [length_singleton] at this
      omega
    rw [hzero] at hk
    obtain rfl : wave = w := Option.some.inj hk
    obtain rfl : k = s.ran.length := by omega
    refine ⟨_, hrow, ?_, ?_⟩
    · rw [waveResults, length_zipWith, hlength, Nat.min_self]
    · intro i id hid
      have hcurrent := h.current i id hid
      rw [ResearchWave.ids, getElem?_map, Option.map_eq_some_iff] at hid
      obtain ⟨branch, hbranch, rfl⟩ := hid
      obtain ⟨v, hfuture, hvalue⟩ :=
        hreturned i (List.getElem?_eq_some_iff.mp hbranch).1 trivial
      refine ⟨v, ?_, ?_⟩
      · rw [waveResults, getElem?_zipWith, hbranch, hvalue]
      · rw [hcurrent, futureAt_eq hfuture]
        rfl

theorem InvAt.join (h : InvAt plan is log wave later s) :
    Inv plan is log (stepWave plan wave later s .join).2 := by
  have hphase := h.phase
  simp only [stepWave]
  split
  · rename_i error hmain
    split
    · cases error with
      | some error =>
        simp only [PhaseOk, hmain] at hphase
        exact .inl ⟨wave, later, h.goto hphase⟩
      | none =>
        have hran := h.wavesRan_concat hmain
        simp only [PhaseOk, hmain] at hphase
        have hlength : s.completed.length = (s.ran ++ [wave]).length := by
          rw [hphase.1, length_append]
          rfl
        have hplan : (s.ran ++ [wave]) ++ later = plan := by
          rw [append_assoc]
          exact h.plan_eq
        cases later with
        | nil =>
          rw [append_nil] at hplan
          exact .inr ⟨rfl, rfl, hplan ▸ hran, hplan ▸ hlength⟩
        | cons next later =>
          refine .inl ⟨next, later, hplan, rfl, hran, ?_, ?_, Nat.zero_le _, rfl, hlength⟩
          · intro i id hid
            exact h.later id (by
              rw [branchIds_cons]
              exact mem_append_left _ (mem_of_getElem? hid))
          · intro id hid
            exact h.later id (by
              rw [branchIds_cons]
              exact mem_append_right _ hid)
    · exact .inl ⟨wave, later, h⟩
  · exact .inl ⟨wave, later, h⟩

end

/-! ## Moves of the workers -/

section

variable {plan : List ResearchWave} {is : List (RunInput V)} {log : List (RunEvent V)}
variable {wave : ResearchWave} {later : List ResearchWave} {s : RunState V}

variable {future future' : FutureState V}

theorem Returned.work {futures : List (FutureState V)} {values : List (Option V)} {n index : Nat}
    {p : Nat → Prop} (h : Returned futures values n p) (hindex : futures[index]? = some future)
    (hopen : ∀ outcome, future ≠ .finished outcome) :
    Returned (futures.set index future') values n p := by
  intro i hi hp
  obtain ⟨v, hfuture, hvalue⟩ := h i hi hp
  refine ⟨v, ?_, hvalue⟩
  rw [getElem?_set_ne, hfuture]
  rintro rfl
  exact hopen _ (Option.some.inj (hindex.symm.trans hfuture))

theorem PhaseOk.work (h : PhaseOk is log wave s) {index : Nat} {e : RunEvent V}
    (hindex : s.futures[index]? = some future) (hopen : ∀ outcome, future ≠ .finished outcome)
    (hne : future' ≠ .cancelled) :
    PhaseOk is (log ++ [e]) wave { s with futures := s.futures.set index future' } := by
  have hcancelled : .cancelled ∉ s.futures → .cancelled ∉ s.futures.set index future' := by
    intro hnot hmem
    rcases mem_or_eq_of_mem_set hmem with hmem | heq
    · exact hnot hmem
    · exact hne heq.symm
  have hmono : Cause is log → Cause is (log ++ [e]) := fun hc ↦
    hc.mono (List.Subset.refl _) (subset_append_left _ _)
  cases hmain : s.main with
  | opening =>
    simp only [PhaseOk, hmain] at h
    rw [h.1] at hindex
    cases hindex
  | submitting =>
    simp only [PhaseOk, hmain] at h ⊢
    exact ⟨by rw [length_set]; exact h.1, hcancelled h.2.1, h.2.2⟩
  | observing values waiting =>
    simp only [PhaseOk, hmain] at h ⊢
    obtain ⟨⟨hfutures, hwaiting⟩, hlength, hnot, hcompleted, hreturned⟩ := h
    exact ⟨⟨by rw [length_set, hfutures], hwaiting⟩, hlength, hcancelled hnot, hcompleted,
      hreturned.work hindex hopen⟩
  | cancelling todo error =>
    simp only [PhaseOk, hmain] at h ⊢
    exact hmono h
  | shuttingDown error =>
    cases error with
    | none =>
      simp only [PhaseOk, hmain] at h ⊢
      obtain ⟨hcompleted, values, hrow, hlength, hreturned⟩ := h
      exact ⟨hcompleted, values, hrow, hlength, hreturned.work hindex hopen⟩
    | some error =>
      simp only [PhaseOk, hmain] at h ⊢
      exact hmono h
  | returned result =>
    simp only [PhaseOk, hmain] at h
  | raised error =>
    simp only [PhaseOk, hmain] at h ⊢
    exact hmono h

theorem InvAt.work (hnodup : (branchIds plan).Nodup) (h : InvAt plan is log wave later s)
    {index : Nat} {e : RunEvent V} (hindex : s.futures[index]? = some future)
    (hopen : ∀ outcome, future ≠ .finished outcome) (hne : future' ≠ .cancelled)
    (he : e.branchId = branchIdAt wave index)
    (hevents : future'.events e.branchId = future.events e.branchId ++ [e]) :
    InvAt plan is (log ++ [e]) wave later { s with futures := s.futures.set index future' } := by
  have hlt : index < s.futures.length := (List.getElem?_eq_some_iff.mp hindex).1
  obtain ⟨id, hid⟩ := exists_id (Nat.lt_of_lt_of_le hlt h.length)
  rw [branchIdAt_eq hid] at he
  subst he
  have hmem : e.branchId ∈ wave.ids := mem_of_getElem? hid
  rw [← h.plan_eq, branchIds_append, branchIds_cons] at hnodup
  obtain ⟨-, hnodup, hbefore⟩ := nodup_append'.mp hnodup
  have hlater := (nodup_append'.mp hnodup).2.2
  refine ⟨h.plan_eq, h.ahead, ?_, ?_, ?_, ?_, ?_⟩
  · intro k w hk
    obtain ⟨row, hrow, hlength, hran⟩ := h.ran k w hk
    refine ⟨row, hrow, hlength, ?_⟩
    intro i id hi
    obtain ⟨v, hresult, hhistory⟩ := hran i id hi
    refine ⟨v, hresult, ?_⟩
    rw [history_concat_of_ne, hhistory]
    rintro rfl
    exact hbefore (mem_branchIds.mpr ⟨w, mem_of_getElem? hk, mem_of_getElem? hi⟩)
      (mem_append_left _ hmem)
  · intro i id hi
    rw [futureAt_set hlt]
    by_cases hii : index = i
    · subst hii
      obtain rfl : e.branchId = id := Option.some.inj (hid.symm.trans hi)
      rw [if_pos rfl, history_concat, if_pos rfl, hevents, h.current index _ hid,
        futureAt_eq hindex]
    · rw [if_neg hii, history_concat_of_ne, h.current i id hi]
      rintro rfl
      have hlength : index < wave.ids.length := (List.getElem?_eq_some_iff.mp hid).1
      exact hii ((getElem?_inj hlength wave.branches_nodup).mp (hid.trans hi.symm))
  · intro id hi
    rw [history_concat_of_ne, h.later id hi]
    rintro rfl
    exact hlater hmem hi
  · rw [length_set]
    exact h.length
  · exact h.phase.work hindex hopen hne

end

end Qros.Orchestration
