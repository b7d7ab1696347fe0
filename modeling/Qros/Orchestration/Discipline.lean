import Qros.Orchestration.Waves

/-!
# The discipline of the executor

`executor_disciplined` is about every run: any order in which the workers start
and finish branches and in which finished futures are handed out, any branches
that fail, any refusal of an executor.  `executor_progress` says that no run gets
stuck before it has returned or raised.
-/

universe u

namespace Qros.Orchestration

open Qros.Lib List

variable {V : Type u}

/-! ## Every run -/

section

variable {plan : List ResearchWave} {is : List (RunInput V)} {log : List (RunEvent V)}
variable {s : RunState V}

theorem runLog_concat (is : List (RunInput V)) (i : RunInput V) :
    runLog plan (is ++ [i]) = runLog plan is ++
      (stepRun plan i ((executor V plan).after is)).1.toList := by
  rw [runLog, Machine.trace_concat, filterMap_append, runLog]
  congr 1

def RunInput.ofWorker : RunInput V → Bool
  | .start _ | .finish _ _ => true
  | _ => false

variable {i : RunInput V} {later : List ResearchWave} {wave : ResearchWave} {id : String}

theorem stepWave_main (hi : i.ofWorker = false) : (stepWave plan wave later s i).1 = none := by
  cases i with
  | openExecutor refusal =>
    simp only [stepWave]
    split <;> rfl
  | submit refusal =>
    simp only [stepWave]
    split <;> rfl
  | observe index =>
    simp only [stepWave]
    split
    · split <;> rfl
    · rfl
  | cancel =>
    simp only [stepWave]
    split <;> rfl
  | drain index =>
    simp only [stepWave]
    split <;> rfl
  | join =>
    simp only [stepWave]
    split
    · split <;> rfl
    · rfl
  | interrupt exc => rfl
  | start index => cases hi
  | finish index outcome => cases hi

theorem InvAt.step_main (h : InvAt plan is log wave later s) (hi : i ∈ is)
    (hmain : i.ofWorker = false) :
    Inv plan is log (stepWave plan wave later s i).2 := by
  cases i with
  | openExecutor refusal => exact .inl ⟨wave, later, h.openExecutor hi⟩
  | submit refusal => exact .inl ⟨wave, later, h.submit hi⟩
  | observe index => exact .inl ⟨wave, later, h.observe⟩
  | cancel => exact .inl ⟨wave, later, h.cancel⟩
  | drain index => exact .inl ⟨wave, later, h.drain⟩
  | join => exact h.join
  | interrupt exc => exact .inl ⟨wave, later, h.interrupt hi⟩
  | start index => cases hmain
  | finish index outcome => cases hmain

theorem InvAt.step_worker (hnodup : (branchIds plan).Nodup) (h : InvAt plan is log wave later s)
    (hworker : i.ofWorker = true) :
    Inv plan is (log ++ (stepWave plan wave later s i).1.toList)
      (stepWave plan wave later s i).2 := by
  have hnone : Inv plan is (log ++ (none : Option (RunEvent V)).toList) s :=
    .inl ⟨wave, later, by rwa [Option.toList_none, append_nil]⟩
  cases i with
  | start index =>
    simp only [stepWave]
    split
    · rename_i hindex
      exact .inl ⟨wave, later, h.work hnodup hindex (by rintro _ ⟨⟩) (by rintro ⟨⟩) rfl rfl⟩
    · exact hnone
  | finish index outcome =>
    simp only [stepWave]
    split
    · rename_i hindex
      exact .inl ⟨wave, later, h.work hnodup hindex (by rintro _ ⟨⟩) (by rintro ⟨⟩) rfl rfl⟩
    · exact hnone
  | _ => cases hworker

theorem InvAt.step (hnodup : (branchIds plan).Nodup) (h : InvAt plan is log wave later s)
    (hi : i ∈ is) :
    Inv plan is (log ++ (stepWave plan wave later s i).1.toList)
      (stepWave plan wave later s i).2 := by
  cases hworker : i.ofWorker with
  | true => exact h.step_worker hnodup hworker
  | false =>
    rw [stepWave_main hworker, Option.toList_none, append_nil]
    exact h.step_main hi hworker

theorem Inv.step (hnodup : (branchIds plan).Nodup) (h : Inv plan is log s) :
    Inv plan (is ++ [i]) (log ++ (stepRun plan i s).1.toList) (stepRun plan i s).2 := by
  rcases h with ⟨wave, later, h⟩ | h
  · rw [stepRun, h.ahead]
    have h' : InvAt plan (is ++ [i]) log wave later s :=
      { h with phase := h.phase.mono (subset_append_left _ _) }
    exact h'.step hnodup (mem_append_right _ mem_cons_self)
  · rw [stepRun, h.ahead, Option.toList_none, append_nil]
    exact .inr h

theorem checkPlan_eq_ok {u : Unit} (h : checkPlan plan = .ok u) :
    plan ≠ [] ∧ (branchIds plan).Nodup := by
  obtain ⟨_, hne, h⟩ := bind_eq_ok.mp h
  obtain ⟨_, _, h⟩ := bind_eq_ok.mp h
  exact ⟨require_eq_ok.mp hne, require_eq_ok.mp h⟩

theorem inv_run {u : Unit} (h : checkPlan plan = .ok u) (is : List (RunInput V)) :
    Inv plan is (runLog plan is) ((executor V plan).after is) := by
  obtain ⟨hne, hnodup⟩ := checkPlan_eq_ok h
  induction is using reverseRecOn with
  | nil =>
    obtain ⟨wave, later, rfl⟩ := exists_cons_of_ne_nil hne
    refine .inl ⟨wave, later, rfl, rfl, nofun, fun _ _ _ ↦ rfl, fun _ _ ↦ rfl, Nat.zero_le _, ?_⟩
    have hmain : (beginRun (V := V) (wave :: later)).main = .opening := by
      rw [beginRun, h]
    show PhaseOk _ _ _ (beginRun (wave :: later))
    rw [PhaseOk, hmain]
    exact ⟨rfl, rfl⟩
  | append_singleton is i ih =>
    rw [runLog_concat, Machine.after_concat]
    exact ih.step hnodup

theorem refused_run {message : String} (h : checkPlan plan = .error message)
    (is : List (RunInput V)) :
    runLog plan is = [] ∧ (executor V plan).after is = beginRun plan := by
  have hmain : (beginRun (V := V) plan).main = .raised (.valueError message) := by
    rw [beginRun, h]
  induction is using reverseRecOn with
  | nil => exact ⟨rfl, rfl⟩
  | append_singleton is i ih =>
    have hstep : stepRun plan i (beginRun (V := V) plan) = (none, beginRun plan) := by
      unfold stepRun
      split
      · rfl
      · cases i with
        | start index => rfl
        | finish index outcome => rfl
        | interrupt exc =>
          simp only [stepWave, hmain, interruptMain]
          rw [← hmain]
        | _ => simp only [stepWave, hmain]
    rw [runLog_concat, Machine.after_concat, ih.2, ih.1]
    show [] ++ (stepRun plan i (beginRun plan)).1.toList = [] ∧ (stepRun plan i (beginRun plan)).2 = _
    rw [hstep]
    exact ⟨rfl, rfl⟩

/-! ## What the log tells -/

theorem Inv.history (h : Inv plan is log s) (hid : id ∈ branchIds plan) :
    ∃ future : FutureState V, history log id = future.events id := by
  rcases h with ⟨wave, later, h⟩ | h
  · rw [← h.plan_eq, branchIds_append, branchIds_cons, mem_append, mem_append] at hid
    rcases hid with hid | hid | hid
    · obtain ⟨v, hhistory⟩ := h.ran.exists_history hid
      exact ⟨.finished (.value v), hhistory⟩
    · obtain ⟨i, hi⟩ := mem_iff_getElem?.mp hid
      exact ⟨_, h.current i id hi⟩
    · exact ⟨.pending, h.later id hid⟩
  · obtain ⟨v, hhistory⟩ := h.ran.exists_history hid
    exact ⟨.finished (.value v), hhistory⟩

theorem Inv.outcome_unique (h : Inv plan is log s) {outcome outcome' : Outcome V}
    (hid : id ∈ branchIds plan) (hmem : .finished id outcome ∈ log)
    (hmem' : .finished id outcome' ∈ log) : outcome = outcome' := by
  obtain ⟨future, hfuture⟩ := h.history hid
  have hin : .finished id outcome ∈ future.events id := hfuture ▸ mem_history.mpr hmem
  have hin' : .finished id outcome' ∈ future.events id := hfuture ▸ mem_history.mpr hmem'
  cases future with
  | pending => cases hin
  | cancelled => cases hin
  | running => cases mem_singleton.mp hin
  | finished o =>
    have hfinished : ∀ o', RunEvent.finished id o' ∈ [.started id, .finished id o] → o' = o := by
      intro o' ho'
      simpa using ho'
    rw [hfinished _ hin, hfinished _ hin']

theorem WavesRan.finished_mem {log : List (RunEvent V)} {waves : List ResearchWave}
    {rows : List (List (ParallelBranchResult V))} (h : WavesRan log waves rows)
    (hid : id ∈ branchIds waves) : ∃ v, .finished id (.value v) ∈ log := by
  obtain ⟨v, hhistory⟩ := h.exists_history hid
  refine ⟨v, mem_history.mp ?_⟩
  show RunEvent.finished id (.value v) ∈ history log id
  rw [hhistory]
  exact mem_cons_of_mem _ mem_cons_self

theorem InvAt.event_mem {e : RunEvent V} (h : InvAt plan is log wave later s)
    (he : (stepWave plan wave later s i).1 = some e) : e.branchId ∈ wave.ids := by
  have hat : ∀ {index : Nat} {future : FutureState V}, s.futures[index]? = some future →
      branchIdAt wave index ∈ wave.ids := by
    intro index future hindex
    have hlt := (List.getElem?_eq_some_iff.mp hindex).1
    obtain ⟨id, hid⟩ := exists_id (Nat.lt_of_lt_of_le hlt h.length)
    rw [branchIdAt_eq hid]
    exact mem_of_getElem? hid
  cases hi : i.ofWorker with
  | false =>
    rw [stepWave_main hi] at he
    cases he
  | true =>
    cases i with
    | start index =>
      simp only [stepWave] at he
      split at he
      · cases he
        exact hat ‹_›
      · cases he
    | finish index outcome =>
      simp only [stepWave] at he
      split at he
      · cases he
        exact hat ‹_›
      · cases he
    | _ => cases hi

/-! ## The discipline of a run -/

structure Disciplined (plan : List ResearchWave) (is : List (RunInput V)) : Prop where
  /-- A result has every branch once, in declared order, with the value of its one execution. -/
  returned : ∀ result, ((executor V plan).after is).main = .returned result →
    result.waveIds = plan.map ResearchWave.waveId ∧ result.waves.length = plan.length ∧
      WavesRan (runLog plan is) plan result.waves
  /-- When a branch starts, all branches of the waves before have returned. -/
  ordered : ∀ before wave later, plan = before ++ wave :: later → ∀ id ∈ wave.ids,
    ∀ pre, pre ++ [.started id] <+: runLog plan is →
      ∀ id' ∈ branchIds before, ∃ v, .finished id' (.value v) ∈ pre
  /-- After a failure no branch of a later wave starts, and there is no result. -/
  stopped : ∀ before wave later, plan = before ++ wave :: later → ∀ id ∈ wave.ids,
    ∀ outcome, .finished id outcome ∈ runLog plan is → outcome.Fails →
      (∀ id' ∈ branchIds later, .started id' ∉ runLog plan is) ∧
        ∀ result, ((executor V plan).after is).main ≠ .returned result
  /-- A run that raises has been given a reason. -/
  raised : ∀ error, ((executor V plan).after is).main = .raised error →
    checkPlan plan ≠ .ok () ∨ Cause is (runLog plan is)

theorem run_ordered (h : checkPlan plan = .ok ()) (is : List (RunInput V))
    {before later : List ResearchWave} (hplan : plan = before ++ wave :: later)
    (hid : id ∈ wave.ids) {pre : List (RunEvent V)}
    (hpre : pre ++ [.started id] <+: runLog plan is) {id' : String}
    (hid' : id' ∈ branchIds before) : ∃ v, .finished id' (.value v) ∈ pre := by
  induction is using reverseRecOn with
  | nil => exact absurd (List.prefix_nil.mp hpre) (by simp)
  | append_singleton is i ih =>
    rw [runLog_concat] at hpre
    cases he : (stepRun plan i ((executor V plan).after is)).1 with
    | none =>
      rw [he, Option.toList_none, append_nil] at hpre
      exact ih hpre
    | some e =>
      rw [he, Option.toList_some, List.prefix_concat_iff] at hpre
      rcases hpre with heq | hpre
      · obtain ⟨rfl, he'⟩ := append_inj' heq rfl
        obtain rfl : .started id = e := singleton_inj.mp he'
        rcases inv_run h is with ⟨current, behind, hinv⟩ | hinv
        · rw [stepRun, hinv.ahead] at he
          have hmem := hinv.event_mem he
          have hnodup := (checkPlan_eq_ok h).2
          rw [← hinv.plan_eq] at hnodup
          obtain ⟨rfl, -, -⟩ :=
            before_eq_of_nodup hnodup (hinv.plan_eq.trans hplan) hmem hid
          exact hinv.ran.finished_mem hid'
        · rw [stepRun, hinv.ahead] at he
          cases he
      · exact ih hpre

theorem run_returned (h : checkPlan plan = .ok ()) (is : List (RunInput V))
    {result : ParallelResearchResult V}
    (hresult : ((executor V plan).after is).main = .returned result) :
    result.waveIds = plan.map ResearchWave.waveId ∧ result.waves.length = plan.length ∧
      WavesRan (runLog plan is) plan result.waves := by
  rcases inv_run h is with ⟨wave, later, hinv⟩ | hinv
  · have hphase := hinv.phase
    simp only [PhaseOk, hresult] at hphase
  · obtain rfl := MainPhase.returned.inj (hinv.main.symm.trans hresult)
    exact ⟨rfl, hinv.length, hinv.ran⟩

theorem not_returned_of_fails (h : checkPlan plan = .ok ()) (is : List (RunInput V))
    {outcome : Outcome V} (hid : id ∈ branchIds plan)
    (hmem : .finished id outcome ∈ runLog plan is) (hfails : outcome.Fails) (v : V) :
    .finished id (.value v) ∉ runLog plan is := by
  intro hv
  obtain rfl := (inv_run h is).outcome_unique hid hmem hv
  exact hfails

theorem run_stopped (h : checkPlan plan = .ok ()) (is : List (RunInput V))
    {before later : List ResearchWave} (hplan : plan = before ++ wave :: later)
    (hid : id ∈ wave.ids) (hnot : ∀ v, .finished id (.value v) ∉ runLog plan is) {id' : String}
    (hid' : id' ∈ branchIds later) : .started id' ∉ runLog plan is := by
  intro hstarted
  obtain ⟨wave', hwave', hin⟩ := mem_branchIds.mp hid'
  obtain ⟨between, behind, rfl⟩ := append_of_mem hwave'
  obtain ⟨pre, post, hlog⟩ := append_of_mem hstarted
  have hsplit : plan = (before ++ wave :: between) ++ wave' :: behind := by
    rw [hplan, append_assoc]
    rfl
  have hbefore : id ∈ branchIds (before ++ wave :: between) := by
    rw [branchIds_append, branchIds_cons]
    exact mem_append_right _ (mem_append_left _ hid)
  have hprefix : pre ++ [.started id'] <+: runLog plan is :=
    ⟨post, by rw [hlog, append_assoc]; rfl⟩
  obtain ⟨v, hv⟩ := run_ordered h is hsplit hin hprefix hbefore
  exact hnot v (by rw [hlog]; exact mem_append_left _ hv)

theorem run_raised (h : checkPlan plan = .ok ()) (is : List (RunInput V)) {error : RunError}
    (herror : ((executor V plan).after is).main = .raised error) : Cause is (runLog plan is) := by
  rcases inv_run h is with ⟨wave, later, hinv⟩ | hinv
  · have hphase := hinv.phase
    simp only [PhaseOk, herror] at hphase
    exact hphase
  · cases hinv.main.symm.trans herror

theorem disciplined_of_refused {message : String} (h : checkPlan plan = .error message)
    (is : List (RunInput V)) : Disciplined plan is := by
  obtain ⟨hlog, hafter⟩ := refused_run h is
  have hmain : ((executor V plan).after is).main = .raised (.valueError message) := by
    rw [hafter, beginRun, h]
  constructor
  · intro result hresult
    cases hmain.symm.trans hresult
  · intro before wave later _ id _ pre hpre
    rw [hlog] at hpre
    exact absurd (List.prefix_nil.mp hpre) (by simp)
  · intro before wave later _ id _ outcome hmem
    rw [hlog] at hmem
    cases hmem
  · intro error _
    exact .inl (by rw [h]; nofun)

/-- Every run of every plan is disciplined. -/
theorem executor_disciplined (plan : List ResearchWave) (is : List (RunInput V)) :
    Disciplined plan is := by
  cases h : checkPlan plan with
  | error message => exact disciplined_of_refused h is
  | ok u =>
    constructor
    · intro result hresult
      exact run_returned h is hresult
    · intro before wave later hplan id hid pre hpre id' hid'
      exact run_ordered h is hplan hid hpre hid'
    · intro before wave later hplan id hid outcome hmem hfails
      have hidplan : id ∈ branchIds plan := by
        rw [hplan, branchIds_append, branchIds_cons]
        exact mem_append_right _ (mem_append_left _ hid)
      have hnot := not_returned_of_fails h is hidplan hmem hfails
      constructor
      · intro id' hid'
        exact run_stopped h is hplan hid hnot hid'
      · intro result hresult
        obtain ⟨v, hv⟩ := (run_returned h is hresult).2.2.finished_mem hidplan
        exact hnot v hv
    · intro error herror
      exact .inr (run_raised h is herror)

end

/-! ## No run is stuck -/

section

variable {plan : List ResearchWave} {is : List (RunInput V)} {log : List (RunEvent V)}
variable {wave : ResearchWave} {later : List ResearchWave} {s : RunState V}

theorem exists_worker_move (v : V) {index : Nat} {future : FutureState V}
    (hindex : s.futures[index]? = some future) (hopen : future.result? = none) :
    ∃ i : RunInput V, ¬ i.Obstructs ∧ (stepWave plan wave later s i).2 ≠ s := by
  have hlt : index < s.futures.length := (List.getElem?_eq_some_iff.mp hindex).1
  cases future with
  | pending =>
    refine ⟨.start index, not_false, fun heq ↦ ?_⟩
    simp only [stepWave, hindex] at heq
    have hat := congrArg (fun t ↦ t.futures[index]?) heq
    simp only [getElem?_set_self hlt, hindex] at hat
    cases hat
  | running =>
    refine ⟨.finish index (.value v), not_false, fun heq ↦ ?_⟩
    simp only [stepWave, hindex] at heq
    have hat := congrArg (fun t ↦ t.futures[index]?) heq
    simp only [getElem?_set_self hlt, hindex] at hat
    cases hat
  | finished outcome => cases hopen
  | cancelled => cases hopen

theorem main_observeOutcome_ne {values : List (Option V)} {index : Nat} {rest : List Nat}
    (outcome : Outcome V) :
    (observeOutcome wave values (index :: rest) index s outcome).main ≠
      .observing values (index :: rest) := by
  intro heq
  cases outcome with
  | value v =>
    simp only [observeOutcome, erase_cons_head] at heq
    split at heq
    · cases heq
    · have := congrArg List.length (MainPhase.observing.inj heq).2
      rw [length_cons] at this
      omega
  | exception exc => cases heq
  | baseException exc => cases heq

theorem main_afterShutdown_ne (error error' : Option RunError) :
    (afterShutdown plan s wave later error).main ≠ .shuttingDown error' := by
  intro heq
  cases error with
  | none =>
    simp only [afterShutdown] at heq
    split at heq
    · cases heq
    · cases heq
  | some error => cases heq

theorem InvAt.exists_move (h : InvAt plan is log wave later s) (v : V) :
    (∃ error, s.main = .raised error) ∨
      ∃ i : RunInput V, ¬ i.Obstructs ∧ (stepWave plan wave later s i).2 ≠ s := by
  have hphase := h.phase
  cases hmain : s.main with
  | opening =>
    refine .inr ⟨.openExecutor none, Bool.false_ne_true, fun heq ↦ ?_⟩
    simp only [stepWave, hmain] at heq
    cases (congrArg RunState.main heq).trans hmain
  | submitting =>
    refine .inr ⟨.submit none, Bool.false_ne_true, fun heq ↦ ?_⟩
    simp only [stepWave, hmain] at heq
    have hlength := congrArg (fun t ↦ t.futures.length) heq
    simp only [length_append, length_singleton] at hlength
    omega
  | observing values waiting =>
    simp only [PhaseOk, hmain] at hphase
    obtain ⟨⟨hfutures, hne, hwaiting⟩, -⟩ := hphase
    obtain ⟨index, rest, rfl⟩ := exists_cons_of_ne_nil hne
    have hlt : index < s.futures.length := hfutures ▸ hwaiting index mem_cons_self
    have hindex := getElem?_eq_getElem hlt
    cases hresult : (s.futures[index]).result? with
    | none => exact .inr (exists_worker_move v hindex hresult)
    | some outcome =>
      refine .inr ⟨.observe index, not_false, fun heq ↦ ?_⟩
      have hbind : s.futures[index]?.bind FutureState.result? = some outcome := by
        rw [hindex, Option.bind_some, hresult]
      simp only [stepWave, hmain, hbind, if_pos mem_cons_self] at heq
      exact main_observeOutcome_ne outcome ((congrArg RunState.main heq).trans hmain)
  | cancelling todo error =>
    refine .inr ⟨.cancel, not_false, fun heq ↦ ?_⟩
    cases todo with
    | nil =>
      simp only [stepWave, hmain] at heq
      cases (congrArg RunState.main heq).trans hmain
    | cons index todo =>
      simp only [stepWave, hmain] at heq
      have hat := MainPhase.cancelling.inj ((congrArg RunState.main heq).trans hmain)
      have := congrArg List.length hat.1
      rw [length_cons] at this
      omega
  | shuttingDown error =>
    by_cases hsettled : Settled s.futures
    · refine .inr ⟨.join, not_false, fun heq ↦ ?_⟩
      simp only [stepWave, hmain, if_pos hsettled] at heq
      exact main_afterShutdown_ne error error ((congrArg RunState.main heq).trans hmain)
    · unfold Settled at hsettled
      push Not at hsettled
      obtain ⟨future, hmem, hopen⟩ := hsettled
      obtain ⟨index, hindex⟩ := mem_iff_getElem?.mp hmem
      exact .inr (exists_worker_move v hindex (by simpa using hopen))
  | returned result => simp only [PhaseOk, hmain] at hphase
  | raised error => exact .inl ⟨error, rfl⟩

theorem executor_progress (plan : List ResearchWave) (is : List (RunInput V)) (v : V) :
    (∃ result, ((executor V plan).after is).main = .returned result) ∨
      (∃ error, ((executor V plan).after is).main = .raised error) ∨
      ∃ i : RunInput V, ¬ i.Obstructs ∧
        (executor V plan).after (is ++ [i]) ≠ (executor V plan).after is := by
  cases h : checkPlan plan with
  | error message =>
    refine .inr (.inl ⟨.valueError message, ?_⟩)
    rw [(refused_run h is).2, beginRun, h]
  | ok u =>
    rcases inv_run h is with ⟨wave, later, hinv⟩ | hinv
    · rcases hinv.exists_move v with hraised | ⟨i, hi, hne⟩
      · exact .inr (.inl hraised)
      · refine .inr (.inr ⟨i, hi, ?_⟩)
        rw [Machine.after_concat]
        show (stepRun plan i _).2 ≠ _
        rwa [stepRun, hinv.ahead]
    · exact .inl ⟨_, hinv.main⟩

end

end Qros.Orchestration
