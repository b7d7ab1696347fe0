import Qros.Saas.CreateRun

/-!
# The service

The machine of requests for research runs and of the workers that claim, renew, record
and finish the jobs and take their messages from the queue.  A run is any sequence of
these.

`Creates` says that a request creates a job.  A job has exactly one such request, and
the entry of its idempotency key records it from then on.
-/

namespace Qros.Saas

open Qros.Lib

/-! ## Workers -/

/-- The calls to the store that `worker.py` makes. -/
def Call.isWorkers : Call → Bool
  | .create .. => false
  | .createIdempotent .. => false
  | .claim .. => true
  | .renew .. => true
  | .recordResult .. => true
  | .finish .. => true
  | .transition .. => false

structure Follows (job job' : ResearchJob) : Prop where
  id_eq : job'.id = job.id
  workspaceId_eq : job'.workspaceId = job.workspaceId
  active : job'.isActive = true → job.isActive = true

/-- What a worker can do to the store: it creates no job and edits at most one. -/
structure WorkerEffect (s s' : Store) : Prop where
  idempotency : s'.idempotency = s.idempotency
  createdAt : s'.createdAt = s.createdAt
  jobs : s'.jobs = s.jobs ∨ ∃ jobId job job', s.jobs.get? jobId = some job ∧
    s'.jobs = s.jobs.set jobId job' ∧ Follows job job'

theorem Claimable.isActive {s : Store} {workspaceId jobId : Uuid} {owner : String} {seconds : Int}
    {now : DateTime} {job : ResearchJob} (h : Claimable s workspaceId jobId owner seconds now job) :
    job.isActive = true := by
  unfold ResearchJob.isActive
  rw [Bool.or_eq_true, decide_eq_true_iff, decide_eq_true_iff]
  exact h.status

theorem workerEffect (host : Host) (now : DateTime) {call : Call} (s : Store)
    (h : call.isWorkers = true) : WorkerEffect s (call.run host now s).2 := by
  have heffect := effect_run host now call s
  generalize call.run host now s = out at heffect
  obtain ⟨reply, s'⟩ := out
  cases heffect with
  | same => exact ⟨rfl, rfl, .inl rfl⟩
  | created => cases h
  | createdIdempotent => cases h
  | @granted workspaceId jobId _ _ _ job _ _ hclaim hlt =>
    have hjob := (Store.get_eq_some.mp hclaim.found).1
    exact ⟨rfl, rfl, .inr ⟨jobId, job, _, hjob, rfl, rfl, rfl, fun _ ↦ hclaim.isActive⟩⟩
  | @overflowed workspaceId jobId _ _ _ job _ hclaim hlt =>
    have hjob := (Store.get_eq_some.mp hclaim.found).1
    exact ⟨rfl, rfl, .inr ⟨jobId, job, _, hjob, rfl, rfl, rfl, fun _ ↦ hclaim.isActive⟩⟩
  | @exhausted workspaceId jobId _ _ _ job _ hclaim hge =>
    have hjob := (Store.get_eq_some.mp hclaim.found).1
    exact ⟨rfl, rfl, .inr ⟨jobId, job, _, hjob, rfl, rfl, rfl, fun _ ↦ hclaim.isActive⟩⟩
  | renewed => exact ⟨rfl, rfl, .inl rfl⟩
  | recorded => exact ⟨rfl, rfl, .inl rfl⟩
  | @finished workspaceId jobId _ target _ job _ hfinish =>
    have hjob := (Store.get_eq_some.mp hfinish.found).1
    refine ⟨rfl, rfl, .inr ⟨jobId, job, _, hjob, rfl, rfl, rfl, fun hactive ↦ ?_⟩⟩
    rcases hfinish.target with rfl | rfl
    · cases hactive
    · cases hactive
  | transitioned => cases h

/-! ## The machine -/

inductive ServiceInput where
  | request (r : RunRequest) (env : Surroundings)
  | worker (e : Timed) (h : e.call.isWorkers = true)
  | receive
  | ack (messageId : Int)

/-- The service as a machine; its answers are those to requests. -/
def service (fingerprint : FingerprintPayload → String) (host : Host) :
    Machine Service ServiceInput (Option Response) where
  init := ⟨.empty, .empty⟩
  step := fun i s ↦
    match i with
    | .request r env => (createResearchRun fingerprint s r env).map some id
    | .worker e _ => (none, { s with store := (e.call.run host e.now s.store).2 })
    | .receive => (none, { s with queue := s.queue.receive.2 })
    | .ack messageId => (none, { s with queue := (s.queue.ack messageId).getD s.queue })

section Creations

variable (fingerprint : FingerprintPayload → String) (host : Host)

def Creates (pre : List ServiceInput) (r : RunRequest) (env : Surroundings) (job : ResearchJob) :
    Prop :=
  ((service fingerprint host).after pre).store.jobs.get? job.id = none ∧
    ((service fingerprint host).after (pre ++ [.request r env])).store.jobs.get? job.id = some job

variable {fingerprint host}

theorem service_request {pre : List ServiceInput} {r : RunRequest} {env : Surroundings} :
    (service fingerprint host).after (pre ++ [.request r env]) =
      (createResearchRun fingerprint ((service fingerprint host).after pre) r env).2 := by
  rw [Machine.after_concat]
  rfl

theorem Creates.outcome {pre : List ServiceInput} {r : RunRequest} {env : Surroundings}
    {job : ResearchJob} (h : Creates fingerprint host pre r env job) :
    ∃ key version, Admitted ((service fingerprint host).after pre).store r env key version ∧
      ((service fingerprint host).after pre).store.idempotency.get? (r.tenant.workspaceId, key) =
        none ∧
      job = newJob r env.jobId version ∧
      (createResearchRun fingerprint ((service fingerprint host).after pre) r env) =
        ((enqueueRun ((service fingerprint host).after pre).queue r.tenant.workspaceId job
            r.requestId env.enqueueFails).1,
          ⟨((service fingerprint host).after pre).store.insertKeyed key (fingerprint r.payload) job
              env.createdAt,
            (enqueueRun ((service fingerprint host).after pre).queue r.tenant.workspaceId job
              r.requestId env.enqueueFails).2⟩) := by
  obtain ⟨hnone, hsome⟩ := h
  rw [service_request] at hsome
  have hout := runOutcome fingerprint ((service fingerprint host).after pre) r env
  generalize hrun : createResearchRun fingerprint ((service fingerprint host).after pre) r env =
    out at hout hsome
  obtain ⟨response, s'⟩ := out
  cases hout with
  | rejected => cases hnone.symm.trans hsome
  | conflict => cases hnone.symm.trans hsome
  | replayed => cases hnone.symm.trans hsome
  | collided => cases hnone.symm.trans hsome
  | @created key version hadmitted hkey hnew =>
    have hset : (((service fingerprint host).after pre).store.jobs.set env.jobId
        (newJob r env.jobId version)).get? job.id = some job := hsome
    rw [Dict.get?_set] at hset
    by_cases hid : env.jobId = job.id
    · rw [if_pos hid] at hset
      cases hset
      exact ⟨key, version, hadmitted, hkey, rfl, rfl⟩
    · rw [if_neg hid] at hset
      cases hnone.symm.trans hset

end Creations

/-! ## Steps -/

section

variable (fingerprint : FingerprintPayload → String) (host : Host)

/-- What a step can do to the store. -/
inductive StoreChange (s : Service) : ServiceInput → Store → Prop
  | same {i : ServiceInput} : StoreChange s i s.store
  | worked {i : ServiceInput} {store : Store} (h : WorkerEffect s.store store) : StoreChange s i store
  | inserted {r : RunRequest} {env : Surroundings} {key : String} {version : DatasetVersion}
      (hadmitted : Admitted s.store r env key version)
      (hkey : s.store.idempotency.get? (r.tenant.workspaceId, key) = none)
      (hnew : s.store.jobs.get? env.jobId = none) :
      StoreChange s (.request r env)
        (s.store.insertKeyed key (fingerprint r.payload) (newJob r env.jobId version)
          env.createdAt)

theorem storeChange (i : ServiceInput) (s : Service) :
    StoreChange fingerprint s i ((service fingerprint host).step i s).2.store := by
  cases i with
  | request r env =>
    have hout := runOutcome fingerprint s r env
    show StoreChange fingerprint s (.request r env) (createResearchRun fingerprint s r env).2.store
    generalize createResearchRun fingerprint s r env = out at hout
    obtain ⟨response, s'⟩ := out
    cases hout with
    | rejected => exact .same
    | conflict => exact .same
    | replayed => exact .same
    | collided => exact .same
    | created h hkey hnew => exact .inserted h hkey hnew
  | worker e h => exact .worked (workerEffect host e.now s.store h)
  | receive => exact .same
  | ack messageId => exact .same

variable {fingerprint host}

variable {i : ServiceInput} {s : Service}

theorem StoreChange.jobs_ne_none {store : Store} (h : StoreChange fingerprint s i store)
    {jobId : Uuid} (hjob : s.store.jobs.get? jobId ≠ none) :
    store.jobs.get? jobId ≠ none := by
  have hset : ∀ (k : Uuid) (job : ResearchJob), (s.store.jobs.set k job).get? jobId ≠ none := by
    intro k job
    rw [Dict.get?_set]
    split
    · exact Option.some_ne_none job
    · exact hjob
  cases h with
  | same => exact hjob
  | worked h =>
    rcases h.jobs with heq | ⟨k, job, job', -, heq, -⟩
    · rwa [heq]
    · rw [heq]
      exact hset k job'
  | inserted => exact hset _ _

theorem StoreChange.idempotency {store : Store} (h : StoreChange fingerprint s i store)
    {k : Uuid × String} {entry : String × ResearchJob}
    (hentry : s.store.idempotency.get? k = some entry) : store.idempotency.get? k = some entry := by
  cases h with
  | same => exact hentry
  | worked h => rwa [h.idempotency]
  | @inserted r env key version hadmitted hkey hnew =>
    have hne : (r.tenant.workspaceId, key) ≠ k := by
      rintro rfl
      cases hkey.symm.trans hentry
    exact (Dict.get?_set_of_ne _ _ hne).trans hentry

theorem mem_messages_step {entry : Int × Uuid × Uuid}
    (h : entry ∈ ((service fingerprint host).step i s).2.queue.messages) :
    entry ∈ s.queue.messages ∨
      ∃ r env key version, i = .request r env ∧ s.store.jobs.get? env.jobId = none ∧
        env.enqueueFails = false ∧
        ((service fingerprint host).step i s).2.store =
          s.store.insertKeyed key (fingerprint r.payload) (newJob r env.jobId version)
            env.createdAt ∧
        entry.2 = (r.tenant.workspaceId, env.jobId) := by
  cases i with
  | request r env =>
    have hout := runOutcome fingerprint s r env
    change entry ∈ (createResearchRun fingerprint s r env).2.queue.messages at h
    show _ ∨ ∃ r' env' key version, _ ∧ _ ∧ _ ∧
      (createResearchRun fingerprint s r env).2.store = _ ∧ _
    generalize createResearchRun fingerprint s r env = out at hout h
    obtain ⟨response, s'⟩ := out
    cases hout with
    | rejected => exact .inl h
    | conflict => exact .inl h
    | replayed => exact .inl h
    | collided => exact .inl h
    | @created key version hadmitted hkey hnew =>
      unfold enqueueRun at h
      split at h
      · exact .inl h
      · rename_i hfails
        rcases List.mem_append.mp h with hmem | hmem
        · exact .inl hmem
        · cases List.mem_singleton.mp hmem
          exact .inr ⟨r, env, key, version, rfl, hnew, by simpa using hfails, rfl, rfl⟩
  | worker e hworker => exact .inl h
  | receive =>
    have hmessages : s.queue.receive.2.messages = s.queue.messages := by
      unfold Queue.receive
      split <;> rfl
    exact .inl (hmessages ▸ h)
  | ack messageId =>
    have hmessages : entry ∈ ((s.queue.ack messageId).getD s.queue).messages →
        entry ∈ s.queue.messages := by
      unfold Queue.ack
      split
      · exact id
      · exact fun hmem ↦ (List.mem_filter.mp hmem).1
    exact .inl (hmessages h)

theorem jobs_stable {pre is : List ServiceInput} (h : pre <+: is) {jobId : Uuid}
    (hjob : ((service fingerprint host).after pre).store.jobs.get? jobId ≠ none) :
    ((service fingerprint host).after is).store.jobs.get? jobId ≠ none :=
  (service fingerprint host).after_stable (fun s ↦ s.store.jobs.get? jobId ≠ none)
    (fun i s ↦ (storeChange fingerprint host i s).jobs_ne_none) h hjob

theorem idempotency_stable {pre is : List ServiceInput} (h : pre <+: is) {k : Uuid × String}
    {entry : String × ResearchJob}
    (hentry : ((service fingerprint host).after pre).store.idempotency.get? k = some entry) :
    ((service fingerprint host).after is).store.idempotency.get? k = some entry :=
  (service fingerprint host).after_stable (fun s ↦ s.store.idempotency.get? k = some entry)
    (fun i s ↦ (storeChange fingerprint host i s).idempotency) h hentry

end

/-! ## Creations -/

section

variable {fingerprint : FingerprintPayload → String} {host : Host}

variable {pre : List ServiceInput}

variable {env : Surroundings} {r : RunRequest} {job : ResearchJob}

theorem creates_newJob {key : String} {version : DatasetVersion}
    (hstore : ((service fingerprint host).step (.request r env)
      ((service fingerprint host).after pre)).2.store =
      ((service fingerprint host).after pre).store.insertKeyed key (fingerprint r.payload)
      (newJob r env.jobId version) env.createdAt)
    (hnew : ((service fingerprint host).after pre).store.jobs.get? env.jobId = none) :
    Creates fingerprint host pre r env (newJob r env.jobId version) := by
  refine ⟨hnew, ?_⟩
  rw [Machine.after_concat, hstore]
  exact Dict.get?_set_self _ _ _

theorem Creates.unique {pre pre' is : List ServiceInput} {r r' : RunRequest}
    {env env' : Surroundings} {job job' : ResearchJob}
    (h : Creates fingerprint host pre r env job) (h' : Creates fingerprint host pre' r' env' job')
    (hpre : pre ++ [.request r env] <+: is) (hpre' : pre' ++ [.request r' env'] <+: is)
    (hid : job.id = job'.id) : pre = pre' ∧ r = r' ∧ env = env' := by
  have hcreated : ((service fingerprint host).after (pre ++ [.request r env])).store.jobs.get?
      job.id ≠ none := fun hnone ↦ nomatch hnone.symm.trans h.2
  have hcreated' : ((service fingerprint host).after (pre' ++ [.request r' env'])).store.jobs.get?
      job'.id ≠ none := fun hnone ↦ nomatch hnone.symm.trans h'.2
  rcases Machine.steps_trichotomy hpre hpre' with hle | ⟨rfl, hi⟩ | hle
  · exact absurd (hid ▸ h'.1) (jobs_stable hle hcreated)
  · cases hi
    exact ⟨rfl, rfl, rfl⟩
  · exact absurd (hid ▸ h.1) (jobs_stable hle hcreated')

theorem Creates.bound (h : Creates fingerprint host pre r env job) :
    ∃ key, parseIdempotencyKey r.idempotencyKey = .ok key ∧
      ((service fingerprint host).after pre).store.idempotency.get? (r.tenant.workspaceId, key) =
        none ∧
      ((service fingerprint host).after (pre ++ [.request r env])).store.idempotency.get?
        (r.tenant.workspaceId, key) = some (fingerprint r.payload, job) := by
  obtain ⟨key, version, hadmitted, hkey, rfl, hrun⟩ := h.outcome
  refine ⟨key, hadmitted.parsed, hkey, ?_⟩
  rw [service_request, hrun]
  exact Dict.get?_set_self _ _ _

theorem exists_creates {is : List ServiceInput} {workspaceId : Uuid} {key used : String}
    (h : ((service fingerprint host).after is).store.idempotency.get? (workspaceId, key) =
      some (used, job)) :
    ∃ pre r env, pre ++ [.request r env] <+: is ∧ Creates fingerprint host pre r env job ∧
      r.tenant.workspaceId = workspaceId ∧ parseIdempotencyKey r.idempotencyKey = .ok key ∧
        fingerprint r.payload = used := by
  obtain ⟨pre, i, hpre, hbefore, hafter⟩ := (service fingerprint host).exists_step
    (fun s ↦ s.store.idempotency.get? (workspaceId, key) = some (used, job)) nofun h
  rw [Machine.after_concat] at hafter
  have hchange := storeChange fingerprint host i ((service fingerprint host).after pre)
  generalize hstore : ((service fingerprint host).step i
    ((service fingerprint host).after pre)).2.store = store at hchange hafter
  cases hchange with
  | same => exact absurd hafter hbefore
  | worked hworker =>
    rw [hworker.idempotency] at hafter
    exact absurd hafter hbefore
  | @inserted r env key' version hadmitted hkey hnew =>
    have hset : (((service fingerprint host).after pre).store.idempotency.set
        (r.tenant.workspaceId, key') (fingerprint r.payload, newJob r env.jobId version)).get?
          (workspaceId, key) = some (used, job) := hafter
    rw [Dict.get?_set] at hset
    by_cases heq : (r.tenant.workspaceId, key') = (workspaceId, key)
    · rw [if_pos heq] at hset
      cases heq
      cases hset
      exact ⟨pre, r, env, hpre, creates_newJob hstore hnew, rfl, hadmitted.parsed, rfl⟩
    · rw [if_neg heq] at hset
      exact absurd hset hbefore

theorem exists_enqueued {is : List ServiceInput} {entry : Int × Uuid × Uuid}
    (h : entry ∈ ((service fingerprint host).after is).queue.messages) :
    ∃ pre r env job, pre ++ [.request r env] <+: is ∧ Creates fingerprint host pre r env job ∧
      env.enqueueFails = false ∧ entry.2 = (r.tenant.workspaceId, job.id) := by
  obtain ⟨pre, i, hpre, hbefore, hafter⟩ := (service fingerprint host).exists_step
    (fun s ↦ entry ∈ s.queue.messages) List.not_mem_nil h
  rw [Machine.after_concat] at hafter
  rcases mem_messages_step hafter with
    hmem | ⟨r, env, key, version, rfl, hnew, hfails, hstore, hentry⟩
  · exact absurd hmem hbefore
  · exact ⟨pre, r, env, _, hpre, creates_newJob hstore hnew, hfails, hentry⟩

theorem Creates.enqueued (h : Creates fingerprint host pre r env job)
    (hfails : env.enqueueFails = false) :
    ∃ messageId, (messageId, r.tenant.workspaceId, job.id) ∈
      ((service fingerprint host).after (pre ++ [.request r env])).queue.messages := by
  obtain ⟨key, version, -, -, -, hrun⟩ := h.outcome
  rw [service_request, hrun, hfails]
  exact ⟨_, List.mem_append_right _ (List.mem_singleton_self _)⟩

end

end Qros.Saas
