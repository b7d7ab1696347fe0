import Qros.Saas.Service

/-!
# Retries

What the idempotency key of a request is good for, over every run of the service.

A key and a fingerprint belong to one job.  But the quotas are checked before the key
is looked up, so a retry can be turned away by the very job that it asks for
(`retries_idempotent_iff`).  And the job is stored before it is enqueued, so a retry can
be told that a job is accepted that no worker will ever hear of
(`accepted_runs_enqueued_iff`).
-/

namespace Qros.Saas

open Qros.Lib

section Retries

variable (fingerprint : FingerprintPayload → String) (host : Host)

def answerTo (pre : List ServiceInput) (r : RunRequest) (env : Surroundings) : Response :=
  (createResearchRun fingerprint ((service fingerprint host).after pre) r env).1

def SameKey (r r' : RunRequest) : Prop :=
  r.tenant.workspaceId = r'.tenant.workspaceId ∧ ∃ key,
    parseIdempotencyKey r.idempotencyKey = .ok key ∧ parseIdempotencyKey r'.idempotencyKey = .ok key

/-- An earlier request has created the job under the key of `r`. -/
def CreatedBefore (pre : List ServiceInput) (r r₀ : RunRequest) (job : ResearchJob) : Prop :=
  ∃ pre₀ env₀, pre₀ ++ [.request r₀ env₀] <+: pre ∧ Creates fingerprint host pre₀ r₀ env₀ job ∧
    SameKey r₀ r

/-- What an idempotency key promises about a request after the inputs `pre`. -/
structure Idempotent (pre : List ServiceInput) (r : RunRequest) (env : Surroundings) : Prop where
  /-- An accepted request names the job created for its key and fingerprint. -/
  accepted : ∀ job, answerTo fingerprint host pre r env = .accepted job →
    ∃ r₀, CreatedBefore fingerprint host (pre ++ [.request r env]) r r₀ job ∧
      fingerprint r₀.payload = fingerprint r.payload
  /-- Once there is such a job, the request is accepted with it. -/
  retried : ∀ r₀ job, CreatedBefore fingerprint host pre r r₀ job →
    fingerprint r₀.payload = fingerprint r.payload →
    answerTo fingerprint host pre r env = .accepted job
  /-- A request with another fingerprint is rejected. -/
  conflict : ∀ r₀ job, CreatedBefore fingerprint host pre r r₀ job →
    fingerprint r₀.payload ≠ fingerprint r.payload →
    ∃ error, answerTo fingerprint host pre r env = .rejected error
  /-- The key creates nothing again. -/
  once : ∀ r₀ job, CreatedBefore fingerprint host pre r r₀ job →
    (service fingerprint host).after (pre ++ [.request r env]) = (service fingerprint host).after pre

/-- The request passes the checks if its key is in use with its fingerprint. -/
def PassesRetried (s : Service) (r : RunRequest) (env : Surroundings) : Prop :=
  ∀ key job, parseIdempotencyKey r.idempotencyKey = .ok key →
    s.store.idempotency.get? (r.tenant.workspaceId, key) = some (fingerprint r.payload, job) →
    ∃ version, Admitted s.store r env key version

variable {fingerprint host}

variable {pre : List ServiceInput}

variable {job : ResearchJob} {r : RunRequest}

theorem createdBefore_iff {key used : String}
    (hkey : parseIdempotencyKey r.idempotencyKey = .ok key) :
    ((service fingerprint host).after pre).store.idempotency.get? (r.tenant.workspaceId, key) =
        some (used, job) ↔
      ∃ r₀, CreatedBefore fingerprint host pre r r₀ job ∧ fingerprint r₀.payload = used := by
  constructor
  · intro h
    obtain ⟨pre₀, r₀, env₀, hpre, hcreates, hws, hkey₀, hused⟩ := exists_creates h
    exact ⟨r₀, ⟨pre₀, env₀, hpre, hcreates, hws, key, hkey₀, hkey⟩, hused⟩
  · rintro ⟨r₀, ⟨pre₀, env₀, hpre, hcreates, hws, key₀, hkey₀, hkey'⟩, rfl⟩
    obtain ⟨key', hparse, -, hbound⟩ := hcreates.bound
    cases hkey.symm.trans hkey'
    cases hkey₀.symm.trans hparse
    exact hws ▸ idempotency_stable hpre hbound

theorem CreatedBefore.parsed {r r₀ : RunRequest} (h : CreatedBefore fingerprint host pre r r₀ job) :
    ∃ key, parseIdempotencyKey r.idempotencyKey = .ok key ∧
      ((service fingerprint host).after pre).store.idempotency.get? (r.tenant.workspaceId, key) =
        some (fingerprint r₀.payload, job) := by
  obtain ⟨pre₀, env₀, hpre, hcreates, hws, key, hkey₀, hkey⟩ := h
  exact ⟨key, hkey, (createdBefore_iff hkey).mpr
    ⟨r₀, ⟨pre₀, env₀, hpre, hcreates, hws, key, hkey₀, hkey⟩, rfl⟩⟩

/-! ### A request whose key is in use -/

section

variable {s : Service} {r : RunRequest} {env : Surroundings} {key used : String}
  {version : DatasetVersion} {job : ResearchJob}

theorem createResearchRun_retried (h : Admitted s.store r env key version)
    (hbound : s.store.idempotency.get? (r.tenant.workspaceId, key) =
      some (fingerprint r.payload, job)) :
    createResearchRun fingerprint s r env = (.accepted job, s) := by
  have hout := runOutcome fingerprint s r env
  generalize createResearchRun fingerprint s r env = out at hout
  obtain ⟨response, s'⟩ := out
  cases hout with
  | rejected hnot => exact absurd ⟨key, version, h⟩ hnot
  | conflict h' hkey hne =>
    cases h.parsed.symm.trans h'.parsed
    cases hbound.symm.trans hkey
    exact absurd rfl hne
  | replayed h' hkey =>
    cases h.parsed.symm.trans h'.parsed
    cases hbound.symm.trans hkey
    rfl
  | collided h' hkey =>
    cases h.parsed.symm.trans h'.parsed
    cases hbound.symm.trans hkey
  | created h' hkey =>
    cases h.parsed.symm.trans h'.parsed
    cases hbound.symm.trans hkey

theorem createResearchRun_used (hparse : parseIdempotencyKey r.idempotencyKey = .ok key)
    (hbound : s.store.idempotency.get? (r.tenant.workspaceId, key) = some (used, job)) :
    (createResearchRun fingerprint s r env).2 = s ∧
      (used ≠ fingerprint r.payload →
        ∃ error, (createResearchRun fingerprint s r env).1 = .rejected error) := by
  have hout := runOutcome fingerprint s r env
  generalize createResearchRun fingerprint s r env = out at hout
  obtain ⟨response, s'⟩ := out
  cases hout with
  | rejected => exact ⟨rfl, fun _ ↦ ⟨_, rfl⟩⟩
  | conflict => exact ⟨rfl, fun _ ↦ ⟨_, rfl⟩⟩
  | replayed h' hkey =>
    cases hparse.symm.trans h'.parsed
    cases hbound.symm.trans hkey
    exact ⟨rfl, fun hne ↦ absurd rfl hne⟩
  | collided h' hkey =>
    cases hparse.symm.trans h'.parsed
    cases hbound.symm.trans hkey
  | created h' hkey =>
    cases hparse.symm.trans h'.parsed
    cases hbound.symm.trans hkey

/-- An accepted request is admitted, and either its key was in use with its fingerprint or
it creates the job. -/
theorem createResearchRun_accepted (h : (createResearchRun fingerprint s r env).1 = .accepted job) :
    ∃ key version, Admitted s.store r env key version ∧
      (s.store.idempotency.get? (r.tenant.workspaceId, key) = some (fingerprint r.payload, job) ∨
        (env.enqueueFails = false ∧ job = newJob r env.jobId version ∧
          s.store.jobs.get? env.jobId = none ∧
          (createResearchRun fingerprint s r env).2.store =
            s.store.insertKeyed key (fingerprint r.payload) job env.createdAt)) := by
  have hout := runOutcome fingerprint s r env
  generalize createResearchRun fingerprint s r env = out at hout h
  obtain ⟨response, s'⟩ := out
  cases hout with
  | rejected => cases h
  | conflict => cases h
  | @replayed key version _ hadmitted hkey =>
    cases h
    exact ⟨key, version, hadmitted, .inl hkey⟩
  | collided => cases h
  | @created key version hadmitted hkey hnew =>
    unfold enqueueRun at h
    split at h
    · cases h
    · rename_i hfails
      cases h
      exact ⟨key, version, hadmitted, .inr ⟨by simpa using hfails, rfl, hnew, rfl⟩⟩

end

theorem accepted_created {env : Surroundings}
    (h : answerTo fingerprint host pre r env = .accepted job) :
    ∃ r₀, CreatedBefore fingerprint host (pre ++ [.request r env]) r r₀ job ∧
      fingerprint r₀.payload = fingerprint r.payload := by
  obtain ⟨key, version, hadmitted, hbound | ⟨-, rfl, hnew, hstore⟩⟩ := createResearchRun_accepted h
  · exact (createdBefore_iff hadmitted.parsed).mp
      (idempotency_stable (List.prefix_append pre _) hbound)
  · exact ⟨r, ⟨pre, env, List.prefix_refl _, creates_newJob hstore hnew, rfl, key, hadmitted.parsed,
      hadmitted.parsed⟩, rfl⟩

/-- A request is treated as its key promises just when it passes the checks if it is a
retry. -/
theorem idempotent_iff {env : Surroundings} :
    Idempotent fingerprint host pre r env ↔
      PassesRetried fingerprint ((service fingerprint host).after pre) r env := by
  constructor
  · intro h key job hkey hbound
    obtain ⟨r₀, hbefore, hused⟩ := (createdBefore_iff hkey).mp hbound
    obtain ⟨key', version, hadmitted, -⟩ :=
      createResearchRun_accepted (h.retried r₀ job hbefore hused)
    cases hkey.symm.trans hadmitted.parsed
    exact ⟨version, hadmitted⟩
  · intro h
    constructor
    · exact fun job haccepted ↦ accepted_created haccepted
    · intro r₀ job hbefore hused
      obtain ⟨key, hkey, hbound⟩ := hbefore.parsed
      rw [hused] at hbound
      obtain ⟨version, hadmitted⟩ := h key job hkey hbound
      exact congrArg Prod.fst (createResearchRun_retried hadmitted hbound)
    · intro r₀ job hbefore hne
      obtain ⟨key, hkey, hbound⟩ := hbefore.parsed
      exact (createResearchRun_used hkey hbound).2 hne
    · intro r₀ job hbefore
      obtain ⟨key, hkey, hbound⟩ := hbefore.parsed
      rw [service_request]
      exact (createResearchRun_used hkey hbound).1

end Retries

/-! ## One job for each key -/

/-- Over a whole run, idempotency keys keep their promises just when every request whose
key is in use with its own fingerprint passes the checks: it is not refused or over the
rate limit, the entitlements and the dataset version are there, and neither quota is
used up. -/
theorem retries_idempotent_iff (fingerprint : FingerprintPayload → String) (host : Host)
    (is : List ServiceInput) :
    Meets (fun pre i ↦ ∀ r env, i = .request r env → Idempotent fingerprint host pre r env) is ↔
      Meets (fun pre i ↦ ∀ r env, i = .request r env →
        PassesRetried fingerprint ((service fingerprint host).after pre) r env) is :=
  meets_congr fun _ _ _ _ ↦
    ⟨fun h r env hi ↦ idempotent_iff.mp (h r env hi),
      fun h r env hi ↦ idempotent_iff.mpr (h r env hi)⟩

/-- A retry on the free plan, whose one concurrent run is the job that it asks for. -/
theorem retry_meets_own_job :
    let digest : Sha256 :=
      ⟨"18ac3e7343f016890c510e93f935261169d9e3f565436429830faf0934f4f8e4", by decide +kernel,
        by decide +kernel⟩
    let fingerprint := fun p : FingerprintPayload ↦ String.ofList p.datasetVersionId.hex
    let host : Host := ⟨fun _ ↦ digest, fun _ ↦ none⟩
    let version : DatasetVersion :=
      ⟨⟨4⟩, ⟨3⟩, 1, digest,
        "tenant/00000000-0000-0000-0000-000000000002/datasets/" ++ digest.hex ++ "/1/", 10, ⟨1⟩⟩
    let datasets : DatasetStore :=
      { datasets := (∅ : Dict Uuid Dataset).set ⟨3⟩ ⟨⟨3⟩, ⟨2⟩, "gold", ⟨1⟩, 0⟩
        versions := (∅ : Dict Uuid DatasetVersion).set ⟨4⟩ version }
    let r : RunRequest :=
      ⟨⟨⟨1⟩, ⟨2⟩, .free, .researcher⟩, frozenXauusdM1Workflow, ⟨4⟩, some "retry-me", none⟩
    let env (jobId : Uuid) : Surroundings :=
      ⟨none, some true, some ∅, datasets, 1000000, 1000000, jobId, false⟩
    let job := newJob r ⟨5⟩ version
    let is := [ServiceInput.request r (env ⟨5⟩), .request r (env ⟨6⟩)]
    answerTo fingerprint host [] r (env ⟨5⟩) = .accepted job ∧
      answerTo fingerprint host [.request r (env ⟨5⟩)] r (env ⟨6⟩) =
        .rejected ⟨429, .text "concurrent research run limit reached"⟩ ∧
      ¬ Meets (fun pre i ↦ ∀ r env, i = .request r env → Idempotent fingerprint host pre r env)
        is := by
  intro digest fingerprint host version datasets r env job is
  have hfirst : answerTo fingerprint host [] r (env ⟨5⟩) = .accepted job := by decide +kernel
  have hsecond : answerTo fingerprint host [.request r (env ⟨5⟩)] r (env ⟨6⟩) =
      .rejected ⟨429, .text "concurrent research run limit reached"⟩ := by decide +kernel
  refine ⟨hfirst, hsecond, fun h ↦ ?_⟩
  have hretry := h [.request r (env ⟨5⟩)] (.request r (env ⟨6⟩)) (List.prefix_refl _) r (env ⟨6⟩) rfl
  have hbefore : CreatedBefore fingerprint host [.request r (env ⟨5⟩)] r r job :=
    ⟨[], env ⟨5⟩, List.prefix_refl _, ⟨by decide +kernel, by decide +kernel⟩, rfl, "retry-me",
      by decide +kernel, by decide +kernel⟩
  cases hsecond.symm.trans (hretry.retried r job hbefore rfl)

/-! ## Jobs that reach the queue -/

section

variable (fingerprint : FingerprintPayload → String) (host : Host)

/-- Some time in the run the queue has held a message for the job. -/
def Enqueued (is : List ServiceInput) (workspaceId jobId : Uuid) : Prop :=
  ∃ pre, pre <+: is ∧ ∃ messageId,
    (messageId, workspaceId, jobId) ∈ ((service fingerprint host).after pre).queue.messages

/-- If the request is accepted with a job that still waits, the job has been enqueued. -/
def AcceptedEnqueued (pre : List ServiceInput) (r : RunRequest) (env : Surroundings) : Prop :=
  ∀ job, answerTo fingerprint host pre r env = .accepted job →
    ∀ stored, ((service fingerprint host).after (pre ++ [.request r env])).store.jobs.get? job.id =
        some stored → stored.status = .queued →
      Enqueued fingerprint host (pre ++ [.request r env]) r.tenant.workspaceId job.id

/-- The request is admitted and retries one that was cut off from the queue, and the job
still waits. -/
structure RetriesStranded (pre : List ServiceInput) (r : RunRequest) (env : Surroundings)
    (job : ResearchJob) : Prop where
  retried : ∃ key version, Admitted ((service fingerprint host).after pre).store r env key version ∧
    ((service fingerprint host).after pre).store.idempotency.get? (r.tenant.workspaceId, key) =
      some (fingerprint r.payload, job)
  waits : ∃ stored, ((service fingerprint host).after pre).store.jobs.get? job.id = some stored ∧
    stored.status = .queued
  stranded : ∃ pre₀ r₀ env₀, pre₀ ++ [.request r₀ env₀] <+: pre ∧
    Creates fingerprint host pre₀ r₀ env₀ job ∧ env₀.enqueueFails = true

variable {fingerprint host}

theorem Creates.not_enqueued {pre is : List ServiceInput} {r : RunRequest} {env : Surroundings}
    {job : ResearchJob} (h : Creates fingerprint host pre r env job)
    (hfails : env.enqueueFails = true) (hpre : pre ++ [.request r env] <+: is)
    (workspaceId : Uuid) :
    ¬ Enqueued fingerprint host is workspaceId job.id := by
  rintro ⟨pre₁, hpre₁, messageId, hmessage⟩
  obtain ⟨pre₂, r₂, env₂, job₂, hpre₂, hcreates, hfails₂, heq⟩ := exists_enqueued hmessage
  obtain ⟨-, -, rfl⟩ := h.unique hcreates hpre (hpre₂.trans hpre₁) (congrArg Prod.snd heq)
  cases hfails.symm.trans hfails₂

theorem acceptedEnqueued_iff {pre : List ServiceInput} {r : RunRequest} {env : Surroundings} :
    AcceptedEnqueued fingerprint host pre r env ↔
      ¬ ∃ job, RetriesStranded fingerprint host pre r env job := by
  constructor
  · rintro h ⟨job, ⟨key, version, hadmitted, hbound⟩, ⟨stored, hstored, hqueued⟩, pre₀, r₀, env₀,
      hpre₀, hcreates, hfails⟩
    have hrun := createResearchRun_retried hadmitted hbound
    have hafter : (service fingerprint host).after (pre ++ [.request r env]) =
        (service fingerprint host).after pre := service_request.trans (congrArg Prod.snd hrun)
    exact hcreates.not_enqueued hfails (hpre₀.trans (List.prefix_append pre _)) _
      (h job (congrArg Prod.fst hrun) stored (hafter ▸ hstored) hqueued)
  · intro h job haccepted stored hstored hqueued
    obtain ⟨key, version, hadmitted, hbound | ⟨hfails, rfl, hnew, hstore⟩⟩ :=
      createResearchRun_accepted haccepted
    · obtain ⟨pre₀, r₀, env₀, hpre₀, hcreates, hws, -, -⟩ := exists_creates hbound
      have hrun := createResearchRun_retried hadmitted hbound
      have hafter : (service fingerprint host).after (pre ++ [.request r env]) =
          (service fingerprint host).after pre := service_request.trans (congrArg Prod.snd hrun)
      rw [hafter] at hstored
      have hfails : env₀.enqueueFails ≠ true := fun hfails ↦
        h ⟨job, ⟨key, version, hadmitted, hbound⟩, ⟨stored, hstored, hqueued⟩, pre₀, r₀, env₀, hpre₀,
          hcreates, hfails⟩
      exact ⟨_, hpre₀.trans (List.prefix_append pre _),
        hws ▸ hcreates.enqueued (Bool.eq_false_of_not_eq_true hfails)⟩
    · exact ⟨_, List.prefix_refl _, (creates_newJob hstore hnew).enqueued hfails⟩

end

/-- Over a whole run, every accepted job that still waits has been enqueued just when no
admitted request retries one whose `enqueue` has failed while its job still waits. -/
theorem accepted_runs_enqueued_iff (fingerprint : FingerprintPayload → String) (host : Host)
    (is : List ServiceInput) :
    Meets (fun pre i ↦ ∀ r env, i = .request r env →
        AcceptedEnqueued fingerprint host pre r env) is ↔
      Meets (fun pre i ↦ ∀ r env, i = .request r env →
        ¬ ∃ job, RetriesStranded fingerprint host pre r env job) is :=
  meets_congr fun _ _ _ _ ↦
    ⟨fun h r env hi ↦ acceptedEnqueued_iff.mp (h r env hi),
      fun h r env hi ↦ acceptedEnqueued_iff.mpr (h r env hi)⟩

/-- The queue is down once, and a retry is accepted with a job that is in no queue. -/
theorem retry_accepts_stranded_job :
    let digest : Sha256 :=
      ⟨"18ac3e7343f016890c510e93f935261169d9e3f565436429830faf0934f4f8e4", by decide +kernel,
        by decide +kernel⟩
    let fingerprint := fun p : FingerprintPayload ↦ String.ofList p.datasetVersionId.hex
    let host : Host := ⟨fun _ ↦ digest, fun _ ↦ none⟩
    let version : DatasetVersion :=
      ⟨⟨4⟩, ⟨3⟩, 1, digest,
        "tenant/00000000-0000-0000-0000-000000000002/datasets/" ++ digest.hex ++ "/1/", 10, ⟨1⟩⟩
    let datasets : DatasetStore :=
      { datasets := (∅ : Dict Uuid Dataset).set ⟨3⟩ ⟨⟨3⟩, ⟨2⟩, "gold", ⟨1⟩, 0⟩
        versions := (∅ : Dict Uuid DatasetVersion).set ⟨4⟩ version }
    let r : RunRequest :=
      ⟨⟨⟨1⟩, ⟨2⟩, .pro, .researcher⟩, frozenXauusdM1Workflow, ⟨4⟩, some "retry-me", none⟩
    let env (jobId : Uuid) (enqueueFails : Bool) : Surroundings :=
      ⟨none, some true, some ∅, datasets, 1000000, 1000000, jobId, enqueueFails⟩
    let job := newJob r ⟨5⟩ version
    let pre := [ServiceInput.request r (env ⟨5⟩ true)]
    answerTo fingerprint host [] r (env ⟨5⟩ true) =
        .serverError "research job queue unavailable" ∧
      answerTo fingerprint host pre r (env ⟨6⟩ false) = .accepted job ∧
      ((service fingerprint host).after (pre ++ [.request r (env ⟨6⟩ false)])).store.jobs.get?
        job.id = some job ∧
      ¬ Meets (fun pre i ↦ ∀ r env, i = .request r env →
        AcceptedEnqueued fingerprint host pre r env) (pre ++ [.request r (env ⟨6⟩ false)]) := by
  intro digest fingerprint host version datasets r env job pre
  have hfirst : answerTo fingerprint host [] r (env ⟨5⟩ true) =
      .serverError "research job queue unavailable" := by decide +kernel
  have hsecond : answerTo fingerprint host pre r (env ⟨6⟩ false) =
      .accepted job := by decide +kernel
  have hstored : ((service fingerprint host).after (pre ++ [.request r (env ⟨6⟩ false)])).store.jobs.get?
      job.id = some job := by decide +kernel
  have hcreates : Creates fingerprint host [] r (env ⟨5⟩ true) job :=
    ⟨by decide +kernel, by decide +kernel⟩
  refine ⟨hfirst, hsecond, hstored, fun h ↦ ?_⟩
  have henqueued : AcceptedEnqueued fingerprint host pre r (env ⟨6⟩ false) :=
    h pre (.request r (env ⟨6⟩ false)) (List.prefix_refl _) r (env ⟨6⟩ false) rfl
  exact hcreates.not_enqueued rfl (List.prefix_append pre [.request r (env ⟨6⟩ false)]) ⟨2⟩
    (henqueued job hsecond job hstored rfl)

end Qros.Saas
