import Qros.Lib.Calendar
import Qros.Saas.Datasets
import Qros.Saas.Effect
import Qros.Saas.Queue

/-!
# Requests for research runs

`create_research_run` of `researchos/saas/api.py` over the in-memory stores, and the
service in which workers move between the requests.

A request is admitted if it passes every check in front of the insertion (`passChecks`,
`Admitted`); the quotas are among these checks.  Only then is its idempotency key
looked up.  The job is stored before it is enqueued, and stays if that fails.
`RunOutcome` lists all that a request can do.

The digest of the payload in its JSON encoding is the parameter `fingerprint`.  The
body of the stored response, which the store here drops, is left out.
-/

namespace Qros.Saas

open Qros.Lib Qros.Lib.Calendar

def frozenXauusdM1Workflow : String := "xauusd_m1_frozen_research_v1"

def maxIdempotencyKeyLength : Nat := 128

inductive Detail where
  | text (message : String)
  | coded (code message upgradeUrl : String)
deriving DecidableEq

structure HttpError where
  status : Nat
  detail : Detail
deriving DecidableEq

/-- The answer to a request: status 202, an error of the endpoint, or an exception that
becomes a status 500. -/
inductive Response where
  | accepted (job : ResearchJob)
  | rejected (error : HttpError)
  | serverError (message : String)
deriving DecidableEq

structure RunRequest where
  tenant : TenantContext
  workflowId : String
  datasetVersionId : Uuid
  idempotencyKey : Option String
  requestId : Option String

/-- What a request meets outside the job store. -/
structure Surroundings where
  /-- The answer given before the endpoint runs: no user, no permission, a bad form. -/
  refusal : Option HttpError
  /-- The answer of the rate limiter; `none` if it raises. -/
  rateLimit : Option Bool
  /-- The rows of the entitlement store; `none` if it raises. -/
  entitlements : Option (Dict Uuid Entitlement)
  datasets : DatasetStore
  /-- The clock when the runs of the month are counted. -/
  now : DateTime
  /-- The clock when the job is inserted. -/
  createdAt : DateTime
  /-- The `uuid4()` of the job. -/
  jobId : Uuid
  enqueueFails : Bool

/-! ## Counts -/

/-- `now.replace(day=1, hour=0, minute=0, second=0, microsecond=0)`. -/
def monthStart (now : DateTime) : DateTime :=
  daysFromCivil { civilFromDays (now / 86400000000) with day := 1 } * 86400000000

def ResearchJob.isActive (job : ResearchJob) : Bool :=
  decide (job.status = .queued) || decide (job.status = .running)

namespace Store

def countActive (s : Store) (workspaceId : Uuid) : Nat :=
  s.jobs.values.countP fun job ↦ decide (job.workspaceId = workspaceId) && job.isActive

def countMonthly (s : Store) (workspaceId : Uuid) (now : DateTime) : Nat :=
  s.jobs.values.countP fun job ↦ decide (job.workspaceId = workspaceId) &&
    decide (monthStart now ≤ (s.createdAt.get? job.id).getD now)

end Store

/-! ## Checks -/

def requireRateLimit (answer : Option Bool) : Except HttpError Unit := do
  let allowed ← found answer ⟨503, .text "rate limiting service unavailable"⟩
  require (allowed = true) ⟨429, .text "rate limit exceeded"⟩

/-- The header as the endpoint uses it. -/
def parseIdempotencyKey (header : Option String) : Except HttpError String :=
  if header.getD "" = "" then .error ⟨400, .text "Idempotency-Key header is required"⟩
  else
    let key := strip (header.getD "")
    if key = "" ∨ maxIdempotencyKeyLength < key.length then
      .error ⟨400, .text "invalid Idempotency-Key"⟩
    else .ok key

def requireMonthly (s : Store) (workspaceId : Uuid) (entitlement : Entitlement) (now : DateTime) :
    Except HttpError Unit :=
  require (entitlement.allowsJobs (s.countMonthly workspaceId now) = true)
    ⟨402, .coded "ENTITLEMENT_EXCEEDED" "monthly job entitlement exceeded"
      "https://qros.ai/upgrade"⟩

def requireConcurrency (s : Store) (workspaceId : Uuid) (policy : UsagePolicy) :
    Except HttpError Unit :=
  require (policy.allowsConcurrency (s.countActive workspaceId) = true)
    ⟨429, .text "concurrent research run limit reached"⟩

/-- The checks before the counts, with the key and the rows of the entitlements. -/
def checkRequest (r : RunRequest) (env : Surroundings) :
    Except HttpError (String × Dict Uuid Entitlement) := do
  match env.refusal with
  | some error => .error error
  | none => .ok ()
  requireRateLimit env.rateLimit
  require (r.workflowId = frozenXauusdM1Workflow) ⟨400, .text "unsupported workflow"⟩
  let key ← parseIdempotencyKey r.idempotencyKey
  let rows ← found env.entitlements ⟨503, .text "entitlement service unavailable"⟩
  return (key, rows)

def findVersion (datasets : DatasetStore) (r : RunRequest) : Except HttpError DatasetVersion :=
  found (datasets.getVersion r.tenant.workspaceId r.datasetVersionId)
    ⟨404, .text "dataset version not found"⟩

/-- All checks in front of the insertion. -/
def passChecks (s : Store) (r : RunRequest) (env : Surroundings) :
    Except HttpError (String × DatasetVersion) := do
  let (key, rows) ← checkRequest r env
  requireMonthly s r.tenant.workspaceId
    (entitlementOf rows r.tenant.workspaceId r.tenant.plan) env.now
  requireConcurrency s r.tenant.workspaceId r.tenant.plan.usagePolicy
  let version ← findVersion env.datasets r
  return (key, version)

/-! ## Insertion -/

/-- The job of an admitted request, whose workflow is the frozen one. -/
def newJob (r : RunRequest) (jobId : Uuid) (version : DatasetVersion) : ResearchJob :=
  .requested jobId r.tenant.workspaceId version.id frozenXauusdM1Workflow version.contentSha256
    (some r.tenant.userId) (by decide +kernel)

structure FingerprintPayload where
  datasetVersionId : Uuid
  workflowId : String
deriving DecidableEq

def RunRequest.payload (r : RunRequest) : FingerprintPayload := ⟨r.datasetVersionId, r.workflowId⟩

variable (fingerprint : FingerprintPayload → String)

/-- The insertion: either the answer, or a new job that is still to be enqueued. -/
def insertRun (s : Store) (r : RunRequest) (key : String) (version : DatasetVersion)
    (jobId : Uuid) (now : DateTime) : Except Response ResearchJob × Store :=
  match s.createIdempotent r.tenant.workspaceId (newJob r jobId version) key
      (fingerprint r.payload) now with
  | (.ok (created, true), s) => (.error (.accepted created), s)
  | (.ok (created, false), s) => (.ok created, s)
  | (.error (.valueError message), s) =>
    if "idempotency key reused".toList <:+: message.toList then
      (.error (.rejected ⟨409, .text message⟩), s)
    else (.error (.serverError message), s)
  | (.error _, s) => (.error (.serverError ""), s)

def enqueueRun (q : Queue) (workspaceId : Uuid) (created : ResearchJob) (requestId : Option String)
    (fails : Bool) : Response × Queue :=
  if fails then (.serverError "research job queue unavailable", q)
  else (.accepted created, q.enqueue workspaceId created.id requestId)

structure Service where
  store : Store
  queue : Queue

def createResearchRun (s : Service) (r : RunRequest) (env : Surroundings) : Response × Service :=
  match passChecks s.store r env with
  | .error error => (.rejected error, s)
  | .ok (key, version) =>
    match insertRun fingerprint s.store r key version env.jobId env.createdAt with
    | (.error response, store) => (response, { s with store := store })
    | (.ok created, store) =>
      (enqueueRun s.queue r.tenant.workspaceId created r.requestId env.enqueueFails).map id
        fun queue ↦ ⟨store, queue⟩

/-! ## Admission -/

structure Checked (r : RunRequest) (env : Surroundings) (key : String)
    (rows : Dict Uuid Entitlement) : Prop where
  unrefused : env.refusal = none
  rate : env.rateLimit = some true
  workflow : r.workflowId = frozenXauusdM1Workflow
  key : parseIdempotencyKey r.idempotencyKey = .ok key
  rows : env.entitlements = some rows

variable {env : Surroundings} {key : String} {r : RunRequest}

theorem checkRequest_eq_ok {rows : Dict Uuid Entitlement} :
    checkRequest r env = .ok (key, rows) ↔ Checked r env key rows := by
  unfold checkRequest requireRateLimit
  cases hrefusal : env.refusal with
  | some error => exact iff_of_false nofun fun h ↦ nomatch hrefusal.symm.trans h.unrefused
  | none =>
    simp only [bind_eq_ok, require_eq_ok, found_eq_ok]
    constructor
    · rintro ⟨-, -, -, ⟨allowed, hrate, rfl⟩, -, hworkflow, key', hkey, rows', hrows, h⟩
      cases h
      exact ⟨hrefusal, hrate, hworkflow, hkey, hrows⟩
    · intro h
      exact ⟨(), trivial, (), ⟨true, h.rate, rfl⟩, (), h.workflow, key, h.key, rows, h.rows, rfl⟩

structure Admitted (s : Store) (r : RunRequest) (env : Surroundings) (key : String)
    (version : DatasetVersion) : Prop where
  checked : ∃ rows, Checked r env key rows ∧
    Below (entitlementOf rows r.tenant.workspaceId r.tenant.plan).maxJobsPerMonth
      (s.countMonthly r.tenant.workspaceId env.now)
  active : Below r.tenant.plan.usagePolicy.maxConcurrentRuns (s.countActive r.tenant.workspaceId)
  version : env.datasets.getVersion r.tenant.workspaceId r.datasetVersionId = some version

theorem passChecks_eq_ok {s : Store} {version : DatasetVersion} :
    passChecks s r env = .ok (key, version) ↔ Admitted s r env key version := by
  unfold passChecks requireMonthly requireConcurrency findVersion
  simp only [bind_eq_ok, require_eq_ok, found_eq_ok, allowsJobs_iff, allowsConcurrency_iff]
  constructor
  · rintro ⟨⟨key', rows⟩, hchecked, -, hjobs, -, hactive, version', hversion, h⟩
    cases h
    exact ⟨⟨rows, checkRequest_eq_ok.mp hchecked, hjobs⟩, hactive, hversion⟩
  · rintro ⟨⟨rows, hchecked, hjobs⟩, hactive, hversion⟩
    exact ⟨(key, rows), checkRequest_eq_ok.mpr hchecked, (), hjobs, (), hactive, version, hversion,
      rfl⟩

theorem Admitted.parsed {s : Store} {version : DatasetVersion} (h : Admitted s r env key version) :
    parseIdempotencyKey r.idempotencyKey = .ok key := by
  obtain ⟨rows, hchecked, -⟩ := h.checked
  exact hchecked.key

/-! ## Outcomes -/

/-- The entry of a new job and of its idempotency key. -/
def Store.insertKeyed (s : Store) (key fingerprint : String) (job : ResearchJob) (now : DateTime) :
    Store :=
  { s.insertJob job now with
    idempotency := s.idempotency.set (job.workspaceId, key) (fingerprint, job) }

/-- All that the insertion can do. -/
inductive InsertOutcome (s : Store) (r : RunRequest) (key : String) (version : DatasetVersion)
    (jobId : Uuid) (now : DateTime) : Except Response ResearchJob → Store → Prop
  | conflict {error : HttpError} {used : String} {job : ResearchJob}
      (hkey : s.idempotency.get? (r.tenant.workspaceId, key) = some (used, job))
      (hne : used ≠ fingerprint r.payload) :
      InsertOutcome s r key version jobId now (.error (.rejected error)) s
  | replayed {job : ResearchJob}
      (hkey : s.idempotency.get? (r.tenant.workspaceId, key) = some (fingerprint r.payload, job)) :
      InsertOutcome s r key version jobId now (.error (.accepted job)) s
  | collided {message : String}
      (hkey : s.idempotency.get? (r.tenant.workspaceId, key) = none)
      (hold : s.jobs.get? jobId ≠ none) :
      InsertOutcome s r key version jobId now (.error (.serverError message)) s
  | inserted (hkey : s.idempotency.get? (r.tenant.workspaceId, key) = none)
      (hnew : s.jobs.get? jobId = none) :
      InsertOutcome s r key version jobId now (.ok (newJob r jobId version))
        (s.insertKeyed key (fingerprint r.payload) (newJob r jobId version) now)

theorem insertOutcome (s : Store) (r : RunRequest) (key : String) (version : DatasetVersion)
    (jobId : Uuid) (now : DateTime) :
    InsertOutcome fingerprint s r key version jobId now
      (insertRun fingerprint s r key version jobId now).1
      (insertRun fingerprint s r key version jobId now).2 := by
  have hws : (newJob r jobId version).workspaceId = r.tenant.workspaceId := rfl
  unfold insertRun
  cases hkey : s.idempotency.get? (r.tenant.workspaceId, key) with
  | none =>
    by_cases hnew : s.jobs.get? jobId = none
    · rw [Store.createIdempotent_eq hws hkey hnew]
      exact .inserted hkey hnew
    · have hcreate : s.createIdempotent r.tenant.workspaceId (newJob r jobId version) key
          (fingerprint r.payload) now =
          (.error (.valueError "research job already exists"), s) := by
        unfold Store.createIdempotent
        rw [if_neg (not_not.mpr hws), hkey]
        exact if_pos (Option.isSome_iff_ne_none.mpr hnew)
      have hmessage : ¬ "idempotency key reused".toList <:+:
          "research job already exists".toList := by decide +kernel
      rw [hcreate]
      dsimp only
      rw [if_neg hmessage]
      exact .collided hkey hnew
  | some entry =>
    obtain ⟨used, job⟩ := entry
    by_cases hne : used ≠ fingerprint r.payload
    · have hcreate : s.createIdempotent r.tenant.workspaceId (newJob r jobId version) key
          (fingerprint r.payload) now =
          (.error (.valueError "idempotency key reused with different request"), s) := by
        unfold Store.createIdempotent
        rw [if_neg (not_not.mpr hws), hkey]
        exact if_pos hne
      have hmessage : "idempotency key reused".toList <:+:
          "idempotency key reused with different request".toList := by decide +kernel
      rw [hcreate]
      dsimp only
      rw [if_pos hmessage]
      exact .conflict hkey hne
    · have hcreate : s.createIdempotent r.tenant.workspaceId (newJob r jobId version) key
          (fingerprint r.payload) now = (.ok (job, true), s) := by
        unfold Store.createIdempotent
        rw [if_neg (not_not.mpr hws), hkey]
        exact if_neg hne
      rw [hcreate]
      rw [not_not.mp hne] at hkey
      exact .replayed hkey

/-- All that a request can do. -/
inductive RunOutcome (s : Service) (r : RunRequest) (env : Surroundings) : Response → Service → Prop
  | rejected {error : HttpError} (h : ¬ ∃ key version, Admitted s.store r env key version) :
      RunOutcome s r env (.rejected error) s
  | conflict {error : HttpError} {key used : String} {version : DatasetVersion} {job : ResearchJob}
      (h : Admitted s.store r env key version)
      (hkey : s.store.idempotency.get? (r.tenant.workspaceId, key) = some (used, job))
      (hne : used ≠ fingerprint r.payload) : RunOutcome s r env (.rejected error) s
  | replayed {key : String} {version : DatasetVersion} {job : ResearchJob}
      (h : Admitted s.store r env key version)
      (hkey : s.store.idempotency.get? (r.tenant.workspaceId, key) =
        some (fingerprint r.payload, job)) : RunOutcome s r env (.accepted job) s
  | collided {key message : String} {version : DatasetVersion}
      (h : Admitted s.store r env key version)
      (hkey : s.store.idempotency.get? (r.tenant.workspaceId, key) = none)
      (hold : s.store.jobs.get? env.jobId ≠ none) : RunOutcome s r env (.serverError message) s
  | created {key : String} {version : DatasetVersion} (h : Admitted s.store r env key version)
      (hkey : s.store.idempotency.get? (r.tenant.workspaceId, key) = none)
      (hnew : s.store.jobs.get? env.jobId = none) :
      RunOutcome s r env
        (enqueueRun s.queue r.tenant.workspaceId (newJob r env.jobId version) r.requestId
          env.enqueueFails).1
        ⟨s.store.insertKeyed key (fingerprint r.payload) (newJob r env.jobId version) env.createdAt,
          (enqueueRun s.queue r.tenant.workspaceId (newJob r env.jobId version) r.requestId
            env.enqueueFails).2⟩

/-- **Every request has one of the outcomes.** -/
theorem runOutcome (s : Service) (r : RunRequest) (env : Surroundings) :
    RunOutcome fingerprint s r env (createResearchRun fingerprint s r env).1
      (createResearchRun fingerprint s r env).2 := by
  unfold createResearchRun
  cases hchecks : passChecks s.store r env with
  | error error =>
    refine .rejected ?_
    rintro ⟨key, version, h⟩
    cases hchecks.symm.trans (passChecks_eq_ok.mpr h)
  | ok accepted =>
    obtain ⟨key, version⟩ := accepted
    have h := passChecks_eq_ok.mp hchecks
    have hinsert := insertOutcome fingerprint s.store r key version env.jobId env.createdAt
    dsimp only
    generalize insertRun fingerprint s.store r key version env.jobId env.createdAt = out at hinsert
    obtain ⟨result, store⟩ := out
    cases hinsert with
    | conflict hkey hne => exact .conflict h hkey hne
    | replayed hkey => exact .replayed h hkey
    | collided hkey hold => exact .collided h hkey hold
    | inserted hkey hnew => exact .created h hkey hnew

end Qros.Saas
