import Qros.Saas.Service

/-!
# Quotas

The requests for research runs of one workspace, each cut into the steps in which it
reads and writes: the count of the month, the count of the active runs, the dataset
version, the insertion, the queue.  Any number of requests and the workers move in any
order.  Undisturbed, a request does what `createResearchRun` does (`solo_run`).

Between the counts and the insertion others may insert, and nothing counts again.  So
the quotas hold just as long as every insertion happens to find room
(`runs_within_quota_iff`).
-/

universe u

namespace Qros.Saas

open Qros.Lib

structure Account where
  workspaceId : Uuid
  plan : Plan
  rows : Dict Uuid Entitlement
  /-- A check constraint of the table. -/
  maxJobs_nonneg : 0 ≤ (entitlementOf rows workspaceId plan).maxJobsPerMonth

namespace Account

variable (account : Account)

def maxJobsPerMonth : Int :=
  (entitlementOf account.rows account.workspaceId account.plan).maxJobsPerMonth

def maxConcurrentRuns : Int := account.plan.usagePolicy.maxConcurrentRuns

end Account

/-- A request of the workspace with what it is going to meet. -/
structure AccountRequest (account : Account) where
  r : RunRequest
  env : Surroundings
  workspaceId_eq : r.tenant.workspaceId = account.workspaceId
  plan_eq : r.tenant.plan = account.plan
  rows_eq : ∀ rows ∈ env.entitlements, rows = account.rows

section Moves

variable (fingerprint : FingerprintPayload → String) (host : Host) (account : Account) (U : Type u)

inductive RunPhase where
  | idle
  | /-- Next comes `count_monthly`. -/
    checked (a : AccountRequest account) (key : String)
  | /-- Next comes `count_active`. -/
    counted (a : AccountRequest account) (key : String)
  | /-- Next comes `get_version`. -/
    allowed (a : AccountRequest account) (key : String)
  | /-- Next comes `create_idempotent`. -/
    found (a : AccountRequest account) (key : String) (version : DatasetVersion)
  | /-- Next comes `enqueue`. -/
    inserted (a : AccountRequest account) (job : ResearchJob)

/-- One step of the system; `U` names the requests. -/
inductive QuotaMove where
  | arrive (u : U) (a : AccountRequest account)
  | advance (u : U)
  | worker (e : Timed) (h : e.call.isWorkers = true)

structure Requests where
  service : Service
  phases : U → RunPhase account

variable {account}

/-- The next step of a request: its answer if it ends, what it leaves behind and where it
is then. -/
def RunPhase.advance (s : Service) : RunPhase account → Option Response × Service × RunPhase account
  | .idle => (none, s, .idle)
  | .checked a key =>
    match requireMonthly s.store account.workspaceId
        (entitlementOf account.rows account.workspaceId account.plan) a.env.now with
    | .error error => (some (.rejected error), s, .idle)
    | .ok _ => (none, s, .counted a key)
  | .counted a key =>
    match requireConcurrency s.store account.workspaceId account.plan.usagePolicy with
    | .error error => (some (.rejected error), s, .idle)
    | .ok _ => (none, s, .allowed a key)
  | .allowed a key =>
    match findVersion a.env.datasets a.r with
    | .error error => (some (.rejected error), s, .idle)
    | .ok version => (none, s, .found a key version)
  | .found a key version =>
    match insertRun fingerprint s.store a.r key version a.env.jobId a.env.createdAt with
    | (.error response, store) => (some response, { s with store := store }, .idle)
    | (.ok created, store) => (none, { s with store := store }, .inserted a created)
  | .inserted a job =>
    let (response, queue) :=
      enqueueRun s.queue account.workspaceId job a.r.requestId a.env.enqueueFails
    (some response, { s with queue := queue }, .idle)

variable {U} [DecidableEq U]

def Requests.goto (sys : Requests account U) (u : U) (s : Service) (phase : RunPhase account) :
    Requests account U :=
  ⟨s, Function.update sys.phases u phase⟩

def Requests.move (sys : Requests account U) : QuotaMove account U →
    Option Response × Requests account U
  | .arrive u a =>
    match sys.phases u, checkRequest a.r a.env with
    | .idle, .ok (key, _) => (none, sys.goto u sys.service (.checked a key))
    | .idle, .error error => (some (.rejected error), sys)
    | _, _ => (none, sys)
  | .advance u =>
    let (answer, s, phase) := (sys.phases u).advance fingerprint sys.service
    (answer, sys.goto u s phase)
  | .worker e _ =>
    (none, { sys with
      service := { sys.service with store := (e.call.run host e.now sys.service.store).2 } })

variable (account U)

/-- The requests of a workspace, with the workers, as a machine. -/
def requests : Machine (Requests account U) (QuotaMove account U) (Option Response) where
  init := ⟨⟨.empty, .empty⟩, fun _ ↦ .idle⟩
  step := fun m sys ↦ sys.move fingerprint host m

end Moves

/-! ## A request by itself -/

section

variable (fingerprint : FingerprintPayload → String) (host : Host) {account : Account} {U : Type u}
  [DecidableEq U]

/-- The steps of a request from its phase on, undisturbed. -/
def RunPhase.solo : Nat → Service → RunPhase account → Service
  | 0, s, _ => s
  | n + 1, s, phase =>
    solo n (phase.advance fingerprint s).2.1 (phase.advance fingerprint s).2.2

theorem foldl_advance (n : Nat) (u : U) (sys : Requests account U) :
    ((List.replicate n (QuotaMove.advance u)).foldl (fun sys m ↦ (sys.move fingerprint host m).2)
      sys).service = (sys.phases u).solo fingerprint n sys.service := by
  induction n generalizing sys with
  | zero => rfl
  | succ n ih =>
    rw [List.replicate_succ, List.foldl_cons, ih]
    show (Function.update sys.phases u ((sys.phases u).advance fingerprint sys.service).2.2
      u).solo fingerprint n ((sys.phases u).advance fingerprint sys.service).2.1 = _
    rw [Function.update_self]
    rfl

theorem solo_idle (n : Nat) (s : Service) :
    (RunPhase.idle : RunPhase account).solo fingerprint n s = s := by
  induction n with
  | zero => rfl
  | succ n ih => exact ih

theorem createResearchRun_checked {s : Service} {r : RunRequest} {env : Surroundings} {key : String}
    {rows : Dict Uuid Entitlement} (h : checkRequest r env = .ok (key, rows)) :
    createResearchRun fingerprint s r env =
      match requireMonthly s.store r.tenant.workspaceId
          (entitlementOf rows r.tenant.workspaceId r.tenant.plan) env.now with
      | .error error => (.rejected error, s)
      | .ok _ =>
        match requireConcurrency s.store r.tenant.workspaceId r.tenant.plan.usagePolicy with
        | .error error => (.rejected error, s)
        | .ok _ =>
          match findVersion env.datasets r with
          | .error error => (.rejected error, s)
          | .ok version =>
            match insertRun fingerprint s.store r key version env.jobId env.createdAt with
            | (.error response, store) => (response, { s with store := store })
            | (.ok created, store) =>
              (enqueueRun s.queue r.tenant.workspaceId created r.requestId
                env.enqueueFails).map id fun queue ↦ ⟨store, queue⟩ := by
  unfold createResearchRun passChecks
  rw [h]
  dsimp only [bind, Except.bind]
  cases requireMonthly s.store r.tenant.workspaceId
      (entitlementOf rows r.tenant.workspaceId r.tenant.plan) env.now with
  | error error => rfl
  | ok _ =>
    cases requireConcurrency s.store r.tenant.workspaceId r.tenant.plan.usagePolicy with
    | error error => rfl
    | ok _ =>
      cases findVersion env.datasets r with
      | error error => rfl
      | ok version => rfl

theorem solo_checked (s : Service) (a : AccountRequest account) {key : String}
    (h : checkRequest a.r a.env = .ok (key, account.rows)) :
    (RunPhase.checked a key).solo fingerprint 5 s =
      (createResearchRun fingerprint s a.r a.env).2 := by
  rw [createResearchRun_checked fingerprint h, a.workspaceId_eq, a.plan_eq]
  rw [RunPhase.solo]
  cases hmonthly : requireMonthly s.store account.workspaceId
      (entitlementOf account.rows account.workspaceId account.plan) a.env.now with
  | error error => simp only [RunPhase.advance, hmonthly, solo_idle]
  | ok _ =>
    simp only [RunPhase.advance, hmonthly]
    rw [RunPhase.solo]
    cases hactive : requireConcurrency s.store account.workspaceId account.plan.usagePolicy with
    | error error => simp only [RunPhase.advance, hactive, solo_idle]
    | ok _ =>
      simp only [RunPhase.advance, hactive]
      rw [RunPhase.solo]
      cases hversion : findVersion a.env.datasets a.r with
      | error error => simp only [RunPhase.advance, hversion, solo_idle]
      | ok version =>
        simp only [RunPhase.advance, hversion]
        rw [RunPhase.solo]
        cases hinsert : insertRun fingerprint s.store a.r key version a.env.jobId
            a.env.createdAt with
        | mk result store =>
          cases result with
          | error response => simp only [RunPhase.advance, hinsert, solo_idle]
          | ok created =>
            simp only [RunPhase.advance, hinsert]
            rfl

/-- **A request that nobody disturbs does what the endpoint does.** -/
theorem solo_run (sys : Requests account U) (u : U) (a : AccountRequest account)
    (hidle : sys.phases u = .idle) :
    ((QuotaMove.arrive u a :: List.replicate 5 (.advance u)).foldl
      (fun sys m ↦ (sys.move fingerprint host m).2) sys).service =
        (createResearchRun fingerprint sys.service a.r a.env).2 := by
  rw [List.foldl_cons, foldl_advance]
  cases hcheck : checkRequest a.r a.env with
  | error error =>
    have hmove : (sys.move fingerprint host (.arrive u a)).2 = sys := by
      simp only [Requests.move, hidle, hcheck]
    have hrun : (createResearchRun fingerprint sys.service a.r a.env).2 = sys.service := by
      unfold createResearchRun passChecks
      rw [hcheck]
      rfl
    rw [hmove, hidle, solo_idle, hrun]
  | ok checked =>
    obtain ⟨key, rows⟩ := checked
    obtain rfl := a.rows_eq rows (checkRequest_eq_ok.mp hcheck).rows
    have hmove : (sys.move fingerprint host (.arrive u a)).2 =
        sys.goto u sys.service (.checked a key) := by
      simp only [Requests.move, hidle, hcheck]
    have hphase : (sys.goto u sys.service (.checked a key)).phases u = .checked a key :=
      Function.update_self u _ _
    rw [hmove, hphase]
    exact solo_checked fingerprint sys.service a hcheck

end

/-! ## Counts -/

namespace Store

def countCreated (s : Store) (workspaceId : Uuid) (month : DateTime) : Nat :=
  s.jobs.values.countP fun job ↦ decide (job.workspaceId = workspaceId) &&
    decide ((s.createdAt.get? job.id).map monthStart = some month)

/-- Every job is stored under its id. -/
def IdsMatch (s : Store) : Prop := ∀ jobId job, s.jobs.get? jobId = some job → job.id = jobId

section Insertion

variable {s : Store} {key fingerprint : String} {job : ResearchJob} {now : DateTime}
  {workspaceId : Uuid}

theorem IdsMatch.insertKeyed (h : s.IdsMatch) :
    (s.insertKeyed key fingerprint job now).IdsMatch := by
  intro k j hj
  have hset : (s.jobs.set job.id job).get? k = some j := hj
  rw [Dict.get?_set] at hset
  split at hset
  · rename_i hid
    cases hset
    exact hid
  · exact h k j hset

theorem countActive_insertKeyed (hnew : s.jobs.get? job.id = none)
    (hws : job.workspaceId = workspaceId) (hactive : job.isActive = true) :
    (s.insertKeyed key fingerprint job now).countActive workspaceId =
      s.countActive workspaceId + 1 := by
  have hcount := Dict.countP_set_of_none hnew
    (fun job ↦ decide (job.workspaceId = workspaceId) && job.isActive) job
  rw [decide_eq_true hws, hactive] at hcount
  exact hcount

theorem countCreated_insertKeyed (h : s.IdsMatch) (hnew : s.jobs.get? job.id = none)
    (hws : job.workspaceId = workspaceId) (month : DateTime) :
    (s.insertKeyed key fingerprint job now).countCreated workspaceId month =
      s.countCreated workspaceId month + (decide (monthStart now = month)).toNat := by
  have hcount := Dict.countP_set_of_none hnew (fun job' ↦ decide (job'.workspaceId = workspaceId) &&
    decide (((s.createdAt.set job.id now).get? job'.id).map monthStart = some month)) job
  rw [Dict.get?_set_self, decide_eq_true hws, Bool.true_and, Option.map_some] at hcount
  -- The others keep the time at which they were created.
  have hold : s.jobs.values.countP (fun job' ↦ decide (job'.workspaceId = workspaceId) &&
      decide (((s.createdAt.set job.id now).get? job'.id).map monthStart = some month)) =
        s.countCreated workspaceId month := by
    refine List.countP_congr fun job' hmem ↦ ?_
    obtain ⟨k, hk⟩ := Dict.mem_values.mp hmem
    have hne : job.id ≠ job'.id := by
      rintro hid
      rw [← h k job' hk, ← hid, hnew] at hk
      cases hk
    rw [Dict.get?_set_of_ne _ _ hne]
  rw [hold] at hcount
  refine hcount.trans (congrArg (s.countCreated workspaceId month + Bool.toNat ·) ?_)
  exact decide_eq_decide.mpr Option.some_inj

end Insertion

end Store

section Workers

variable {s s' : Store}

theorem WorkerEffect.idsMatch (h : WorkerEffect s s') (hids : s.IdsMatch) : s'.IdsMatch := by
  intro k j hj
  rcases h.jobs with heq | ⟨jobId, job, job', hjob, heq, hfollows⟩
  · exact hids k j (heq ▸ hj)
  · rw [heq, Dict.get?_set] at hj
    split at hj
    · rename_i hid
      cases hj
      rw [hfollows.id_eq, hids jobId job hjob, hid]
    · exact hids k j hj

theorem WorkerEffect.countActive_le (h : WorkerEffect s s') (workspaceId : Uuid) :
    s'.countActive workspaceId ≤ s.countActive workspaceId := by
  rcases h.jobs with heq | ⟨jobId, job, job', hjob, heq, hfollows⟩
  · unfold Store.countActive
    rw [heq]
  · have hcount := Dict.countP_set_of_some hjob
      (fun job ↦ decide (job.workspaceId = workspaceId) && job.isActive) job'
    have hle : (decide (job'.workspaceId = workspaceId) && job'.isActive).toNat ≤
        (decide (job.workspaceId = workspaceId) && job.isActive).toNat := by
      rw [hfollows.workspaceId_eq]
      refine Bool.toNat_le_toNat fun hactive ↦ ?_
      rw [Bool.and_eq_true] at hactive ⊢
      exact ⟨hactive.1, hfollows.active hactive.2⟩
    unfold Store.countActive
    rw [heq]
    omega

theorem WorkerEffect.countCreated_eq (h : WorkerEffect s s') (workspaceId : Uuid)
    (month : DateTime) : s'.countCreated workspaceId month = s.countCreated workspaceId month := by
  unfold Store.countCreated
  rw [h.createdAt]
  rcases h.jobs with heq | ⟨jobId, job, job', hjob, heq, hfollows⟩
  · rw [heq]
  · have hcount := Dict.countP_set_of_some hjob (fun job ↦
      decide (job.workspaceId = workspaceId) &&
        decide ((s.createdAt.get? job.id).map monthStart = some month)) job'
    rw [hfollows.workspaceId_eq, hfollows.id_eq] at hcount
    rw [heq]
    exact Nat.add_right_cancel hcount

end Workers

/-! ## Limits -/

section

variable {account : Account} {U : Type u}

/-- Neither limit of the account is exceeded; a limit of zero bounds nothing. -/
structure WithinQuota (account : Account) (s : Store) : Prop where
  active : account.maxConcurrentRuns = 0 ∨
    (s.countActive account.workspaceId : Int) ≤ account.maxConcurrentRuns
  monthly : ∀ month, account.maxJobsPerMonth = 0 ∨
    (s.countCreated account.workspaceId month : Int) ≤ account.maxJobsPerMonth

def Inserts (sys : Requests account U) (m : QuotaMove account U) (a : AccountRequest account) :
    Prop :=
  ∃ u key version, m = .advance u ∧ sys.phases u = .found a key version ∧
    sys.service.store.idempotency.get? (a.r.tenant.workspaceId, key) = none ∧
      sys.service.store.jobs.get? a.env.jobId = none

/-- An insertion finds both counts below their limits. -/
def FindsRoom (sys : Requests account U) (m : QuotaMove account U) : Prop :=
  ∀ a, Inserts sys m a →
    Below account.maxConcurrentRuns (sys.service.store.countActive account.workspaceId) ∧
      Below account.maxJobsPerMonth
        (sys.service.store.countCreated account.workspaceId (monthStart a.env.createdAt))

variable {sys : Requests account U}

theorem not_inserts {u : U} (h : ∀ a key version, sys.phases u ≠ .found a key version)
    (a : AccountRequest account) :
    ¬ Inserts sys (.advance u) a := by
  rintro ⟨u', key, version, hm, hphase, -⟩
  cases hm
  exact h a key version hphase

theorem Inserts.of_found {u : U} {a a' : AccountRequest account} {key : String}
    {version : DatasetVersion} (h : Inserts sys (.advance u) a')
    (hphase : sys.phases u = .found a key version) :
    a' = a ∧ sys.service.store.idempotency.get? (a.r.tenant.workspaceId, key) = none ∧
      sys.service.store.jobs.get? a.env.jobId = none := by
  obtain ⟨u', key', version', hm, hphase', hrest⟩ := h
  cases hm
  cases hphase.symm.trans hphase'
  exact ⟨rfl, hrest⟩

variable (fingerprint : FingerprintPayload → String) (host : Host)

theorem RunPhase.store_advance (s : Service) {phase : RunPhase account}
    (h : ∀ a key version, phase ≠ .found a key version) :
    (phase.advance fingerprint s).2.1.store = s.store := by
  cases phase with
  | found a key version => exact absurd rfl (h a key version)
  | idle => rfl
  | inserted a job => rfl
  | checked a key =>
    simp only [RunPhase.advance]
    split <;> rfl
  | counted a key =>
    simp only [RunPhase.advance]
    split <;> rfl
  | allowed a key =>
    simp only [RunPhase.advance]
    split <;> rfl

inductive QuotaChange (sys : Requests account U) (m : QuotaMove account U) : Store → Prop
  | same (h : ∀ a, ¬ Inserts sys m a) : QuotaChange sys m sys.service.store
  | worked {store : Store} (h : ∀ a, ¬ Inserts sys m a)
      (hworker : WorkerEffect sys.service.store store) : QuotaChange sys m store
  | inserted {a : AccountRequest account} {key : String} {version : DatasetVersion}
      (h : Inserts sys m a) (honly : ∀ a', Inserts sys m a' → a' = a)
      (hnew : sys.service.store.jobs.get? a.env.jobId = none) :
      QuotaChange sys m (sys.service.store.insertKeyed key (fingerprint a.r.payload)
        (newJob a.r a.env.jobId version) a.env.createdAt)

theorem quotaChange [DecidableEq U] (sys : Requests account U) (m : QuotaMove account U) :
    QuotaChange fingerprint sys m (sys.move fingerprint host m).2.service.store := by
  cases m with
  | arrive u a =>
    have h : ∀ a', ¬ Inserts sys (.arrive u a) a' := by
      rintro a' ⟨u', key, version, hm, -⟩
      cases hm
    unfold Requests.move
    dsimp only
    split
    · exact .same h
    · exact .same h
    · exact .same h
  | worker e hcall =>
    refine .worked ?_ (workerEffect host e.now sys.service.store hcall)
    rintro a ⟨u, key, version, hm, -⟩
    cases hm
  | advance u =>
    show QuotaChange fingerprint sys (.advance u)
      ((sys.phases u).advance fingerprint sys.service).2.1.store
    by_cases hfound : ∃ a key version, sys.phases u = .found a key version
    · obtain ⟨a, key, version, hphase⟩ := hfound
      have hinsert := insertOutcome fingerprint sys.service.store a.r key version a.env.jobId
        a.env.createdAt
      rw [hphase]
      unfold RunPhase.advance
      dsimp only
      generalize insertRun fingerprint sys.service.store a.r key version a.env.jobId
        a.env.createdAt = out at hinsert
      obtain ⟨result, store⟩ := out
      cases hinsert with
      | conflict hkey =>
        refine .same fun a' h ↦ ?_
        obtain ⟨rfl, hnone, -⟩ := h.of_found hphase
        cases hkey.symm.trans hnone
      | replayed hkey =>
        refine .same fun a' h ↦ ?_
        obtain ⟨rfl, hnone, -⟩ := h.of_found hphase
        cases hkey.symm.trans hnone
      | collided _ hold =>
        refine .same fun a' h ↦ ?_
        obtain ⟨rfl, -, hnone⟩ := h.of_found hphase
        exact hold hnone
      | inserted hkey hnew =>
        exact .inserted ⟨u, key, version, rfl, hphase, hkey, hnew⟩
          (fun a' h ↦ (h.of_found hphase).1) hnew
    · have hother : ∀ a key version, sys.phases u ≠ .found a key version :=
        fun a key version h ↦ hfound ⟨a, key, version, h⟩
      rw [RunPhase.store_advance fingerprint sys.service hother]
      exact .same (not_inserts hother)

variable {fingerprint}

theorem QuotaChange.idsMatch {m : QuotaMove account U} {store : Store}
    (h : QuotaChange fingerprint sys m store) (hids : sys.service.store.IdsMatch) :
    store.IdsMatch := by
  cases h with
  | same => exact hids
  | worked _ hworker => exact hworker.idsMatch hids
  | inserted => exact hids.insertKeyed

theorem below_iff {limit : Int} {count : Nat} :
    Below limit count ↔ limit = 0 ∨ ((count + 1 : Nat) : Int) ≤ limit := by
  unfold Below
  omega

theorem QuotaChange.withinQuota_iff {m : QuotaMove account U} {store : Store}
    (h : QuotaChange fingerprint sys m store) (hids : sys.service.store.IdsMatch)
    (hwithin : WithinQuota account sys.service.store) :
    WithinQuota account store ↔ FindsRoom sys m := by
  cases h with
  | same hno => exact iff_of_true hwithin fun a ha ↦ absurd ha (hno a)
  | worked hno hworker =>
    refine iff_of_true ⟨?_, fun month ↦ ?_⟩ fun a ha ↦ absurd ha (hno a)
    · refine hwithin.active.imp_right fun hle ↦ ?_
      exact le_trans (Int.ofNat_le.mpr (hworker.countActive_le account.workspaceId)) hle
    · rw [hworker.countCreated_eq]
      exact hwithin.monthly month
  | @inserted a key version hinserts honly hnew =>
    have hactive := @Store.countActive_insertKeyed _ key (fingerprint a.r.payload)
      (newJob a.r a.env.jobId version) a.env.createdAt _ hnew a.workspaceId_eq rfl
    have hcreated := @Store.countCreated_insertKeyed _ key (fingerprint a.r.payload)
      (newJob a.r a.env.jobId version) a.env.createdAt _ hids hnew a.workspaceId_eq
    constructor
    · intro h a' ha'
      obtain rfl := honly a' ha'
      have hmonth := h.monthly (monthStart a'.env.createdAt)
      rw [hcreated, decide_eq_true rfl] at hmonth
      exact ⟨below_iff.mpr (hactive ▸ h.active), below_iff.mpr hmonth⟩
    · intro h
      obtain ⟨hroom, hroomMonth⟩ := h a hinserts
      refine ⟨?_, fun month ↦ ?_⟩
      · rw [hactive]
        exact below_iff.mp hroom
      · rw [hcreated]
        by_cases hmonth : monthStart a.env.createdAt = month
        · rw [decide_eq_true hmonth, ← hmonth]
          exact below_iff.mp hroomMonth
        · rw [decide_eq_false hmonth]
          exact hwithin.monthly month

theorem maxConcurrentRuns_nonneg (plan : Plan) : 0 ≤ plan.usagePolicy.maxConcurrentRuns := by
  cases plan <;> decide

theorem withinQuota_empty : WithinQuota account .empty :=
  ⟨.inr (maxConcurrentRuns_nonneg account.plan), fun _ ↦ .inr account.maxJobs_nonneg⟩

end

/-! ## Runs -/

section

variable (fingerprint : FingerprintPayload → String) (host : Host) (account : Account) (U : Type u)
  [DecidableEq U]

theorem idsMatch_after (is : List (QuotaMove account U)) :
    ((requests fingerprint host account U).after is).service.store.IdsMatch := by
  induction is using List.reverseRecOn with
  | nil => exact nofun
  | append_singleton is m ih =>
    rw [Machine.after_concat]
    exact (quotaChange fingerprint host _ m).idsMatch ih

/-- In a run of any requests of a workspace and of the workers, the active runs and the
runs created in a month stay within the limits throughout just when each insertion finds
both counts still below them. -/
theorem runs_within_quota_iff (is : List (QuotaMove account U)) :
    (∀ pre, pre <+: is →
        WithinQuota account ((requests fingerprint host account U).after pre).service.store) ↔
      Meets (fun pre m ↦ FindsRoom ((requests fingerprint host account U).after pre) m) is := by
  have htrivial : Meets (fun _ _ ↦ True) is := fun _ _ _ ↦ trivial
  refine safe_iff_meets htrivial withinQuota_empty fun is m _ _ hsafe _ ↦ ?_
  rw [Machine.after_concat]
  exact (quotaChange fingerprint host _ m).withinQuota_iff (idsMatch_after fingerprint host account U is)
    (hsafe is (List.prefix_refl is))

end

/-- Two requests on the free plan read their counts before either inserts its job. -/
theorem concurrent_requests_exceed_quota :
    let digest : Sha256 :=
      ⟨"3f79bb7b435b05321651daefd374cdc681dc06faa65e374e38337b88ca046dea", by decide +kernel,
        by decide +kernel⟩
    let fingerprint := fun p : FingerprintPayload ↦ String.ofList p.datasetVersionId.hex
    let host : Host := ⟨fun _ ↦ digest, fun _ ↦ none⟩
    let version : DatasetVersion :=
      ⟨⟨4⟩, ⟨3⟩, 1, digest,
        "tenant/00000000-0000-0000-0000-000000000002/datasets/" ++ digest.hex ++ "/1/", 10, ⟨1⟩⟩
    let datasets : DatasetStore :=
      { datasets := (∅ : Dict Uuid Dataset).set ⟨3⟩ ⟨⟨3⟩, ⟨2⟩, "gold", ⟨1⟩, 0⟩
        versions := (∅ : Dict Uuid DatasetVersion).set ⟨4⟩ version }
    let account : Account := ⟨⟨2⟩, .free, ∅, by decide⟩
    let request (key : String) (jobId : Uuid) : AccountRequest account :=
      ⟨⟨⟨⟨1⟩, ⟨2⟩, .free, .researcher⟩, frozenXauusdM1Workflow, ⟨4⟩, some key, none⟩,
        ⟨none, some true, some ∅, datasets, 1000000, 1000000, jobId, false⟩, rfl, rfl,
        fun _ h ↦ (Option.some.inj h).symm⟩
    let is : List (QuotaMove account Bool) :=
      [.arrive false (request "one" ⟨5⟩), .arrive true (request "two" ⟨6⟩),
        .advance false, .advance false, .advance false, .advance true, .advance true, .advance true,
        .advance false, .advance true]
    account.maxConcurrentRuns = 1 ∧
      ((requests fingerprint host account Bool).after is).service.store.countActive ⟨2⟩ = 2 ∧
      ¬ ∀ pre, pre <+: is →
        WithinQuota account ((requests fingerprint host account Bool).after pre).service.store := by
  intro digest fingerprint host version datasets account request is
  have hlimit : account.maxConcurrentRuns = 1 := by decide
  have hactive :
      ((requests fingerprint host account Bool).after is).service.store.countActive ⟨2⟩ = 2 := by
    decide +kernel
  refine ⟨hlimit, hactive, fun h ↦ ?_⟩
  have hwithin := (h is (List.prefix_refl is)).active
  rw [hlimit, show account.workspaceId = ⟨2⟩ from rfl, hactive] at hwithin
  revert hwithin
  decide

end Qros.Saas
