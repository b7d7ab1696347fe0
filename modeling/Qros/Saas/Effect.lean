import Qros.Saas.Store

/-!
# What a call can do to the store

`Effect` lists the ways in which a call can end: it leaves the store as it is, or
it creates a job, starts an attempt, gives a job up, extends a lease, stores a
result, finishes a job or edits a status.  Each constructor carries what the call
found, so a proof about calls is a case analysis of `effect_run` and never unfolds
the methods.
-/

namespace Qros.Saas

open Qros.Lib

def grantOf : Call → Except PyError Reply → Option (Uuid × Uuid)
  | .claim _ jobId _ _ token, .ok _ => some (jobId, token)
  | _, _ => none

/-- What a claim finds that gets past the checks of its arguments and of the lease. -/
structure Claimable (s : Store) (workspaceId jobId : Uuid) (owner : String) (leaseSeconds : Int)
    (now : DateTime) (job : ResearchJob) : Prop where
  owner : isBlank owner = false
  leaseSeconds : 1 ≤ leaseSeconds
  found : s.get workspaceId jobId = some job
  free : s.isClaimed job jobId now = false

instance {s : Store} {workspaceId jobId : Uuid} {owner : String} {leaseSeconds : Int}
    {now : DateTime} {job : ResearchJob} :
    Decidable (Claimable s workspaceId jobId owner leaseSeconds now job) :=
  decidable_of_iff (isBlank owner = false ∧ 1 ≤ leaseSeconds ∧ s.get workspaceId jobId = some job ∧
      s.isClaimed job jobId now = false)
    ⟨fun ⟨ho, hl, hj, hf⟩ ↦ ⟨ho, hl, hj, hf⟩, fun ⟨ho, hl, hj, hf⟩ ↦ ⟨ho, hl, hj, hf⟩⟩

/-- What a finishing call finds that is let through. -/
structure Finishable (s : Store) (workspaceId jobId leaseToken : Uuid) (target : ResearchJobStatus)
    (job : ResearchJob) : Prop where
  found : s.get workspaceId jobId = some job
  held : s.isHeld job jobId leaseToken = true
  target : target = .succeeded ∨ target = .failed

instance {s : Store} {workspaceId jobId leaseToken : Uuid} {target : ResearchJobStatus}
    {job : ResearchJob} : Decidable (Finishable s workspaceId jobId leaseToken target job) :=
  decidable_of_iff (s.get workspaceId jobId = some job ∧ s.isHeld job jobId leaseToken = true ∧
      (target = .succeeded ∨ target = .failed))
    ⟨fun ⟨hj, hh, ht⟩ ↦ ⟨hj, hh, ht⟩, fun ⟨hj, hh, ht⟩ ↦ ⟨hj, hh, ht⟩⟩

inductive Effect (host : Host) (now : DateTime) (s : Store) :
    Call → Except PyError Reply → Store → Prop
  | same {call : Call} {reply : Except PyError Reply} (h : grantOf call reply = none) :
      Effect host now s call reply s
  | created {workspaceId : Uuid} {job : ResearchJob} {reply : Except PyError Reply}
      (hws : job.workspaceId = workspaceId) (hnew : s.jobs.get? job.id = none) :
      Effect host now s (.create workspaceId job) reply (s.insertJob job now)
  | createdIdempotent {workspaceId : Uuid} {job : ResearchJob} {key fingerprint : String}
      {reply : Except PyError Reply} (hws : job.workspaceId = workspaceId)
      (hkey : s.idempotency.get? (workspaceId, key) = none)
      (hnew : s.jobs.get? job.id = none) :
      Effect host now s (.createIdempotent workspaceId job key fingerprint) reply
        { s.insertJob job now with
          idempotency := s.idempotency.set (workspaceId, key) (fingerprint, job) }
  | granted {workspaceId jobId token : Uuid} {owner : String} {seconds : Int} {job : ResearchJob}
      {expires : DateTime} {lease : WorkerLease}
      (h : Claimable s workspaceId jobId owner seconds now job)
      (hlt : job.attemptCount < job.maxAttempts) (hend : now.addSeconds seconds = some expires) :
      Effect host now s (.claim workspaceId jobId owner seconds token) (.ok (.lease lease))
        { s with
          jobs := s.jobs.set jobId (Store.claimedJob job hlt)
          leases := s.leases.set jobId (token, expires) }
  | overflowed {workspaceId jobId token : Uuid} {owner : String} {seconds : Int} {job : ResearchJob}
      {e : PyError} (h : Claimable s workspaceId jobId owner seconds now job)
      (hlt : job.attemptCount < job.maxAttempts) (hend : now.addSeconds seconds = none) :
      Effect host now s (.claim workspaceId jobId owner seconds token) (.error e)
        { s with jobs := s.jobs.set jobId (Store.claimedJob job hlt) }
  | exhausted {workspaceId jobId token : Uuid} {owner : String} {seconds : Int} {job : ResearchJob}
      {e : PyError} (h : Claimable s workspaceId jobId owner seconds now job)
      (hge : job.maxAttempts ≤ job.attemptCount) :
      Effect host now s (.claim workspaceId jobId owner seconds token) (.error e)
        { s with
          jobs := s.jobs.set jobId
            { job with status := .failed, errorCode := some "max_attempts_exceeded" }
          leases := s.leases.pop jobId }
  | renewed {workspaceId jobId token : Uuid} {seconds : Int} {later expires : DateTime}
      {job : ResearchJob} {reply : Except PyError Reply}
      (h : s.leased workspaceId jobId token now = some job) :
      Effect host now s (.renew workspaceId jobId token seconds later) reply
        { s with leases := s.leases.set jobId (token, expires) }
  | recorded {workspaceId jobId token : Uuid} {result : ResearchResult} {job : ResearchJob}
      {record : ResearchRunResultRecord} (h : s.leased workspaceId jobId token now = some job)
      (hrecord : Store.resultRecord host workspaceId jobId job result = .ok record)
      (hnew : s.results.get? jobId = none) :
      Effect host now s (.recordResult workspaceId jobId token result) (.ok (.record record))
        { s with results := s.results.set jobId record }
  | finished {workspaceId jobId token : Uuid} {target : ResearchJobStatus}
      {errorCode : Option String} {job : ResearchJob} {reply : Except PyError Reply}
      (h : Finishable s workspaceId jobId token target job) :
      Effect host now s (.finish workspaceId jobId token target errorCode) reply
        { s with
          jobs := s.jobs.set jobId { job with status := target, errorCode := errorCode }
          leases := s.leases.pop jobId }
  | transitioned {workspaceId jobId : Uuid} {target : ResearchJobStatus} {job : ResearchJob}
      {reply : Except PyError Reply} (h : s.get workspaceId jobId = some job) :
      Effect host now s (.transition workspaceId jobId job.status target) reply
        { s with jobs := s.jobs.set jobId { job with status := target } }

section Methods

variable (host : Host) (now : DateTime) (s : Store)

theorem effect_create (workspaceId : Uuid) (job : ResearchJob) :
    Effect host now s (.create workspaceId job) ((Call.create workspaceId job).run host now s).1
      ((Call.create workspaceId job).run host now s).2 := by
  simp only [Call.run, Store.create]
  split
  · exact .same rfl
  · rename_i hws
    split
    · exact .same rfl
    · rename_i hnew
      exact .created (not_not.mp hws) (by simpa using hnew)

theorem effect_createIdempotent (workspaceId : Uuid) (job : ResearchJob)
    (key fingerprint : String) :
    Effect host now s (.createIdempotent workspaceId job key fingerprint)
      ((Call.createIdempotent workspaceId job key fingerprint).run host now s).1
      ((Call.createIdempotent workspaceId job key fingerprint).run host now s).2 := by
  simp only [Call.run, Store.createIdempotent]
  split
  · exact .same rfl
  · rename_i hws
    split
    · split
      · exact .same rfl
      · exact .same rfl
    · rename_i hkey
      split
      · exact .same rfl
      · rename_i hnew
        exact .createdIdempotent (not_not.mp hws) hkey (by simpa using hnew)

theorem effect_claim (workspaceId jobId : Uuid) (owner : String) (seconds : Int) (token : Uuid) :
    Effect host now s (.claim workspaceId jobId owner seconds token)
      ((Call.claim workspaceId jobId owner seconds token).run host now s).1
      ((Call.claim workspaceId jobId owner seconds token).run host now s).2 := by
  simp only [Call.run, Store.claim]
  split
  · exact .same rfl
  · rename_i hargs
    split
    · exact .same rfl
    · rename_i job hjob
      split
      · exact .same rfl
      · rename_i hfree
        have hargs : isBlank owner = false ∧ 1 ≤ seconds := by simpa using hargs
        have h : Claimable s workspaceId jobId owner seconds now job :=
          ⟨hargs.1, hargs.2, hjob, by simpa using hfree⟩
        split
        · rename_i hlt
          split
          · rename_i hend
            exact .overflowed h hlt hend
          · rename_i hend
            exact .granted h hlt hend
        · rename_i hge
          exact .exhausted h (not_lt.mp hge)

theorem effect_renew (workspaceId jobId token : Uuid) (seconds : Int) (later : DateTime) :
    Effect host now s (.renew workspaceId jobId token seconds later)
      ((Call.renew workspaceId jobId token seconds later).run host now s).1
      ((Call.renew workspaceId jobId token seconds later).run host now s).2 := by
  simp only [Call.run, Store.renew]
  split
  · exact .same rfl
  · split
    · exact .same rfl
    · rename_i hleased
      split
      · exact .same rfl
      · exact .renewed hleased

theorem effect_recordResult (workspaceId jobId token : Uuid) (result : ResearchResult) :
    Effect host now s (.recordResult workspaceId jobId token result)
      ((Call.recordResult workspaceId jobId token result).run host now s).1
      ((Call.recordResult workspaceId jobId token result).run host now s).2 := by
  simp only [Call.run, Store.recordResult]
  split
  · exact .same rfl
  · rename_i hleased
    split
    · exact .same rfl
    · rename_i hrecord
      split
      · split
        · exact .same rfl
        · exact .same rfl
      · rename_i hnew
        exact .recorded hleased hrecord hnew

theorem effect_finish (workspaceId jobId token : Uuid) (target : ResearchJobStatus)
    (errorCode : Option String) :
    Effect host now s (.finish workspaceId jobId token target errorCode)
      ((Call.finish workspaceId jobId token target errorCode).run host now s).1
      ((Call.finish workspaceId jobId token target errorCode).run host now s).2 := by
  simp only [Call.run, Store.finish]
  split
  · exact .same rfl
  · rename_i hjob
    split
    · exact .same rfl
    · rename_i hheld
      split
      · exact .same rfl
      · rename_i htarget
        exact .finished ⟨hjob, by simpa using hheld, by tauto⟩

theorem effect_transition (workspaceId jobId : Uuid) (expected target : ResearchJobStatus) :
    Effect host now s (.transition workspaceId jobId expected target)
      ((Call.transition workspaceId jobId expected target).run host now s).1
      ((Call.transition workspaceId jobId expected target).run host now s).2 := by
  simp only [Call.run, Store.transition]
  split
  · exact .same rfl
  · rename_i hjob
    split
    · exact .same rfl
    · rename_i hexpected
      obtain rfl := not_not.mp hexpected
      exact .transitioned hjob

end Methods

/-- **Every call has one of the effects.** -/
theorem effect_run (host : Host) (now : DateTime) (call : Call) (s : Store) :
    Effect host now s call (call.run host now s).1 (call.run host now s).2 := by
  cases call with
  | create ws job => exact effect_create host now s ws job
  | createIdempotent ws job key fp => exact effect_createIdempotent host now s ws job key fp
  | claim ws j owner seconds token => exact effect_claim host now s ws j owner seconds token
  | renew ws j token seconds later => exact effect_renew host now s ws j token seconds later
  | recordResult ws j token result => exact effect_recordResult host now s ws j token result
  | finish ws j token target code => exact effect_finish host now s ws j token target code
  | transition ws j expected target => exact effect_transition host now s ws j expected target

/-! ## Lookups -/

variable {job : ResearchJob}

variable {s : Store}

theorem Store.get_eq_some {workspaceId jobId : Uuid} :
    s.get workspaceId jobId = some job ↔
      s.jobs.get? jobId = some job ∧ job.workspaceId = workspaceId := by
  unfold Store.get
  rw [Option.filter_eq_some_iff, decide_eq_true_iff]

theorem Store.leased_eq_some {workspaceId jobId token : Uuid} {now : DateTime} :
    s.leased workspaceId jobId token now = some job ↔
      s.get workspaceId jobId = some job ∧ job.status = .running ∧
        ∃ expires, s.leases.get? jobId = some (token, expires) ∧ now < expires := by
  unfold Store.leased
  constructor
  · intro h
    split at h
    · rename_i hjob hlease
      split at h
      · rename_i hl
        cases h
        obtain ⟨hrun, rfl, hlt⟩ := hl
        exact ⟨hjob, hrun, _, hlease, hlt⟩
      · cases h
    · cases h
  · rintro ⟨hjob, hrun, expires, hlease, hlt⟩
    rw [hjob, hlease]
    exact if_pos ⟨hrun, rfl, hlt⟩

theorem Store.isHeld_iff {jobId token : Uuid} :
    s.isHeld job jobId token = true ↔
      job.status = .running ∧ ∃ expires, s.leases.get? jobId = some (token, expires) := by
  simp [Store.isHeld]

theorem Claimable.status {workspaceId jobId : Uuid} {owner : String} {seconds : Int}
    {now : DateTime} (h : Claimable s workspaceId jobId owner seconds now job) :
    job.status = .queued ∨ job.status = .running := by
  have hfree := h.free
  unfold Store.isClaimed at hfree
  split at hfree
  · exact .inr ‹_›
  · exact .inl (by simpa using hfree)

/-! ## Calls that pass their checks -/

section

variable {s : Store} {workspaceId jobId : Uuid} {job : ResearchJob} {now : DateTime}

theorem Store.create_eq (hws : job.workspaceId = workspaceId) (hnew : s.jobs.get? job.id = none) :
    s.create workspaceId job now = (.ok job, s.insertJob job now) := by
  unfold Store.create
  rw [if_neg (not_not.mpr hws), hnew, if_neg nofun]

theorem Store.createIdempotent_eq {key fingerprint : String}
    (hws : job.workspaceId = workspaceId)
    (hkey : s.idempotency.get? (workspaceId, key) = none) (hnew : s.jobs.get? job.id = none) :
    s.createIdempotent workspaceId job key fingerprint now = (.ok (job, false),
      { s.insertJob job now with
        idempotency := s.idempotency.set (workspaceId, key) (fingerprint, job) }) := by
  unfold Store.createIdempotent
  rw [if_neg (not_not.mpr hws), hkey]
  dsimp only
  rw [hnew, if_neg nofun]

variable {token : Uuid}

theorem Store.claim_eq_overflow {owner : String} {seconds : Int}
    (h : Claimable s workspaceId jobId owner seconds now job)
    (hlt : job.attemptCount < job.maxAttempts) (hend : now.addSeconds seconds = none) :
    s.claim workspaceId jobId owner seconds token now = (.error .overflowError,
      { s with jobs := s.jobs.set jobId (Store.claimedJob job hlt) }) := by
  have hargs : ¬ (isBlank owner || decide (seconds < 1)) = true := by
    simp [h.owner, h.leaseSeconds]
  unfold Store.claim
  rw [if_neg hargs, h.found]
  dsimp only
  rw [h.free, if_neg nofun, dif_pos hlt, hend]

theorem Store.claim_eq_exhausted {owner : String} {seconds : Int}
    (h : Claimable s workspaceId jobId owner seconds now job)
    (hge : job.maxAttempts ≤ job.attemptCount) :
    s.claim workspaceId jobId owner seconds token now =
      (.error (.runtimeError "research job exhausted retry attempts"),
        { s with
          jobs := s.jobs.set jobId
            { job with status := .failed, errorCode := some "max_attempts_exceeded" }
          leases := s.leases.pop jobId }) := by
  have hargs : ¬ (isBlank owner || decide (seconds < 1)) = true := by
    simp [h.owner, h.leaseSeconds]
  unfold Store.claim
  rw [if_neg hargs, h.found]
  dsimp only
  rw [h.free, if_neg nofun, dif_neg (not_lt.mpr hge)]

theorem Store.finish_eq {target : ResearchJobStatus} {errorCode : Option String}
    (h : Finishable s workspaceId jobId token target job) :
    s.finish workspaceId jobId token target errorCode =
      (.ok { job with status := target, errorCode := errorCode },
        { s with
          jobs := s.jobs.set jobId { job with status := target, errorCode := errorCode }
          leases := s.leases.pop jobId }) := by
  have htarget : ¬ (target ≠ .succeeded ∧ target ≠ .failed) := by
    have := h.target
    tauto
  unfold Store.finish
  rw [h.found]
  dsimp only
  rw [h.held, Bool.not_true, if_neg nofun, if_neg htarget]

theorem Store.transition_eq {target : ResearchJobStatus}
    (h : s.get workspaceId jobId = some job) :
    s.transition workspaceId jobId job.status target = (.ok { job with status := target },
      { s with jobs := s.jobs.set jobId { job with status := target } }) := by
  unfold Store.transition
  rw [h]
  dsimp only
  rw [if_neg (not_not.mpr rfl)]

end

end Qros.Saas
