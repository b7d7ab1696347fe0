import Qros.Lib.Machine
import Qros.Saas.Contracts

/-!
# The in-memory job store

`InMemoryResearchJobStore` of `researchos/saas/store.py`.  Every method holds the
lock of the store, so a call is one step: `Call.run` is the answer of a call and
the store it leaves behind.  A call may raise and still have changed the store.

The readings of the clock and the tokens of `uuid4` are arguments.  `store` is the
machine whose inputs are calls at points in time; its runs are all sequences of
calls, by any number of workers.
-/

namespace Qros.Saas

open Qros.Lib

/-- The exceptions the store raises. -/
inductive PyError where
  | valueError (message : String)
  | runtimeError (message : String)
  | keyError (message : String)
  | overflowError
deriving DecidableEq

structure WorkerLease where
  job : ResearchJob
  token : Uuid
deriving DecidableEq

structure Store where
  jobs : Dict Uuid ResearchJob
  leases : Dict Uuid (Uuid × DateTime)
  idempotency : Dict (Uuid × String) (String × ResearchJob)
  results : Dict Uuid ResearchRunResultRecord
  createdAt : Dict Uuid DateTime

namespace Store

def empty : Store := ⟨∅, ∅, ∅, ∅, ∅⟩

/-- The outcome of a call that raises and leaves the store as it is. -/
abbrev raise {α : Type} (s : Store) (e : PyError) : Except PyError α × Store := (.error e, s)

/-! ## Creation -/

/-- The entry of a new job. -/
def insertJob (s : Store) (job : ResearchJob) (now : DateTime) : Store :=
  { s with jobs := s.jobs.set job.id job, createdAt := s.createdAt.set job.id now }

def create (s : Store) (workspaceId : Uuid) (job : ResearchJob) (now : DateTime) :
    Except PyError ResearchJob × Store :=
  if job.workspaceId ≠ workspaceId then
    s.raise (.valueError "research job workspace does not match tenant")
  else if (s.jobs.get? job.id).isSome then s.raise (.valueError "research job already exists")
  else (.ok job, s.insertJob job now)

def createIdempotent (s : Store) (workspaceId : Uuid) (job : ResearchJob)
    (idempotencyKey requestFingerprint : String) (now : DateTime) :
    Except PyError (ResearchJob × Bool) × Store :=
  if job.workspaceId ≠ workspaceId then
    s.raise (.valueError "research job workspace does not match tenant")
  else
    match s.idempotency.get? (workspaceId, idempotencyKey) with
    | some (existingFingerprint, existingJob) =>
      if existingFingerprint ≠ requestFingerprint then
        s.raise (.valueError "idempotency key reused with different request")
      else (.ok (existingJob, true), s)
    | none =>
      if (s.jobs.get? job.id).isSome then
        s.raise (.valueError "research job already exists")
      else
        (.ok (job, false), { s.insertJob job now with
          idempotency :=
            s.idempotency.set (workspaceId, idempotencyKey) (requestFingerprint, job) })

/-! ## Leases -/

def get (s : Store) (workspaceId jobId : Uuid) : Option ResearchJob :=
  (s.jobs.get? jobId).filter fun job ↦ decide (job.workspaceId = workspaceId)

/-- Whether another worker has the job: it is neither waiting nor running under a
lease that has ended. -/
def isClaimed (s : Store) (job : ResearchJob) (jobId : Uuid) (now : DateTime) : Bool :=
  if job.status = .running then
    match s.leases.get? jobId with
    | none => true
    | some lease => decide (now < lease.2)
  else decide (job.status ≠ .queued)

def claimedJob (job : ResearchJob) (h : job.attemptCount < job.maxAttempts) : ResearchJob :=
  { job with
    status := .running
    attemptCount := job.attemptCount + 1
    errorCode := none
    attempts_le := h }

def claim (s : Store) (workspaceId jobId : Uuid) (owner : String) (leaseSeconds : Int)
    (token : Uuid) (now : DateTime) : Except PyError WorkerLease × Store :=
  if isBlank owner || decide (leaseSeconds < 1) then s.raise (.valueError "invalid worker lease")
  else
    match s.get workspaceId jobId with
    | none => s.raise (.keyError "research job not found")
    | some job =>
      if s.isClaimed job jobId now then s.raise (.runtimeError "research job is already claimed")
      else if h : job.attemptCount < job.maxAttempts then
        -- The job is stored before the end of the lease is computed.
        let updated := claimedJob job h
        let s := { s with jobs := s.jobs.set jobId updated }
        match now.addSeconds leaseSeconds with
        | none => s.raise .overflowError
        | some expires =>
          (.ok ⟨updated, token⟩, { s with leases := s.leases.set jobId (token, expires) })
      else
        (.error (.runtimeError "research job exhausted retry attempts"),
          { s with
            jobs := s.jobs.set jobId
              { job with status := .failed, errorCode := some "max_attempts_exceeded" }
            leases := s.leases.pop jobId })

def leased (s : Store) (workspaceId jobId leaseToken : Uuid) (now : DateTime) :
    Option ResearchJob :=
  match s.get workspaceId jobId, s.leases.get? jobId with
  | some job, some lease =>
    if job.status = .running ∧ lease.1 = leaseToken ∧ now < lease.2 then some job else none
  | _, _ => none

def renew (s : Store) (workspaceId jobId leaseToken : Uuid) (leaseSeconds : Int)
    (now later : DateTime) : Except PyError WorkerLease × Store :=
  if leaseSeconds < 1 then s.raise (.valueError "invalid worker lease")
  else
    match s.leased workspaceId jobId leaseToken now with
    | none => s.raise (.runtimeError "stale or invalid worker lease")
    | some job =>
      match later.addSeconds leaseSeconds with
      | none => s.raise .overflowError
      | some expires =>
        (.ok ⟨job, leaseToken⟩, { s with leases := s.leases.set jobId (leaseToken, expires) })

/-! ## Results -/

/-- `UUID(job.claim_id) if job.claim_id else None`; the outer `none` is the
`ValueError`. -/
def claimUuid (host : Host) (job : ResearchJob) : Option (Option Uuid) :=
  match job.claimId with
  | none => some none
  | some claimId => (host.uuid claimId).map some

/-- The record that a result of the job would be stored as. -/
def resultRecord (host : Host) (workspaceId jobId : Uuid) (job : ResearchJob)
    (result : ResearchResult) : Except PyError ResearchRunResultRecord :=
  if result.sourceDatasetSha256 ≠ job.sourceDatasetSha256 then
    .error (.valueError "research result source hash does not match input dataset")
  else
    match claimUuid host job with
    | none => .error (.valueError "badly formed hexadecimal UUID string")
    | some claimId => .ok (buildResultRecord host workspaceId jobId result claimId job.planHash)

def recordResult (host : Host) (s : Store) (workspaceId jobId leaseToken : Uuid)
    (result : ResearchResult) (now : DateTime) : Except PyError ResearchRunResultRecord × Store :=
  match s.leased workspaceId jobId leaseToken now with
  | none => s.raise (.runtimeError "stale or invalid worker lease")
  | some job =>
    match resultRecord host workspaceId jobId job result with
    | .error e => s.raise e
    | .ok record =>
      match s.results.get? jobId with
      | some existing =>
        if existing.manifestSha256 ≠ record.manifestSha256 then
          s.raise (.valueError "research result already persisted with a different manifest")
        else (.ok existing, s)
      | none => (.ok record, { s with results := s.results.set jobId record })

/-! ## Statuses -/

/-- Whether a job can be finished with the token: the end of the lease is not
checked. -/
def isHeld (s : Store) (job : ResearchJob) (jobId leaseToken : Uuid) : Bool :=
  decide (job.status = .running) && decide ((s.leases.get? jobId).map Prod.fst = some leaseToken)

def finish (s : Store) (workspaceId jobId leaseToken : Uuid) (target : ResearchJobStatus)
    (errorCode : Option String) : Except PyError ResearchJob × Store :=
  match s.get workspaceId jobId with
  | none => s.raise (.keyError "research job not found")
  | some job =>
    if !s.isHeld job jobId leaseToken then
      s.raise (.runtimeError "stale or invalid worker lease")
    else if target ≠ .succeeded ∧ target ≠ .failed then
      s.raise (.valueError "invalid terminal target")
    else
      let updated := { job with status := target, errorCode := errorCode }
      (.ok updated,
        { s with jobs := s.jobs.set jobId updated, leases := s.leases.pop jobId })

def transition (s : Store) (workspaceId jobId : Uuid) (expected target : ResearchJobStatus) :
    Except PyError ResearchJob × Store :=
  match s.get workspaceId jobId with
  | none => s.raise (.keyError "research job not found")
  | some job =>
    if job.status ≠ expected then
      s.raise (.valueError ("invalid job transition: " ++ job.status.value ++ " -> " ++
        target.value ++ "; expected " ++ expected.value))
    else
      let updated := { job with status := target }
      (.ok updated, { s with jobs := s.jobs.set jobId updated })

end Store

/-! ## Calls -/

inductive Call where
  | create (workspaceId : Uuid) (job : ResearchJob)
  | createIdempotent (workspaceId : Uuid) (job : ResearchJob)
      (idempotencyKey requestFingerprint : String)
  | claim (workspaceId jobId : Uuid) (owner : String) (leaseSeconds : Int) (token : Uuid)
  | renew (workspaceId jobId leaseToken : Uuid) (leaseSeconds : Int) (later : DateTime)
  | recordResult (workspaceId jobId leaseToken : Uuid) (result : ResearchResult)
  | finish (workspaceId jobId leaseToken : Uuid) (target : ResearchJobStatus)
      (errorCode : Option String)
  | transition (workspaceId jobId : Uuid) (expected target : ResearchJobStatus)

/-- What a call that does not raise returns. -/
inductive Reply where
  | job (job : ResearchJob)
  | idempotent (job : ResearchJob) (replayed : Bool)
  | lease (lease : WorkerLease)
  | record (record : ResearchRunResultRecord)
deriving DecidableEq

/-- A call at the time `now`, which is what the clock shows unless the call reads it
twice. -/
structure Timed where
  now : DateTime
  call : Call

def Call.run (host : Host) (now : DateTime) (call : Call) (s : Store) :
    Except PyError Reply × Store :=
  match call with
  | .create workspaceId job => (s.create workspaceId job now).map (Except.map .job) id
  | .createIdempotent workspaceId job key fingerprint =>
    (s.createIdempotent workspaceId job key fingerprint now).map
      (Except.map fun r ↦ .idempotent r.1 r.2) id
  | .claim workspaceId jobId owner seconds token =>
    (s.claim workspaceId jobId owner seconds token now).map (Except.map .lease) id
  | .renew workspaceId jobId token seconds later =>
    (s.renew workspaceId jobId token seconds now later).map (Except.map .lease) id
  | .recordResult workspaceId jobId token result =>
    (s.recordResult host workspaceId jobId token result now).map (Except.map .record) id
  | .finish workspaceId jobId token target errorCode =>
    (s.finish workspaceId jobId token target errorCode).map (Except.map .job) id
  | .transition workspaceId jobId expected target =>
    (s.transition workspaceId jobId expected target).map (Except.map .job) id

def store (host : Host) : Machine Store Timed (Except PyError Reply) where
  init := .empty
  step := fun e s ↦ e.call.run host e.now s

end Qros.Saas
