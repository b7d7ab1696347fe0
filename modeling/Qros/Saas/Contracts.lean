import Mathlib.Data.List.DropRight
import Mathlib.Data.Prod.Lex
import Mathlib.Data.String.Basic
import Qros.Lib.KeySort
import Qros.Lib.Dict

/-!
# The contracts of the SaaS layer

The value types that `researchos/saas/store.py` and `worker.py` work with:
`ResearchJob` of `contracts.py`, `ResearchResult` of the research core, and the
result record of `provenance.py`.

The dataclasses check themselves in `__post_init__`; here these checks are fields
of the structures, so a job whose attempts exceed its maximum does not exist.

The manifest of a result is the structure that is serialized and hashed.  The
digest of a manifest and the parsing of a UUID belong to Python's library and are
the two operations of a `Host`.
-/

namespace Qros.Saas

open Qros.Lib.KeySort

/-! ## Texts, identifiers, digests and times -/

/-- The characters that `str.isspace` accepts and `str.strip` removes. -/
def isSpace (c : Char) : Bool :=
  let n := c.toNat
  (9 ≤ n && n ≤ 13) || (28 ≤ n && n ≤ 32) || n == 0x85 || n == 0xA0 || n == 0x1680 ||
    (0x2000 ≤ n && n ≤ 0x200A) || n == 0x2028 || n == 0x2029 || n == 0x202F || n == 0x205F ||
    n == 0x3000

def isBlank (value : String) : Bool := value.toList.all isSpace

def strip (value : String) : String :=
  String.ofList ((value.toList.dropWhile isSpace).rdropWhile isSpace)

structure Uuid where
  int : BitVec 128
deriving DecidableEq

def isHexDigit (c : Char) : Bool := ('0' ≤ c && c ≤ '9') || ('a' ≤ c && c ≤ 'f')

structure Sha256 where
  hex : String
  length_eq : hex.length = 64
  digits : hex.toList.all isHexDigit = true
deriving DecidableEq

/-- `_validate_sha256`: stripped, in lower case, and 64 hexadecimal digits.  No
letter outside ASCII has one of these digits for its lower case. -/
def validateSha256 (value : String) : Option Sha256 :=
  let normalized := String.ofList
    (((value.toList.dropWhile isSpace).rdropWhile isSpace).map Char.toLower)
  if h : normalized.length = 64 ∧ normalized.toList.all isHexDigit = true then
    some ⟨normalized, h.1, h.2⟩
  else none

/-- Microseconds since 1970-01-01, UTC. -/
abbrev DateTime := Int

def DateTime.max : DateTime := 253402300799999999

/-- `t + timedelta(seconds=seconds)` for a positive number of seconds; `none` is
the `OverflowError`. -/
def DateTime.addSeconds (t : DateTime) (seconds : Int) : Option DateTime :=
  if t + seconds * 1000000 ≤ DateTime.max then some (t + seconds * 1000000) else none

/-! ## Jobs -/

inductive ResearchJobStatus where
  | queued
  | running
  | succeeded
  | failed
  | cancelled
deriving DecidableEq

def ResearchJobStatus.value : ResearchJobStatus → String
  | .queued => "queued"
  | .running => "running"
  | .succeeded => "succeeded"
  | .failed => "failed"
  | .cancelled => "cancelled"

def ResearchJobStatus.isTerminal : ResearchJobStatus → Bool
  | .queued => false
  | .running => false
  | .succeeded => true
  | .failed => true
  | .cancelled => true

structure ResearchJob where
  id : Uuid
  workspaceId : Uuid
  datasetVersionId : Uuid
  workflowId : String
  status : ResearchJobStatus
  sourceDatasetSha256 : Sha256
  createdBy : Option Uuid
  claimId : Option String
  planHash : Option String
  attemptCount : Nat
  maxAttempts : Nat
  errorCode : Option String
  workflowId_ne : isBlank workflowId = false
  claim_iff_plan : claimId.isNone = planHash.isNone
  claimId_ne : ∀ c ∈ claimId, isBlank c = false
  planHash_valid : ∀ p ∈ planHash, (validateSha256 p).isSome = true
  maxAttempts_pos : 1 ≤ maxAttempts
  attempts_le : attemptCount ≤ maxAttempts
deriving DecidableEq

theorem defaultMaxAttempts_pos : 1 ≤ 3 := by decide

/-- The job that a request creates: it waits, and the fields that a request does not
set have their defaults. -/
def ResearchJob.requested (id workspaceId datasetVersionId : Uuid) (workflowId : String)
    (sourceDatasetSha256 : Sha256) (createdBy : Option Uuid) (h : isBlank workflowId = false) :
    ResearchJob where
  id := id
  workspaceId := workspaceId
  datasetVersionId := datasetVersionId
  workflowId := workflowId
  status := .queued
  sourceDatasetSha256 := sourceDatasetSha256
  createdBy := createdBy
  claimId := none
  planHash := none
  attemptCount := 0
  maxAttempts := 3
  errorCode := none
  workflowId_ne := h
  claim_iff_plan := rfl
  claimId_ne := nofun
  planHash_valid := nofun
  maxAttempts_pos := defaultMaxAttempts_pos
  attempts_le := by decide

/-! ## Results -/

inductive ResultStatus where
  | succeeded
  | failed
deriving DecidableEq

structure ResearchArtifact where
  artifactId : String
  kind : String
  contentSha256 : Sha256
  artifactId_ne : isBlank artifactId = false
  kind_ne : isBlank kind = false
deriving DecidableEq

structure ResearchResult where
  status : ResultStatus
  sourceDatasetSha256 : Sha256
  artifacts : List ResearchArtifact
  failures : List String
  success_no_failures : status = .succeeded → failures = []
deriving DecidableEq

structure ManifestPayload where
  status : ResultStatus
  sourceDatasetSha256 : Sha256
  artifacts : List ResearchArtifact
  failures : List String
deriving DecidableEq

def ResearchArtifact.sortKey (a : ResearchArtifact) : String ×ₗ String ×ₗ String :=
  toLex (a.artifactId, toLex (a.kind, a.contentSha256.hex))

def manifestPayload (result : ResearchResult) : ManifestPayload where
  status := result.status
  sourceDatasetSha256 := result.sourceDatasetSha256
  artifacts := stableSortBy ResearchArtifact.sortKey result.artifacts
  failures := result.failures

/-- What is taken from Python's library: the SHA-256 digest of a manifest in its
JSON encoding, and `UUID(value)`, with `none` for its `ValueError`. -/
structure Host where
  digest : ManifestPayload → Sha256
  uuid : String → Option Uuid

def manifestSha256 (host : Host) (result : ResearchResult) : Sha256 :=
  host.digest (manifestPayload result)

structure ResearchRunResultRecord where
  workspaceId : Uuid
  researchRunId : Uuid
  sourceDatasetSha256 : Sha256
  status : ResultStatus
  manifestSha256 : Sha256
  artifacts : List ResearchArtifact
  failures : List String
  claimId : Option Uuid
  planHash : Option String
deriving DecidableEq

/-- Of the checks of a record only the pairing of claim and plan is not already a
field of its arguments; a job has it. -/
def buildResultRecord (host : Host) (workspaceId researchRunId : Uuid) (result : ResearchResult)
    (claimId : Option Uuid) (planHash : Option String) : ResearchRunResultRecord where
  workspaceId := workspaceId
  researchRunId := researchRunId
  sourceDatasetSha256 := result.sourceDatasetSha256
  status := result.status
  manifestSha256 := manifestSha256 host result
  artifacts := result.artifacts
  failures := result.failures
  claimId := claimId
  planHash := planHash

end Qros.Saas

/-!
## Plans and their limits

The usage policies of `researchos/saas/contracts.py` and the entitlements of
`researchos/saas/billing.py`.  A limit of zero means unlimited.
-/

namespace Qros.Saas

open Qros.Lib

inductive Plan where
  | free
  | pro
  | team
  | enterprise
deriving DecidableEq

def Plan.value : Plan → String
  | .free => "free"
  | .pro => "pro"
  | .team => "team"
  | .enterprise => "enterprise"

inductive WorkspaceRole where
  | owner
  | admin
  | researcher
  | viewer
  | billingAdmin
deriving DecidableEq

structure TenantContext where
  userId : Uuid
  workspaceId : Uuid
  plan : Plan
  role : WorkspaceRole
deriving DecidableEq

structure UsagePolicy where
  monthlyResearchRuns : Int
  maxDatasetBytes : Int
  maxConcurrentRuns : Int
deriving DecidableEq

namespace UsagePolicy

def allowsDataset (policy : UsagePolicy) (sizeBytes : Int) : Bool :=
  decide (0 ≤ sizeBytes) &&
    (decide (policy.maxDatasetBytes = 0) || decide (sizeBytes ≤ policy.maxDatasetBytes))

def allowsConcurrency (policy : UsagePolicy) (active : Int) : Bool :=
  decide (0 ≤ active) &&
    (decide (policy.maxConcurrentRuns = 0) || decide (active < policy.maxConcurrentRuns))

end UsagePolicy

def Plan.usagePolicy : Plan → UsagePolicy
  | .free => ⟨100, 50000000, 1⟩
  | .pro => ⟨100, 2000000000, 2⟩
  | .team => ⟨1000, 10000000000, 8⟩
  | .enterprise => ⟨0, 0, 0⟩

structure Entitlement where
  tenantId : Uuid
  plan : String
  maxDatasets : Int
  maxJobsPerMonth : Int
  maxStorageMb : Int
deriving DecidableEq

def Entitlement.allowsJobs (entitlement : Entitlement) (used : Int) : Bool :=
  decide (entitlement.maxJobsPerMonth = 0) || decide (used < entitlement.maxJobsPerMonth)

def Plan.entitlement (tenantId : Uuid) (plan : Plan) : Entitlement :=
  match plan with
  | .free => ⟨tenantId, plan.value, 10, 100, 1024⟩
  | .pro => ⟨tenantId, plan.value, 1000, 1000, 10240⟩
  | .team => ⟨tenantId, plan.value, 1000, 1000, 10240⟩
  | .enterprise => ⟨tenantId, plan.value, 0, 0, 0⟩

/-- `InMemoryEntitlementStore.get`. -/
def entitlementOf (rows : Dict Uuid Entitlement) (tenantId : Uuid) (plan : Plan) : Entitlement :=
  (rows.get? tenantId).getD (plan.entitlement tenantId)

/-! ## Conditions on the counts -/

/-- `count` is below the limit, which bounds nothing when it is zero. -/
def Below (limit count : Int) : Prop := limit = 0 ∨ count < limit

theorem allowsConcurrency_iff {policy : UsagePolicy} {active : Nat} :
    policy.allowsConcurrency active = true ↔ Below policy.maxConcurrentRuns active := by
  unfold UsagePolicy.allowsConcurrency Below
  simp

theorem allowsJobs_iff {entitlement : Entitlement} {used : Int} :
    entitlement.allowsJobs used = true ↔ Below entitlement.maxJobsPerMonth used := by
  unfold Entitlement.allowsJobs Below
  simp

end Qros.Saas
