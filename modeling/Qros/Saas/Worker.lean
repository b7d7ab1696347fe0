import Qros.Saas.Effect

/-!
# Workers, jobs and their stored results

A job that has ended and has a stored result should have ended the way the result
says.  `record_result` stores one result per job while attempts repeat, so an
attempt can find the result of an earlier one; when it fails all the same, because
its executor raises or its own result is refused, or when no attempt is left, the
job is marked failed next to a result that says `SUCCEEDED`.

`KeepsAgreement` says that a move is none of these, and `workers_agreement_iff` that
nothing else breaks the agreement: whatever the order of moves, crashes and
reclaims, it holds throughout just when every move keeps it.  Distinct manifests of
the run are taken to have distinct digests.
-/

universe u

/-!
## Workers over the job store

`ResearchWorker` of `researchos/saas/worker.py`, as a system of any number of
workers over one store.  A worker claims a job, executes it, records the result and
finishes the job, each in a step of its own; when the executor raises or the
result is refused it finishes the job as failed instead.

Between any two steps of a worker the others may move, clients may create jobs, the
clock may go on and the worker may crash.  Which of these happens, and what an
executor returns, is the input of the machine `workers`; a move that its worker is
not ready for does nothing.  The heartbeat of an attempt is a `renew` that may come
at any time, also after the attempt is over.
-/

namespace Qros.Saas

open Qros.Lib

/-- A claim that succeeded. -/
structure Attempt where
  workspaceId : Uuid
  jobId : Uuid
  token : Uuid
deriving DecidableEq

/-- Where a worker is in `run_once`. -/
inductive Phase where
  | idle
  | executing (attempt : Attempt)
  | /-- The executor has raised. -/
    raised (attempt : Attempt)
  | /-- The executor has returned. -/
    returned (attempt : Attempt) (result : ResearchResult)
  | /-- `record_result` has raised. -/
    refused (attempt : Attempt)
  | recorded (attempt : Attempt) (target : ResearchJobStatus)
deriving DecidableEq

def targetOf : ResultStatus → ResearchJobStatus
  | .succeeded => .succeeded
  | .failed => .failed

/-- The call with which a worker ends its attempt. -/
def Phase.finishCall? : Phase → Option Call
  | .raised a =>
    some (.finish a.workspaceId a.jobId a.token .failed (some "executor_error"))
  | .refused a =>
    some (.finish a.workspaceId a.jobId a.token .failed (some "provenance_error"))
  | .recorded a target => some (.finish a.workspaceId a.jobId a.token target none)
  | _ => none

def Phase.afterClaim (workspaceId jobId : Uuid) : Except PyError Reply → Phase
  | .ok (.lease lease) => .executing ⟨workspaceId, jobId, lease.token⟩
  | _ => .idle

def Phase.afterRecord (attempt : Attempt) (result : ResearchResult) : Except PyError Reply → Phase
  | .ok _ => .recorded attempt (targetOf result.status)
  | .error _ => .refused attempt

inductive Move (W : Type u) where
  | create (workspaceId : Uuid) (job : ResearchJob)
  | createIdempotent (workspaceId : Uuid) (job : ResearchJob)
      (idempotencyKey requestFingerprint : String)
  | /-- The worker claims a job. -/
    start (w : W) (workspaceId jobId : Uuid) (owner : String) (leaseSeconds : Int) (token : Uuid)
  | heartbeat (workspaceId jobId leaseToken : Uuid) (leaseSeconds : Int) (later : DateTime)
  | /-- The executor returns a result, or raises. -/
    execute (w : W) (outcome : Option ResearchResult)
  | record (w : W)
  | finish (w : W)
  | crash (w : W)

structure TimedMove (W : Type u) where
  now : DateTime
  move : Move W

structure Workers (W : Type u) where
  store : Store
  phase : W → Phase

variable {W : Type u} [DecidableEq W]

def Workers.goto (sys : Workers W) (w : W) (phase : Phase) : Workers W :=
  { sys with phase := Function.update sys.phase w phase }

/-- The system after a call. -/
def Workers.call (host : Host) (now : DateTime) (sys : Workers W) (call : Call) : Workers W :=
  { sys with store := (call.run host now sys.store).2 }

def Workers.move (host : Host) (now : DateTime) (sys : Workers W) : Move W → Workers W
  | .create workspaceId job => sys.call host now (.create workspaceId job)
  | .createIdempotent workspaceId job key fingerprint =>
    sys.call host now (.createIdempotent workspaceId job key fingerprint)
  | .start w workspaceId jobId owner seconds token =>
    match sys.phase w with
    | .idle =>
      let call := Call.claim workspaceId jobId owner seconds token
      (sys.call host now call).goto w
        (.afterClaim workspaceId jobId (call.run host now sys.store).1)
    | _ => sys
  | .heartbeat workspaceId jobId token seconds later =>
    sys.call host now (.renew workspaceId jobId token seconds later)
  | .execute w outcome =>
    match sys.phase w, outcome with
    | .executing a, some result => sys.goto w (.returned a result)
    | .executing a, none => sys.goto w (.raised a)
    | _, _ => sys
  | .record w =>
    match sys.phase w with
    | .returned a result =>
      let call := Call.recordResult a.workspaceId a.jobId a.token result
      (sys.call host now call).goto w
        (.afterRecord a result (call.run host now sys.store).1)
    | _ => sys
  | .finish w =>
    match (sys.phase w).finishCall? with
    | some call => (sys.call host now call).goto w .idle
    | none => sys
  | .crash w => sys.goto w .idle

def workers (host : Host) (W : Type u) [DecidableEq W] : Machine (Workers W) (TimedMove W) Unit where
  init := ⟨.empty, fun _ ↦ .idle⟩
  step := fun t sys ↦ ((), sys.move host t.now t.move)

end Qros.Saas

namespace Qros.Saas

open Qros.Lib

/-- Each job that has ended and has a stored result ended as the result says. -/
def Agreement (s : Store) : Prop :=
  ∀ jobId job record, s.jobs.get? jobId = some job → s.results.get? jobId = some record →
    job.status.isTerminal = true → (job.status = .succeeded ↔ record.status = .succeeded)

/-- The store has a result of the job that says `SUCCEEDED`. -/
def HasSuccess (s : Store) (jobId : Uuid) : Prop :=
  ∃ record ∈ s.results.get? jobId, record.status = .succeeded

variable {W : Type u} [DecidableEq W]

def Move.result? : Move W → Option ResearchResult
  | .execute _ outcome => outcome
  | _ => none

def executorResults (is : List (TimedMove W)) : List ResearchResult :=
  is.filterMap fun t ↦ t.move.result?

/-- No two manifests of the results have one digest. -/
def NoCollision (host : Host) (results : List ResearchResult) : Prop :=
  ∀ r ∈ results, ∀ r' ∈ results,
    manifestSha256 host r = manifestSha256 host r' → manifestPayload r = manifestPayload r'

def Phase.failed? : Phase → Option Attempt
  | .raised a => some a
  | .refused a => some a
  | _ => none

/-- The moves that keep the agreement.  A claim does not give up a job with a stored
success, and the holder of the lease of such a job does not finish it as failed
because of an exception. -/
def KeepsAgreement (sys : Workers W) (t : TimedMove W) : Prop :=
  match t.move with
  | .start w workspaceId jobId owner seconds _ =>
    sys.phase w = .idle → ∀ job ∈ sys.store.get workspaceId jobId,
      Claimable sys.store workspaceId jobId owner seconds t.now job →
        job.maxAttempts ≤ job.attemptCount → ¬ HasSuccess sys.store jobId
  | .finish w =>
    ∀ a ∈ (sys.phase w).failed?, ∀ job ∈ sys.store.get a.workspaceId a.jobId,
      sys.store.isHeld job a.jobId a.token = true → ¬ HasSuccess sys.store a.jobId
  | _ => True

instance (s : Store) (jobId : Uuid) : Decidable (HasSuccess s jobId) :=
  inferInstanceAs (Decidable (∃ record ∈ s.results.get? jobId, _))

instance (sys : Workers W) (t : TimedMove W) : Decidable (KeepsAgreement sys t) :=
  match t with
  | ⟨_, .start _ workspaceId jobId _ _ _⟩ =>
    inferInstanceAs (Decidable (_ = _ → ∀ job ∈ sys.store.get workspaceId jobId, _))
  | ⟨_, .finish w⟩ => inferInstanceAs (Decidable (∀ a ∈ (sys.phase w).failed?, _))
  | ⟨_, .create ..⟩ => isTrue trivial
  | ⟨_, .createIdempotent ..⟩ => isTrue trivial
  | ⟨_, .heartbeat ..⟩ => isTrue trivial
  | ⟨_, .execute ..⟩ => isTrue trivial
  | ⟨_, .record ..⟩ => isTrue trivial
  | ⟨_, .crash ..⟩ => isTrue trivial

/-! ## The store -/

/-- What holds of the store of a run whose results are among `rs`. -/
structure StoreInv (host : Host) (rs : List ResearchResult) (s : Store) : Prop where
  agreement : Agreement s
  results_job : ∀ jobId record, s.results.get? jobId = some record →
    ∃ job, s.jobs.get? jobId = some job
  results_from : ∀ jobId record, s.results.get? jobId = some record →
    ∃ r ∈ rs, record.manifestSha256 = manifestSha256 host r ∧ record.status = r.status

/-- Stored results stay. -/
def KeepsResults (s s' : Store) : Prop :=
  ∀ jobId record, s.results.get? jobId = some record → s'.results.get? jobId = some record

/-- What a call of a run must meet for the agreement to survive it. -/
def CallKeeps (rs : List ResearchResult) (now : DateTime) (s : Store) : Call → Prop
  | .claim workspaceId jobId owner seconds _ =>
    ∀ job, Claimable s workspaceId jobId owner seconds now job →
      job.maxAttempts ≤ job.attemptCount → ¬ HasSuccess s jobId
  | .recordResult _ _ _ result => result ∈ rs
  | .finish workspaceId jobId token target _ =>
    ∀ job, Finishable s workspaceId jobId token target job →
      ∀ record ∈ s.results.get? jobId, target = .succeeded ↔ record.status = .succeeded
  | .transition .. => False
  | _ => True

variable {host : Host} {s : Store}

theorem resultRecord_ok {workspaceId jobId : Uuid} {job : ResearchJob} {result : ResearchResult}
    {record : ResearchRunResultRecord}
    (h : Store.resultRecord host workspaceId jobId job result = .ok record) :
    record.manifestSha256 = manifestSha256 host result ∧ record.status = result.status := by
  unfold Store.resultRecord at h
  split at h
  · cases h
  · split at h
    · cases h
    · cases h
      exact ⟨rfl, rfl⟩

namespace StoreInv

variable {host : Host} {rs : List ResearchResult} {s : Store}

theorem empty (host : Host) (rs : List ResearchResult) : StoreInv host rs .empty where
  agreement := fun _ _ _ hjob ↦ by cases hjob
  results_job := fun _ _ hrecord ↦ by cases hrecord
  results_from := fun _ _ hrecord ↦ by cases hrecord

theorem setJob (h : StoreInv host rs s) {jobId : Uuid} {job : ResearchJob} {s' : Store}
    (hjobs : s'.jobs = s.jobs.set jobId job) (hresults : s'.results = s.results)
    (hagree : ∀ record, s.results.get? jobId = some record → job.status.isTerminal = true →
      (job.status = .succeeded ↔ record.status = .succeeded)) :
    StoreInv host rs s' where
  agreement := by
    intro jobId' job' record hjob hrecord hended
    rw [hresults] at hrecord
    rw [hjobs, Dict.get?_set] at hjob
    split at hjob
    · rename_i heq
      cases hjob
      exact hagree record (heq ▸ hrecord) hended
    · exact h.agreement jobId' job' record hjob hrecord hended
  results_job := by
    intro jobId' record hrecord
    rw [hresults] at hrecord
    rw [hjobs, Dict.get?_set]
    split
    · exact ⟨job, rfl⟩
    · exact h.results_job jobId' record hrecord
  results_from := by
    intro jobId' record hrecord
    rw [hresults] at hrecord
    exact h.results_from jobId' record hrecord

theorem congr (h : StoreInv host rs s) {s' : Store} (hjobs : s'.jobs = s.jobs)
    (hresults : s'.results = s.results) : StoreInv host rs s' where
  agreement := by
    unfold Agreement
    rw [hjobs, hresults]
    exact h.agreement
  results_job := by
    rw [hjobs, hresults]
    exact h.results_job
  results_from := by
    rw [hresults]
    exact h.results_from

theorem record (h : StoreInv host rs s) {jobId : Uuid} {job : ResearchJob}
    {record : ResearchRunResultRecord} {result : ResearchResult}
    (hjob : s.jobs.get? jobId = some job) (hrunning : job.status = .running) (hmem : result ∈ rs)
    (hrecord : record.manifestSha256 = manifestSha256 host result ∧ record.status = result.status) :
    StoreInv host rs { s with results := s.results.set jobId record } where
  agreement := by
    intro jobId' job' record' hjob' hrecord' hended
    have hjob' : s.jobs.get? jobId' = some job' := hjob'
    have hrecord' : (s.results.set jobId record).get? jobId' = some record' := hrecord'
    rw [Dict.get?_set] at hrecord'
    split at hrecord'
    · rename_i heq
      rw [← heq, hjob] at hjob'
      cases hjob'
      rw [hrunning] at hended
      cases hended
    · exact h.agreement jobId' job' record' hjob' hrecord' hended
  results_job := by
    intro jobId' record' hrecord'
    have hrecord' : (s.results.set jobId record).get? jobId' = some record' := hrecord'
    rw [Dict.get?_set] at hrecord'
    split at hrecord'
    · rename_i heq
      exact ⟨job, heq ▸ hjob⟩
    · exact h.results_job jobId' record' hrecord'
  results_from := by
    intro jobId' record' hrecord'
    have hrecord' : (s.results.set jobId record).get? jobId' = some record' := hrecord'
    rw [Dict.get?_set] at hrecord'
    split at hrecord'
    · cases hrecord'
      exact ⟨result, hmem, hrecord⟩
    · exact h.results_from jobId' record' hrecord'

theorem results_new (h : StoreInv host rs s) {jobId : Uuid} (hnew : s.jobs.get? jobId = none) :
    s.results.get? jobId = none := by
  cases hr : s.results.get? jobId with
  | none => rfl
  | some record =>
    obtain ⟨job, hjob⟩ := h.results_job jobId record hr
    rw [hnew] at hjob
    cases hjob

/-- **One call.** -/
theorem call {now : DateTime} {call : Call} (h : StoreInv host rs s)
    (hcall : CallKeeps rs now s call) : StoreInv host rs (call.run host now s).2 ∧
      KeepsResults s (call.run host now s).2 := by
  have heff := effect_run host now call s
  generalize call.run host now s = r at heff
  obtain ⟨reply, s'⟩ := r
  have hkeep {s' : Store} (hresults : s'.results = s.results) : KeepsResults s s' :=
    fun jobId record hrecord ↦ hresults ▸ hrecord
  cases heff with
  | same => exact ⟨h, hkeep rfl⟩
  | created hws hnew =>
    refine ⟨h.setJob rfl rfl fun record hrecord ↦ ?_, hkeep rfl⟩
    rw [h.results_new hnew] at hrecord
    cases hrecord
  | createdIdempotent hws hkey hnew =>
    refine ⟨h.setJob rfl rfl fun record hrecord ↦ ?_, hkeep rfl⟩
    rw [h.results_new hnew] at hrecord
    cases hrecord
  | granted hc hlt hend => exact ⟨h.setJob rfl rfl nofun, hkeep rfl⟩
  | overflowed hc hlt hend => exact ⟨h.setJob rfl rfl nofun, hkeep rfl⟩
  | exhausted hc hge =>
    refine ⟨h.setJob rfl rfl fun record hrecord _ ↦ ?_, hkeep rfl⟩
    have hno := hcall _ hc hge
    exact ⟨nofun, fun hs ↦ absurd ⟨record, hrecord, hs⟩ hno⟩
  | renewed hl => exact ⟨h.congr rfl rfl, hkeep rfl⟩
  | recorded hl hrecord hnew =>
    obtain ⟨hget, hrunning, -⟩ := Store.leased_eq_some.mp hl
    refine ⟨h.record (Store.get_eq_some.mp hget).1 hrunning hcall (resultRecord_ok hrecord),
      fun jobId record hr ↦ ?_⟩
    refine (Dict.get?_set_of_ne _ _ fun heq ↦ ?_).trans hr
    rw [heq, hr] at hnew
    cases hnew
  | finished hf => exact ⟨h.setJob rfl rfl fun record hr _ ↦ hcall _ hf record hr, hkeep rfl⟩
  | transitioned => exact hcall.elim

end StoreInv

variable {workspaceId jobId token : Uuid} {rs : List ResearchResult}

theorem recordResult_ok {now : DateTime} {result : ResearchResult}
    {record : ResearchRunResultRecord}
    (h : (s.recordResult host workspaceId jobId token result now).1 = .ok record) :
    (s.recordResult host workspaceId jobId token result now).2.results.get? jobId = some record ∧
      record.manifestSha256 = manifestSha256 host result := by
  unfold Store.recordResult at h ⊢
  cases hleased : s.leased workspaceId jobId token now with
  | none =>
    rw [hleased] at h
    cases h
  | some job =>
    rw [hleased] at h
    dsimp only at h ⊢
    cases hrecord : Store.resultRecord host workspaceId jobId job result with
    | error e =>
      rw [hrecord] at h
      cases h
    | ok new =>
      rw [hrecord] at h
      dsimp only at h ⊢
      have hmanifest := (resultRecord_ok hrecord).1
      cases hold : s.results.get? jobId with
      | none =>
        rw [hold] at h
        cases h
        exact ⟨Dict.get?_set_self _ _ _, hmanifest⟩
      | some existing =>
        rw [hold] at h
        dsimp only at h ⊢
        by_cases hsame : existing.manifestSha256 ≠ new.manifestSha256
        · rw [if_pos hsame] at h
          cases h
        · rw [if_neg hsame] at h ⊢
          cases h
          exact ⟨hold, (not_not.mp hsame).trans hmanifest⟩

/-! ## The workers -/

def PhaseInv (rs : List ResearchResult) (s : Store) : Phase → Prop
  | .returned _ result => result ∈ rs
  | .recorded a target => ∃ record ∈ s.results.get? a.jobId, target = targetOf record.status
  | _ => True

structure WorkersInv (host : Host) (rs : List ResearchResult) (sys : Workers W) : Prop where
  store : StoreInv host rs sys.store
  phases : ∀ w, PhaseInv rs sys.store (sys.phase w)

theorem PhaseInv.mono {s s' : Store} (h : KeepsResults s s') {phase : Phase}
    (hp : PhaseInv rs s phase) : PhaseInv rs s' phase := by
  cases phase with
  | recorded a target =>
    obtain ⟨record, hrecord, htarget⟩ := hp
    exact ⟨record, h _ _ hrecord, htarget⟩
  | returned => exact hp
  | idle => trivial
  | executing => trivial
  | raised => trivial
  | refused => trivial

theorem callKeeps_failed {now : DateTime}
    (h : ∀ job ∈ s.get workspaceId jobId, s.isHeld job jobId token = true → ¬ HasSuccess s jobId)
    (errorCode : Option String) :
    CallKeeps rs now s (.finish workspaceId jobId token .failed errorCode) :=
  fun job hf record hrecord ↦
    ⟨nofun, fun hs ↦ absurd ⟨record, hrecord, hs⟩ (h job hf.found hf.held)⟩

theorem targetOf_eq_succeeded {status : ResultStatus} :
    targetOf status = .succeeded ↔ status = .succeeded := by
  cases status <;> decide

namespace WorkersInv

variable {host : Host} {rs : List ResearchResult} {sys : Workers W} {now : DateTime}

omit [DecidableEq W] in
theorem call {call : Call} (h : WorkersInv host rs sys) (hcall : CallKeeps rs now sys.store call) :
    WorkersInv host rs (sys.call host now call) := by
  obtain ⟨hstore, hkeep⟩ := h.store.call hcall
  exact ⟨hstore, fun w ↦ (h.phases w).mono hkeep⟩

theorem goto {w : W} {phase : Phase} (h : WorkersInv host rs sys)
    (hp : PhaseInv rs sys.store phase) : WorkersInv host rs (sys.goto w phase) := by
  refine ⟨h.store, fun w' ↦ ?_⟩
  by_cases hw : w' = w
  · subst hw
    simpa [Workers.goto] using hp
  · simpa [Workers.goto, hw] using h.phases w'

omit [DecidableEq W] in
theorem afterRecord (hcol : NoCollision host rs) {a : Attempt} {result : ResearchResult}
    (hmem : result ∈ rs)
    (h : WorkersInv host rs
      (sys.call host now (.recordResult a.workspaceId a.jobId a.token result))) :
    PhaseInv rs (sys.call host now (.recordResult a.workspaceId a.jobId a.token result)).store
      (.afterRecord a result
        ((Call.recordResult a.workspaceId a.jobId a.token result).run host now sys.store).1) := by
  cases hr : (sys.store.recordResult host a.workspaceId a.jobId a.token result now).1 with
  | error e =>
    simp only [Call.run, Prod.map_fst, hr]
    trivial
  | ok record =>
    obtain ⟨hrecord, hmanifest⟩ := recordResult_ok hr
    obtain ⟨r, hmem', hmanifest', hstatus⟩ := h.store.results_from _ _ hrecord
    -- The manifests agree, so the stored result and this one say the same.
    have hpayload := hcol r hmem' result hmem (hmanifest'.symm.trans hmanifest)
    have hsame : r.status = result.status := congrArg ManifestPayload.status hpayload
    simp only [Call.run, Prod.map_fst, hr]
    exact ⟨record, hrecord, by rw [hstatus, hsame]⟩

/-- **One move.** -/
theorem move {t : TimedMove W} (h : WorkersInv host rs sys) (hcol : NoCollision host rs)
    (hresult : ∀ r ∈ t.move.result?, r ∈ rs) (hkeep : KeepsAgreement sys t) :
    WorkersInv host rs (sys.move host t.now t.move) := by
  obtain ⟨now, m⟩ := t
  cases m with
  | create ws job => exact h.call trivial
  | createIdempotent ws job key fingerprint => exact h.call trivial
  | heartbeat ws jobId token seconds later => exact h.call trivial
  | crash w => exact h.goto trivial
  | start w ws jobId owner seconds token =>
    simp only [Workers.move]
    cases hphase : sys.phase w with
    | idle =>
      have hcall : CallKeeps rs now sys.store (.claim ws jobId owner seconds token) :=
        fun job hc hge ↦ hkeep hphase job hc.found hc hge
      refine (h.call hcall).goto ?_
      unfold Phase.afterClaim
      split <;> trivial
    | _ => exact h
  | execute w outcome =>
    simp only [Workers.move]
    cases sys.phase w with
    | executing a =>
      cases outcome with
      | none => exact h.goto trivial
      | some result => exact h.goto (hresult result rfl)
    | _ => exact h
  | record w =>
    have hp := h.phases w
    simp only [Workers.move]
    cases hphase : sys.phase w with
    | returned a result =>
      rw [hphase] at hp
      have hcall : WorkersInv host rs
          (sys.call host now (.recordResult a.workspaceId a.jobId a.token result)) := h.call hp
      exact hcall.goto (afterRecord hcol hp hcall)
    | _ => exact h
  | finish w =>
    have hp := h.phases w
    have hkeep : ∀ a ∈ (sys.phase w).failed?, _ := hkeep
    simp only [Workers.move]
    cases hphase : sys.phase w with
    | raised a =>
      rw [hphase] at hkeep
      exact (h.call (callKeeps_failed (hkeep a rfl) _)).goto trivial
    | refused a =>
      rw [hphase] at hkeep
      exact (h.call (callKeeps_failed (hkeep a rfl) _)).goto trivial
    | recorded a target =>
      rw [hphase] at hp
      obtain ⟨record, hrecord, rfl⟩ := hp
      have hcall : CallKeeps rs now sys.store
          (.finish a.workspaceId a.jobId a.token (targetOf record.status) none) := by
        intro job _ record' hrecord'
        rw [Option.mem_unique hrecord' hrecord]
        exact targetOf_eq_succeeded
      exact (h.call hcall).goto trivial
    | _ => exact h

end WorkersInv

/-! ## Runs -/

theorem not_hasSuccess_of_finish (host : Host) (now : DateTime) {errorCode : Option String}
    (hagree : Agreement ((Call.finish workspaceId jobId token .failed errorCode).run host now s).2)
    {job : ResearchJob} (hget : s.get workspaceId jobId = some job)
    (hheld : s.isHeld job jobId token = true) : ¬ HasSuccess s jobId := by
  rintro ⟨record, hrecord, hsucceeded⟩
  have hf : Finishable s workspaceId jobId token .failed job := ⟨hget, hheld, .inr rfl⟩
  rw [Call.run, Store.finish_eq hf] at hagree
  have := (hagree jobId _ record (Dict.get?_set_self _ _ _) hrecord rfl).mpr hsucceeded
  cases this

theorem keepsAgreement_of_agreement {sys : Workers W} {t : TimedMove W}
    (hagree : Agreement (sys.move host t.now t.move).store) : KeepsAgreement sys t := by
  obtain ⟨now, m⟩ := t
  cases m with
  | start w ws jobId owner seconds token =>
    intro hidle job _ hc hge
    rintro ⟨record, hrecord, hsucceeded⟩
    simp only [Workers.move, hidle] at hagree
    have hagree : Agreement ((Call.claim ws jobId owner seconds token).run host now sys.store).2 :=
      hagree
    rw [Call.run, Store.claim_eq_exhausted hc hge] at hagree
    have := (hagree jobId _ record (Dict.get?_set_self _ _ _) hrecord rfl).mpr hsucceeded
    cases this
  | finish w =>
    intro a ha job hget hheld
    simp only [Workers.move] at hagree
    cases hphase : sys.phase w with
    | raised a' =>
      rw [hphase] at ha hagree
      cases ha
      exact not_hasSuccess_of_finish host now hagree hget hheld
    | refused a' =>
      rw [hphase] at ha hagree
      cases ha
      exact not_hasSuccess_of_finish host now hagree hget hheld
    | idle => rw [hphase] at ha; cases ha
    | executing => rw [hphase] at ha; cases ha
    | returned => rw [hphase] at ha; cases ha
    | recorded => rw [hphase] at ha; cases ha
  | _ => trivial

theorem workersInv_of_keeps (hcol : NoCollision host rs) {is : List (TimedMove W)}
    (hresults : Meets (fun _ t ↦ ∀ r ∈ t.move.result?, r ∈ rs) is)
    (hkeep : Meets (fun pre t ↦ KeepsAgreement ((workers host W).after pre) t) is) :
    WorkersInv host rs ((workers host W).after is) := by
  refine (hresults.and hkeep).induction
    (I := fun is ↦ WorkersInv host rs ((workers host W).after is)) ?_ ?_
  · exact ⟨.empty host rs, fun _ ↦ trivial⟩
  · intro is t _ h ht
    rw [Machine.after_concat]
    exact h.move hcol ht.1 ht.2

/-- **A job and its result.**  Throughout a run jobs that have ended agree with their
stored results just when every move keeps the agreement. -/
theorem workers_agreement_iff (host : Host) {is : List (TimedMove W)}
    (hcol : NoCollision host (executorResults is)) :
    (∀ pre, pre <+: is → Agreement ((workers host W).after pre).store) ↔
      Meets (fun pre t ↦ KeepsAgreement ((workers host W).after pre) t) is := by
  have hresults : Meets (fun _ t ↦ ∀ r ∈ t.move.result?, r ∈ executorResults is) is := by
    intro pre t hpre r hr
    exact List.mem_filterMap.mpr
      ⟨t, hpre.subset (List.mem_append_right pre (List.mem_singleton_self t)), hr⟩
  generalize executorResults is = rs at hcol hresults
  refine safe_iff_meets hresults (StoreInv.empty host rs).agreement
    fun is t hresults hkeep _ ht ↦ ⟨fun hagree ↦ ?_, fun hk ↦ ?_⟩
  · rw [Machine.after_concat] at hagree
    exact keepsAgreement_of_agreement hagree
  · have h := workersInv_of_keeps hcol hresults hkeep
    rw [Machine.after_concat]
    exact (h.move hcol ht hk).store.agreement

/-- A worker crashes after it has stored a result; the next one stores the same result
and finishes the job. -/
theorem workers_agreement_sample :
    let source : Sha256 :=
      ⟨"ba7816bf8f01cfea414140de5dae2223b00361a396177a9cb410ff61f20015ad", by decide +kernel,
        by decide +kernel⟩
    let manifest : Sha256 :=
      ⟨"ec3ea019b8d3e6acb97e378ede701829d03a43c344ba4a2390856f8c5b76588a", by decide +kernel,
        by decide +kernel⟩
    let host : Host := ⟨fun _ ↦ manifest, fun _ ↦ none⟩
    let job := ResearchJob.requested ⟨1⟩ ⟨2⟩ ⟨3⟩ "eurusd-m1" source none (by decide +kernel)
    let result : ResearchResult := ⟨.succeeded, source, [], [], fun _ ↦ rfl⟩
    let is : List (TimedMove Nat) :=
      [⟨0, .create ⟨2⟩ job⟩, ⟨0, .start 0 ⟨2⟩ ⟨1⟩ "a" 10 ⟨11⟩⟩, ⟨1, .execute 0 (some result)⟩,
        ⟨2, .record 0⟩, ⟨3, .crash 0⟩, ⟨11000000, .start 1 ⟨2⟩ ⟨1⟩ "b" 10 ⟨12⟩⟩,
        ⟨11000001, .execute 1 (some result)⟩, ⟨11000002, .record 1⟩, ⟨11000003, .finish 1⟩]
    (∀ pre, pre <+: is → Agreement ((workers host Nat).after pre).store) ∧
      (((workers host Nat).after is).store.jobs.get? ⟨1⟩).map ResearchJob.status =
        some .succeeded := by
  intro source manifest host job result is
  have hcol : NoCollision host (executorResults is) := by
    intro r hr r' hr' _
    have hall : ∀ r ∈ executorResults is, r = result := by decide +kernel
    rw [hall r hr, hall r' hr']
  exact ⟨(workers_agreement_iff host hcol).mpr (by decide +kernel), by decide +kernel⟩

/-- A worker crashes after it has stored a success, and the executor of the next one
raises: the job has failed and its stored result says `SUCCEEDED`. -/
theorem failed_job_with_stored_success :
    let source : Sha256 :=
      ⟨"ba7816bf8f01cfea414140de5dae2223b00361a396177a9cb410ff61f20015ad", by decide +kernel,
        by decide +kernel⟩
    let manifest : Sha256 :=
      ⟨"ec3ea019b8d3e6acb97e378ede701829d03a43c344ba4a2390856f8c5b76588a", by decide +kernel,
        by decide +kernel⟩
    let host : Host := ⟨fun _ ↦ manifest, fun _ ↦ none⟩
    let job := ResearchJob.requested ⟨1⟩ ⟨2⟩ ⟨3⟩ "eurusd-m1" source none (by decide +kernel)
    let result : ResearchResult := ⟨.succeeded, source, [], [], fun _ ↦ rfl⟩
    let is : List (TimedMove Nat) :=
      [⟨0, .create ⟨2⟩ job⟩, ⟨0, .start 0 ⟨2⟩ ⟨1⟩ "a" 10 ⟨11⟩⟩, ⟨1, .execute 0 (some result)⟩,
        ⟨2, .record 0⟩, ⟨3, .crash 0⟩, ⟨11000000, .start 1 ⟨2⟩ ⟨1⟩ "b" 10 ⟨12⟩⟩,
        ⟨11000001, .execute 1 none⟩, ⟨11000002, .finish 1⟩]
    (((workers host Nat).after is).store.jobs.get? ⟨1⟩).map ResearchJob.status = some .failed ∧
      (((workers host Nat).after is).store.results.get? ⟨1⟩).map (fun record ↦ record.status) =
        some .succeeded ∧
      ¬ Agreement ((workers host Nat).after is).store := by
  intro source manifest host job result is
  refine ⟨by decide +kernel, by decide +kernel, fun h ↦ ?_⟩
  have hagree := h ⟨1⟩ { job with
      status := .failed, errorCode := some "executor_error", attemptCount := 2
      attempts_le := by decide }
    (buildResultRecord host ⟨2⟩ ⟨1⟩ result none none) (by decide +kernel) (by decide +kernel) rfl
  exact absurd (hagree.mpr rfl) (by decide)

end Qros.Saas
