import Qros.Saas.Effect

/-!
# The lease protocol

What any number of workers can rely on, whatever the order of their calls: a job
has a lease token exactly when it runs, its attempts are counted, an ended job
stays as it ended, and a token that has been superseded or whose lease has ended
opens nothing.  `LeaseSafe` states it of the moment after a sequence of calls.

Three calls do not keep it.  `finish` looks at the token but not at the end of the
lease, `transition` edits the status of a job without looking at its lease, and
`claim` stores the job before it computes the end of a lease, which may be out of
range.  `Guarded` is the condition under which a call keeps it; jobs that are
created running or with attempts behind them are excluded as well.
`store_leaseSafe_iff` shows that the condition is exact.

The argument is made for one job at a time: `JobView` is what the store and the
history say about a job, and a call changes the view of one job only.
-/

namespace Qros.Saas

open Qros.Lib List

/-! ## The history of a job -/

def grants (tr : List (Timed × Except PyError Reply)) (jobId : Uuid) : List Uuid :=
  (tr.filterMap fun e ↦ grantOf e.1.call e.2).filterMap fun g ↦
    if g.1 = jobId then some g.2 else none

variable {tr : List (Timed × Except PyError Reply)}

theorem grants_concat_of_none {e : Timed} {reply : Except PyError Reply}
    (h : grantOf e.call reply = none) (jobId : Uuid) :
    grants (tr ++ [(e, reply)]) jobId = grants tr jobId := by
  simp [grants, h]

theorem grants_concat_of_some {e : Timed} {reply : Except PyError Reply} {jobId token : Uuid}
    (h : grantOf e.call reply = some (jobId, token)) (jobId' : Uuid) :
    grants (tr ++ [(e, reply)]) jobId' =
      if jobId = jobId' then grants tr jobId' ++ [token] else grants tr jobId' := by
  by_cases hj : jobId = jobId' <;> simp [grants, h, hj]

theorem mem_grantOf_of_mem_grants {jobId token : Uuid} (h : token ∈ grants tr jobId) :
    token ∈ (tr.filterMap fun e ↦ grantOf e.1.call e.2).map Prod.snd := by
  obtain ⟨g, hg, heq⟩ := mem_filterMap.mp h
  split at heq
  · cases heq
    exact mem_map_of_mem hg
  · cases heq

variable (host : Host)

def Call.newToken? : Call → Option Uuid
  | .claim _ _ _ _ token => some token
  | _ => none

/-- `uuid4` returns no token that was granted before. -/
def FreshToken (pre : List Timed) (e : Timed) : Prop :=
  ∀ token ∈ e.call.newToken?,
    token ∉ (((store host).trace pre).filterMap fun e ↦ grantOf e.1.call e.2).map Prod.snd

instance (pre : List Timed) (e : Timed) : Decidable (FreshToken host pre e) :=
  inferInstanceAs (Decidable (∀ token ∈ e.call.newToken?, _))

/-- The token was superseded by a later claim of the job, or its lease has ended. -/
def Stale (pre : List Timed) (now : DateTime) (jobId token : Uuid) : Prop :=
  token ∈ (grants ((store host).trace pre) jobId).dropLast ∨
    ∀ expires, ((store host).after pre).leases.get? jobId = some (token, expires) → expires ≤ now

def Call.leaseToken? : Call → Option (Uuid × Uuid)
  | .renew _ jobId token _ _ => some (jobId, token)
  | .recordResult _ jobId token _ => some (jobId, token)
  | .finish _ jobId token _ _ => some (jobId, token)
  | _ => none

/-! ## The protocol -/

/-- What the protocol promises of the moment after the calls `is`. -/
structure LeaseSafe (is : List Timed) : Prop where
  lease_iff_running : ∀ jobId job, ((store host).after is).jobs.get? jobId = some job →
    ((((store host).after is).leases.get? jobId).isSome ↔ job.status = .running)
  attempts : ∀ jobId job, ((store host).after is).jobs.get? jobId = some job →
    job.attemptCount = (grants ((store host).trace is) jobId).length ∧
      job.attemptCount ≤ job.maxAttempts
  terminal : ∀ pre, pre <+: is → ∀ jobId job, ((store host).after pre).jobs.get? jobId = some job →
    job.status.isTerminal = true →
      ∃ job', ((store host).after is).jobs.get? jobId = some job' ∧ job'.status = job.status
  stale : ∀ pre e jobId token, pre ++ [e] = is → e.call.leaseToken? = some (jobId, token) →
    Stale host pre e.now jobId token → (store host).after is = (store host).after pre

/-- A job as a client creates it. -/
def ResearchJob.IsNew (job : ResearchJob) : Prop := job.status ≠ .running ∧ job.attemptCount = 0

/-- The edits of a status that need no lease: none at all, or of a waiting job. -/
def EditAllowed (expected target : ResearchJobStatus) : Prop :=
  target = expected ∨ expected = .queued ∧ target ≠ .running

/-- The calls that keep the protocol in the store `s`: those that do not apply, and
of those that apply the ones that meet the condition at their end. -/
def Guarded (s : Store) (e : Timed) : Prop :=
  match e.call with
  | .create workspaceId job =>
    job.workspaceId = workspaceId → s.jobs.get? job.id = none → job.IsNew
  | .createIdempotent workspaceId job key _ =>
    job.workspaceId = workspaceId → s.idempotency.get? (workspaceId, key) = none →
      s.jobs.get? job.id = none → job.IsNew
  | .claim workspaceId jobId owner seconds _ =>
    ∀ job ∈ s.get workspaceId jobId, Claimable s workspaceId jobId owner seconds e.now job →
      job.attemptCount < job.maxAttempts → (e.now.addSeconds seconds).isSome = true
  | .finish workspaceId jobId token target _ =>
    ∀ job ∈ s.get workspaceId jobId, Finishable s workspaceId jobId token target job →
      ∀ lease ∈ s.leases.get? jobId, e.now < lease.2
  | .transition workspaceId jobId expected target =>
    ∀ job ∈ s.get workspaceId jobId, job.status = expected → EditAllowed expected target
  | .renew .. => True
  | .recordResult .. => True

instance (job : ResearchJob) : Decidable job.IsNew := inferInstanceAs (Decidable (_ ∧ _))

instance (expected target : ResearchJobStatus) : Decidable (EditAllowed expected target) :=
  inferInstanceAs (Decidable (_ ∨ _))

instance (s : Store) (e : Timed) : Decidable (Guarded s e) :=
  match e with
  | ⟨_, .create _ _⟩ => inferInstanceAs (Decidable (_ = _ → _ = _ → _))
  | ⟨_, .createIdempotent _ _ _ _⟩ => inferInstanceAs (Decidable (_ = _ → _ = _ → _ = _ → _))
  | ⟨_, .claim workspaceId jobId _ _ _⟩ =>
    inferInstanceAs (Decidable (∀ job ∈ s.get workspaceId jobId, _))
  | ⟨_, .finish workspaceId jobId _ _ _⟩ =>
    inferInstanceAs (Decidable (∀ job ∈ s.get workspaceId jobId, _))
  | ⟨_, .transition workspaceId jobId _ _⟩ =>
    inferInstanceAs (Decidable (∀ job ∈ s.get workspaceId jobId, _))
  | ⟨_, .renew ..⟩ => isTrue trivial
  | ⟨_, .recordResult ..⟩ => isTrue trivial

/-! ## One job -/

/-- What the store and the history say about a job. -/
structure JobView where
  job : Option ResearchJob
  lease : Option (Uuid × DateTime)
  tokens : List Uuid

def viewOf (s : Store) (tr : List (Timed × Except PyError Reply)) (jobId : Uuid) : JobView :=
  ⟨s.jobs.get? jobId, s.leases.get? jobId, grants tr jobId⟩

/-- The invariant of a job: next to the promises, that the lease is that of the last
grant and that no token was granted twice. -/
structure JobInv (v : JobView) : Prop where
  running : ∀ job, v.job = some job → (v.lease.isSome ↔ job.status = .running)
  attempts : ∀ job, v.job = some job → job.attemptCount = v.tokens.length
  absent : v.job = none → v.lease = none ∧ v.tokens = []
  current : ∀ lease, v.lease = some lease → ∃ earlier, v.tokens = earlier ++ [lease.1]
  nodup : v.tokens.Nodup

def StaysEnded (v v' : JobView) : Prop :=
  ∀ job, v.job = some job → job.status.isTerminal = true →
    ∃ job', v'.job = some job' ∧ job'.status = job.status

structure JobStep (v v' : JobView) : Prop where
  inv : JobInv v'
  ended : StaysEnded v v'

namespace JobInv

variable {job : ResearchJob} {lease : Option (Uuid × DateTime)} {tokens : List Uuid}

theorem stay {v : JobView} (h : JobInv v) : JobStep v v :=
  ⟨h, fun job hjob _ ↦ ⟨job, hjob, rfl⟩⟩

theorem create (h : JobInv ⟨none, lease, tokens⟩) (hnew : job.IsNew) :
    JobStep ⟨none, lease, tokens⟩ ⟨some job, lease, tokens⟩ := by
  have hlease : lease = none := (h.absent rfl).1
  have htokens : tokens = [] := (h.absent rfl).2
  refine ⟨⟨?_, ?_, ?_, h.current, h.nodup⟩, ?_⟩
  · rintro _ ⟨⟩
    simpa [hlease] using hnew.1
  · rintro _ ⟨⟩
    simpa [htokens] using hnew.2
  · rintro ⟨⟩
  · rintro _ ⟨⟩

theorem grant {token : Uuid} (h : JobInv ⟨some job, lease, tokens⟩)
    (hstatus : job.status = .queued ∨ job.status = .running)
    (hlt : job.attemptCount < job.maxAttempts) (hfresh : token ∉ tokens) (expires : DateTime) :
    JobStep ⟨some job, lease, tokens⟩
      ⟨some (Store.claimedJob job hlt), some (token, expires), tokens ++ [token]⟩ := by
  refine ⟨⟨?_, ?_, ?_, ?_, ?_⟩, ?_⟩
  · rintro _ ⟨⟩
    simp [Store.claimedJob]
  · rintro _ ⟨⟩
    simp [Store.claimedJob, h.attempts job rfl]
  · rintro ⟨⟩
  · rintro _ ⟨⟩
    exact ⟨tokens, rfl⟩
  · exact nodup_append'.mpr ⟨h.nodup, nodup_singleton token, by simpa using hfresh⟩
  · rintro _ ⟨⟩ hended
    rcases hstatus with hs | hs <;> rw [hs] at hended <;> cases hended

theorem close {job' : ResearchJob} (h : JobInv ⟨some job, lease, tokens⟩)
    (hstatus : job.status = .queued ∨ job.status = .running) (hended : job'.status ≠ .running)
    (hattempts : job'.attemptCount = job.attemptCount) :
    JobStep ⟨some job, lease, tokens⟩ ⟨some job', none, tokens⟩ := by
  refine ⟨⟨?_, ?_, ?_, ?_, h.nodup⟩, ?_⟩
  · rintro _ ⟨⟩
    simpa using hended
  · rintro _ ⟨⟩
    rw [hattempts]
    exact h.attempts job rfl
  · rintro ⟨⟩
  · rintro _ ⟨⟩
  · rintro _ ⟨⟩ hterminal
    rcases hstatus with hs | hs <;> rw [hs] at hterminal <;> cases hterminal

theorem renew {v : JobView} {token : Uuid} {expires expires' : DateTime} (h : JobInv v)
    (hlease : v.lease = some (token, expires)) :
    JobStep v { v with lease := some (token, expires') } := by
  refine ⟨⟨?_, h.attempts, ?_, ?_, h.nodup⟩, fun job hjob _ ↦ ⟨job, hjob, rfl⟩⟩
  · intro job hjob
    simpa [hlease] using h.running job hjob
  · intro hnone
    have := (h.absent hnone).1
    rw [hlease] at this
    cases this
  · rintro _ ⟨⟩
    exact h.current (token, expires) hlease

theorem edit {target : ResearchJobStatus} (h : JobInv ⟨some job, lease, tokens⟩)
    (hallowed : EditAllowed job.status target) :
    JobStep ⟨some job, lease, tokens⟩ ⟨some { job with status := target }, lease, tokens⟩ := by
  have hrunning := h.running job rfl
  refine ⟨⟨?_, ?_, ?_, h.current, h.nodup⟩, ?_⟩
  · rintro _ ⟨⟩
    rw [hrunning]
    rcases hallowed with rfl | ⟨hqueued, htarget⟩
    · exact Iff.rfl
    · simp [hqueued, htarget]
  · rintro _ ⟨⟩
    exact h.attempts job rfl
  · rintro ⟨⟩
  · rintro _ ⟨⟩ hended
    rcases hallowed with rfl | ⟨hqueued, -⟩
    · exact ⟨_, rfl, rfl⟩
    · rw [hqueued] at hended
      cases hended

end JobInv

/-! ## Every call -/

section

variable {host} {is : List Timed} {e : Timed}

abbrev viewAfter (host : Host) (is : List Timed) (jobId : Uuid) : JobView :=
  viewOf ((store host).after is) ((store host).trace is) jobId

theorem not_stale_of_current {now : DateTime} {jobId token : Uuid} {expires : DateTime}
    (h : JobInv (viewAfter host is jobId))
    (hlease : ((store host).after is).leases.get? jobId = some (token, expires))
    (hlt : now < expires) : ¬ Stale host is now jobId token := by
  rintro (hold | hended)
  · obtain ⟨earlier, htokens⟩ := h.current _ hlease
    have htokens : grants ((store host).trace is) jobId = earlier ++ [token] := htokens
    have hnodup : (grants ((store host).trace is) jobId).Nodup := h.nodup
    rw [htokens] at hold hnodup
    rw [dropLast_concat] at hold
    exact (nodup_append'.mp hnodup).2.2 hold (mem_singleton_self token)
  · exact absurd (hended expires hlease) (not_le.mpr hlt)

/-- **One call.**  A guarded call takes each job one step further. -/
theorem jobStep_of_guarded (h : ∀ jobId, JobInv (viewAfter host is jobId))
    (hfresh : FreshToken host is e) (hguard : Guarded ((store host).after is) e) (jobId : Uuid) :
    JobStep (viewAfter host is jobId) (viewAfter host (is ++ [e]) jobId) := by
  obtain ⟨now, call⟩ := e
  have heff := effect_run host now call ((store host).after is)
  have hinv := h jobId
  rw [viewAfter, viewAfter, Machine.after_concat, Machine.trace_concat]
  show JobStep _ (viewOf (call.run host now _).2
    (_ ++ [(⟨now, call⟩, (call.run host now _).1)]) jobId)
  generalize call.run host now ((store host).after is) = r at heff
  obtain ⟨reply, s'⟩ := r
  unfold viewAfter viewOf at hinv
  unfold viewOf
  generalize (store host).after is = s at *
  cases heff with
  | same hgrant =>
    rw [grants_concat_of_none hgrant]
    exact hinv.stay
  | @created _ job _ hws hnew =>
    rw [grants_concat_of_none rfl]
    rcases eq_or_ne job.id jobId with rfl | hne
    · rw [Dict.get?_set_self, hnew]
      rw [hnew] at hinv
      exact hinv.create (hguard hws hnew)
    · rw [Dict.get?_set_of_ne _ _ hne]
      exact hinv.stay
  | @createdIdempotent _ job _ _ _ hws hkey hnew =>
    rw [grants_concat_of_none rfl]
    dsimp only [Store.insertJob]
    rcases eq_or_ne job.id jobId with rfl | hne
    · rw [Dict.get?_set_self, hnew]
      rw [hnew] at hinv
      exact hinv.create (hguard hws hkey hnew)
    · rw [Dict.get?_set_of_ne _ _ hne]
      exact hinv.stay
  | @granted _ changed token _ _ job expires _ hc hlt hend =>
    have hjob := (Store.get_eq_some.mp hc.found).1
    rw [grants_concat_of_some rfl]
    rcases eq_or_ne changed jobId with rfl | hne
    · rw [Dict.get?_set_self, Dict.get?_set_self, if_pos rfl, hjob]
      rw [hjob] at hinv
      exact hinv.grant hc.status hlt (fun hm ↦ hfresh token rfl (mem_grantOf_of_mem_grants hm)) expires
    · rw [Dict.get?_set_of_ne _ _ hne, Dict.get?_set_of_ne _ _ hne, if_neg hne]
      exact hinv.stay
  | overflowed hc hlt hend =>
    have := hguard _ hc.found hc hlt
    rw [hend] at this
    cases this
  | @exhausted _ changed _ _ _ job _ hc hge =>
    have hjob := (Store.get_eq_some.mp hc.found).1
    rw [grants_concat_of_none rfl]
    rcases eq_or_ne changed jobId with rfl | hne
    · rw [Dict.get?_set_self, Dict.get?_pop_self, hjob]
      rw [hjob] at hinv
      exact hinv.close hc.status nofun rfl
    · rw [Dict.get?_set_of_ne _ _ hne, Dict.get?_pop_of_ne _ hne]
      exact hinv.stay
  | @renewed _ changed token _ _ _ _ _ hl =>
    obtain ⟨-, -, expires, hlease, -⟩ := Store.leased_eq_some.mp hl
    rw [grants_concat_of_none rfl]
    rcases eq_or_ne changed jobId with rfl | hne
    · rw [Dict.get?_set_self]
      exact hinv.renew hlease
    · rw [Dict.get?_set_of_ne _ _ hne]
      exact hinv.stay
  | recorded hl hrecord hnew =>
    rw [grants_concat_of_none rfl]
    exact hinv.stay
  | @finished _ changed _ target _ job _ hf =>
    have hjob := (Store.get_eq_some.mp hf.found).1
    have hrunning := (Store.isHeld_iff.mp hf.held).1
    rw [grants_concat_of_none rfl]
    rcases eq_or_ne changed jobId with rfl | hne
    · rw [Dict.get?_set_self, Dict.get?_pop_self, hjob]
      rw [hjob] at hinv
      refine hinv.close (.inr hrunning) ?_ rfl
      rcases hf.target with rfl | rfl <;> nofun
    · rw [Dict.get?_set_of_ne _ _ hne, Dict.get?_pop_of_ne _ hne]
      exact hinv.stay
  | @transitioned _ changed target job _ hget =>
    have hjob := (Store.get_eq_some.mp hget).1
    rw [grants_concat_of_none rfl]
    rcases eq_or_ne changed jobId with rfl | hne
    · rw [Dict.get?_set_self, hjob]
      rw [hjob] at hinv
      exact hinv.edit (hguard job hget rfl)
    · rw [Dict.get?_set_of_ne _ _ hne]
      exact hinv.stay

theorem after_eq_of_stale (h : ∀ jobId, JobInv (viewAfter host is jobId))
    (hguard : Guarded ((store host).after is) e) {jobId token : Uuid}
    (hcall : e.call.leaseToken? = some (jobId, token)) (hstale : Stale host is e.now jobId token) :
    (store host).after (is ++ [e]) = (store host).after is := by
  obtain ⟨now, call⟩ := e
  have hcurrent {expires : DateTime}
      (hlease : ((store host).after is).leases.get? jobId = some (token, expires))
      (hlt : now < expires) : False := not_stale_of_current (h jobId) hlease hlt hstale
  rw [Machine.after_concat]
  have heff := effect_run host now call ((store host).after is)
  show (call.run host now _).2 = _
  generalize call.run host now ((store host).after is) = r at heff
  obtain ⟨reply, s'⟩ := r
  cases heff with
  | same => rfl
  | created => cases hcall
  | createdIdempotent => cases hcall
  | granted => cases hcall
  | overflowed => cases hcall
  | exhausted => cases hcall
  | renewed hl =>
    cases hcall
    obtain ⟨-, -, expires, hlease, hlt⟩ := Store.leased_eq_some.mp hl
    exact (hcurrent hlease hlt).elim
  | recorded hl =>
    cases hcall
    obtain ⟨-, -, expires, hlease, hlt⟩ := Store.leased_eq_some.mp hl
    exact (hcurrent hlease hlt).elim
  | finished hf =>
    cases hcall
    obtain ⟨-, expires, hlease⟩ := Store.isHeld_iff.mp hf.held
    exact (hcurrent hlease (hguard _ hf.found hf _ hlease)).elim
  | transitioned => cases hcall

theorem leaseSafe_concat (hsafe : LeaseSafe host is) (h : ∀ jobId, JobInv (viewAfter host is jobId))
    (hfresh : FreshToken host is e) (hguard : Guarded ((store host).after is) e) :
    LeaseSafe host (is ++ [e]) where
  lease_iff_running := fun jobId job hjob ↦
    (jobStep_of_guarded h hfresh hguard jobId).inv.running job hjob
  attempts := fun jobId job hjob ↦
    ⟨(jobStep_of_guarded h hfresh hguard jobId).inv.attempts job hjob, job.attempts_le⟩
  terminal := by
    intro pre hpre jobId job hjob hended
    rcases List.prefix_concat_iff.mp hpre with rfl | hpre
    · exact ⟨job, hjob, rfl⟩
    · obtain ⟨job', hjob', hstatus⟩ := hsafe.terminal pre hpre jobId job hjob hended
      obtain ⟨job'', hjob'', hstatus'⟩ :=
        (jobStep_of_guarded h hfresh hguard jobId).ended job' hjob' (hstatus ▸ hended)
      exact ⟨job'', hjob'', hstatus'.trans hstatus⟩
  stale := by
    intro pre e' jobId token heq hcall hstale
    obtain ⟨rfl, he⟩ := append_inj' heq rfl
    cases he
    exact after_eq_of_stale h hguard hcall hstale

theorem leaseSafe_nil : LeaseSafe host [] where
  lease_iff_running := nofun
  attempts := nofun
  terminal := by
    intro pre hpre jobId job hjob
    rw [List.prefix_nil.mp hpre] at hjob
    cases hjob
  stale := fun pre e jobId token heq ↦ by simp at heq

theorem jobInv_of_guarded (hfresh : Meets (FreshToken host) is)
    (hguard : Meets (fun pre e ↦ Guarded ((store host).after pre) e) is) (jobId : Uuid) :
    JobInv (viewAfter host is jobId) := by
  refine (hfresh.and hguard).induction (I := fun is ↦ ∀ jobId, JobInv (viewAfter host is jobId))
    (fun jobId ↦ ?_) (fun is e _ h he jobId ↦ ?_) jobId
  · exact ⟨nofun, nofun, fun _ ↦ ⟨rfl, rfl⟩, nofun, nodup_nil⟩
  · exact (jobStep_of_guarded h he.1 he.2 jobId).inv

end

/-! ## The condition is exact -/

section

variable {host} {is : List Timed} {e : Timed}

theorem isNew_of_leaseSafe {job : ResearchJob} (h : JobInv (viewAfter host is job.id))
    (hsafe : LeaseSafe host (is ++ [e])) (hnew : ((store host).after is).jobs.get? job.id = none)
    (hgrant : ∀ reply, grantOf e.call reply = none)
    (hjob : ((store host).after (is ++ [e])).jobs.get? job.id = some job)
    (hleases : ((store host).after (is ++ [e])).leases = ((store host).after is).leases) :
    job.IsNew := by
  have hlease : ((store host).after is).leases.get? job.id = none := (h.absent hnew).1
  have htokens : grants ((store host).trace is) job.id = [] := (h.absent hnew).2
  constructor
  · intro hrunning
    have := (hsafe.lease_iff_running job.id job hjob).mpr hrunning
    rw [hleases, hlease] at this
    cases this
  · rw [(hsafe.attempts job.id job hjob).1, Machine.trace_concat,
      grants_concat_of_none (hgrant _), htokens, length_nil]

theorem editAllowed_of_leaseSafe {jobId : Uuid} {target : ResearchJobStatus} {job : ResearchJob}
    (h : JobInv (viewAfter host is jobId)) (hsafe : LeaseSafe host (is ++ [e]))
    (hjob : ((store host).after is).jobs.get? jobId = some job)
    (hafter : (store host).after (is ++ [e]) = { (store host).after is with
      jobs := ((store host).after is).jobs.set jobId { job with status := target } }) :
    EditAllowed job.status target := by
  have hjob' : ((store host).after (is ++ [e])).jobs.get? jobId =
      some { job with status := target } := by
    rw [hafter]
    exact Dict.get?_set_self _ _ _
  have hleases : ((store host).after (is ++ [e])).leases = ((store host).after is).leases := by
    rw [hafter]
  have hbefore := h.running job hjob
  have hlease := hsafe.lease_iff_running jobId _ hjob'
  rw [hleases] at hlease
  -- The lease is the one from before, so the job runs after the edit if it ran before.
  have hrunning : target = .running ↔ job.status = .running := hlease.symm.trans hbefore
  have hended (hs : job.status.isTerminal = true) : target = job.status := by
    obtain ⟨job', hfound, hstatus⟩ :=
      hsafe.terminal is (List.prefix_append _ _) jobId job hjob hs
    rw [hjob'] at hfound
    cases hfound
    exact hstatus
  cases hs : job.status with
  | queued => exact .inr ⟨rfl, fun ht ↦ by rw [hrunning.mp ht] at hs; cases hs⟩
  | running => exact .inl (hrunning.mpr hs)
  | succeeded => exact .inl (hs ▸ hended (by rw [hs]; rfl))
  | failed => exact .inl (hs ▸ hended (by rw [hs]; rfl))
  | cancelled => exact .inl (hs ▸ hended (by rw [hs]; rfl))

theorem guarded_of_leaseSafe (h : ∀ jobId, JobInv (viewAfter host is jobId))
    (hsafe : LeaseSafe host (is ++ [e])) : Guarded ((store host).after is) e := by
  obtain ⟨now, call⟩ := e
  have hafter : (store host).after (is ++ [⟨now, call⟩]) =
      (call.run host now ((store host).after is)).2 := Machine.after_concat _ _ _
  cases call with
  | renew => trivial
  | recordResult => trivial
  | create ws job =>
    intro hws hnew
    rw [Call.run, Store.create_eq hws hnew] at hafter
    refine isNew_of_leaseSafe (h job.id) hsafe hnew (fun _ ↦ rfl) ?_ ?_
    · rw [hafter]
      exact Dict.get?_set_self _ _ _
    · rw [hafter]
      rfl
  | createIdempotent ws job key fingerprint =>
    intro hws hkey hnew
    rw [Call.run, Store.createIdempotent_eq hws hkey hnew] at hafter
    refine isNew_of_leaseSafe (h job.id) hsafe hnew (fun _ ↦ rfl) ?_ ?_
    · rw [hafter]
      exact Dict.get?_set_self _ _ _
    · rw [hafter]
      rfl
  | claim ws jobId owner seconds token =>
    intro job _ hc hlt
    by_contra hend
    have hrun : (Call.claim ws jobId owner seconds token).run host now ((store host).after is) =
        (.error .overflowError, { (store host).after is with
          jobs := ((store host).after is).jobs.set jobId (Store.claimedJob job hlt) }) := by
      rw [Call.run, Store.claim_eq_overflow hc hlt (by simpa using hend)]
      rfl
    -- The attempt is counted and the claim has failed.
    have htokens : grants ((store host).trace (is ++ [⟨now, .claim ws jobId owner seconds token⟩]))
        jobId = grants ((store host).trace is) jobId := by
      rw [Machine.trace_concat, grants_concat_of_none]
      show grantOf _ (Call.run host now _ _).1 = none
      rw [hrun]
      rfl
    have hcounted := (h jobId).attempts job (Store.get_eq_some.mp hc.found).1
    have hcounted' := (hsafe.attempts jobId (Store.claimedJob job hlt) (by
      rw [hafter, hrun]
      exact Dict.get?_set_self _ _ _)).1
    rw [htokens] at hcounted'
    exact absurd (hcounted'.trans hcounted.symm) (Nat.succ_ne_self _)
  | finish ws jobId token target code =>
    intro job _ hf lease hlease
    by_contra hended
    obtain ⟨hrunning, expires, hheld⟩ := Store.isHeld_iff.mp hf.held
    have hjob := (Store.get_eq_some.mp hf.found).1
    have hsame := hsafe.stale is _ jobId token rfl rfl (.inr fun expires' hexpires ↦ by
      rw [hlease] at hexpires
      cases hexpires
      exact not_lt.mp hended)
    rw [hafter, Call.run, Store.finish_eq hf] at hsame
    rw [← hsame] at hjob
    have hjob : some { job with status := target, errorCode := code } = some job :=
      (Dict.get?_set_self _ _ _).symm.trans hjob
    have hstatus : target = job.status := congrArg ResearchJob.status (Option.some.inj hjob)
    rw [hrunning] at hstatus
    rcases hf.target with ht | ht <;> rw [ht] at hstatus <;> cases hstatus
  | transition ws jobId expected target =>
    intro job hget hexpected
    subst hexpected
    rw [Call.run, Store.transition_eq hget] at hafter
    exact editAllowed_of_leaseSafe (h jobId) hsafe (Store.get_eq_some.mp hget).1 hafter

end

/-- **The lease protocol.**  A sequence of calls keeps its promises throughout just
when each of its calls is guarded. -/
theorem store_leaseSafe_iff (host : Host) {is : List Timed} (hfresh : Meets (FreshToken host) is) :
    (∀ pre, pre <+: is → LeaseSafe host pre) ↔
      Meets (fun pre e ↦ Guarded ((store host).after pre) e) is := by
  apply safe_iff_meets hfresh leaseSafe_nil
  intro is e hfresh hguard hsafe he
  have h := jobInv_of_guarded hfresh hguard
  exact ⟨guarded_of_leaseSafe h, leaseSafe_concat (hsafe is (List.prefix_refl _)) h he⟩

/-- A job is claimed, claimed again by another worker when its lease has ended, and
finished by it after the first worker has tried to. -/
theorem store_leaseSafe_sample :
    let digest : Sha256 :=
      ⟨"e3b0c44298fc1c149afbf4c8996fb92427ae41e4649b934ca495991b7852b855", by decide +kernel,
        by decide +kernel⟩
    let host : Host := ⟨fun _ ↦ digest, fun _ ↦ none⟩
    let job := ResearchJob.requested ⟨1⟩ ⟨2⟩ ⟨3⟩ "xauusd-m1" digest none (by decide +kernel)
    let is : List Timed :=
      [⟨0, .create ⟨2⟩ job⟩, ⟨0, .claim ⟨2⟩ ⟨1⟩ "a" 10 ⟨11⟩⟩,
        ⟨11000000, .claim ⟨2⟩ ⟨1⟩ "b" 10 ⟨12⟩⟩,
        ⟨12000000, .finish ⟨2⟩ ⟨1⟩ ⟨11⟩ .failed (some "executor_error")⟩,
        ⟨13000000, .finish ⟨2⟩ ⟨1⟩ ⟨12⟩ .succeeded none⟩]
    (∀ pre, pre <+: is → LeaseSafe host pre) ∧
      (((store host).after is).jobs.get? ⟨1⟩).map (fun job ↦ (job.status, job.attemptCount)) =
        some (.succeeded, 2) := by
  intro digest host job is
  have hfresh : Meets (FreshToken host) is := by decide +kernel
  exact ⟨(store_leaseSafe_iff host hfresh).mpr (by decide +kernel), by decide +kernel⟩

/-- The protocol is broken by a worker that finishes after its lease has ended, by an
edit that starts a job without a lease or reopens an ended job, and by a claim for
more seconds than a `datetime` has room for. -/
theorem calls_break_leaseSafe :
    let digest : Sha256 :=
      ⟨"e3b0c44298fc1c149afbf4c8996fb92427ae41e4649b934ca495991b7852b855", by decide +kernel,
        by decide +kernel⟩
    let host : Host := ⟨fun _ ↦ digest, fun _ ↦ none⟩
    let job := ResearchJob.requested ⟨1⟩ ⟨2⟩ ⟨3⟩ "xauusd-m1" digest none (by decide +kernel)
    let created : Timed := ⟨0, .create ⟨2⟩ job⟩
    let claimed : Timed := ⟨0, .claim ⟨2⟩ ⟨1⟩ "a" 10 ⟨11⟩⟩
    let finished (now : DateTime) : Timed := ⟨now, .finish ⟨2⟩ ⟨1⟩ ⟨11⟩ .succeeded none⟩
    ¬ LeaseSafe host [created, claimed, finished 11000000] ∧
      ¬ LeaseSafe host [created, ⟨0, .transition ⟨2⟩ ⟨1⟩ .queued .running⟩] ∧
      ¬ LeaseSafe host [created, claimed, finished 1,
        ⟨2, .transition ⟨2⟩ ⟨1⟩ .succeeded .queued⟩] ∧
      ¬ LeaseSafe host [created, ⟨0, .claim ⟨2⟩ ⟨1⟩ "a" 1000000000000 ⟨11⟩⟩] := by
  intro digest host job created claimed finished
  refine ⟨fun h ↦ ?_, fun h ↦ ?_, fun h ↦ ?_, fun h ↦ ?_⟩
  · have hsame := h.stale [created, claimed] (finished 11000000) ⟨1⟩ ⟨11⟩ rfl rfl
      (.inr fun expires hlease ↦ by cases hlease; decide)
    have hjobs := congrArg (fun s ↦ (s.jobs.get? ⟨1⟩).map ResearchJob.status) hsame
    exact absurd hjobs (by decide +kernel)
  · have hlease := (h.lease_iff_running ⟨1⟩ { job with status := .running } rfl).mpr rfl
    exact absurd hlease (by decide +kernel)
  · obtain ⟨job', hjob', hstatus⟩ := h.terminal [created, claimed, finished 1] ⟨[_], rfl⟩ ⟨1⟩
      { job with status := .succeeded, attemptCount := 1, attempts_le := by decide } rfl rfl
    cases hjob'
    cases hstatus
  · have hlease := (h.lease_iff_running ⟨1⟩
      { job with status := .running, attemptCount := 1, attempts_le := by decide } rfl).mpr rfl
    exact absurd hlease (by decide +kernel)

end Qros.Saas
