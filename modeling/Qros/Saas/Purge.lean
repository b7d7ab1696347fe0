import Qros.Saas.Store

/-!
# Deleting and purging workspaces

`soft_delete_workspace` and `purge_deleted_workspaces` of
`202610060001_production_forward_reconciliation.sql`.  A soft delete schedules the
purge of the workspace and returns the date; the date is held in `workspace`, which
the purge reads, and in `workspace_retention_policy`.

Only the first soft delete writes `workspace.purge_at`, while each one computes the
date from its own retention period, writes it to the policy and returns it.  So a
soft delete that repeats another with a new period promises a date that the purge
does not keep: `purge_schedule_iff`.

Of the tables of a tenant only those that hold the date are modelled, and the
tombstones, which keep a purged workspace from being created again.  The others are
stamped and deleted along with the workspace.
-/

namespace Qros.Saas

open Qros.Lib

/-! ## Tables -/

structure Workspace where
  deletedAt : Option DateTime
  purgeAt : Option DateTime
deriving DecidableEq

/-- A row of `workspace_retention_policy`; only soft deletes write one. -/
structure WorkspaceRetentionPolicy where
  retentionDays : Int
  deletedAt : DateTime
  purgeAt : DateTime
  receiptId : Uuid
deriving DecidableEq

/-- A row of `tenant_deletion_tombstone` whose `table_name` is `workspace`. -/
structure DeletionTombstone where
  deletedAt : DateTime
  purgedAt : DateTime
deriving DecidableEq

structure Tenants where
  workspaces : Dict Uuid Workspace
  policies : Dict Uuid WorkspaceRetentionPolicy
  tombstones : Dict Uuid DeletionTombstone

structure DeletionReceipt where
  workspaceId : Uuid
  deletedAt : DateTime
  scheduledPurgeAt : DateTime
  retentionDays : Int
  receiptId : Uuid
deriving DecidableEq

/-- `plpgsql.variable_conflict` of the server, which the repository does not set: what
becomes of a name that is a column and also, in `soft_delete_workspace`, a result. -/
inductive VariableConflict where
  | /-- The statement is rejected.  This is the server's default. -/
    error
  | useColumn
deriving DecidableEq

/-- `t + make_interval(days => days)` in a session whose time zone is UTC; `none` when the
date is beyond the range of a `timestamptz`. -/
def DateTime.addDays (t : DateTime) (days : Int) : Option DateTime :=
  if t + days * 86400000000 < 9224318016000000000 then some (t + days * 86400000000) else none

/-! ## The functions -/

/-- The insertion of a workspace, with the trigger `prevent_tombstoned_insert`. -/
def createWorkspace (workspaceId : Uuid) (t : Tenants) : Except String Unit × Tenants :=
  if (t.tombstones.get? workspaceId).isSome then
    (.error "DELETED_RESOURCE_CANNOT_BE_RESURRECTED", t)
  else if (t.workspaces.get? workspaceId).isSome then
    (.error "duplicate key value violates unique constraint", t)
  else (.ok (), { t with workspaces := t.workspaces.set workspaceId ⟨none, none⟩ })

/-- What a soft delete that raises nothing writes.  The first update is of rows that are
not deleted yet; the second, or the insertion in its place, is of every policy. -/
def scheduleWorkspace (workspaceId : Uuid) (workspace : Workspace) (deleted purge : DateTime)
    (retentionDays : Int) (receipt : Uuid) (t : Tenants) : Tenants :=
  { t with
    workspaces :=
      if workspace.deletedAt = none then
        t.workspaces.set workspaceId ⟨some deleted, some purge⟩
      else t.workspaces
    policies := t.policies.set workspaceId ⟨retentionDays, deleted, purge, receipt⟩ }

/-- `receipt` is the `gen_random_uuid()` of the call. -/
def softDeleteWorkspace (conflict : VariableConflict) (workspaceId : Uuid)
    (deletedAt : Option DateTime) (retentionDays : Int) (receipt : Uuid) (t : Tenants) :
    Except String DeletionReceipt × Tenants :=
  if retentionDays < 1 ∨ 3650 < retentionDays then
    (.error "retention_days must be between 1 and 3650", t)
  else
    match t.workspaces.get? workspaceId with
    | none => (.error "workspace not found", t)
    | some workspace =>
      match workspace.deletedAt <|> deletedAt with
      | none => (.error "workspace not found", t)
      | some deleted =>
        match deleted.addDays retentionDays with
        | none => (.error "timestamp out of range", t)
        | some purge =>
          match conflict with
          | .error => (.error "column reference \"deleted_at\" is ambiguous", t)
          | .useColumn =>
            let receipt := ((t.policies.get? workspaceId).map
              WorkspaceRetentionPolicy.receiptId).getD receipt
            (.ok ⟨workspaceId, deleted, purge, retentionDays, receipt⟩,
              scheduleWorkspace workspaceId workspace deleted purge retentionDays receipt t)

/-- The workspaces that a purge at `now` finds, with the date of their deletion. -/
def dueWorkspace (now : DateTime) (row : Uuid × Workspace) : Option (Uuid × DateTime) :=
  match row.2.deletedAt, row.2.purgeAt with
  | some deleted, some purge => if purge ≤ now then some (row.1, deleted) else none
  | _, _ => none

/-- The loop body. -/
def purgeWorkspace (now : DateTime) (t : Tenants) (row : Uuid × DateTime) : Tenants where
  tombstones :=
    if (t.tombstones.get? row.1).isSome then t.tombstones
    else t.tombstones.set row.1 ⟨row.2, now⟩
  policies := t.policies.pop row.1
  workspaces := t.workspaces.pop row.1

def purgeDeletedWorkspaces (now : DateTime) (t : Tenants) : Nat × Tenants :=
  let rows := t.workspaces.entries.filterMap (dueWorkspace now)
  (rows.length, rows.foldl (purgeWorkspace now) t)

/-! ## Runs -/

inductive TenantCall where
  | create (workspaceId : Uuid)
  | softDelete (workspaceId : Uuid) (deletedAt : Option DateTime) (retentionDays : Int)
      (receipt : Uuid)
  | purge (now : DateTime)

inductive TenantReply where
  | created (result : Except String Unit)
  | deleted (result : Except String DeletionReceipt)
  | purged (count : Nat)

def TenantReply.receipt? (workspaceId : Uuid) : TenantReply → Option DeletionReceipt
  | .deleted (.ok receipt) => if receipt.workspaceId = workspaceId then some receipt else none
  | _ => none

variable (conflict : VariableConflict)

def TenantCall.run (t : Tenants) : TenantCall → TenantReply × Tenants
  | .create workspaceId => (createWorkspace workspaceId t).map .created id
  | .softDelete workspaceId deletedAt retentionDays receipt =>
    (softDeleteWorkspace conflict workspaceId deletedAt retentionDays receipt t).map .deleted id
  | .purge now => (purgeDeletedWorkspaces now t).map .purged id

def tenants : Machine Tenants TenantCall TenantReply where
  init := ⟨∅, ∅, ∅⟩
  step := fun call t ↦ call.run conflict t

/-- The receipt most recently returned for the workspace. -/
def lastReceipt (workspaceId : Uuid) (is : List TenantCall) : Option DeletionReceipt :=
  (((tenants conflict).trace is).filterMap fun e ↦ e.2.receipt? workspaceId).getLast?

/-- A soft delete that returns a receipt leaves its date in both tables. -/
def ReturnsStored (is : List TenantCall) (call : TenantCall) : Prop :=
  ∀ workspaceId receipt,
    (call.run conflict ((tenants conflict).after is)).1.receipt? workspaceId = some receipt →
      (((tenants conflict).after (is ++ [call])).workspaces.get? workspaceId).bind
          Workspace.purgeAt = some receipt.scheduledPurgeAt ∧
        (((tenants conflict).after (is ++ [call])).policies.get? workspaceId).map
          WorkspaceRetentionPolicy.purgeAt = some receipt.scheduledPurgeAt

/-- A workspace that a purge removes was due by the receipt most recently returned. -/
def PurgesDue (is : List TenantCall) : TenantCall → Prop
  | .purge now => ∀ workspaceId,
      (((tenants conflict).after is).workspaces.get? workspaceId).isSome = true →
        ((tenants conflict).after (is ++ [.purge now])).workspaces.get? workspaceId = none →
          ∃ receipt ∈ lastReceipt conflict workspaceId is, receipt.scheduledPurgeAt ≤ now
  | _ => True

def KeepsPeriod (is : List TenantCall) : TenantCall → Prop
  | .softDelete workspaceId _ retentionDays _ =>
    conflict = .useColumn → 1 ≤ retentionDays → retentionDays ≤ 3650 →
      ∀ policy ∈ ((tenants conflict).after is).policies.get? workspaceId,
        (policy.deletedAt.addDays retentionDays).isSome = true →
          retentionDays = policy.retentionDays
  | _ => True

/-! ## What the functions do -/

variable {conflict} {workspaceId : Uuid} {now : DateTime} {t : Tenants}

/-- A soft delete that returns a receipt, with all it has checked. -/
structure SoftDeleted (conflict : VariableConflict) (workspaceId : Uuid)
    (deletedAt : Option DateTime) (retentionDays : Int) (t : Tenants) (workspace : Workspace)
    (deleted purge : DateTime) : Prop where
  conflict_eq : conflict = .useColumn
  days_ge : 1 ≤ retentionDays
  days_le : retentionDays ≤ 3650
  get?_eq : t.workspaces.get? workspaceId = some workspace
  deleted_eq : (workspace.deletedAt <|> deletedAt) = some deleted
  purge_eq : deleted.addDays retentionDays = some purge

theorem softDelete_cases (conflict : VariableConflict) (workspaceId : Uuid)
    (deletedAt : Option DateTime) (retentionDays : Int) (receipt : Uuid) (t : Tenants) :
    (∃ e, softDeleteWorkspace conflict workspaceId deletedAt retentionDays receipt t =
        (.error e, t)) ∨
      ∃ workspace deleted purge receipt',
        SoftDeleted conflict workspaceId deletedAt retentionDays t workspace deleted purge ∧
          softDeleteWorkspace conflict workspaceId deletedAt retentionDays receipt t =
            (.ok ⟨workspaceId, deleted, purge, retentionDays, receipt'⟩,
              scheduleWorkspace workspaceId workspace deleted purge retentionDays receipt' t) := by
  unfold softDeleteWorkspace
  split
  · exact .inl ⟨_, rfl⟩
  · rename_i hdays
    split
    · exact .inl ⟨_, rfl⟩
    · rename_i workspace hget
      split
      · exact .inl ⟨_, rfl⟩
      · rename_i deleted hdeleted
        split
        · exact .inl ⟨_, rfl⟩
        · rename_i purge hpurge
          cases conflict with
          | error => exact .inl ⟨_, rfl⟩
          | useColumn =>
            exact .inr ⟨workspace, deleted, purge, _,
              ⟨rfl, by omega, by omega, hget, hdeleted, hpurge⟩, rfl⟩

theorem SoftDeleted.run {deletedAt : Option DateTime} {retentionDays : Int} {workspace : Workspace}
    {deleted purge : DateTime} (receipt : Uuid)
    (h : SoftDeleted conflict workspaceId deletedAt retentionDays t workspace deleted purge) :
    ∃ receipt', softDeleteWorkspace conflict workspaceId deletedAt retentionDays receipt t =
      (.ok ⟨workspaceId, deleted, purge, retentionDays, receipt'⟩,
        scheduleWorkspace workspaceId workspace deleted purge retentionDays receipt' t) := by
  have hge := h.days_ge
  have hle := h.days_le
  obtain ⟨rfl, -, -, hget, hdeleted, hpurge⟩ := h
  unfold softDeleteWorkspace
  rw [if_neg (by omega), hget]
  dsimp only
  rw [hdeleted]
  dsimp only
  rw [hpurge]
  exact ⟨_, rfl⟩

theorem dueWorkspace_eq_some {row : Uuid × Workspace} {found : Uuid × DateTime} :
    dueWorkspace now row = some found ↔ ∃ deleted purge,
      row = (found.1, ⟨some deleted, some purge⟩) ∧ purge ≤ now ∧ found.2 = deleted := by
  obtain ⟨id, deletedAt, purgeAt⟩ := row
  obtain ⟨id', deleted⟩ := found
  cases deletedAt <;> cases purgeAt <;> simp [dueWorkspace]
  grind

/-- The workspace is among those that a purge at `now` finds. -/
def IsDue (now : DateTime) (workspace : Option Workspace) : Prop :=
  ∃ deleted purge, workspace = some ⟨some deleted, some purge⟩ ∧ purge ≤ now

theorem mem_due_iff :
    workspaceId ∈ (t.workspaces.entries.filterMap (dueWorkspace now)).map Prod.fst ↔
      IsDue now (t.workspaces.get? workspaceId) := by
  rw [List.mem_map]
  constructor
  · rintro ⟨⟨id, found⟩, hmem, rfl⟩
    obtain ⟨row, hrow, hdue⟩ := List.mem_filterMap.mp hmem
    obtain ⟨deleted, purge, rfl, hle, -⟩ := dueWorkspace_eq_some.mp hdue
    exact ⟨deleted, purge, Dict.mem_entries.mp hrow, hle⟩
  · rintro ⟨deleted, purge, hget, hle⟩
    exact ⟨(workspaceId, deleted), List.mem_filterMap.mpr ⟨_, Dict.mem_entries.mpr hget,
      dueWorkspace_eq_some.mpr ⟨deleted, purge, rfl, hle, rfl⟩⟩, rfl⟩

theorem foldl_purgeWorkspace_workspaces (rows : List (Uuid × DateTime)) (t : Tenants) :
    (rows.foldl (purgeWorkspace now) t).workspaces =
      (rows.map Prod.fst).foldl Dict.pop t.workspaces := by
  induction rows generalizing t with
  | nil => rfl
  | cons row rows ih => exact ih _

theorem foldl_purgeWorkspace_policies (rows : List (Uuid × DateTime)) (t : Tenants) :
    (rows.foldl (purgeWorkspace now) t).policies =
      (rows.map Prod.fst).foldl Dict.pop t.policies := by
  induction rows generalizing t with
  | nil => rfl
  | cons row rows ih => exact ih _

theorem isSome_tombstone_purgeWorkspace (row : Uuid × DateTime) :
    ((purgeWorkspace now t row).tombstones.get? workspaceId).isSome =
      (decide (row.1 = workspaceId) || (t.tombstones.get? workspaceId).isSome) := by
  unfold purgeWorkspace
  by_cases hid : row.1 = workspaceId
  · subst hid
    by_cases hsome : (t.tombstones.get? row.1).isSome = true <;> simp [hsome]
  · by_cases hsome : (t.tombstones.get? row.1).isSome = true <;>
      simp [hsome, hid, Dict.get?_set_of_ne]

theorem isSome_tombstone_foldl (rows : List (Uuid × DateTime)) (t : Tenants) :
    ((rows.foldl (purgeWorkspace now) t).tombstones.get? workspaceId).isSome =
      (decide (workspaceId ∈ rows.map Prod.fst) || (t.tombstones.get? workspaceId).isSome) := by
  induction rows generalizing t with
  | nil => simp
  | cons row rows ih =>
    rw [List.foldl_cons, ih, isSome_tombstone_purgeWorkspace]
    grind

theorem purge_of_isDue (h : IsDue now (t.workspaces.get? workspaceId)) :
    (purgeDeletedWorkspaces now t).2.workspaces.get? workspaceId = none ∧
      (purgeDeletedWorkspaces now t).2.policies.get? workspaceId = none ∧
        ((purgeDeletedWorkspaces now t).2.tombstones.get? workspaceId).isSome = true := by
  have hmem := mem_due_iff.mpr h
  unfold purgeDeletedWorkspaces
  rw [foldl_purgeWorkspace_workspaces, foldl_purgeWorkspace_policies, Dict.get?_foldl_pop,
    Dict.get?_foldl_pop, isSome_tombstone_foldl, if_pos hmem, if_pos hmem, decide_eq_true hmem]
  exact ⟨rfl, rfl, rfl⟩

theorem purge_of_not_isDue (h : ¬ IsDue now (t.workspaces.get? workspaceId)) :
    (purgeDeletedWorkspaces now t).2.workspaces.get? workspaceId =
        t.workspaces.get? workspaceId ∧
      (purgeDeletedWorkspaces now t).2.policies.get? workspaceId = t.policies.get? workspaceId ∧
        ((purgeDeletedWorkspaces now t).2.tombstones.get? workspaceId).isSome =
          (t.tombstones.get? workspaceId).isSome := by
  have hmem := mt mem_due_iff.mp h
  unfold purgeDeletedWorkspaces
  rw [foldl_purgeWorkspace_workspaces, foldl_purgeWorkspace_policies, Dict.get?_foldl_pop,
    Dict.get?_foldl_pop, isSome_tombstone_foldl, if_neg hmem, if_neg hmem, decide_eq_false hmem]
  exact ⟨rfl, rfl, rfl⟩

/-! ## The life of a workspace -/

/-- The rows of one workspace, whether it has a tombstone, and its last receipt. -/
inductive Lifecycle : Option Workspace → Option WorkspaceRetentionPolicy → Bool →
    Option DeletionReceipt → Prop where
  | absent : Lifecycle none none false none
  | live : Lifecycle (some ⟨none, none⟩) none false none
  | deleted {policy : WorkspaceRetentionPolicy} {receipt : DeletionReceipt}
      (schedule : policy.deletedAt.addDays policy.retentionDays = some policy.purgeAt)
      (promised : receipt.scheduledPurgeAt = policy.purgeAt) :
      Lifecycle (some ⟨some policy.deletedAt, some policy.purgeAt⟩) (some policy) false
        (some receipt)
  | purged {receipt : Option DeletionReceipt} : Lifecycle none none true receipt

namespace Lifecycle

variable {policy : Option WorkspaceRetentionPolicy} {tombstone : Bool}
  {receipt : Option DeletionReceipt}

theorem of_none (h : Lifecycle none policy false receipt) : policy = none ∧ receipt = none := by
  cases h
  exact ⟨rfl, rfl⟩

theorem of_live {purgeAt : Option DateTime}
    (h : Lifecycle (some ⟨none, purgeAt⟩) policy tombstone receipt) :
    policy = none ∧ tombstone = false := by
  cases h
  exact ⟨rfl, rfl⟩

theorem of_deleted {deletedAt : DateTime} {purgeAt : Option DateTime}
    (h : Lifecycle (some ⟨some deletedAt, purgeAt⟩) policy tombstone receipt) :
    ∃ p ∈ policy, ∃ r ∈ receipt, p.deletedAt = deletedAt ∧ purgeAt = some p.purgeAt ∧
      p.deletedAt.addDays p.retentionDays = some p.purgeAt ∧ r.scheduledPurgeAt = p.purgeAt ∧
        tombstone = false := by
  cases h with
  | @deleted policy receipt schedule promised =>
    exact ⟨policy, rfl, receipt, rfl, rfl, rfl, schedule, promised, rfl⟩

theorem of_policy {workspace : Option Workspace} {p : WorkspaceRetentionPolicy}
    (h : Lifecycle workspace (some p) tombstone receipt) :
    workspace = some ⟨some p.deletedAt, some p.purgeAt⟩ ∧
      p.deletedAt.addDays p.retentionDays = some p.purgeAt := by
  cases h with
  | deleted schedule promised => exact ⟨rfl, schedule⟩

end Lifecycle

variable (conflict) in
def LifecycleAfter (workspaceId : Uuid) (is : List TenantCall) : Prop :=
  Lifecycle (((tenants conflict).after is).workspaces.get? workspaceId)
    (((tenants conflict).after is).policies.get? workspaceId)
    (((tenants conflict).after is).tombstones.get? workspaceId).isSome
    (lastReceipt conflict workspaceId is)

theorem lastReceipt_concat (workspaceId : Uuid) (is : List TenantCall) (call : TenantCall) :
    lastReceipt conflict workspaceId (is ++ [call]) =
      ((call.run conflict ((tenants conflict).after is)).1.receipt? workspaceId).or
        (lastReceipt conflict workspaceId is) := by
  unfold lastReceipt
  rw [Machine.trace_concat, List.filterMap_append, List.getLast?_append]
  congr 1
  have hrun : call.run conflict ((tenants conflict).after is) =
      (tenants conflict).step call ((tenants conflict).after is) := rfl
  rw [hrun]
  cases h : ((tenants conflict).step call ((tenants conflict).after is)).1.receipt? workspaceId <;>
    simp [h]

/-! ## Steps -/

section

variable {is : List TenantCall}

theorem run_create {created : Uuid} {t t' : Tenants} {result : Except String Unit}
    (h : createWorkspace created t = (result, t')) :
    TenantCall.run conflict t (.create created) = (.created result, t') := by
  rw [TenantCall.run, h]
  rfl

theorem run_softDelete {deletedAt : Option DateTime} {days : Int} {receipt : Uuid} {t t' : Tenants}
    {result : Except String DeletionReceipt}
    (h : softDeleteWorkspace conflict workspaceId deletedAt days receipt t = (result, t')) :
    TenantCall.run conflict t (.softDelete workspaceId deletedAt days receipt) =
      (.deleted result, t') := by
  rw [TenantCall.run, h]
  rfl

theorem after_softDelete {deletedAt : Option DateTime} {days : Int} {receipt : Uuid} {t' : Tenants}
    {result : Except String DeletionReceipt}
    (h : softDeleteWorkspace conflict workspaceId deletedAt days receipt
      ((tenants conflict).after is) = (result, t')) :
    (tenants conflict).after (is ++ [.softDelete workspaceId deletedAt days receipt]) = t' := by
  rw [Machine.after_concat]
  exact congrArg Prod.snd (run_softDelete h)

theorem lifecycleAfter_concat {call : TenantCall} {reply : TenantReply} {t : Tenants}
    (hrun : call.run conflict ((tenants conflict).after is) = (reply, t)) :
    LifecycleAfter conflict workspaceId (is ++ [call]) ↔
      Lifecycle (t.workspaces.get? workspaceId) (t.policies.get? workspaceId)
        (t.tombstones.get? workspaceId).isSome
        ((reply.receipt? workspaceId).or (lastReceipt conflict workspaceId is)) := by
  unfold LifecycleAfter
  rw [lastReceipt_concat, Machine.after_concat]
  show Lifecycle ((call.run conflict _).2.workspaces.get? _) ((call.run conflict _).2.policies.get? _)
    ((call.run conflict _).2.tombstones.get? _).isSome
      (((call.run conflict _).1.receipt? _).or _) ↔ _
  rw [hrun]

theorem create_cases (created : Uuid) (t : Tenants) :
    (∃ e, createWorkspace created t = (.error e, t)) ∨
      (t.tombstones.get? created).isSome = false ∧ t.workspaces.get? created = none ∧
        createWorkspace created t =
          (.ok (), { t with workspaces := t.workspaces.set created ⟨none, none⟩ }) := by
  unfold createWorkspace
  split
  · exact .inl ⟨_, rfl⟩
  · split
    · exact .inl ⟨_, rfl⟩
    · rename_i htomb hget
      exact .inr ⟨by simpa using htomb, by simpa using hget, rfl⟩

theorem lifecycle_create (h : LifecycleAfter conflict workspaceId is) (created : Uuid) :
    LifecycleAfter conflict workspaceId (is ++ [.create created]) := by
  rcases create_cases created ((tenants conflict).after is) with ⟨e, hcreate⟩ | ⟨htomb, hget, hcreate⟩
  · rw [lifecycleAfter_concat (run_create hcreate)]
    exact h
  · rw [lifecycleAfter_concat (run_create hcreate)]
    show Lifecycle ((Dict.set _ _ _).get? _) _ _ (Option.or none _)
    by_cases hid : created = workspaceId
    · subst hid
      unfold LifecycleAfter at h
      rw [hget, htomb] at h
      obtain ⟨hpolicy, hlast⟩ := h.of_none
      rw [Dict.get?_set_self, hpolicy, htomb, hlast]
      exact .live
    · rw [Dict.get?_set_of_ne _ _ hid]
      exact h

theorem lifecycle_purge (h : LifecycleAfter conflict workspaceId is) (now : DateTime) :
    LifecycleAfter conflict workspaceId (is ++ [.purge now]) := by
  have hrun : TenantCall.run conflict ((tenants conflict).after is) (.purge now) =
      (.purged (purgeDeletedWorkspaces now ((tenants conflict).after is)).1,
        (purgeDeletedWorkspaces now ((tenants conflict).after is)).2) := rfl
  rw [lifecycleAfter_concat hrun]
  by_cases hdue : IsDue now (((tenants conflict).after is).workspaces.get? workspaceId)
  · obtain ⟨hworkspace, hpolicy, htomb⟩ := purge_of_isDue hdue
    rw [hworkspace, hpolicy, htomb]
    exact .purged
  · obtain ⟨hworkspace, hpolicy, htomb⟩ := purge_of_not_isDue hdue
    rw [hworkspace, hpolicy, htomb]
    exact h

theorem lifecycle_softDelete (h : LifecycleAfter conflict workspaceId is) (deletedId : Uuid)
    (deletedAt : Option DateTime) (days : Int) (receipt : Uuid)
    (hkeeps : KeepsPeriod conflict is (.softDelete deletedId deletedAt days receipt)) :
    LifecycleAfter conflict workspaceId (is ++ [.softDelete deletedId deletedAt days receipt]) := by
  rcases softDelete_cases conflict deletedId deletedAt days receipt ((tenants conflict).after is) with
    ⟨e, hdelete⟩ | ⟨workspace, deleted, purge, receipt', hd, hdelete⟩
  · rw [lifecycleAfter_concat (run_softDelete hdelete)]
    exact h
  · rw [lifecycleAfter_concat (run_softDelete hdelete)]
    by_cases hid : deletedId = workspaceId
    · subst hid
      have hreceipt : (TenantReply.deleted (.ok ⟨deletedId, deleted, purge, days, receipt'⟩)).receipt?
          deletedId = some ⟨deletedId, deleted, purge, days, receipt'⟩ := if_pos rfl
      rw [hreceipt, Option.some_or]
      unfold LifecycleAfter at h
      rw [hd.get?_eq] at h
      show Lifecycle (Dict.get? (ite _ _ _) _) ((Dict.set _ _ _).get? _)
        (((tenants conflict).after is).tombstones.get? _).isSome _
      rw [Dict.get?_set_self]
      obtain ⟨workspaceDeleted, workspacePurge⟩ := workspace
      cases workspaceDeleted with
      | none =>
        -- The first soft delete.
        rw [if_pos rfl, Dict.get?_set_self, h.of_live.2]
        exact @Lifecycle.deleted ⟨days, deleted, purge, receipt'⟩ _ hd.purge_eq rfl
      | some first =>
        obtain ⟨policy, hpolicy, last, hlast, rfl, rfl, hschedule, hpromised, htomb⟩ := h.of_deleted
        cases hd.deleted_eq
        have hdays : days = policy.retentionDays :=
          hkeeps hd.conflict_eq hd.days_ge hd.days_le policy hpolicy
            (Option.isSome_iff_exists.mpr ⟨purge, hd.purge_eq⟩)
        subst hdays
        have hpurge : policy.purgeAt = purge :=
          Option.some.inj (hschedule.symm.trans hd.purge_eq)
        rw [if_neg nofun, hd.get?_eq, htomb]
        subst hpurge
        exact @Lifecycle.deleted ⟨_, _, _, receipt'⟩ _ hd.purge_eq rfl
    · have hreceipt : (TenantReply.deleted (.ok ⟨deletedId, deleted, purge, days, receipt'⟩)).receipt?
          workspaceId = none := if_neg hid
      rw [hreceipt, Option.none_or]
      show Lifecycle (Dict.get? (ite _ _ _) _) ((Dict.set _ _ _).get? _)
        (((tenants conflict).after is).tombstones.get? _).isSome _
      rw [Dict.get?_set_of_ne _ _ hid]
      split
      · rw [Dict.get?_set_of_ne _ _ hid]
        exact h
      · exact h

theorem lifecycle_step (h : LifecycleAfter conflict workspaceId is) {call : TenantCall}
    (hkeeps : KeepsPeriod conflict is call) :
    LifecycleAfter conflict workspaceId (is ++ [call]) := by
  cases call with
  | create created => exact lifecycle_create h created
  | softDelete id deletedAt days receipt =>
    exact lifecycle_softDelete h id deletedAt days receipt hkeeps
  | purge now => exact lifecycle_purge h now

/-- **Every workspace has a life**, as long as soft deletes keep the period. -/
theorem lifecycle_after (h : Meets (KeepsPeriod conflict) is) (workspaceId : Uuid) :
    LifecycleAfter conflict workspaceId is :=
  h.induction .absent fun _ _ _ ih hkeeps ↦ lifecycle_step ih hkeeps

theorem purgesDue_of_lifecycle (h : ∀ id, LifecycleAfter conflict id is) (call : TenantCall) :
    PurgesDue conflict is call := by
  cases call with
  | create _ => trivial
  | softDelete _ _ _ _ => trivial
  | purge now =>
    intro workspaceId hsome hnone
    rw [Machine.after_concat] at hnone
    have hdue : IsDue now (((tenants conflict).after is).workspaces.get? workspaceId) := by
      by_contra hdue
      have hsame : (purgeDeletedWorkspaces now _).2.workspaces.get? workspaceId = _ :=
        (purge_of_not_isDue hdue).1
      rw [← hsame, show (purgeDeletedWorkspaces now _).2.workspaces.get? workspaceId = none
        from hnone] at hsome
      cases hsome
    obtain ⟨deleted, purge, hget, hle⟩ := hdue
    have h := h workspaceId
    unfold LifecycleAfter at h
    rw [hget] at h
    obtain ⟨policy, -, receipt, hreceipt, -, hpurge, -, hpromised, -⟩ := h.of_deleted
    cases hpurge
    exact ⟨receipt, hreceipt, hpromised ▸ hle⟩

theorem addDays_inj {t : DateTime} {days days' : Int} {purge : DateTime}
    (h : t.addDays days = some purge) (h' : t.addDays days' = some purge) : days = days' := by
  unfold DateTime.addDays at h h'
  split at h
  · split at h'
    · have heq := Option.some.inj (h.trans h'.symm)
      exact Int.eq_of_mul_eq_mul_right (by decide) (Int.add_left_cancel heq)
    · cases h'
  · cases h

theorem returnsStored_iff_keepsPeriod (h : ∀ id, LifecycleAfter conflict id is)
    (call : TenantCall) : ReturnsStored conflict is call ↔ KeepsPeriod conflict is call := by
  cases call with
  | create created => exact iff_of_true nofun trivial
  | purge now => exact iff_of_true nofun trivial
  | softDelete id deletedAt days receipt =>
    constructor
    · rintro hstored hconflict hge hle policy hpolicy hsome
      obtain ⟨purge, hpurge⟩ := Option.isSome_iff_exists.mp hsome
      have h := h id
      unfold LifecycleAfter at h
      rw [Option.mem_def.mp hpolicy] at h
      obtain ⟨hget, hschedule⟩ := h.of_policy
      have hd : SoftDeleted conflict id deletedAt days ((tenants conflict).after is) _ _ purge :=
        ⟨hconflict, hge, hle, hget, rfl, hpurge⟩
      obtain ⟨receipt', hdelete⟩ := hd.run receipt
      have hafter := (hstored id ⟨id, policy.deletedAt, purge, days, receipt'⟩
        (by rw [run_softDelete hdelete]; exact if_pos rfl)).1
      rw [after_softDelete hdelete] at hafter
      -- The workspace still has the date of the first soft delete.
      have hold : some policy.purgeAt = some purge := by
        rw [← hafter]
        show _ = (Dict.get? (ite _ _ _) _).bind _
        rw [if_neg nofun, hget]
        rfl
      cases hold
      exact addDays_inj hpurge hschedule
    · intro hkeeps workspaceId returned hreturned
      have hlife := lifecycle_step (h workspaceId) hkeeps
      rcases softDelete_cases conflict id deletedAt days receipt ((tenants conflict).after is) with
        ⟨e, hdelete⟩ | ⟨workspace, deleted, purge, receipt', hd, hdelete⟩
      · rw [run_softDelete hdelete] at hreturned
        cases hreturned
      · rw [run_softDelete hdelete] at hreturned
        obtain ⟨hid, heq⟩ := Option.ite_none_right_eq_some.mp hreturned
        cases heq
        subst hid
        have hpolicy : ((tenants conflict).after
            (is ++ [.softDelete id deletedAt days receipt])).policies.get? id =
              some ⟨days, deleted, purge, receipt'⟩ := by
          rw [after_softDelete hdelete]
          exact Dict.get?_set_self _ _ _
        unfold LifecycleAfter at hlife
        rw [hpolicy] at hlife
        rw [hlife.of_policy.1, hpolicy]
        exact ⟨rfl, rfl⟩

end

/-! ## Exactness -/

/-- Throughout a run the dates that soft deletes return are those that both tables hold and
that purges keep, just when soft deletes of a deleted workspace repeat its period. -/
theorem purge_schedule_iff (conflict : VariableConflict) (is : List TenantCall) :
    Meets (fun pre call ↦ ReturnsStored conflict pre call ∧ PurgesDue conflict pre call) is ↔
      Meets (KeepsPeriod conflict) is := by
  apply meets_congr
  intro pre call _ hkeeps
  have h := lifecycle_after hkeeps
  rw [← returnsStored_iff_keepsPeriod h call]
  exact and_iff_left (purgesDue_of_lifecycle h call)

/-- A workspace that is deleted for 30 days and then for 60 is purged on day 30, though the
receipt says day 60. -/
theorem purge_before_schedule :
    let day : Int := 86400000000
    let calls : List TenantCall := [.create ⟨1⟩, .softDelete ⟨1⟩ (some 0) 30 ⟨7⟩,
      .softDelete ⟨1⟩ (some 0) 60 ⟨8⟩]
    ¬ Meets (ReturnsStored .useColumn) calls ∧
      ¬ Meets (PurgesDue .useColumn) (calls ++ [.purge (30 * day)]) := by
  intro day calls
  constructor
  · intro h
    have hstored := h [.create ⟨1⟩, .softDelete ⟨1⟩ (some 0) 30 ⟨7⟩]
      (.softDelete ⟨1⟩ (some 0) 60 ⟨8⟩) (List.prefix_refl _) ⟨1⟩ ⟨⟨1⟩, 0, 60 * day, 60, ⟨7⟩⟩
      (by decide +kernel)
    exact absurd hstored.1 (by decide +kernel)
  · intro h
    obtain ⟨receipt, hreceipt, hle⟩ := h calls (.purge (30 * day)) (List.prefix_refl _) ⟨1⟩
      (by decide +kernel) (by decide +kernel)
    have hlast : (lastReceipt .useColumn ⟨1⟩ calls).map DeletionReceipt.scheduledPurgeAt =
        some (60 * day) := by decide +kernel
    rw [Option.mem_def.mp hreceipt] at hlast
    rw [Option.some.inj hlast] at hle
    exact absurd hle (by decide)

end Qros.Saas
