import Qros.Storage.AuditLog
import Qros.Storage.Durability

/-!
# The keys of the audit log

The default id of an `AuditEntry` is made from its actor, its action and its object,
and not from its timestamp, while `id` is the primary key of `audit_logs`.  So the
second entry for the same action on the same object is rejected.

`one_row_per_entry_iff` says that this is the only way in which entries that are saved
one after another are lost.
-/

namespace Qros.Storage

open Qros.Lib Qros.Python List

/-! ## Entries with default ids -/

/-- The arguments of `AuditEntry` without an `id`, with what the clock answers. -/
structure AuditArgs where
  actor : String
  action : String
  objectId : String
  objectType : String
  beforeState : Option String := none
  afterState : Option String := none
  reasoningChainId : Option String := none
  ontologyTags : List String := []
  timestamp : String
  createdAt : String
  data : String

/-- The seed of the default id. -/
def AuditArgs.seed (args : AuditArgs) : String :=
  "AuditEntry|" ++ args.actor ++ "|" ++ args.action ++ "|" ++ args.objectId ++ "|" ++ args.objectType

section Entries

variable (generateId : String → String)

/-- `AuditEntry.__init__`; `generateId` is `generate_id`. -/
def AuditArgs.entry (args : AuditArgs) : AuditEntry where
  id := generateId args.seed
  timestamp := args.timestamp
  actor := args.actor
  action := args.action
  objectId := args.objectId
  objectType := args.objectType
  beforeState := args.beforeState.getD ""
  afterState := args.afterState.getD ""
  reasoningChainId := args.reasoningChainId.getD ""
  ontologyTags := args.ontologyTags
  createdAt := args.createdAt
  data := args.data

end Entries

/-! ## Blocks that SQLite does not fail -/

namespace Repository

variable {D α : Type}

theorem transaction_opened_of_returns {d d' : D} {body : Program D Exc α} {a : α}
    (h : body.run [] ⟨d, none⟩ = (.ok a, ⟨d, some d'⟩)) :
    (opened d).transaction {} body = (some (.ok a), opened d') := by
  have hrun : ((opened d).acquireLock).runBody body {} =
      (.ok a, (opened d).acquireLock.withSession ⟨d, some d'⟩) := by
    unfold runBody
    rw [show body.run ({} : Answers).statements (opened d).acquireLock.session = _ from h]
  unfold transaction
  rw [if_neg (show ¬ (opened d).lock = true from Bool.false_ne_true)]
  rw [show (opened d).enter {} = (.ok (), (opened d).acquireLock) from rfl]
  simp only [hrun]
  rfl

theorem transaction_opened_of_raises {d : D} {body : Program D Exc α} {e : Exc}
    (working : Option D) (h : body.run [] ⟨d, none⟩ = (.error e, ⟨d, working⟩)) :
    (opened d).transaction {} body = (some (.error e), opened d) := by
  have hrun : ((opened d).acquireLock).runBody body {} =
      (.error e, (opened d).acquireLock.withSession ⟨d, working⟩) := by
    unfold runBody
    rw [show body.run ({} : Answers).statements (opened d).acquireLock.session = _ from h]
  unfold transaction
  rw [if_neg (show ¬ (opened d).lock = true from Bool.false_ne_true)]
  rw [show (opened d).enter {} = (.ok (), (opened d).acquireLock) from rfl]
  simp only [hrun]
  cases working <;> rfl

end Repository

/-! ## Runs -/

section

variable (F : Type) [FloatText F] [Hashlib]

/-- The tables after `save_audit_entry` has inserted its two rows. -/
def Tables.logged (t : Tables) (entry : AuditEntry) : Tables :=
  ({ t with auditLogs := t.auditLogs ++
      [entry.row F (previousHash t.auditLogs) (Tables.nextRowid t.auditLogs)] }).replaceObject
    ⟨entry.id, "AuditEntry", entry.createdAt, entry.data⟩

theorem saveAuditEntry_opened (t : Tables) (entry : AuditEntry) :
    (Repository.opened t).saveAuditEntry F entry {} {} =
      if entry.id ∈ t.auditIds then
        (some (.error (.sqlite ⟨false, "UNIQUE constraint failed: audit_logs.id"⟩)),
          Repository.opened t)
      else (some (.ok ()), Repository.opened (t.logged F entry)) := by
  unfold Repository.saveAuditEntry
  split
  · rename_i hid
    have hinsert : t.insertAuditLog (entry.row F (previousHash t.auditLogs)) =
        .error (.sqlite ⟨false, "UNIQUE constraint failed: audit_logs.id"⟩) := if_pos hid
    rw [Repository.transaction_opened_of_raises (some t)]
    · rfl
    · unfold saveAuditBlock
      simp only [Program.run, Program.answered, Session.current_mk_none, tail_nil, hinsert]
      rfl
  · rename_i hid
    have hinsert : t.insertAuditLog (entry.row F (previousHash t.auditLogs)) = _ := if_neg hid
    have hblock : (saveAuditBlock F entry).run [] ⟨t, none⟩ = (.ok (), ⟨t, some { t with
        auditLogs := t.auditLogs ++
          [entry.row F (previousHash t.auditLogs) (Tables.nextRowid t.auditLogs)] }⟩) := by
      unfold saveAuditBlock
      simp only [Program.run, Program.answered, Session.current_mk_none, tail_nil, hinsert]
      rfl
    have hobject (t : Tables) : (saveObjectBlock entry.toObject).run [] ⟨t, none⟩ = (.ok (), ⟨t, some
        (t.replaceObject ⟨entry.id, "AuditEntry", entry.createdAt, entry.data⟩)⟩) := rfl
    rw [Repository.transaction_opened_of_returns hblock]
    exact Repository.transaction_opened_of_returns (hobject _)

/-- Entries that are saved one after another, in a database without rows. -/
def auditSaves : Machine (Repository Tables) AuditEntry (Option (Except Exc Unit)) where
  init := Repository.opened Tables.empty
  step := fun entry r ↦ r.saveAuditEntry F entry {} {}

def Records (entry : AuditEntry) (row : AuditRow) : Prop :=
  ∃ prevHash rowid, row = entry.row F prevHash rowid

structure AllLogged (entries : List AuditEntry) : Prop where
  returns : ∀ e ∈ (auditSaves F).trace entries, e.2 = some (.ok ())
  rows : List.Forall₂ (Records F) entries ((auditSaves F).after entries).stored.auditLogs

structure Saved (entries : List AuditEntry) (t : Tables) : Prop where
  after : (auditSaves F).after entries = Repository.opened t
  rows : List.Forall₂ (Records F) entries t.auditLogs

variable {F}

variable {entries : List AuditEntry}

variable {t : Tables}

theorem Saved.auditIds (h : Saved F entries t) :
    t.auditIds = entries.map AuditEntry.id := by
  have hids : List.Forall₂ (fun i j ↦ i = j) (entries.map AuditEntry.id) t.auditIds := by
    rw [Tables.auditIds, forall₂_map_left_iff, forall₂_map_right_iff]
    refine h.rows.imp ?_
    rintro entry row ⟨prevHash, rowid, rfl⟩
    rfl
  exact (forall₂_eq_eq_eq ▸ hids).symm

theorem Saved.concat (h : Saved F entries t) {entry : AuditEntry} (hid : entry.id ∉ t.auditIds) :
    Saved F (entries ++ [entry]) (t.logged F entry) where
  after := by
    rw [Machine.after_concat, h.after]
    show ((Repository.opened t).saveAuditEntry F entry {} {}).2 = _
    rw [saveAuditEntry_opened, if_neg hid]
  rows := rel_append h.rows (.cons ⟨_, _, rfl⟩ .nil)

theorem Saved.returns_iff (h : Saved F entries t) (entry : AuditEntry) :
    ((auditSaves F).step entry ((auditSaves F).after entries)).1 = some (.ok ()) ↔
      entry.id ∉ entries.map AuditEntry.id := by
  rw [h.after, ← h.auditIds]
  show ((Repository.opened t).saveAuditEntry F entry {} {}).1 = _ ↔ _
  rw [saveAuditEntry_opened]
  split
  · rename_i hid
    exact iff_of_false nofun (not_not_intro hid)
  · rename_i hid
    exact iff_of_true rfl hid

theorem all_return_iff (entries : List AuditEntry) :
    ((∀ e ∈ (auditSaves F).trace entries, e.2 = some (.ok ())) ↔
      (entries.map AuditEntry.id).Nodup) ∧
    ((entries.map AuditEntry.id).Nodup → ∃ t, Saved F entries t) := by
  induction entries using reverseRecOn with
  | nil => exact ⟨iff_of_true nofun .nil, fun _ ↦ ⟨_, rfl, .nil⟩⟩
  | append_singleton entries entry ih =>
    obtain ⟨hiff, hsaved⟩ := ih
    have hnodup : ((entries ++ [entry]).map AuditEntry.id).Nodup ↔
        (entries.map AuditEntry.id).Nodup ∧ entry.id ∉ entries.map AuditEntry.id := by
      rw [map_append, map_singleton, nodup_append_comm, singleton_append,
        nodup_cons, and_comm]
    rw [hnodup]
    refine ⟨?_, ?_⟩
    · rw [Machine.trace_concat, forall_mem_append, forall_mem_singleton, hiff]
      refine and_congr_right fun hn ↦ ?_
      obtain ⟨t, ht⟩ := hsaved hn
      exact ht.returns_iff entry
    · rintro ⟨hn, hid⟩
      obtain ⟨t, ht⟩ := hsaved hn
      exact ⟨_, ht.concat (ht.auditIds ▸ hid)⟩

variable (F)

theorem allLogged_iff (entries : List AuditEntry) :
    AllLogged F entries ↔ (entries.map AuditEntry.id).Nodup := by
  obtain ⟨hiff, hsaved⟩ := all_return_iff (F := F) entries
  constructor
  · intro h
    exact hiff.mp h.returns
  · intro h
    obtain ⟨t, ht⟩ := hsaved h
    exact ⟨hiff.mpr h, ht.after ▸ ht.rows⟩

/-- Entries with default ids are all logged just when `generate_id` tells the seeds of any two of
them apart. -/
theorem default_ids_logged_iff (generateId : String → String) (args : List AuditArgs) :
    AllLogged F (args.map (AuditArgs.entry generateId)) ↔
      (args.map fun a ↦ generateId a.seed).Nodup := by
  rw [allLogged_iff, map_map]
  rfl

end

/-- The same decision on the same object twice. -/
def approvedTwice : List AuditArgs := [
  { actor := "reviewer", action := "approve", objectId := "o1", objectType := "Research",
    timestamp := "2026-01-01T00:00:00+00:00", createdAt := "2026-01-01T00:00:00+00:00", data := "{}" },
  { actor := "reviewer", action := "approve", objectId := "o1", objectType := "Research",
    timestamp := "2026-01-02T00:00:00+00:00", createdAt := "2026-01-02T00:00:00+00:00", data := "{}" }]

/-- The timestamps differ, and whatever the hashes and `generate_id` are, an entry is lost. -/
theorem second_approval_lost : (approvedTwice.map AuditArgs.timestamp).Nodup ∧
    ¬ ∃ (_ : Hashlib) (generateId : String → String),
      AllLogged Tenths (approvedTwice.map (AuditArgs.entry generateId)) := by
  refine ⟨by decide +kernel, ?_⟩
  rintro ⟨_, generateId, h⟩
  have hnodup := (allLogged_iff Tenths _).mp h
  simp [approvedTwice, AuditArgs.entry, AuditArgs.seed] at hnodup

end Qros.Storage
