import Mathlib.Data.List.Dedup
import Qros.Storage.AuditLog
import Qros.Storage.Effects

/-!
# The two stores of audit entries

An audit entry is a row of `audit_logs` and an object of type `"AuditEntry"`, and the
two are written by different blocks.  Runs of the operations, of which SQLite may fail
any statement, commit or rollback, keep the two stores consistent just when

* the two blocks of `save_audit_entry` are both stored, or neither has an effect;
* an object that is saved has the type `"AuditEntry"` just when its id is logged;
* no id that is logged is deleted.
-/

namespace Qros.Storage

open Qros.Lib Qros.Python List

/-! ## Consistency -/

namespace Tables

/-- `verify_dual_storage_consistency` reports nothing. -/
def Consistent (t : Tables) : Prop := t.verifyDualStorageConsistency = []

theorem missing_eq_nil {ids others : List String} : missing ids others = [] ↔ ids ⊆ others := by
  unfold missing sortStrings
  rw [← length_eq_zero_iff, length_insertionSort, length_eq_zero_iff,
    dedup_eq_nil, filter_eq_nil_iff]
  simp [subset_def]

variable {t : Tables}

theorem consistent_iff : t.Consistent ↔ ∀ id, id ∈ t.auditIds ↔ id ∈ t.objectIds := by
  unfold Consistent verifyDualStorageConsistency
  rw [append_eq_nil_iff, map_eq_nil_iff, map_eq_nil_iff, missing_eq_nil,
    missing_eq_nil]
  exact ⟨fun h id ↦ ⟨fun hid ↦ h.1 hid, fun hid ↦ h.2 hid⟩,
    fun h ↦ ⟨fun id ↦ (h id).mp, fun id ↦ (h id).mpr⟩⟩

theorem consistent_empty : empty.Consistent := rfl

theorem mem_objectIds {id : String} :
    id ∈ t.objectIds ↔ ∃ o ∈ t.objects, o.objectType = "AuditEntry" ∧ o.id = id := by
  simp [objectIds, and_assoc]

theorem mem_objectIds_replaceObject {row : ObjectRow} {id : String} :
    id ∈ (t.replaceObject row).objectIds ↔
      (id ≠ row.id ∧ id ∈ t.objectIds) ∨ (id = row.id ∧ row.objectType = "AuditEntry") := by
  rw [mem_objectIds, mem_objectIds]
  unfold replaceObject
  constructor
  · rintro ⟨o, ho, htype, rfl⟩
    rcases mem_append.mp ho with ho | ho
    · rw [mem_filter, decide_eq_true_iff] at ho
      exact .inl ⟨ho.2, o, ho.1, htype, rfl⟩
    · obtain rfl := mem_singleton.mp ho
      exact .inr ⟨rfl, htype⟩
  · rintro (⟨hne, o, ho, htype, rfl⟩ | ⟨rfl, htype⟩)
    · refine ⟨o, mem_append_left _ (mem_filter.mpr ⟨ho, ?_⟩), htype, rfl⟩
      exact decide_eq_true hne
    · exact ⟨row, mem_append_right _ (mem_singleton_self row), htype, rfl⟩

theorem mem_objectIds_deleteObject {id id' : String} :
    id ∈ (t.deleteObject id').2.objectIds ↔ id ≠ id' ∧ id ∈ t.objectIds := by
  rw [mem_objectIds, mem_objectIds]
  unfold deleteObject
  constructor
  · rintro ⟨o, ho, htype, rfl⟩
    rw [mem_filter, decide_eq_true_iff] at ho
    exact ⟨ho.2, o, ho.1, htype, rfl⟩
  · rintro ⟨hne, o, ho, htype, rfl⟩
    exact ⟨o, mem_filter.mpr ⟨ho, decide_eq_true hne⟩, htype, rfl⟩

theorem consistent_replaceObject (h : t.Consistent) (row : ObjectRow) :
    (t.replaceObject row).Consistent ↔ (row.objectType = "AuditEntry" ↔ row.id ∈ t.auditIds) := by
  rw [consistent_iff] at h ⊢
  constructor
  · intro h'
    have hrow := h' row.id
    rw [mem_objectIds_replaceObject] at hrow
    simp only [ne_eq, not_true_eq_false, false_and, true_and, false_or] at hrow
    exact hrow.symm
  · intro hrow id
    rw [mem_objectIds_replaceObject, ← h id]
    by_cases hid : id = row.id
    · subst hid
      simp only [ne_eq, not_true_eq_false, false_and, true_and, false_or]
      exact hrow.symm
    · simp only [ne_eq, hid, not_false_eq_true, true_and, false_and, or_false]
      exact Iff.rfl

theorem consistent_deleteObject (h : t.Consistent) (id : String) :
    (t.deleteObject id).2.Consistent ↔ id ∉ t.auditIds := by
  rw [consistent_iff] at h ⊢
  constructor
  · intro h' hid
    have hdeleted := mem_objectIds_deleteObject.mp ((h' id).mp hid)
    exact hdeleted.1 rfl
  · intro hid id'
    rw [mem_objectIds_deleteObject, ← h id']
    refine ⟨fun hid' ↦ ⟨?_, hid'⟩, And.right⟩
    rintro rfl
    exact hid hid'

theorem not_consistent_of_logged (h : t.Consistent) {row : AuditRow} (hid : row.id ∉ t.auditIds) :
    ¬ ({ t with auditLogs := t.auditLogs ++ [row] } : Tables).Consistent := by
  intro h'
  rw [consistent_iff] at h h'
  refine hid ((h row.id).mpr ((h' row.id).mp ?_))
  unfold auditIds
  rw [map_append]
  exact mem_append_right _ (mem_singleton_self _)

theorem consistent_of_both (h : t.Consistent) {row : AuditRow} {obj : ObjectRow}
    (htype : obj.objectType = "AuditEntry") (hid : row.id = obj.id) :
    (({ t with auditLogs := t.auditLogs ++ [row] } : Tables).replaceObject obj).Consistent := by
  rw [consistent_iff] at h ⊢
  intro id
  have hids : id ∈ (({ t with auditLogs := t.auditLogs ++ [row] } : Tables).replaceObject obj).auditIds ↔
      id ∈ t.auditIds ∨ id = row.id := by
    show id ∈ (t.auditLogs ++ [row]).map AuditRow.id ↔ _
    rw [map_append, map_singleton, mem_append, mem_singleton]
    rfl
  rw [hids, mem_objectIds_replaceObject, h id, hid]
  show id ∈ t.objectIds ∨ id = obj.id ↔ (id ≠ obj.id ∧ id ∈ t.objectIds) ∨ _
  by_cases heq : id = obj.id
  · exact iff_of_true (.inr heq) (.inr ⟨heq, htype⟩)
  · simp [heq]

end Tables

/-! ## Conditions -/

/-- The text of the object can be made, and the statement of the block is executed. -/
structure SavedObject.Written (obj : SavedObject) (answers : Answers) : Prop where
  executes : answers.Executes 1
  data : ∃ data, obj.data = .ok data

structure Answers.TakesEffect (answers : Answers) (obj : SavedObject) : Prop where
  cursor : answers.cursor = none
  written : obj.Written answers
  kept : ¬ answers.firstAttempt.Undoes

/-- The two blocks of `save_audit_entry` are stored, or neither has an effect. -/
def BothOrNeither (entry : AuditEntry) (answers answers' : Answers) : Prop :=
  match answers.firstAttempt.first with
  | none => answers'.Stores
  | some _ => answers.firstAttempt.Undoes ∧
      (answers.firstAttempt.Dropped → ¬ answers'.TakesEffect entry.toObject)

structure AuditEntry.Logged (entry : AuditEntry) (t : Tables) (answers : Answers) : Prop where
  executes : answers.Executes 2
  new : entry.id ∉ t.auditIds

/-- The row of the cycle is inserted. -/
structure ResearchCycle.Written (cycle : ResearchCycle) (answers : Answers) : Prop where
  executes : answers.Executes 1
  data : ∃ data, cycle.data = .ok data

/-- An object that is saved has the type `"AuditEntry"` just when its id is logged. -/
def SavedObject.Matches (obj : SavedObject) (t : Tables) : Prop :=
  obj.objectType = "AuditEntry" ↔ obj.id ∈ t.auditIds

/-- An operation, with what SQLite answers to its blocks. -/
inductive Operation where
  | save (obj : BaseObject) (answers answers' : Answers)
  | saveObject (obj : SavedObject) (answers : Answers)
  | saveAuditEntry (entry : AuditEntry) (answers answers' : Answers)
  | delete (id : String) (answers : Answers)

namespace Repository

/-- `save_object` has an effect on the right tables, or none. -/
def SavesObject (r : Repository Tables) (obj : SavedObject) (answers : Answers) : Prop :=
  r.Succeeds answers (obj.Written answers) → ¬ answers.firstAttempt.Undoes →
    obj.Matches r.session.current

def SavesAuditEntry (r : Repository Tables) (entry : AuditEntry) (answers answers' : Answers) : Prop :=
  r.Succeeds answers (entry.Logged r.session.current answers) → BothOrNeither entry answers answers'

def SavesCycle (r : Repository Tables) (cycle : ResearchCycle) (answers answers' : Answers) : Prop :=
  r.Succeeds answers (cycle.Written answers) →
    answers.firstAttempt.first = none ∨ answers.firstAttempt.Dropped →
    answers'.TakesEffect cycle.toObject → cycle.id ∉ r.session.current.auditIds

def Deletes (r : Repository Tables) (id : String) (answers : Answers) : Prop :=
  r.Succeeds answers (answers.Executes 1) → ¬ answers.firstAttempt.Undoes →
    id ∉ r.session.current.auditIds

end Repository

/-- When an operation leaves the two stores consistent. -/
def Operation.Keeps (r : Repository Tables) : Operation → Prop
  | .save (.auditEntry entry) answers answers' => r.SavesAuditEntry entry answers answers'
  | .save (.researchCycle cycle) answers answers' => r.SavesCycle cycle answers answers'
  | .save (.other obj) answers _ => r.SavesObject obj answers
  | .saveObject obj answers => r.SavesObject obj answers
  | .saveAuditEntry entry answers answers' => r.SavesAuditEntry entry answers answers'
  | .delete id answers => r.Deletes id answers

/-! ## Runs -/

section

variable (F : Type) [FloatText F] [Hashlib]

/-- What an operation answers; `delete` answers whether there was an object. -/
abbrev Answer := Option (Except Exc (Option Bool))

/-- The answer of an operation that returns nothing of interest. -/
def saved (result : Option (Except Exc Unit) × Repository Tables) : Answer × Repository Tables :=
  (result.1.map fun answer ↦ answer.map fun _ ↦ none, result.2)

def Operation.run (r : Repository Tables) : Operation → Answer × Repository Tables
  | .save obj answers answers' => saved (r.save F obj answers answers')
  | .saveObject obj answers => saved (r.saveObject obj answers)
  | .saveAuditEntry entry answers answers' => saved (r.saveAuditEntry F entry answers answers')
  | .delete id answers =>
    match r.delete id answers with
    | (answer, r) => (answer.map (Except.map some), r)

/-- A repository on a database without rows. -/
def auditRepository : Machine (Repository Tables) Operation Answer where
  init := Repository.opened Tables.empty
  step := fun operation r ↦ operation.run F r

end

/-! ## Blocks -/

/-- The row of an object whose text can be made. -/
def SavedObject.row (obj : SavedObject) : ObjectRow :=
  ⟨obj.id, obj.objectType, obj.createdAt, obj.data.toOption.getD ""⟩

/-- The row of a cycle whose text can be made. -/
def ResearchCycle.row (cycle : ResearchCycle) : CycleRow :=
  ⟨cycle.id, cycle.createdAt, cycle.researchId, cycle.status, cycle.data.toOption.getD ""⟩

section Blocks

variable (F : Type) [FloatText F] [Hashlib]

/-- The tables after the row of the entry is inserted. -/
def AuditEntry.logIn (entry : AuditEntry) (t : Tables) : Tables :=
  { t with auditLogs := t.auditLogs ++
      [entry.row F (previousHash t.auditLogs) (Tables.nextRowid t.auditLogs)] }

end Blocks

namespace Repository

variable {r : Repository Tables}

theorem outcome_saveObject (r : Repository Tables) (obj : SavedObject) (answers : Answers) :
    r.Outcome answers (obj.Written answers) (r.session.current.replaceObject obj.row)
      (r.saveObject obj answers) := by
  obtain ⟨id, objectType, createdAt, data⟩ := obj
  cases data with
  | error e =>
    refine outcome_transaction ?_ fun _ ↦ ⟨e, r.session, rfl, rfl⟩
    rintro ⟨-, data, hdata⟩
    cases hdata
  | ok data =>
    obtain ⟨hok, herror⟩ := run_execute (s := r.session) answers
      (fun t ↦ .ok (1, t.replaceObject ⟨id, objectType, createdAt, data⟩)) (fun _ ↦ ()) rfl
    exact outcome_transaction (fun h ↦ hok h.executes) fun h ↦
      herror fun hexecutes ↦ h ⟨hexecutes, data, rfl⟩

theorem outcome_saveCycleBlock (r : Repository Tables) (cycle : ResearchCycle) (answers : Answers) :
    r.Outcome answers (cycle.Written answers) (r.session.current.replaceCycle cycle.row)
      (r.transaction answers (saveCycleBlock cycle)) := by
  obtain ⟨id, createdAt, researchId, status, data⟩ := cycle
  cases data with
  | error e =>
    refine outcome_transaction ?_ fun _ ↦ ⟨e, r.session, rfl, rfl⟩
    rintro ⟨-, data, hdata⟩
    cases hdata
  | ok data =>
    obtain ⟨hok, herror⟩ := run_execute (s := r.session) answers
      (fun t ↦ .ok (1, t.replaceCycle ⟨id, createdAt, researchId, status, data⟩)) (fun _ ↦ ()) rfl
    exact outcome_transaction (fun h ↦ hok h.executes) fun h ↦
      herror fun hexecutes ↦ h ⟨hexecutes, data, rfl⟩

theorem outcome_delete (r : Repository Tables) (id : String) (answers : Answers) :
    r.Outcome answers (answers.Executes 1) (r.session.current.deleteObject id).2
      (r.delete id answers) := by
  obtain ⟨hok, herror⟩ := run_execute (s := r.session) answers (fun t ↦ .ok (t.deleteObject id))
    (fun rowcount ↦ decide (0 < rowcount)) rfl
  exact outcome_transaction hok herror

section SaveAudit

variable (F : Type) [FloatText F] [Hashlib]

theorem outcome_saveAuditBlock (r : Repository Tables) (entry : AuditEntry) (answers : Answers) :
    r.Outcome answers (entry.Logged r.session.current answers) (entry.logIn F r.session.current)
      (r.transaction answers (saveAuditBlock F entry)) := by
  have hselect : (∀ e ∈ answers.statements.take 1, e = none) →
      (saveAuditBlock F entry).run answers.statements r.session =
        (Program.execute (Tables.insertAuditLog (entry.row F (previousHash r.session.current.auditLogs)))
          fun _ ↦ .done ()).run answers.statements.tail r.session := by
    intro h
    unfold saveAuditBlock
    rw [Program.run]
    cases hanswers : answers.statements with
    | nil => rfl
    | cons answer rest =>
      rw [hanswers, take_succ_cons, take_zero, forall_mem_singleton] at h
      subst h
      rfl
  have htake : answers.Executes 2 ↔ (∀ e ∈ answers.statements.take 1, e = none) ∧
      ({ answers with statements := answers.statements.tail } : Answers).Executes 1 := by
    unfold Answers.Executes
    cases answers.statements with
    | nil => simp
    | cons answer rest => simp [take_succ_cons]
  by_cases hfirst : ∀ e ∈ answers.statements.take 1, e = none
  · by_cases hid : entry.id ∈ r.session.current.auditIds
    · have hinsert : r.session.current.insertAuditLog
          (entry.row F (previousHash r.session.current.auditLogs)) = .error _ := if_pos hid
      refine outcome_transaction (fun h ↦ absurd hid h.new) fun _ ↦ ?_
      rw [hselect hfirst]
      exact run_execute_of_error hinsert
    · have hinsert : r.session.current.insertAuditLog
          (entry.row F (previousHash r.session.current.auditLogs)) =
            .ok (1, entry.logIn F r.session.current) := if_neg hid
      obtain ⟨hok, herror⟩ := run_execute { answers with statements := answers.statements.tail } _
        (fun _ ↦ ()) hinsert
      rw [← hselect hfirst] at hok herror
      exact outcome_transaction (fun h ↦ hok (htake.mp h.executes).2) fun h ↦
        herror fun hexecutes ↦ h ⟨htake.mpr ⟨hfirst, hexecutes⟩, hid⟩
  · refine outcome_transaction (fun h ↦ absurd (htake.mp h.executes).1 hfirst) fun _ ↦ ?_
    unfold saveAuditBlock
    rw [Program.run]
    cases hanswers : answers.statements with
    | nil =>
      rw [hanswers, take_nil] at hfirst
      exact absurd (fun _ hmem ↦ absurd hmem not_mem_nil) hfirst
    | cons answer rest =>
      cases answer with
      | none =>
        rw [hanswers, take_succ_cons, take_zero, forall_mem_singleton] at hfirst
        exact absurd rfl hfirst
      | some e => exact ⟨e, _, rfl, rfl⟩

end SaveAudit

/-! ## One operation -/

/-- The stored tables and those that the session sees are consistent, with the same log. -/
structure Synced (r : Repository Tables) : Prop where
  consistent : r.Holds Tables.Consistent
  logs : r.stored.auditIds = r.session.current.auditIds

theorem Reverts.synced {r r' : Repository Tables} (h : Reverts r r') (hr : r.Synced) :
    r'.Synced where
  consistent := h.holds hr.consistent
  logs := by
    rcases h.current with hcurrent | hcurrent
    · rw [hcurrent, h.stored]
      exact hr.logs
    · rw [hcurrent, h.stored]

variable {t : Tables} {p : Prop}

theorem synced_settled (h : t.Consistent) : (r.settled t).Synced := ⟨⟨h, h⟩, rfl⟩

/-- An operation that ends in `r` leaves the stores consistent just when `p`. -/
structure ExactIf (r : Repository Tables) (p : Prop) : Prop where
  iff : r.Holds Tables.Consistent ↔ p
  synced : p → r.Synced

theorem exactIf_of_synced (h : r.Synced) (hp : p) : r.ExactIf p :=
  ⟨iff_of_true h.consistent hp, fun _ ↦ h⟩

theorem exactIf_of_not (h : ¬ r.Holds Tables.Consistent) (hp : ¬ p) : r.ExactIf p :=
  ⟨iff_of_false h hp, fun h ↦ absurd h hp⟩

theorem ExactIf.congr {p q : Prop} (h : r.ExactIf p) (hpq : p ↔ q) : r.ExactIf q :=
  ⟨h.iff.trans hpq, fun hq ↦ h.synced (hpq.mpr hq)⟩

theorem Outcome.exactIf {α : Type} {answers : Answers}
    {x : Option (Except Exc α) × Repository Tables} (h : r.Outcome answers p t x) (hr : r.Synced)
    (hlogs : t.auditIds = r.session.current.auditIds) :
    x.2.ExactIf (r.Succeeds answers p → ¬ answers.firstAttempt.Undoes → t.Consistent) := by
  cases h with
  | commits a hsucceeds hfirst =>
    have hkept := not_undoes_of_commits hfirst
    exact ⟨⟨fun h _ _ ↦ h.stored, fun h ↦ (synced_settled (h hsucceeds hkept)).consistent⟩,
      fun h ↦ synced_settled (h hsucceeds hkept)⟩
  | dropped a hsucceeds hdropped =>
    exact exactIf_of_synced (synced_settled hr.consistent.stored)
      fun _ h ↦ absurd (undoes_of_dropped hdropped) h
  | undone answer hsucceeds hundoes hdropped hfails =>
    exact exactIf_of_synced (synced_settled hr.consistent.stored) fun _ h ↦ absurd hundoes h
  | stays answer hsucceeds hfirst hundoes hfails =>
    exact ⟨⟨fun h _ _ ↦ h.current, fun h ↦ ⟨hr.consistent.stored, h hsucceeds hundoes⟩⟩,
      fun h ↦ ⟨⟨hr.consistent.stored, h hsucceeds hundoes⟩, hr.logs.trans hlogs.symm⟩⟩
  | reverts answer r' hsucceeds hreverts hfails =>
    exact exactIf_of_synced (hreverts.synced hr) fun h ↦ absurd h hsucceeds

theorem exactIf_saveObject (hr : r.Synced) (obj : SavedObject) (answers : Answers) :
    (r.saveObject obj answers).2.ExactIf (r.SavesObject obj answers) := by
  have hexact := (outcome_saveObject r obj answers).exactIf hr rfl
  rw [Tables.consistent_replaceObject hr.consistent.current] at hexact
  exact hexact

theorem exactIf_delete (hr : r.Synced) (id : String) (answers : Answers) :
    (r.delete id answers).2.ExactIf (r.Deletes id answers) := by
  have hexact := (outcome_delete r id answers).exactIf hr rfl
  rw [Tables.consistent_deleteObject hr.consistent.current] at hexact
  exact hexact

/-! ## Two blocks -/

theorem andSaveObject_of_fails {answer : Option (Except Exc Unit)} (h : Fails answer)
    (obj : SavedObject) (answers : Answers) :
    andSaveObject obj answers (answer, r) = (answer, r) := by
  unfold andSaveObject
  split
  · rename_i heq
    exact absurd (congrArg Prod.fst heq) (h ())
  · rename_i heq
    exact heq.symm

theorem exactIf_andSaveObject {answers : Answers} (h : r.Succeeds answers p) (ht : t.Consistent)
    (hlogs : t.auditIds = r.session.current.auditIds) (obj : SavedObject) (answers' : Answers) :
    (andSaveObject obj answers' (some (.ok ()), r.settled t)).2.ExactIf
      (answers'.TakesEffect obj → obj.Matches r.session.current) := by
  refine (exactIf_saveObject (synced_settled ht) obj answers').congr ?_
  unfold SavesObject SavedObject.Matches
  rw [succeeds_settled h, current_settled, hlogs]
  exact ⟨fun h ⟨hcursor, hwritten, hkept⟩ ↦ h ⟨hcursor, hwritten⟩ hkept,
    fun h ⟨hcursor, hwritten⟩ hkept ↦ h ⟨hcursor, hwritten, hkept⟩⟩

theorem exactIf_saveCycle (hr : r.Synced) (cycle : ResearchCycle) (answers answers' : Answers) :
    (r.saveCycle cycle answers answers').2.ExactIf (r.SavesCycle cycle answers answers') := by
  have hmatches : cycle.toObject.Matches r.session.current ↔
      cycle.id ∉ r.session.current.auditIds := by
    show ("ResearchCycle" = "AuditEntry" ↔ cycle.id ∈ _) ↔ _
    simp
  have houtcome := outcome_saveCycleBlock r cycle answers
  unfold saveCycle SavesCycle
  generalize r.transaction answers (saveCycleBlock cycle) = x at houtcome ⊢
  cases houtcome with
  | commits a hsucceeds hfirst =>
    have hreplaced : (r.session.current.replaceCycle cycle.row).Consistent := hr.consistent.current
    refine (exactIf_andSaveObject hsucceeds hreplaced rfl _ _).congr ?_
    rw [hmatches]
    exact ⟨fun h _ _ ↦ h, fun h ↦ h hsucceeds (.inl hfirst)⟩
  | dropped a hsucceeds hdropped =>
    refine (exactIf_andSaveObject hsucceeds hr.consistent.stored hr.logs _ _).congr ?_
    rw [hmatches]
    exact ⟨fun h _ _ ↦ h, fun h ↦ h hsucceeds (.inr hdropped)⟩
  | undone answer hsucceeds hundoes hdropped hfails =>
    rw [andSaveObject_of_fails hfails]
    refine exactIf_of_synced (synced_settled hr.consistent.stored) ?_
    rintro - (hfirst | h)
    · exact absurd hundoes (not_undoes_of_commits hfirst)
    · exact absurd h hdropped
  | stays answer hsucceeds hfirst hundoes hfails =>
    rw [andSaveObject_of_fails hfails]
    refine exactIf_of_synced ⟨⟨hr.consistent.stored, hr.consistent.current⟩, hr.logs⟩ ?_
    rintro - (h | hdropped)
    · exact absurd h hfirst
    · exact absurd (undoes_of_dropped hdropped) hundoes
  | reverts answer r' hsucceeds hreverts hfails =>
    rw [andSaveObject_of_fails hfails]
    exact exactIf_of_synced (hreverts.synced hr) fun h ↦ absurd h hsucceeds

section SaveAudit

variable (F : Type) [FloatText F] [Hashlib]

theorem exactIf_andSaveObject_logged {answers : Answers} {p : Prop} (h : r.Succeeds answers p)
    (hr : r.Synced) {entry : AuditEntry} (hid : entry.id ∉ r.session.current.auditIds)
    (answers' : Answers) :
    (andSaveObject entry.toObject answers'
      (some (.ok ()), r.settled (entry.logIn F r.session.current))).2.ExactIf answers'.Stores := by
  have hlogged : ¬ (entry.logIn F r.session.current).Consistent :=
    Tables.not_consistent_of_logged hr.consistent.current hid
  have hnot {r' : Repository Tables} (hstored : r'.stored = entry.logIn F r.session.current) :
      ¬ r'.Holds Tables.Consistent :=
    fun h ↦ hlogged (hstored ▸ h.stored)
  have houtcome := outcome_saveObject (r.settled (entry.logIn F r.session.current)) entry.toObject answers'
  unfold andSaveObject
  dsimp only
  rw [show ∀ r : Repository Tables, r.transaction answers' (saveObjectBlock entry.toObject) =
    r.saveObject entry.toObject answers' from fun _ ↦ rfl]
  generalize saveObject _ _ _ = x at houtcome ⊢
  cases houtcome with
  | commits a hsucceeds hfirst =>
    rw [succeeds_settled h] at hsucceeds
    refine exactIf_of_synced (synced_settled ?_) ⟨hsucceeds.1, hsucceeds.2.executes, hfirst⟩
    exact Tables.consistent_of_both hr.consistent.current rfl rfl
  | dropped a hsucceeds hdropped =>
    exact exactIf_of_not (hnot rfl) fun h ↦
      not_undoes_of_commits h.commits (undoes_of_dropped hdropped)
  | undone answer hsucceeds hundoes hdropped hfails =>
    exact exactIf_of_not (hnot rfl) fun h ↦ not_undoes_of_commits h.commits hundoes
  | stays answer hsucceeds hfirst hundoes hfails =>
    exact exactIf_of_not (hnot rfl) fun h ↦ hfirst h.commits
  | reverts answer r' hsucceeds hreverts hfails =>
    refine exactIf_of_not (hnot hreverts.stored) fun hstores ↦ hsucceeds ?_
    rw [succeeds_settled h]
    exact ⟨hstores.cursor, hstores.executes, entry.data, rfl⟩

theorem exactIf_saveAuditEntry (hr : r.Synced) (entry : AuditEntry) (answers answers' : Answers) :
    (r.saveAuditEntry F entry answers answers').2.ExactIf
      (r.SavesAuditEntry entry answers answers') := by
  have houtcome := outcome_saveAuditBlock F r entry answers
  unfold saveAuditEntry SavesAuditEntry BothOrNeither
  generalize r.transaction answers (saveAuditBlock F entry) = x at houtcome ⊢
  cases houtcome with
  | commits a hsucceeds hfirst =>
    refine (exactIf_andSaveObject_logged F hsucceeds hr hsucceeds.body.new answers').congr ?_
    rw [hfirst]
    exact ⟨fun h _ ↦ h, fun h ↦ h hsucceeds⟩
  | dropped a hsucceeds hdropped =>
    -- the object is saved without a row
    refine (exactIf_andSaveObject hsucceeds hr.consistent.stored hr.logs _ _).congr ?_
    have hmatches : ¬ entry.toObject.Matches r.session.current :=
      fun h ↦ hsucceeds.body.new (h.mp rfl)
    obtain ⟨f, hf⟩ : ∃ f, answers.firstAttempt.first = some f := hdropped.imp fun _ ↦ And.left
    rw [hf]
    exact ⟨fun h _ ↦ ⟨undoes_of_dropped hdropped, fun _ heffect ↦ hmatches (h heffect)⟩,
      fun h heffect ↦ absurd heffect ((h hsucceeds).2 hdropped)⟩
  | undone answer hsucceeds hundoes hdropped hfails =>
    rw [andSaveObject_of_fails hfails]
    refine exactIf_of_synced (synced_settled hr.consistent.stored) fun _ ↦ ?_
    obtain ⟨f, hf⟩ : ∃ f, answers.firstAttempt.first = some f := hundoes.imp fun _ ↦ And.left
    rw [hf]
    exact ⟨hundoes, fun h ↦ absurd h hdropped⟩
  | stays answer hsucceeds hfirst hundoes hfails =>
    rw [andSaveObject_of_fails hfails]
    have hlogged : ¬ (entry.logIn F r.session.current).Consistent :=
      Tables.not_consistent_of_logged hr.consistent.current hsucceeds.body.new
    refine exactIf_of_not (fun h ↦ hlogged h.current) fun h ↦ ?_
    obtain ⟨f, hf⟩ := Option.ne_none_iff_exists'.mp hfirst
    rw [hf] at h
    exact hundoes (h hsucceeds).1
  | reverts answer r' hsucceeds hreverts hfails =>
    rw [andSaveObject_of_fails hfails]
    exact exactIf_of_synced (hreverts.synced hr) fun h ↦ absurd h hsucceeds

theorem exactIf_run (hr : r.Synced) (operation : Operation) :
    (operation.run F r).2.ExactIf (operation.Keeps r) := by
  cases operation with
  | save obj answers answers' =>
    cases obj with
    | auditEntry entry => exact exactIf_saveAuditEntry F hr entry answers answers'
    | researchCycle cycle => exact exactIf_saveCycle hr cycle answers answers'
    | other obj => exact exactIf_saveObject hr obj answers
  | saveObject obj answers => exact exactIf_saveObject hr obj answers
  | saveAuditEntry entry answers answers' => exact exactIf_saveAuditEntry F hr entry answers answers'
  | delete id answers => exact exactIf_delete hr id answers

end SaveAudit

end Repository

section Main

variable (F : Type) [FloatText F] [Hashlib]

theorem synced_of_meets {operations : List Operation}
    (h : Meets (fun pre operation ↦ operation.Keeps ((auditRepository F).after pre)) operations) :
    ((auditRepository F).after operations).Synced := by
  refine h.induction (I := fun operations ↦ ((auditRepository F).after operations).Synced) ?_ ?_
  · exact ⟨⟨Tables.consistent_empty, Tables.consistent_empty⟩, rfl⟩
  · intro operations operation _ hr hkeeps
    rw [Machine.after_concat]
    exact (Repository.exactIf_run F hr operation).synced hkeeps

/-- Neither what is stored nor what the session sees has a discrepancy after any operation of a
run, just when every operation keeps the two stores together. -/
theorem consistent_iff_keeps (operations : List Operation) :
    (∀ pre, pre <+: operations → ((auditRepository F).after pre).Holds fun t ↦
      t.verifyDualStorageConsistency = []) ↔
    Meets (fun pre operation ↦ operation.Keeps ((auditRepository F).after pre)) operations := by
  refine safe_iff_meets (B := fun _ _ ↦ True) (fun _ _ _ ↦ trivial)
    ⟨Tables.consistent_empty, Tables.consistent_empty⟩ ?_
  intro pre operation _ hmeets _ _
  rw [Machine.after_concat]
  exact (Repository.exactIf_run F (synced_of_meets F hmeets) operation).iff

end Main

/-- An entry of which the object is not stored: the second block does not get its cursor. -/
def halfSaved : List Operation := [
  .saveAuditEntry ⟨"a1", "2026-01-01T00:00:00+00:00", "reviewer", "approve", "o1", "Research", "", "",
    "", [], "2026-01-01T00:00:00+00:00", "{}"⟩ {} { cursor := some ⟨true, "disk I/O error"⟩ }]

/-- The save raises, and its row stays in the log. -/
theorem half_saved_entry : ¬ ∃ _ : Hashlib, ∀ pre, pre <+: halfSaved →
    ((auditRepository Tenths).after pre).Holds fun t ↦ t.verifyDualStorageConsistency = [] := by
  rintro ⟨_, h⟩
  have hholds := h halfSaved (List.prefix_refl _)
  have hid := (Tables.consistent_iff.mp hholds.stored "a1").mp (mem_singleton_self _)
  cases hid

end Qros.Storage
