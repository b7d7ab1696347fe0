import Qros.Python.Value
import Qros.Python.Builtins
import Qros.Storage.Transaction

/-!
# The audit log

The tables `audit_logs`, `objects` and `cycles` of `researchos/storage/repository.py`,
the operations that write them and the checks of the audit log, with `AuditEntry` of
`researchos/objects/process.py`.

Columns of `audit_logs` may be NULL for a program that writes the table itself, so the
checks read optional texts.  Tags are read from JSON, over an arbitrary type `F` of
floats.
-/

namespace Qros.Storage

open Qros.Lib Qros.Python

/-! ## Tables -/

structure AuditRow where
  rowid : Nat
  id : String
  timestamp : Option String
  actor : Option String
  action : Option String
  objectId : Option String
  objectType : Option String
  beforeState : Option String
  afterState : Option String
  previousEntry : Option String
  entryHash : Option String
  reasoningChainId : Option String
  ontologyTags : Option String
deriving DecidableEq

structure ObjectRow where
  id : String
  objectType : String
  createdAt : String
  data : String
deriving DecidableEq

structure CycleRow where
  id : String
  createdAt : String
  researchId : String
  status : String
  data : String
deriving DecidableEq

/-- The rows of each table in the order of their `rowid`. -/
structure Tables where
  auditLogs : List AuditRow
  objects : List ObjectRow
  cycles : List CycleRow
deriving DecidableEq

def Tables.empty : Tables := ⟨[], [], []⟩

namespace Tables

def replaceObject (row : ObjectRow) (t : Tables) : Tables :=
  { t with objects := t.objects.filter (fun o ↦ decide (o.id ≠ row.id)) ++ [row] }

/-- `INSERT OR REPLACE INTO cycles`. -/
def replaceCycle (row : CycleRow) (t : Tables) : Tables :=
  { t with cycles := t.cycles.filter (fun c ↦ decide (c.id ≠ row.id)) ++ [row] }

def deleteObject (id : String) (t : Tables) : Nat × Tables :=
  ((t.objects.filter fun o ↦ decide (o.id = id)).length,
    { t with objects := t.objects.filter fun o ↦ decide (o.id ≠ id) })

def nextRowid (rows : List AuditRow) : Nat :=
  match rows.getLast? with
  | some row => row.rowid + 1
  | none => 1

def insertAuditLog (row : Nat → AuditRow) (t : Tables) : Except Exc (Nat × Tables) :=
  let row := row (nextRowid t.auditLogs)
  if row.id ∈ t.auditLogs.map AuditRow.id then
    .error (.sqlite ⟨false, "UNIQUE constraint failed: audit_logs.id"⟩)
  else .ok (1, { t with auditLogs := t.auditLogs ++ [row] })

end Tables

/-! ## Objects -/

/-- What `save_object` uses of an object: `data` is the text of `to_dict()`, unless it cannot be
written. -/
structure SavedObject where
  id : String
  objectType : String
  createdAt : String
  data : Except Exc String

/-- `AuditEntry`; `data` is the text of `to_dict()`. -/
structure AuditEntry where
  id : String
  timestamp : String
  actor : String
  action : String
  objectId : String
  objectType : String
  beforeState : String
  afterState : String
  reasoningChainId : String
  ontologyTags : List String
  createdAt : String
  data : String

structure ResearchCycle where
  id : String
  createdAt : String
  researchId : String
  status : String
  data : Except Exc String

def AuditEntry.toObject (entry : AuditEntry) : SavedObject :=
  ⟨entry.id, "AuditEntry", entry.createdAt, .ok entry.data⟩

def ResearchCycle.toObject (cycle : ResearchCycle) : SavedObject :=
  ⟨cycle.id, "ResearchCycle", cycle.createdAt, cycle.data⟩

/-- The objects that `save` tells apart. -/
inductive BaseObject where
  | auditEntry (entry : AuditEntry)
  | researchCycle (cycle : ResearchCycle)
  | other (obj : SavedObject)

/-! ## Hashes -/

section

variable (F : Type) [FloatText F] [NumberOps F] [DecidableEq F] [Hashlib]

def deterministicHash (content : Json F) : HexDigest := sha256 (content.sortKeys.text .default)

def column : Option String → Json F
  | some s => .str s
  | none => .null

/-- The dictionary that is hashed, of `_to_hashable_dict` and of both checks. -/
def hashable (timestamp actor action objectId objectType beforeState afterState reasoningChainId
    previousEntry : Option String) (ontologyTags : List (Json F)) : Json F :=
  .dict [
    ("timestamp", column F timestamp),
    ("actor", column F actor),
    ("action", column F action),
    ("object_id", column F objectId),
    ("object_type", column F objectType),
    ("before_state", column F beforeState),
    ("after_state", column F afterState),
    ("reasoning_chain_id", column F reasoningChainId),
    ("previous_entry", column F previousEntry),
    ("ontology_tags", .list ontologyTags)]

def AuditEntry.hash (entry : AuditEntry) (prevHash : Option String) : HexDigest :=
  deterministicHash F (hashable F (some entry.timestamp) (some entry.actor) (some entry.action)
    (some entry.objectId) (some entry.objectType) (some entry.beforeState) (some entry.afterState)
    (some entry.reasoningChainId) prevHash ((sortStrings entry.ontologyTags).map .str))

def AuditEntry.row (entry : AuditEntry) (prevHash : Option String) (rowid : Nat) : AuditRow where
  rowid := rowid
  id := entry.id
  timestamp := some entry.timestamp
  actor := some entry.actor
  action := some entry.action
  objectId := some entry.objectId
  objectType := some entry.objectType
  beforeState := some entry.beforeState
  afterState := some entry.afterState
  previousEntry := prevHash
  entryHash := some (entry.hash F prevHash).text
  reasoningChainId := some entry.reasoningChainId
  ontologyTags := some (String.ofList
    ((Json.list ((sortStrings entry.ontologyTags).map .str) : Json F).text .default))

/-- `"0" * 64`. -/
def zeros : String := String.ofList (List.replicate 64 '0')

def previousHash (rows : List AuditRow) : Option String :=
  match rows.getLast? with
  | some row => row.entryHash
  | none => some zeros

/-! ## Operations -/

def saveObjectBlock (obj : SavedObject) : Program Tables Exc Unit :=
  match obj.data with
  | .error e => .raise e
  | .ok data =>
    .execute (fun t ↦ .ok (1, t.replaceObject ⟨obj.id, obj.objectType, obj.createdAt, data⟩))
      fun _ ↦ .done ()

def saveCycleBlock (cycle : ResearchCycle) : Program Tables Exc Unit :=
  match cycle.data with
  | .error e => .raise e
  | .ok data =>
    .execute (fun t ↦ .ok (1, t.replaceCycle
      ⟨cycle.id, cycle.createdAt, cycle.researchId, cycle.status, data⟩)) fun _ ↦ .done ()

def saveAuditBlock (entry : AuditEntry) : Program Tables Exc Unit :=
  .select fun t ↦
    .execute (Tables.insertAuditLog (entry.row F (previousHash t.auditLogs))) fun _ ↦ .done ()

def deleteBlock (id : String) : Program Tables Exc Bool :=
  .execute (fun t ↦ .ok (t.deleteObject id)) fun rowcount ↦ .done (decide (0 < rowcount))

namespace Repository

def andSaveObject (obj : SavedObject) (answers : Answers) :
    Option (Except Exc Unit) × Repository Tables → Option (Except Exc Unit) × Repository Tables
  | (some (.ok ()), r) => r.transaction answers (saveObjectBlock obj)
  | (answer, r) => (answer, r)

def saveObject (obj : SavedObject) (answers : Answers) (r : Repository Tables) :
    Option (Except Exc Unit) × Repository Tables :=
  r.transaction answers (saveObjectBlock obj)

/-- `save_audit_entry`, with what SQLite answers to its two blocks. -/
def saveAuditEntry (entry : AuditEntry) (answers answers' : Answers) (r : Repository Tables) :
    Option (Except Exc Unit) × Repository Tables :=
  andSaveObject entry.toObject answers' (r.transaction answers (saveAuditBlock F entry))

/-- `save_cycle`, with what SQLite answers to its two blocks. -/
def saveCycle (cycle : ResearchCycle) (answers answers' : Answers) (r : Repository Tables) :
    Option (Except Exc Unit) × Repository Tables :=
  andSaveObject cycle.toObject answers' (r.transaction answers (saveCycleBlock cycle))

def save (obj : BaseObject) (answers answers' : Answers) (r : Repository Tables) :
    Option (Except Exc Unit) × Repository Tables :=
  match obj with
  | .auditEntry entry => r.saveAuditEntry F entry answers answers'
  | .researchCycle cycle => r.saveCycle cycle answers answers'
  | .other obj => r.saveObject obj answers

def delete (id : String) (answers : Answers) (r : Repository Tables) :
    Option (Except Exc Bool) × Repository Tables :=
  r.transaction answers (deleteBlock id)

end Repository

/-! ## The checks -/

def tagsOf (text : Option String) : Except String (List (Json F)) :=
  match text with
  | none => Json.sortedItems []
  | some s => if s = "" then Json.sortedItems [] else do (← loads s.toList).sorted

/-- `r_chain_id or ""`. -/
def orEmpty (text : Option String) : Option String := some (text.getD "")

/-- The dictionary that the checks hash. -/
def AuditRow.hashable (row : AuditRow) (tags : List (Json F)) : Json F :=
  Storage.hashable F row.timestamp row.actor row.action row.objectId row.objectType row.beforeState
    row.afterState (orEmpty row.reasoningChainId) row.previousEntry tags

def AuditRow.computedHash (row : AuditRow) : Except String HexDigest := do
  return deterministicHash F (row.hashable F (← tagsOf F row.ontologyTags))

def verifyRows (prevRowid : Nat) (expectedPrevHash : Option String) :
    List AuditRow → Except String Bool
  | [] => .ok true
  | row :: rows =>
    if row.rowid ≠ prevRowid + 1 then .ok false
    else if row.previousEntry ≠ expectedPrevHash then .ok false
    else match row.computedHash F with
      | .error e => .error e
      | .ok computed =>
        if row.entryHash ≠ some computed.text then .ok false
        else verifyRows row.rowid row.entryHash rows

def verifyAuditChain (rows : List AuditRow) : Except String Bool := verifyRows F 0 (some zeros) rows

inductive Issue where
  | rowidGap (rowid expected : Nat)
  | brokenLink (rowid : Nat) (expected actual : Option String)
  | hashMismatch (rowid : Nat) (expected : String) (actual : Option String)
deriving DecidableEq

/-- The loop of `detect_tampering`. -/
def detectRows (prevRowid : Nat) (expectedPrevHash : Option String) :
    List AuditRow → Except String (List Issue)
  | [] => .ok []
  | row :: rows =>
    if row.rowid ≠ prevRowid + 1 then do
      -- the hash that is expected stays the one from before the gap
      return .rowidGap row.rowid (prevRowid + 1) :: (← detectRows row.rowid expectedPrevHash rows)
    else do
      let link := if row.previousEntry ≠ expectedPrevHash then
        [.brokenLink row.rowid expectedPrevHash row.previousEntry] else []
      let computed ← row.computedHash F
      let mismatch := if row.entryHash ≠ some computed.text then
        [.hashMismatch row.rowid computed.text row.entryHash] else []
      return link ++ mismatch ++ (← detectRows row.rowid row.entryHash rows)

def detectTampering (rows : List AuditRow) : Except String (List Issue) :=
  detectRows F 0 (some zeros) rows

end

namespace Tables

def auditIds (t : Tables) : List String := t.auditLogs.map AuditRow.id

/-- The ids of the objects with `object_type = 'AuditEntry'`. -/
def objectIds (t : Tables) : List String :=
  (t.objects.filter fun o ↦ decide (o.objectType = "AuditEntry")).map ObjectRow.id

def missing (ids others : List String) : List String :=
  sortStrings (ids.filter fun id ↦ decide (id ∉ others)).dedup

def verifyDualStorageConsistency (t : Tables) : List String :=
  (missing t.auditIds t.objectIds).map
      (fun id ↦ "AuditEntry " ++ id ++ " exists in audit_logs but not in objects") ++
    (missing t.objectIds t.auditIds).map
      fun id ↦ "AuditEntry " ++ id ++ " exists in objects but not in audit_logs"

end Tables

end Qros.Storage
