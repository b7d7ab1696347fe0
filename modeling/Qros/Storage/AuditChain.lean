import Qros.Storage.DualStorage

/-!
# Tampering with the audit log

Both checks accept exactly the logs that are `Linked`, and every log that the
operations can reach is, whatever SQLite answers.  `tampering_detected_iff` says which
edits of a row are then seen: the deletion of the last row is not, nor are changes of
`id`, of an empty `reasoning_chain_id` to NULL, or of the spelling of the tags; tags
that cannot be read make both checks raise.
-/

namespace Qros.Storage

open Qros.Lib Qros.Python List

set_option linter.unusedSectionVars false

section Chain

variable (F : Type) [FloatText F] [NumberOps F] [DecidableEq F] [Hashlib]

/-! ## Linked rows -/

/-- The hash of the row is that of its columns. -/
def AuditRow.Sealed (row : AuditRow) : Prop :=
  ∃ digest, row.computedHash F = .ok digest ∧ row.entryHash = some digest.text

/-- The rows continue a log whose last row has the number `n` and the hash `h`. -/
def Linked : Nat → Option String → List AuditRow → Prop
  | _, _, [] => True
  | n, h, row :: rows =>
    (row.rowid = n + 1 ∧ row.previousEntry = h ∧ row.Sealed F) ∧ Linked row.rowid row.entryHash rows

/-- The tags of every row can be read. -/
def Readable (rows : List AuditRow) : Prop := ∀ row ∈ rows, ∃ digest, row.computedHash F = .ok digest

structure Detected (rows : List AuditRow) : Prop where
  verify : verifyAuditChain F rows = .ok false
  detect : ∃ issue issues, detectTampering F rows = .ok (issue :: issues)

variable {F} {n : Nat} {h : Option String} {rows : List AuditRow}

theorem sealed_iff {row : AuditRow} {digest : HexDigest} (hrow : row.computedHash F = .ok digest) :
    row.Sealed F ↔ row.entryHash = some digest.text := by
  constructor
  · rintro ⟨digest', hdigest', hhash⟩
    rw [hrow] at hdigest'
    cases hdigest'
    exact hhash
  · intro hhash
    exact ⟨digest, hrow, hhash⟩

theorem verifyRows_eq_true : verifyRows F n h rows = .ok true ↔ Linked F n h rows := by
  induction rows generalizing n h with
  | nil => exact iff_of_true rfl trivial
  | cons row rows ih =>
    rw [verifyRows, Linked]
    split
    · rename_i hrowid
      exact iff_of_false nofun fun hlinked ↦ hrowid hlinked.1.1
    · rename_i hrowid
      split
      · rename_i hlink
        exact iff_of_false nofun fun hlinked ↦ hlink hlinked.1.2.1
      · rename_i hlink
        split
        · rename_i e he
          refine iff_of_false nofun ?_
          rintro ⟨⟨-, -, digest, hdigest, -⟩, -⟩
          rw [he] at hdigest
          cases hdigest
        · rename_i digest hdigest
          rw [sealed_iff hdigest, not_not.mp hrowid, not_not.mp hlink]
          split
          · rename_i hhash
            exact iff_of_false nofun fun hlinked ↦ hhash hlinked.1.2.2
          · rename_i hhash
            rw [ih, not_not.mp hhash]
            simp

theorem verifyRows_of_readable (hrows : Readable F rows) :
    ∃ answer, verifyRows F n h rows = .ok answer := by
  induction rows generalizing n h with
  | nil => exact ⟨true, rfl⟩
  | cons row rows ih =>
    obtain ⟨digest, hdigest⟩ := hrows row mem_cons_self
    rw [verifyRows, hdigest]
    split
    · exact ⟨false, rfl⟩
    · split
      · exact ⟨false, rfl⟩
      · dsimp only
        split
        · exact ⟨false, rfl⟩
        · exact ih fun row hrow ↦ hrows row (mem_cons_of_mem _ hrow)

theorem detectRows_eq_nil : detectRows F n h rows = .ok [] ↔ Linked F n h rows := by
  induction rows generalizing n h with
  | nil => exact iff_of_true rfl trivial
  | cons row rows ih =>
    rw [detectRows, Linked]
    split
    · rename_i hrowid
      refine iff_of_false ?_ fun hlinked ↦ hrowid hlinked.1.1
      intro hnil
      obtain ⟨issues, -, hissues⟩ := bind_eq_ok.mp hnil
      cases hissues
    · rename_i hrowid
      constructor
      · intro hnil
        obtain ⟨digest, hdigest, hnil⟩ := bind_eq_ok.mp hnil
        obtain ⟨issues, hissues, hnil⟩ := bind_eq_ok.mp hnil
        obtain ⟨hboth, rfl⟩ := append_eq_nil_iff.mp (Except.ok.inj hnil)
        obtain ⟨hlink, hmismatch⟩ := append_eq_nil_iff.mp hboth
        have hprevious : row.previousEntry = h := by
          by_contra hne
          rw [if_pos hne] at hlink
          cases hlink
        have hhash : row.entryHash = some digest.text := by
          by_contra hne
          rw [if_pos hne] at hmismatch
          cases hmismatch
        exact ⟨⟨not_not.mp hrowid, hprevious, digest, hdigest, hhash⟩, ih.mp hissues⟩
      · rintro ⟨⟨-, hprevious, digest, hdigest, hhash⟩, hlinked⟩
        rw [if_neg (not_not_intro hprevious), hdigest]
        refine bind_eq_ok.mpr ⟨digest, rfl, bind_eq_ok.mpr ⟨[], ih.mpr hlinked, ?_⟩⟩
        rw [if_neg (not_not_intro hhash)]
        rfl

theorem detectRows_of_readable (hrows : Readable F rows) :
    ∃ issues, detectRows F n h rows = .ok issues := by
  induction rows generalizing n h with
  | nil => exact ⟨[], rfl⟩
  | cons row rows ih =>
    obtain ⟨digest, hdigest⟩ := hrows row mem_cons_self
    have ih {n h} := ih (n := n) (h := h) fun row hrow ↦ hrows row (mem_cons_of_mem _ hrow)
    rw [detectRows, hdigest]
    split
    · obtain ⟨issues, hissues⟩ := ih (n := row.rowid) (h := h)
      rw [hissues]
      exact ⟨_, rfl⟩
    · obtain ⟨issues, hissues⟩ := ih (n := row.rowid) (h := row.entryHash)
      rw [hissues]
      exact ⟨_, rfl⟩

theorem detected_iff (hrows : Readable F rows) :
    Detected F rows ↔ ¬ Linked F 0 (some zeros) rows := by
  constructor
  · rintro ⟨hverify, -⟩ hlinked
    rw [show verifyAuditChain F rows = .ok true from verifyRows_eq_true.mpr hlinked] at hverify
    cases hverify
  · intro hlinked
    obtain ⟨answer, hanswer⟩ := verifyRows_of_readable (n := 0) (h := some zeros) hrows
    obtain ⟨issues, hissues⟩ := detectRows_of_readable (n := 0) (h := some zeros) hrows
    refine ⟨?_, ?_⟩
    · cases answer with
      | true => exact absurd (verifyRows_eq_true.mp hanswer) hlinked
      | false => exact hanswer
    · cases issues with
      | nil => exact absurd (detectRows_eq_nil.mp hissues) hlinked
      | cons issue issues => exact ⟨issue, issues, hissues⟩

/-! ## Rows in a log -/

def endRowid : Nat → List AuditRow → Nat
  | n, [] => n
  | _, row :: rows => endRowid row.rowid rows

def endHash : Option String → List AuditRow → Option String
  | h, [] => h
  | _, row :: rows => endHash row.entryHash rows

theorem endRowid_eq (n : Nat) (rows : List AuditRow) :
    endRowid n rows = (rows.getLast?.map AuditRow.rowid).getD n := by
  induction rows generalizing n with
  | nil => rfl
  | cons row rows ih =>
    rw [endRowid, ih, getLast?_cons]
    cases rows.getLast? <;> rfl

theorem endHash_eq (h : Option String) (rows : List AuditRow) :
    endHash h rows = (rows.getLast?.map AuditRow.entryHash).getD h := by
  induction rows generalizing h with
  | nil => rfl
  | cons row rows ih =>
    rw [endHash, ih, getLast?_cons]
    cases rows.getLast? <;> rfl

theorem nextRowid_eq (rows : List AuditRow) : Tables.nextRowid rows = endRowid 0 rows + 1 := by
  unfold Tables.nextRowid
  rw [endRowid_eq]
  cases rows.getLast? <;> rfl

theorem previousHash_eq (rows : List AuditRow) : previousHash rows = endHash (some zeros) rows := by
  unfold previousHash
  rw [endHash_eq]
  cases rows.getLast? <;> rfl

theorem linked_append {rows' : List AuditRow} : Linked F n h (rows ++ rows') ↔
    Linked F n h rows ∧ Linked F (endRowid n rows) (endHash h rows) rows' := by
  induction rows generalizing n h with
  | nil => exact ⟨fun hlinked ↦ ⟨trivial, hlinked⟩, And.right⟩
  | cons row rows ih => simp only [cons_append, Linked, ih, endRowid, endHash, and_assoc]

theorem Linked.readable (hlinked : Linked F n h rows) : Readable F rows := by
  induction rows generalizing n h with
  | nil => exact fun row hrow ↦ absurd hrow not_mem_nil
  | cons row rows ih =>
    obtain ⟨⟨-, -, digest, hdigest, -⟩, hrows⟩ := hlinked
    intro row' hrow'
    rcases mem_cons.mp hrow' with rfl | hrow'
    · exact ⟨digest, hdigest⟩
    · exact ih hrows row' hrow'

theorem verifyRows_append {rows' : List AuditRow} (hlinked : Linked F n h rows) :
    verifyRows F n h (rows ++ rows') = verifyRows F (endRowid n rows) (endHash h rows) rows' := by
  induction rows generalizing n h with
  | nil => rfl
  | cons row rows ih =>
    obtain ⟨⟨hrowid, hprevious, digest, hdigest, hhash⟩, hrows⟩ := hlinked
    rw [cons_append, verifyRows, if_neg (not_not_intro hrowid), if_neg (not_not_intro hprevious),
      hdigest]
    dsimp only
    rw [if_neg (not_not_intro hhash), ih hrows]
    rfl

/-! ## Reachable logs -/

variable [LawfulFloatText F]

theorem tagsOf_text (tags : List String) :
    tagsOf F (some (String.ofList
      ((Json.list ((sortStrings tags).map .str) : Json F).text .default))) =
      .ok ((sortStrings tags).map .str) := by
  have hdistinct : (Json.list ((sortStrings tags).map .str) : Json F).Distinct := by
    rw [Json.distinct_list]
    intro j hj
    obtain ⟨tag, -, rfl⟩ := mem_map.mp hj
    trivial
  have hdecoded : (Json.list ((sortStrings tags).map .str) : Json F).decoded =
      .list ((sortStrings tags).map .str) := by
    rw [Json.decoded, Json.decodedItems_eq_map, map_map]
    rfl
  have hloads := loads_text Separators.plain_default hdistinct
  rw [hdecoded] at hloads
  unfold tagsOf
  dsimp only
  rw [if_neg, String.toList_ofList, hloads]
  · show Json.sortedItems ((sortStrings tags).map .str) = _
    rw [Json.sortedItems_str, sortStrings_sortStrings]
  · intro hempty
    have hlist := congrArg String.toList hempty
    rw [String.toList_ofList] at hlist
    cases hlist

theorem computedHash_row (entry : AuditEntry) (prevHash : Option String) (rowid : Nat) :
    (entry.row F prevHash rowid).computedHash F = .ok (entry.hash F prevHash) := by
  have htags : tagsOf F (entry.row F prevHash rowid).ontologyTags = .ok _ :=
    tagsOf_text entry.ontologyTags
  unfold AuditRow.computedHash
  rw [htags]
  rfl

theorem linked_logIn {t : Tables} (ht : Linked F 0 (some zeros) t.auditLogs) (entry : AuditEntry) :
    Linked F 0 (some zeros) (entry.logIn F t).auditLogs := by
  refine linked_append.mpr ⟨ht, ⟨nextRowid_eq _, previousHash_eq _, ?_⟩, trivial⟩
  exact ⟨_, computedHash_row entry _ _, rfl⟩

/-- The log of what is stored and of what the session sees is linked. -/
def LinkedLog (t : Tables) : Prop := Linked F 0 (some zeros) t.auditLogs

def Operation.audited : Operation → Option AuditEntry
  | .save (.auditEntry entry) _ _ => some entry
  | .saveAuditEntry entry _ _ => some entry
  | _ => none

variable {r : Repository Tables}

theorem holds_of_outcome {α : Type} {answers : Answers} {p : Prop} {t : Tables}
    {x : Option (Except Exc α) × Repository Tables} {P : Tables → Prop}
    (houtcome : r.Outcome answers p t x) (hr : r.Holds P) (ht : P t) : x.2.Holds P := by
  cases houtcome with
  | commits a hsucceeds hfirst => exact ⟨ht, ht⟩
  | dropped a hsucceeds hdropped => exact ⟨hr.stored, hr.stored⟩
  | undone answer hsucceeds hundoes hdropped hfails => exact ⟨hr.stored, hr.stored⟩
  | stays answer hsucceeds hfirst hundoes hfails => exact ⟨hr.stored, ht⟩
  | reverts answer r' hsucceeds hreverts hfails => exact hreverts.holds hr

omit [LawfulFloatText F] in
/-- What holds of the log still holds after an operation if it does after the row of an entry that the
operation saves. -/
theorem holdsLog_run {P Q : List AuditRow → Prop} (hPQ : ∀ rows, P rows → Q rows)
    (hr : r.Holds fun t ↦ P t.auditLogs) (operation : Operation)
    (hlog : ∀ entry ∈ operation.audited, ∀ t : Tables, P t.auditLogs →
      Q (entry.logIn F t).auditLogs) :
    (operation.run F r).2.Holds fun t ↦ Q t.auditLogs := by
  have hQ : r.Holds fun t ↦ Q t.auditLogs := ⟨hPQ _ hr.stored, hPQ _ hr.current⟩
  have hobject {r : Repository Tables} (hr : r.Holds fun t ↦ Q t.auditLogs) (obj : SavedObject)
      (answers : Answers) : (r.saveObject obj answers).2.Holds fun t ↦ Q t.auditLogs :=
    holds_of_outcome (Repository.outcome_saveObject r obj answers) hr hr.current
  have hand {x : Option (Except Exc Unit) × Repository Tables}
      (hx : x.2.Holds fun t ↦ Q t.auditLogs) (obj : SavedObject) (answers : Answers) :
      (Repository.andSaveObject obj answers x).2.Holds fun t ↦ Q t.auditLogs := by
    unfold Repository.andSaveObject
    split
    · exact hobject hx obj answers
    · exact hx
  have hentry (entry : AuditEntry) (answers answers' : Answers)
      (hlog : ∀ t : Tables, P t.auditLogs → Q (entry.logIn F t).auditLogs) :
      (r.saveAuditEntry F entry answers answers').2.Holds fun t ↦ Q t.auditLogs :=
    hand (holds_of_outcome (Repository.outcome_saveAuditBlock F r entry answers) hQ
      (hlog _ hr.current)) _ _
  cases operation with
  | save obj answers answers' =>
    cases obj with
    | auditEntry entry => exact hentry entry answers answers' (hlog entry rfl)
    | researchCycle cycle =>
      exact hand (holds_of_outcome (Repository.outcome_saveCycleBlock r cycle answers) hQ
        hQ.current) _ _
    | other obj => exact hobject hQ obj answers
  | saveObject obj answers => exact hobject hQ obj answers
  | saveAuditEntry entry answers answers' => exact hentry entry answers answers' (hlog entry rfl)
  | delete id answers =>
    have houtcome := Repository.outcome_delete r id answers
    have hholds := holds_of_outcome (P := fun t ↦ Q t.auditLogs) houtcome hQ hQ.current
    exact hholds

theorem linkedLog_run (hr : r.Holds (LinkedLog (F := F))) (operation : Operation) :
    (operation.run F r).2.Holds (LinkedLog (F := F)) :=
  holdsLog_run (fun _ h ↦ h) hr operation fun entry _ _ ht ↦ linked_logIn ht entry

theorem linkedLog_after (operations : List Operation) :
    ((auditRepository F).after operations).Holds (LinkedLog (F := F)) := by
  induction operations using reverseRecOn with
  | nil => exact ⟨trivial, trivial⟩
  | append_singleton operations operation ih =>
    rw [Machine.after_concat]
    exact linkedLog_run ih operation

end Chain

/-! ## Edits -/

inductive Column where
  | timestamp | actor | action | objectId | objectType | beforeState | afterState
  | previousEntry | entryHash | reasoningChainId | ontologyTags
deriving DecidableEq

def AuditRow.get (row : AuditRow) : Column → Option String
  | .timestamp => row.timestamp
  | .actor => row.actor
  | .action => row.action
  | .objectId => row.objectId
  | .objectType => row.objectType
  | .beforeState => row.beforeState
  | .afterState => row.afterState
  | .previousEntry => row.previousEntry
  | .entryHash => row.entryHash
  | .reasoningChainId => row.reasoningChainId
  | .ontologyTags => row.ontologyTags

def AuditRow.set (row : AuditRow) (value : Option String) : Column → AuditRow
  | .timestamp => { row with timestamp := value }
  | .actor => { row with actor := value }
  | .action => { row with action := value }
  | .objectId => { row with objectId := value }
  | .objectType => { row with objectType := value }
  | .beforeState => { row with beforeState := value }
  | .afterState => { row with afterState := value }
  | .previousEntry => { row with previousEntry := value }
  | .entryHash => { row with entryHash := value }
  | .reasoningChainId => { row with reasoningChainId := value }
  | .ontologyTags => { row with ontologyTags := value }

inductive Edit where
  | delete (i : Nat)
  | setId (i : Nat) (id : String)
  | set (i : Nat) (column : Column) (value : Option String)

def Edit.apply (rows : List AuditRow) : Edit → List AuditRow
  | .delete i => rows.eraseIdx i
  | .setId i id => rows.modify i fun row ↦ { row with id := id }
  | .set i column value => rows.modify i fun row ↦ row.set value column

section Edits

variable (F : Type) [FloatText F] [NumberOps F] [DecidableEq F] [Hashlib]

def tagsText (tags : List (Json F)) : List Char := (Json.list tags).sortKeys.text .default

def AuditRow.SeenChange (row : AuditRow) (value : Option String) : Column → Prop
  | .reasoningChainId => orEmpty value ≠ orEmpty row.reasoningChainId
  | .ontologyTags => ∃ tags tags', tagsOf F row.ontologyTags = .ok tags ∧ tagsOf F value = .ok tags' ∧
      tagsText F tags' ≠ tagsText F tags
  | column => value ≠ row.get column

def Edit.Seen (rows : List AuditRow) : Edit → Prop
  | .delete i => i + 1 < rows.length
  | .setId _ _ => False
  | .set i column value => ∃ row ∈ rows[i]?, row.SeenChange F value column

end Edits

section Hashes

variable {F : Type} [FloatText F] [NumberOps F] [DecidableEq F] [LawfulFloatText F]

theorem sortKeys_column (value : Option String) : (column F value).sortKeys = column F value := by
  cases value <;> rfl

theorem sortKeys_hashable (timestamp actor action objectId objectType beforeState afterState
    reasoningChainId previousEntry : Option String) (tags : List (Json F)) :
    (hashable F timestamp actor action objectId objectType beforeState afterState reasoningChainId
      previousEntry tags).sortKeys = .dict [
        ("action", column F action),
        ("actor", column F actor),
        ("after_state", column F afterState),
        ("before_state", column F beforeState),
        ("object_id", column F objectId),
        ("object_type", column F objectType),
        ("ontology_tags", (Json.list tags).sortKeys),
        ("previous_entry", column F previousEntry),
        ("reasoning_chain_id", column F reasoningChainId),
        ("timestamp", column F timestamp)] := by
  show Json.dict (sortEntries (Json.sortValues _)) = _
  simp only [Json.sortValues_eq_map, map_cons, map_nil, sortKeys_column]
  simp [sortEntries, List.insertionSort, List.orderedInsert]

theorem text_column {value value' : Option String} :
    (column F value).text .default = (column F value').text .default ↔ value = value' := by
  constructor
  · intro htext
    have hdistinct : ∀ value, (column F value).Distinct := by
      intro value
      cases value <;> trivial
    have hdecoded := decoded_eq_of_text_eq Separators.plain_default (hdistinct value)
      (hdistinct value') htext
    cases value <;> cases value'
    · rfl
    · cases hdecoded
    · cases hdecoded
    · cases hdecoded
      rfl
  · rintro rfl
    rfl

/-- The text that is hashed for a row. -/
def AuditRow.preimage (row : AuditRow) (tags : List (Json F)) : List Char :=
  (row.hashable F tags).sortKeys.text .default

def Column.Plain : Column → Prop
  | .entryHash => False
  | .reasoningChainId => False
  | .ontologyTags => False
  | _ => True

variable {row : AuditRow} {value : Option String} {rows : List AuditRow}

variable {c : Column} {tags : List (Json F)} {h : Option String}

theorem preimage_set (hc : c.Plain) :
    (row.set value c).preimage tags = row.preimage tags ↔ value = row.get c := by
  unfold AuditRow.preimage AuditRow.hashable
  rw [sortKeys_hashable, sortKeys_hashable]
  cases c with
  | action => exact (Json.text_dict_middle _ [] _ _ _ _).trans text_column
  | actor => exact (Json.text_dict_middle _ [_] _ _ _ _).trans text_column
  | afterState => exact (Json.text_dict_middle _ [_, _] _ _ _ _).trans text_column
  | beforeState => exact (Json.text_dict_middle _ [_, _, _] _ _ _ _).trans text_column
  | objectId => exact (Json.text_dict_middle _ [_, _, _, _] _ _ _ _).trans text_column
  | objectType => exact (Json.text_dict_middle _ [_, _, _, _, _] _ _ _ _).trans text_column
  | previousEntry =>
    exact (Json.text_dict_middle _ [_, _, _, _, _, _, _] _ _ _ _).trans text_column
  | timestamp =>
    exact (Json.text_dict_middle _ [_, _, _, _, _, _, _, _, _] _ _ _ _).trans text_column
  | entryHash => exact absurd hc not_false
  | reasoningChainId => exact absurd hc not_false
  | ontologyTags => exact absurd hc not_false

theorem preimage_set_reasoningChainId :
    (row.set value .reasoningChainId).preimage tags = row.preimage tags ↔
      orEmpty value = orEmpty row.reasoningChainId := by
  unfold AuditRow.preimage AuditRow.hashable
  rw [sortKeys_hashable, sortKeys_hashable]
  exact (Json.text_dict_middle _ [_, _, _, _, _, _, _, _] _ _ _ _).trans text_column

theorem preimage_tags {tags tags' : List (Json F)} :
    (row.set value .ontologyTags).preimage tags' = row.preimage tags ↔
      tagsText F tags' = tagsText F tags := by
  unfold AuditRow.preimage AuditRow.hashable
  rw [sortKeys_hashable, sortKeys_hashable]
  exact Json.text_dict_middle _ [_, _, _, _, _, _] _ _ _ _

theorem set_get (row : AuditRow) (c : Column) : row.set (row.get c) c = row := by
  cases c <;> rfl

theorem seenChange_plain (hc : c.Plain) :
    row.SeenChange F value c ↔ value ≠ row.get c := by
  cases c with
  | reasoningChainId => exact absurd hc not_false
  | ontologyTags => exact absurd hc not_false
  | _ => exact Iff.rfl

variable [Hashlib]

theorem sealed_iff_preimage (htags : tagsOf F row.ontologyTags = .ok tags) :
    row.Sealed F ↔ row.entryHash = some (sha256 (row.preimage tags)).text := by
  refine sealed_iff ?_
  unfold AuditRow.computedHash
  rw [htags]
  rfl

variable (hsha : ∀ s t, sha256 s = sha256 t → s = t)

include hsha

theorem sealed_iff_same {row row' : AuditRow} {tags tags' : List (Json F)}
    (htags : tagsOf F row.ontologyTags = .ok tags) (htags' : tagsOf F row'.ontologyTags = .ok tags')
    (hrow : row.Sealed F) (hhash : row'.entryHash = row.entryHash) :
    row'.Sealed F ↔ row'.preimage tags' = row.preimage tags := by
  rw [sealed_iff_preimage htags', hhash, (sealed_iff_preimage htags).mp hrow, Option.some_inj]
  constructor
  · intro htext
    exact (hsha _ _ (HexDigest.text_injective htext)).symm
  · intro hsame
    rw [hsame]

theorem continues_set_iff {n : Nat} (hlinked : Linked F n h (row :: rows)) {tags' : List (Json F)}
    (htags' : tagsOf F (row.set value c).ontologyTags = .ok tags') :
    Linked F n h (row.set value c :: rows) ↔ ¬ row.SeenChange F value c := by
  obtain ⟨⟨hrowid, hprevious, hsealed⟩, hrows⟩ := hlinked
  obtain ⟨digest, hdigest, -⟩ := id hsealed
  obtain ⟨tags, htags, -⟩ := bind_eq_ok.mp hdigest
  have hsame : value = row.get c → Linked F n h (row.set value c :: rows) := by
    rintro rfl
    rw [set_get]
    exact ⟨⟨hrowid, hprevious, hsealed⟩, hrows⟩
  by_cases hc : c.Plain
  · rw [seenChange_plain hc, not_not]
    refine ⟨fun hlinked ↦ ?_, hsame⟩
    have hhash : (row.set value c).entryHash = row.entryHash := by
      cases c with
      | entryHash => exact absurd hc not_false
      | _ => rfl
    have hset : tagsOf F (row.set value c).ontologyTags = .ok tags := by
      cases c with
      | ontologyTags => exact absurd hc not_false
      | _ => exact htags
    have hsame := (sealed_iff_same hsha htags hset hsealed hhash).mp hlinked.1.2.2
    exact (preimage_set hc).mp hsame
  · cases c with
    | entryHash =>
      show _ ↔ ¬ value ≠ row.entryHash
      rw [not_not]
      refine ⟨fun hlinked ↦ ?_, hsame⟩
      have hrow := (sealed_iff_preimage htags).mp hsealed
      have hiff : (row.set value .entryHash).Sealed F ↔ _ := sealed_iff_preimage htags
      exact (hiff.mp hlinked.1.2.2).trans hrow.symm
    | reasoningChainId =>
      show _ ↔ ¬ orEmpty value ≠ orEmpty row.reasoningChainId
      have hpreimage : (row.set value .reasoningChainId).preimage tags = row.preimage tags ↔ _ :=
        preimage_set_reasoningChainId
      have hiff : (row.set value .reasoningChainId).Sealed F ↔ _ :=
        sealed_iff_same hsha htags htags hsealed rfl
      rw [not_not, ← hpreimage, ← hiff]
      exact ⟨fun hlinked ↦ hlinked.1.2.2, fun hsealed ↦ ⟨⟨hrowid, hprevious, hsealed⟩, hrows⟩⟩
    | ontologyTags =>
      have hseen : ¬ row.SeenChange F value .ontologyTags ↔ tagsText F tags' = tagsText F tags := by
        constructor
        · intro hseen
          by_contra hne
          exact hseen ⟨tags, tags', htags, htags', hne⟩
        · rintro heq ⟨tags₁, tags₂, htags₁, htags₂, hne⟩
          obtain rfl := Except.ok.inj (htags.symm.trans htags₁)
          obtain rfl := Except.ok.inj (htags'.symm.trans htags₂)
          exact hne heq
      have hpreimage : (row.set value .ontologyTags).preimage tags' = row.preimage tags ↔ _ :=
        preimage_tags
      have hiff : (row.set value .ontologyTags).Sealed F ↔ _ :=
        sealed_iff_same hsha htags htags' hsealed rfl
      rw [hseen, ← hpreimage, ← hiff]
      exact ⟨fun hlinked ↦ hlinked.1.2.2, fun hsealed ↦ ⟨⟨hrowid, hprevious, hsealed⟩, hrows⟩⟩
    | _ => exact absurd trivial hc

omit hsha [LawfulFloatText F] in
theorem not_detected_of_linked (hlinked : Linked F 0 (some zeros) rows) :
    ¬ Detected F rows :=
  fun h ↦ (detected_iff hlinked.readable).mp h hlinked

omit hsha [LawfulFloatText F] in
theorem linked_setId {n : Nat} (hlinked : Linked F n h (row :: rows)) (id : String) :
    Linked F n h ({ row with id := id } :: rows) :=
  hlinked

omit hsha [LawfulFloatText F] in
theorem linked_of_deleted_iff {n : Nat} (hlinked : Linked F n h (row :: rows)) :
    Linked F n h rows ↔ rows = [] := by
  constructor
  · intro hrows
    cases rows with
    | nil => rfl
    | cons row' rows =>
      have hnext := hlinked.2.1.1
      rw [hlinked.1.1, hrows.1.1] at hnext
      exact absurd hnext (Nat.ne_of_lt (Nat.lt_succ_self _))
  · rintro rfl
    trivial

theorem detected_apply_iff (hlinked : Linked F 0 (some zeros) rows) (edit : Edit) :
    Detected F (edit.apply rows) ↔ edit.Seen F rows := by
  have hmiddle {i : Nat} (hi : i < rows.length) :
      rows = rows.take i ++ rows[i] :: rows.drop (i + 1) := by
    rw [getElem_cons_drop, take_append_drop]
  have hparts {i : Nat} (hi : i < rows.length) := linked_append.mp (hmiddle hi ▸ hlinked)
  have hreadable := hlinked.readable
  have hreads {row : AuditRow} {i : Nat} (hrow : ∃ digest, row.computedHash F = .ok digest) :
      Readable F (rows.take i ++ row :: rows.drop (i + 1)) := by
    intro row' hrow'
    rcases mem_append.mp hrow' with hrow' | hrow'
    · exact hreadable row' (mem_of_mem_take hrow')
    · rcases mem_cons.mp hrow' with rfl | hrow'
      · exact hrow
      · exact hreadable row' (mem_of_mem_drop hrow')
  cases edit with
  | delete i =>
    show Detected F (rows.eraseIdx i) ↔ i + 1 < rows.length
    by_cases hi : i < rows.length
    · obtain ⟨hbefore, hafter⟩ := hparts hi
      rw [eraseIdx_eq_take_drop_succ, detected_iff, linked_append, linked_of_deleted_iff hafter,
        drop_eq_nil_iff]
      · constructor
        · intro hnot
          by_contra hlast
          exact hnot ⟨hbefore, Nat.le_of_not_lt hlast⟩
        · exact fun hlast h ↦ absurd h.2 (Nat.not_le_of_lt hlast)
      · intro row hrow
        rcases mem_append.mp hrow with hrow | hrow
        · exact hreadable row (mem_of_mem_take hrow)
        · exact hreadable row (mem_of_mem_drop hrow)
    · rw [eraseIdx_eq_self.mpr (Nat.le_of_not_lt hi)]
      exact iff_of_false (not_detected_of_linked hlinked) (by omega)
  | setId i id =>
    refine iff_of_false ?_ not_false
    show ¬ Detected F (rows.modify i fun row ↦ { row with id := id })
    by_cases hi : i < rows.length
    · obtain ⟨hbefore, hafter⟩ := hparts hi
      rw [modify_eq_take_cons_drop hi]
      exact not_detected_of_linked (linked_append.mpr ⟨hbefore, linked_setId hafter id⟩)
    · rw [modify_eq_self (Nat.le_of_not_lt hi)]
      exact not_detected_of_linked hlinked
  | set i c value =>
    show Detected F (rows.modify i fun row ↦ row.set value c) ↔ ∃ row ∈ rows[i]?, _
    by_cases hi : i < rows.length
    · obtain ⟨hbefore, hafter⟩ := hparts hi
      rw [modify_eq_take_cons_drop hi, getElem?_eq_getElem hi]
      generalize rows[i] = row at hafter
      have hseen : (∃ row' ∈ some row, row'.SeenChange F value c) ↔ row.SeenChange F value c := by
        simp
      rw [hseen]
      cases htags : tagsOf F (row.set value c).ontologyTags with
      | ok tags' =>
        have hdigest : ∃ digest, (row.set value c).computedHash F = .ok digest := by
          unfold AuditRow.computedHash
          rw [htags]
          exact ⟨_, rfl⟩
        rw [detected_iff (hreads hdigest), linked_append, continues_set_iff hsha hafter htags]
        exact ⟨fun hnot ↦ not_not.mp fun hseen ↦ hnot ⟨hbefore, hseen⟩,
          fun hseen h ↦ h.2 hseen⟩
      | error e =>
        -- only tags that were changed cannot be read
        obtain ⟨⟨hrowid, hprevious, digest, hdigest, -⟩, -⟩ := hafter
        obtain ⟨tags, htags', -⟩ := bind_eq_ok.mp hdigest
        have hc : c = .ontologyTags := by
          by_contra hc
          have hsame : (row.set value c).ontologyTags = row.ontologyTags := by
            cases c with
            | ontologyTags => exact absurd rfl hc
            | _ => rfl
          rw [hsame, htags'] at htags
          cases htags
        subst hc
        refine iff_of_false ?_ ?_
        · rintro ⟨hverify, -⟩
          have hcomputed : (row.set value .ontologyTags).computedHash F = .error e := by
            unfold AuditRow.computedHash
            rw [htags]
            rfl
          have hrowid' : (row.set value .ontologyTags).rowid = _ := hrowid
          have hprevious' : (row.set value .ontologyTags).previousEntry = _ := hprevious
          unfold verifyAuditChain at hverify
          rw [verifyRows_append hbefore, verifyRows, if_neg (not_not_intro hrowid'),
            if_neg (not_not_intro hprevious'), hcomputed] at hverify
          cases hverify
        · rintro ⟨tags₁, tags₂, -, htags₂, -⟩
          rw [show tagsOf F value = .error e from htags] at htags₂
          cases htags₂
    · rw [modify_eq_self (Nat.le_of_not_lt hi), getElem?_eq_none (Nat.le_of_not_lt hi)]
      exact iff_of_false (not_detected_of_linked hlinked) (by simp)

/-- In every database that the operations reach, whatever SQLite answers, both checks accept the
log, and an edit of a row is detected by both just when it is seen. -/
theorem tampering_detected_iff (operations : List Operation) :
    ((auditRepository F).after operations).Holds fun t ↦
      (verifyAuditChain F t.auditLogs = .ok true ∧ detectTampering F t.auditLogs = .ok []) ∧
      ∀ edit : Edit, Detected F (edit.apply t.auditLogs) ↔ edit.Seen F t.auditLogs := by
  have haccepted {rows : List AuditRow} (hlinked : Linked F 0 (some zeros) rows) :
      verifyAuditChain F rows = .ok true ∧ detectTampering F rows = .ok [] :=
    ⟨verifyRows_eq_true.mpr hlinked, detectRows_eq_nil.mpr hlinked⟩
  obtain ⟨hstored, hcurrent⟩ := linkedLog_after (F := F) operations
  exact ⟨⟨haccepted hstored, detected_apply_iff hsha hstored⟩,
    ⟨haccepted hcurrent, detected_apply_iff hsha hcurrent⟩⟩

end Hashes

/-! ## A log with one entry -/

def approval : AuditEntry :=
  ⟨"a1", "2026-01-01T00:00:00+00:00", "reviewer", "approve", "o1", "Research", "", "", "", [],
    "2026-01-01T00:00:00+00:00", "\x7b\x7d"⟩

def approvalText : List Char :=
  ("\x7b\"action\": \"approve\", \"actor\": \"reviewer\", \"after_state\": \"\", " ++
    "\"before_state\": \"\", \"object_id\": \"o1\", \"object_type\": \"Research\", " ++
    "\"ontology_tags\": [], \"previous_entry\": \"" ++ zeros ++ "\", " ++
    "\"reasoning_chain_id\": \"\", \"timestamp\": \"2026-01-01T00:00:00+00:00\"\x7d").toList

/-- Texts in two digits: as many `a` as the number of the character, and `b`. -/
def unary : List Char → List Char
  | [] => []
  | c :: cs => List.replicate c.toNat 'a' ++ 'b' :: unary cs

theorem replicate_append_inj {m n : Nat} {s t : List Char}
    (h : List.replicate m 'a' ++ 'b' :: s = List.replicate n 'a' ++ 'b' :: t) : m = n ∧ s = t := by
  induction m generalizing n with
  | zero =>
    cases n with
    | zero => exact ⟨rfl, (List.cons.inj h).2⟩
    | succ n => exact absurd (List.cons.inj h).1 (by decide)
  | succ m ih =>
    cases n with
    | zero => exact absurd (List.cons.inj h).1 (by decide)
    | succ n =>
      obtain ⟨rfl, hst⟩ := ih (List.cons.inj h).2
      exact ⟨rfl, hst⟩

theorem unary_inj (s t : List Char) (h : unary s = unary t) : s = t := by
  induction s generalizing t with
  | nil =>
    cases t with
    | nil => rfl
    | cons d t => exact absurd h.symm (by simp [unary])
  | cons c s ih =>
    cases t with
    | nil => exact absurd h (by simp [unary])
    | cons d t =>
      obtain ⟨hc, hst⟩ := replicate_append_inj h
      rw [ih t hst, Char.toNat_inj.mp hc]

theorem mem_unary {c : Char} {s : List Char} (h : c ∈ unary s) : c = 'a' ∨ c = 'b' := by
  induction s with
  | nil => cases h
  | cons d s ih =>
    rcases mem_append.mp h with h | h
    · exact .inl (eq_of_mem_replicate h)
    · rcases mem_cons.mp h with h | h
      · exact .inr h
      · exact ih h

/-- The digest of `approvalText`, and texts in two digits for the others. -/
@[reducible]
def approvalHash : Hashlib where
  sha256 := fun text ↦
    if text = approvalText then
      ⟨"1e641d2f93d8bed57aff6c95fd23064116106e688628e0007d00aef32d3c3166",
        forall_mem_of_all (by decide +kernel)⟩
    else ⟨String.ofList (unary text), by
      intro c hc
      rw [String.toList_ofList] at hc
      rcases mem_unary hc with rfl | rfl <;> decide⟩

theorem approvalHash_inj (s t : List Char) (h : approvalHash.sha256 s = approvalHash.sha256 t) :
    s = t := by
  have hdigest {t : List Char} :
      "1e641d2f93d8bed57aff6c95fd23064116106e688628e0007d00aef32d3c3166" ≠ String.ofList (unary t) := by
    intro h
    have hlist := congrArg String.toList h
    have hone : '1' ∈ unary t := by
      rw [← String.toList_ofList (l := unary t), ← hlist]
      decide +kernel
    rcases mem_unary hone with h | h
    · exact absurd h (by decide)
    · exact absurd h (by decide)
  have htext := congrArg HexDigest.text h
  unfold approvalHash at htext
  dsimp only at htext
  split at htext
  · rename_i hs
    split at htext
    · rename_i ht
      exact hs.trans ht.symm
    · exact absurd htext hdigest
  · split at htext
    · exact absurd htext.symm hdigest
    · exact unary_inj s t (String.ofList_injective htext)

/-- The checks of a log with one entry. -/
theorem approval_detected :
    (@auditRepository Tenths _ approvalHash |>.after [.saveAuditEntry approval {} {}]).Holds
      fun t ↦ (@verifyAuditChain Tenths _ _ _ approvalHash t.auditLogs = .ok true ∧
        @detectTampering Tenths _ _ _ approvalHash t.auditLogs = .ok []) ∧
      ∀ edit : Edit, @Detected Tenths _ _ _ approvalHash (edit.apply t.auditLogs) ↔
        edit.Seen Tenths t.auditLogs :=
  @tampering_detected_iff Tenths _ _ _ _ approvalHash approvalHash_inj
    [.saveAuditEntry approval {} {}]

/-- The only row is deleted, and neither check sees it. -/
theorem last_deletion_unseen : ¬ @Detected Tenths _ _ _ approvalHash ((Edit.delete 0).apply
    (@auditRepository Tenths _ approvalHash |>.after
      [.saveAuditEntry approval {} {}]).stored.auditLogs) := by
  rintro ⟨hverify, -⟩
  cases hverify

end Qros.Storage
