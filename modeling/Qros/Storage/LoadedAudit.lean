import Qros.Python.Datetime
import Qros.Storage.AuditChain
import Qros.Storage.AuditIds

/-!
# Loaded audit entries

`load_audit_entries` of `researchos/storage/repository.py`.  It does not read the tags, so an
entry that was saved with tags has another hash once it is loaded.
-/

namespace Qros.Storage

open Qros.Lib Qros.Python List

set_option linter.unusedSectionVars false

def parseTimestamp (ts : String) : Option Datetime :=
  let chars := match ts.toList.getLast? with
    | some 'Z' => ts.toList.dropLast ++ "+00:00".toList
    | _ => ts.toList
  (Datetime.ofIsoChars chars).map fun t ↦ { t with offset := some (t.offset.getD 0) }

/-- An `AuditEntry` as it is loaded; columns that are NULL stay `None` where the constructor keeps
them. -/
structure LoadedEntry where
  id : String
  timestamp : Datetime
  actor : Option String
  action : Option String
  objectId : Option String
  objectType : Option String
  beforeState : String
  afterState : String
  reasoningChainId : String
  previousEntry : String
  entryHash : String
  ontologyTags : List String

/-- `parse_timestamp(r_time) if r_time else entry.timestamp`, where the constructor has taken the time
`now`. -/
def loadTimestamp (now : Datetime) : Option String → Except String Datetime
  | none => .ok now
  | some ts => if ts = "" then .ok now else found (parseTimestamp ts) "Invalid isoformat string"

def AuditRow.entryAt (row : AuditRow) (timestamp : Datetime) : LoadedEntry where
  id := row.id
  timestamp := timestamp
  actor := row.actor
  action := row.action
  objectId := row.objectId
  objectType := row.objectType
  beforeState := row.beforeState.getD ""
  afterState := row.afterState.getD ""
  reasoningChainId := row.reasoningChainId.getD ""
  previousEntry := row.previousEntry.getD ""
  entryHash := row.entryHash.getD ""
  ontologyTags := []

def AuditRow.load (now : Datetime) (row : AuditRow) : Except String LoadedEntry :=
  (loadTimestamp now row.timestamp).map row.entryAt

def loadAuditEntries (now : Datetime) (rows : List AuditRow) : Except String (List LoadedEntry) :=
  rows.mapM (AuditRow.load now)

section Hash

variable (F : Type) [FloatText F] [NumberOps F] [DecidableEq F] [Hashlib]

/-- `deterministic_hash` of `_to_hashable_dict()` with the hash of the entry before. -/
def LoadedEntry.hash (entry : LoadedEntry) (prevHash : String) : HexDigest :=
  deterministicHash F (hashable F (some (String.ofList entry.timestamp.isoChars)) entry.actor
    entry.action entry.objectId entry.objectType (some entry.beforeState) (some entry.afterState)
    (some entry.reasoningChainId) (some prevHash) ((sortStrings entry.ontologyTags).map .str))

/-- Every entry has the hash that is computed from its fields and the hash of the one before. -/
def ProvesFrom : String → List LoadedEntry → Prop
  | _, [] => True
  | prevHash, entry :: entries =>
    (entry.hash F prevHash).text = entry.entryHash ∧ ProvesFrom entry.entryHash entries

end Hash

/-! ## Entries restored -/

/-- The timestamp is that of a `datetime` with an offset. -/
def AuditEntry.Timed (entry : AuditEntry) : Prop :=
  ∃ t : Datetime, t.offset.isSome = true ∧ t.OffsetInDay ∧ entry.timestamp = String.ofList t.isoChars

/-- The loaded entry has the id and the details of the saved one. -/
structure Restores (entry : AuditEntry) (loaded : LoadedEntry) : Prop where
  id : loaded.id = entry.id
  timestamp : String.ofList loaded.timestamp.isoChars = entry.timestamp
  actor : loaded.actor = some entry.actor
  action : loaded.action = some entry.action
  objectId : loaded.objectId = some entry.objectId
  objectType : loaded.objectType = some entry.objectType
  beforeState : loaded.beforeState = entry.beforeState
  afterState : loaded.afterState = entry.afterState
  reasoningChainId : loaded.reasoningChainId = entry.reasoningChainId

theorem Z_notMem_padded (w : Nat) (n : Int) : 'Z' ∉ padded w n := by
  intro h
  have hdigit := all_eq_true.mp (Datetime.all_isDigit_padded w n) 'Z' h
  exact absurd hdigit (by decide)

theorem Z_notMem_isoChars (t : Datetime) : 'Z' ∉ t.isoChars := by
  have hrest (a : Int) : 'Z' ∉ Datetime.offsetRestChars a := by
    unfold Datetime.offsetRestChars
    split
    · exact not_mem_nil
    · split <;> simp [Z_notMem_padded]
  have hoffset : 'Z' ∉ t.offset.elim [] Datetime.offsetChars := by
    cases t.offset with
    | none => exact not_mem_nil
    | some o =>
      change 'Z' ∉ Datetime.offsetChars o
      unfold Datetime.offsetChars Datetime.offsetDigits
      split <;> simp [Z_notMem_padded, hrest]
  have hfraction (micros : Int) : 'Z' ∉ Datetime.fractionChars micros := by
    unfold Datetime.fractionChars
    split <;> simp [Z_notMem_padded]
  simp [Datetime.isoChars, Z_notMem_padded, hoffset, hfraction]

theorem parseTimestamp_isoChars {t : Datetime} (hoffset : t.offset.isSome = true)
    (hday : t.OffsetInDay) : parseTimestamp (String.ofList t.isoChars) = some t := by
  have hlast : t.isoChars.getLast? ≠ some 'Z' :=
    fun h ↦ Z_notMem_isoChars t (mem_of_getLast? h)
  unfold parseTimestamp
  rw [String.toList_ofList]
  split
  · rename_i h
    exact absurd h hlast
  · dsimp only
    rw [Datetime.ofIsoChars_isoChars hday]
    obtain ⟨o, ho⟩ := Option.isSome_iff_exists.mp hoffset
    obtain ⟨clock, offset⟩ := t
    obtain rfl : offset = some o := ho
    rfl

theorem isoChars_ne_nil (t : Datetime) : String.ofList t.isoChars ≠ "" := by
  intro h
  have hchars := congrArg String.toList h
  rw [String.toList_ofList] at hchars
  simp [Datetime.isoChars] at hchars

section Load

variable {F : Type} [FloatText F] [NumberOps F] [DecidableEq F] [Hashlib] (now : Datetime)

theorem load_row {entry : AuditEntry} (htimed : entry.Timed) (prevHash : Option String)
    (rowid : Nat) : ∃ loaded, (entry.row F prevHash rowid).load now = .ok loaded ∧
      Restores entry loaded ∧ loaded.ontologyTags = [] ∧
      loaded.entryHash = (entry.hash F prevHash).text := by
  obtain ⟨t, hoffset, hday, htext⟩ := htimed
  have hne : entry.timestamp ≠ "" := htext ▸ isoChars_ne_nil t
  have htime : parseTimestamp entry.timestamp = some t :=
    htext ▸ parseTimestamp_isoChars hoffset hday
  have hload : loadTimestamp now (some entry.timestamp) = .ok t :=
    (if_neg hne).trans (found_eq_ok.mpr htime)
  refine ⟨(entry.row F prevHash rowid).entryAt t, ?_, ?_, rfl, rfl⟩
  · exact congrArg (Except.map _) hload
  · exact ⟨rfl, htext.symm, rfl, rfl, rfl, rfl, rfl, rfl, rfl⟩

theorem hash_loaded {entry : AuditEntry} {loaded : LoadedEntry} (h : Restores entry loaded)
    (htags : loaded.ontologyTags = []) (prevHash : String) (rowid : Nat) :
    loaded.hash F prevHash = sha256 ((entry.row F (some prevHash) rowid).preimage (F := F) []) := by
  unfold LoadedEntry.hash
  rw [h.timestamp, h.actor, h.action, h.objectId, h.objectType, h.beforeState, h.afterState,
    h.reasoningChainId, htags]
  rfl

variable [LawfulFloatText F]

theorem tagsText_nil_iff {tags : List String} :
    tagsText F [] = tagsText F (tags.map .str) ↔ tags = [] := by
  constructor
  · intro h
    have hdistinct : (Json.list (tags.map .str) : Json F).Distinct := by
      rw [Json.distinct_list]
      intro j hj
      obtain ⟨tag, -, rfl⟩ := mem_map.mp hj
      trivial
    have hnil : (Json.list [] : Json F).Distinct := by
      rw [Json.distinct_list]
      exact fun j hj ↦ absurd hj not_mem_nil
    have hdecoded := decoded_eq_of_text_eq Separators.plain_default hnil.sortKeys
      hdistinct.sortKeys h
    simp only [Json.sortKeys, Json.sortItems_eq_map, Json.decoded, Json.decodedItems_eq_map,
      Json.list.injEq, map_map, map_nil] at hdecoded
    exact map_eq_nil_iff.mp hdecoded.symm
  · rintro rfl
    rfl

theorem preimage_nil_iff (entry : AuditEntry) (prevHash : Option String) (rowid : Nat) :
    (entry.row F prevHash rowid).preimage (F := F) [] =
      (entry.row F prevHash rowid).preimage (F := F) ((sortStrings entry.ontologyTags).map .str) ↔
        entry.ontologyTags = [] := by
  have h : ((entry.row F prevHash rowid).set ((entry.row F prevHash rowid).get .ontologyTags)
      .ontologyTags).preimage (F := F) [] = (entry.row F prevHash rowid).preimage (F := F)
        ((sortStrings entry.ontologyTags).map .str) ↔
      tagsText F [] = tagsText F ((sortStrings entry.ontologyTags).map .str) := preimage_tags
  rw [set_get] at h
  rw [h, tagsText_nil_iff]
  constructor
  · intro hnil
    have hperm : (sortStrings entry.ontologyTags).Perm entry.ontologyTags :=
      perm_insertionSort _ _
    rw [hnil] at hperm
    exact nil_perm.mp hperm
  · intro hnil
    rw [hnil]
    rfl

/-! ## A log of entries -/

variable {h : String} {n : Nat} {entries : List AuditEntry} {rows : List AuditRow}

/-- **Loading a log**: the entries come in order with their details; they prove themselves if none
has tags, and if the hash tells texts apart then only if none has. -/
theorem load_linked (hlinked : Linked F n (some h) rows)
    (hrows : List.Forall₂ (Records F) entries rows) (htimed : ∀ entry ∈ entries, entry.Timed) :
    ∃ loaded, loadAuditEntries now rows = .ok loaded ∧ List.Forall₂ Restores entries loaded ∧
      ((∀ entry ∈ entries, entry.ontologyTags = []) → ProvesFrom F h loaded) ∧
      ((∀ s t, sha256 s = sha256 t → s = t) → ProvesFrom F h loaded →
        ∀ entry ∈ entries, entry.ontologyTags = []) := by
  induction hrows generalizing n h with
  | nil =>
    exact ⟨[], rfl, .nil, fun _ ↦ trivial, fun _ _ entry hentry ↦ absurd hentry not_mem_nil⟩
  | @cons entry row entries rows hrow _ ih =>
    obtain ⟨prevHash, rowid, rfl⟩ := hrow
    obtain ⟨⟨-, hprevious, -⟩, hlinked⟩ := hlinked
    obtain rfl : prevHash = some h := hprevious
    obtain ⟨hentry, hentries⟩ := forall_mem_cons.mp htimed
    obtain ⟨loaded, hload, hrestores, htags, hhash⟩ := load_row (F := F) now hentry
      (some h) rowid
    obtain ⟨rest, hrest, hall, hproves, hproved⟩ := ih hlinked hentries
    have hlist : loadAuditEntries now (entry.row F (some h) rowid :: rows) =
        .ok (loaded :: rest) := by
      unfold loadAuditEntries at hrest ⊢
      rw [mapM_cons, hload, hrest]
      rfl
    have hfirst := hash_loaded (F := F) hrestores htags h rowid
    have hiff := preimage_nil_iff (F := F) entry (some h) rowid
    refine ⟨loaded :: rest, hlist, .cons hrestores hall, ?_, ?_⟩
    · intro huntagged
      obtain ⟨hnil, huntagged⟩ := forall_mem_cons.mp huntagged
      constructor
      · rw [hfirst, hiff.mpr hnil, hhash]
        rfl
      · rw [hhash]
        exact hproves huntagged
    · rintro hsha ⟨heq, hprovesRest⟩
      rw [hhash] at heq hprovesRest
      refine forall_mem_cons.mpr ⟨hiff.mp (hsha _ _ ?_), hproved hsha hprovesRest⟩
      rw [hfirst] at heq
      exact HexDigest.text_injective heq

/-- The rows are those of some of the saved entries, in order. -/
def LogOf (saved : List AuditEntry) (rows : List AuditRow) : Prop :=
  ∃ entries : List AuditEntry, entries.Sublist saved ∧ List.Forall₂ (Records F) entries rows

theorem logOf_after (operations : List Operation) : ((auditRepository F).after operations).Holds
    fun t ↦ LogOf (F := F) (operations.filterMap Operation.audited) t.auditLogs := by
  induction operations using reverseRecOn with
  | nil => exact ⟨⟨[], .slnil, .nil⟩, ⟨[], .slnil, .nil⟩⟩
  | append_singleton operations operation ih =>
    rw [Machine.after_concat]
    have hkept : ∀ rows, LogOf (F := F) (operations.filterMap Operation.audited) rows →
        LogOf (F := F) ((operations ++ [operation]).filterMap Operation.audited) rows := by
      rintro rows ⟨entries, hsub, hrows⟩
      refine ⟨entries, ?_, hrows⟩
      rw [filterMap_append]
      exact hsub.trans (sublist_append_left _ _)
    refine holdsLog_run hkept ih operation ?_
    rintro entry hentry t ⟨entries, hsub, hrows⟩
    refine ⟨entries ++ [entry], ?_, rel_append hrows (.cons ⟨_, _, rfl⟩ .nil)⟩
    rw [filterMap_append, filterMap_cons, Option.mem_def.mp hentry, filterMap_nil]
    exact hsub.append_right _

/-- **Loaded audit entries.**  In every database that the operations reach, whatever SQLite answers,
the log is loaded as the entries whose saving was stored, in order and with their details; and these
have their hashes just when no entry has tags. -/
theorem loaded_entries_prove_iff (operations : List Operation)
    (htimed : ∀ entry ∈ operations.filterMap Operation.audited, entry.Timed) :
    ((auditRepository F).after operations).Holds fun t ↦ ∃ entries loaded,
      (entries.Sublist (operations.filterMap Operation.audited) ∧
        List.Forall₂ (Records F) entries t.auditLogs) ∧
      (loadAuditEntries now t.auditLogs = .ok loaded ∧ List.Forall₂ Restores entries loaded) ∧
      ((∀ entry ∈ entries, entry.ontologyTags = []) → ProvesFrom F zeros loaded) ∧
      ((∀ s t, sha256 s = sha256 t → s = t) → ProvesFrom F zeros loaded →
        ∀ entry ∈ entries, entry.ontologyTags = []) := by
  have hlinked := linkedLog_after (F := F) operations
  have hlog := logOf_after (F := F) operations
  constructor
  · obtain ⟨entries, hsub, hrows⟩ := hlog.stored
    obtain ⟨loaded, hload, hrestores, hproves⟩ := load_linked now hlinked.stored hrows
      fun entry hentry ↦ htimed entry (hsub.subset hentry)
    exact ⟨entries, loaded, ⟨hsub, hrows⟩, ⟨hload, hrestores⟩, hproves⟩
  · obtain ⟨entries, hsub, hrows⟩ := hlog.current
    obtain ⟨loaded, hload, hrestores, hproves⟩ := load_linked now hlinked.current hrows
      fun entry hentry ↦ htimed entry (hsub.subset hentry)
    exact ⟨entries, loaded, ⟨hsub, hrows⟩, ⟨hload, hrestores⟩, hproves⟩

end Load

/-! ## An entry with a tag -/

/-- The first of January 2026 in UTC. -/
def newYear : Datetime := ⟨⟨1767225600000000, by decide⟩, some 0⟩

theorem newYear_text : "2026-01-01T00:00:00+00:00" = String.ofList newYear.isoChars := by
  decide +kernel

theorem newYear_inDay : newYear.OffsetInDay := by
  intro o ho
  obtain rfl : (0 : Int) = o := Option.some.inj ho
  decide

theorem approval_timed (tags : List String) :
    ({ approval with ontologyTags := tags } : AuditEntry).Timed :=
  ⟨newYear, rfl, newYear_inDay, newYear_text⟩

def taggedEntry : AuditEntry := { approval with ontologyTags := ["macro"] }

/-- The text that is hashed for `approval` with some tags. -/
def approvalPreimage (tags : List (Json Tenths)) : List Char :=
  (hashable Tenths (some approval.timestamp) (some approval.actor) (some approval.action)
    (some approval.objectId) (some approval.objectType) (some approval.beforeState)
    (some approval.afterState) (some approval.reasoningChainId) (some zeros)
    tags).sortKeys.text .default

theorem approvalPreimage_ne : approvalPreimage [] ≠ approvalPreimage [.str "macro"] := by
  intro h
  have hnil := (@preimage_nil_iff Tenths _ _ _ approvalHash _ taggedEntry (some zeros) 1).mp h
  exact absurd hnil (by decide)

theorem taggedDigest_hex :
    ∀ c ∈ "c60d28dd0c8c79ec5b46035204bf5f7980156afd05d7285d11ac40bb62433b66".toList, IsHex c :=
  forall_mem_of_all (by decide +kernel)

theorem untaggedDigest_hex :
    ∀ c ∈ "1e641d2f93d8bed57aff6c95fd23064116106e688628e0007d00aef32d3c3166".toList, IsHex c :=
  forall_mem_of_all (by decide +kernel)

/-- The digests of the texts with the tag and without. -/
@[reducible]
def taggedHash : Hashlib where
  sha256 := fun text ↦
    if text = approvalPreimage [.str "macro"] then
      ⟨"c60d28dd0c8c79ec5b46035204bf5f7980156afd05d7285d11ac40bb62433b66", taggedDigest_hex⟩
    else if text = approvalPreimage [] then
      ⟨"1e641d2f93d8bed57aff6c95fd23064116106e688628e0007d00aef32d3c3166", untaggedDigest_hex⟩
    else approvalHash.sha256 text

/-- The entry is saved and loaded, and its hash is not that of its fields. -/
theorem tagged_entry_unproved : ∃ loaded,
    loadAuditEntries newYear
      (@auditRepository Tenths _ taggedHash |>.after
        [.saveAuditEntry taggedEntry {} {}]).stored.auditLogs = .ok [loaded] ∧
    Restores taggedEntry loaded ∧ ¬ @ProvesFrom Tenths _ taggedHash zeros [loaded] := by
  obtain ⟨loaded, hload, hrestores, htags, hhash⟩ := @load_row Tenths _ _ _ taggedHash newYear
    taggedEntry (approval_timed ["macro"]) (some zeros) 1
  refine ⟨loaded, ?_, hrestores, ?_⟩
  · change List.mapM (AuditRow.load newYear)
      [@AuditEntry.row Tenths _ taggedHash taggedEntry (some zeros) 1] = _
    rw [mapM_cons, hload]
    rfl
  · rintro ⟨heq, -⟩
    have hrecomputed := @hash_loaded Tenths _ _ _ taggedHash _ _ hrestores htags zeros 1
    have hloaded : taggedHash.sha256 (approvalPreimage []) = _ :=
      (if_neg approvalPreimage_ne).trans (if_pos rfl)
    have hstored : taggedHash.sha256 (approvalPreimage [.str "macro"]) = _ := if_pos rfl
    rw [hhash, hrecomputed] at heq
    have htexts : (taggedHash.sha256 (approvalPreimage [])).text =
        (taggedHash.sha256 (approvalPreimage [.str "macro"])).text := heq
    rw [hloaded, hstored] at htexts
    exact absurd htexts (by decide)

theorem loaded_entries_prove_iff_sample :
    (@auditRepository Tenths _ approvalHash |>.after [.saveAuditEntry approval {} {}]).Holds
      fun t ↦ ∃ entries loaded,
        (entries.Sublist [approval] ∧
          List.Forall₂ (@Records Tenths _ approvalHash) entries t.auditLogs) ∧
        (loadAuditEntries newYear t.auditLogs = .ok loaded ∧ List.Forall₂ Restores entries loaded) ∧
        ((∀ entry ∈ entries, entry.ontologyTags = []) →
          @ProvesFrom Tenths _ approvalHash zeros loaded) ∧
        ((∀ s t, approvalHash.sha256 s = approvalHash.sha256 t → s = t) →
          @ProvesFrom Tenths _ approvalHash zeros loaded →
          ∀ entry ∈ entries, entry.ontologyTags = []) :=
  @loaded_entries_prove_iff Tenths _ _ _ approvalHash newYear _ [.saveAuditEntry approval {} {}]
    (forall_mem_singleton.mpr (approval_timed []))

end Qros.Storage
