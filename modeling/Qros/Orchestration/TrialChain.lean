import Qros.Orchestration.TrialRegistry

/-!
# The chain of trials

A record is written on one line unless one of its strings holds a character at which
`str.splitlines` splits and which `json.dumps` does not escape; then the line that is
read back ends in the middle of the record, and no further trial is accepted.  Metadata
is read back as it was registered if it is a JSON value.

`registry_sound` is about every run whose trials are `Writable`: the registry verifies,
with one record for each accepted trial, and the records are read back.
-/

set_option linter.unusedSectionVars false

namespace Qros.Orchestration

open Qros.Lib Qros.Python List

section Entries

variable {F : Type}

theorem find_sortEntries {α : Type} {entries : List (String × α)}
    (h : (entries.map Prod.fst).Nodup) (k : String) :
    Dict.find k (sortEntries entries) = Dict.find k entries := by
  apply Option.ext
  intro a
  rw [Dict.find_eq_some_iff h, Dict.find_eq_some_iff (nodup_keys_sortEntries.mpr h), mem_sortEntries]

theorem find_sortValues (entries : List (String × Json F)) (k : String) :
    Dict.find k (Json.sortValues entries) = (Dict.find k entries).map Json.sortKeys := by
  induction entries with
  | nil => rfl
  | cons e entries ih =>
    rw [Json.sortValues, Dict.find, Dict.find, ih]
    split <;> rfl

theorem find_concat_of_mem {α : Type} {entries : List (String × α)} {k : String} {a : α}
    (h : Dict.find k entries = some a) (e : String × α) :
    Dict.find k (entries ++ [e]) = some a := by
  induction entries with
  | nil => cases h
  | cons e' entries ih =>
    rw [Dict.find] at h
    rw [cons_append, Dict.find]
    split
    · rename_i hk
      rwa [if_pos hk] at h
    · rename_i hk
      rw [if_neg hk] at h
      exact ih h

theorem find_concat_self {α : Type} {entries : List (String × α)} {k : String}
    (h : k ∉ entries.map Prod.fst) (a : α) : Dict.find k (entries ++ [(k, a)]) = some a := by
  induction entries with
  | nil => rw [nil_append, Dict.find, if_pos rfl]
  | cons e entries ih =>
    rw [map_cons, mem_cons, not_or] at h
    rw [cons_append, Dict.find, if_neg (Ne.symm h.1), ih h.2]

theorem keys_sortValues (entries : List (String × Json F)) :
    (Json.sortValues entries).map Prod.fst = entries.map Prod.fst := by
  rw [Json.sortValues_eq_map, map_map]
  rfl

end Entries

section Records

variable {F : Type} [FloatText F] [NumberOps F] [Hashlib]

def withHash (payload : List (String × Json F)) : List (String × Json F) :=
  payload ++ [("record_sha256", .str (sha256 (canonicalText (.dict payload))).text)]

/-- The entries of a record as they are read. -/
def sortedRecord (record : List (String × Json F)) : List (String × Json F) :=
  sortEntries (Json.sortValues record)

structure IsPayload (payload : List (String × Json F)) : Prop where
  fresh : "record_sha256" ∉ payload.map Prod.fst
  distinct : (Json.dict payload).Distinct

variable {payload : List (String × Json F)} {file : RegistryFile} {previous : String}
  {records : List (List (String × Json F))} {metadata : List (String × Json F)}

theorem IsPayload.nodup (h : IsPayload payload) :
    ((withHash payload).map Prod.fst).Nodup := by
  have hkeys := (Json.distinct_dict.mp h.distinct).1
  unfold withHash
  rw [map_append, nodup_append']
  refine ⟨hkeys, nodup_singleton _, ?_⟩
  intro k hk hk'
  rw [mem_singleton.mp hk'] at hk
  exact h.fresh hk

theorem IsPayload.distinct_withHash (h : IsPayload payload) :
    (Json.dict (withHash payload)).Distinct := by
  refine Json.distinct_dict.mpr ⟨h.nodup, fun e he ↦ ?_⟩
  rcases mem_append.mp he with he | he
  · exact (Json.distinct_dict.mp h.distinct).2 e he
  · rw [mem_singleton.mp he]
    trivial

theorem find_sortedRecord (h : IsPayload payload) (k : String) :
    Dict.find k (sortedRecord (withHash payload)) =
      (Dict.find k (withHash payload)).map Json.sortKeys := by
  unfold sortedRecord
  rw [find_sortEntries (by rw [keys_sortValues]; exact h.nodup), find_sortValues]

theorem canonicalText_withoutHash (h : IsPayload payload) :
    canonicalText (.dict (withoutHash (sortedRecord (withHash payload)))) =
      canonicalText (.dict payload) := by
  have hfilter : withoutHash (Json.sortValues (withHash payload)) = Json.sortValues payload := by
    unfold withoutHash withHash
    rw [Json.sortValues_eq_map, Json.sortValues_eq_map, map_append, filter_append]
    rw [filter_eq_self.mpr, map_singleton]
    · simp
    · intro e' he'
      obtain ⟨e, he, rfl⟩ := mem_map.mp he'
      refine decide_eq_true fun hk ↦ h.fresh ?_
      have hkey : e.1 = "record_sha256" := hk
      rw [← hkey]
      exact mem_map_of_mem he
  have hperm : (withoutHash (sortedRecord (withHash payload))).Perm (Json.sortValues payload) := by
    rw [← hfilter]
    exact (perm_sortEntries _).filter _
  have hsorted : Json.sortValues (withoutHash (sortedRecord (withHash payload))) =
      withoutHash (sortedRecord (withHash payload)) := by
    rw [Json.sortValues_eq_map]
    refine (map_congr_left fun e he ↦ ?_).trans (map_id _)
    have he := hperm.mem_iff.mp he
    rw [Json.sortValues_eq_map] at he
    obtain ⟨e, -, rfl⟩ := mem_map.mp he
    exact Prod.ext rfl (Json.sortKeys_sortKeys e.2)
  unfold canonicalText
  rw [Json.sortKeys, Json.sortKeys, hsorted]
  refine congrArg (fun es ↦ Json.text .compact (.dict es)) (sortEntries_eq_of_perm hperm ?_)
  rw [(hperm.map Prod.fst).nodup_iff, keys_sortValues]
  exact (Json.distinct_dict.mp h.distinct).1

variable [LawfulFloatText F] [SingleNan F]

theorem loads_record (h : IsPayload payload) :
    loads (canonicalText (.dict (withHash payload))) =
      .ok (.dict (sortedRecord (withHash payload))) := by
  unfold canonicalText
  rw [loads_text Separators.plain_compact h.distinct_withHash.sortKeys, Json.decoded_eq_self]
  rfl

theorem not_blank_record (record : List (String × Json F)) :
    (canonicalText (.dict record)).all isspace = false := rfl

theorem verifyLine_record (h : IsPayload payload) {v : Verification F}
    (hnumber : Dict.find "trial_number" payload = some (.int (v.records.length + 1)))
    (hprevious : Dict.find "previous_record_sha256" payload = some (.str v.previous)) (n : Nat) :
    verifyLine v (canonicalText (.dict (withHash payload)), n) =
      { errors := v.errors
        records := v.records ++ [sortedRecord (withHash payload)]
        previous := (sha256 (canonicalText (.dict payload))).text } := by
  have hhash : getEntry "record_sha256" (sortedRecord (withHash payload)) =
      some (.str (sha256 (canonicalText (.dict payload))).text) := by
    unfold getEntry
    rw [find_sortedRecord h, withHash, find_concat_self h.fresh]
    rfl
  have hnumber' : getEntry "trial_number" (sortedRecord (withHash payload)) =
      some (.int (v.records.length + 1)) := by
    unfold getEntry
    rw [find_sortedRecord h, withHash, find_concat_of_mem hnumber]
    rfl
  have hprevious' : getEntry "previous_record_sha256" (sortedRecord (withHash payload)) =
      some (.str v.previous) := by
    unfold getEntry
    rw [find_sortedRecord h, withHash, find_concat_of_mem hprevious]
    rfl
  have herrors : recordErrors n v (sortedRecord (withHash payload)) = [] := by
    unfold recordErrors
    rw [hhash, hnumber', hprevious', canonicalText_withoutHash h]
    simp [Json.equalsInt, Json.equalsStr, Number.eq]
  unfold verifyLine
  rw [not_blank_record, if_neg Bool.false_ne_true]
  simp only [loads_record h, herrors, hhash, append_nil]

/-! ## The chain -/

/-- The registry holds the records, each verified as the loop comes to it, and `previous` is the
hash of the last. -/
structure ChainHolds (file : RegistryFile) (records : List (List (String × Json F)))
    (previous : String) : Prop where
  lines : ∃ lines, file.getD [] = unlines lines ∧
    (∀ line ∈ lines, Unbroken line ∧ line.all isspace = false) ∧
    lines.mapM loads = .ok (records.map Json.dict) ∧ verifyLines lines = ⟨[], records, previous⟩
  last : previousHash (records.map Json.dict) = .ok (.str previous)
  inline : IsInline previous

theorem unlines_eq_nil {lines : List (List Char)} (h : unlines lines = []) : lines = [] := by
  cases lines with
  | nil => rfl
  | cons line lines =>
    unfold unlines at h
    rw [flatMap_cons, append_assoc] at h
    exact absurd (append_eq_nil_iff.mp h).2 (cons_ne_nil _ _)

theorem readLines_unlines {lines : List (List Char)} (h : ∀ line ∈ lines, Unbroken line) :
    readLines (unlines lines) = lines := by
  unfold readLines
  rw [universalNewlines_unlines h, splitlines_unlines h]

theorem verifyTrialRegistry_of_chain (h : ChainHolds file records previous) :
    verifyTrialRegistry F file = ⟨true, records.length, []⟩ := by
  obtain ⟨⟨lines, hfile, hlines, -, hverify⟩, -, -⟩ := h
  cases file with
  | none =>
    obtain rfl := unlines_eq_nil hfile.symm
    obtain rfl : [] = records := congrArg Verification.records hverify
    rfl
  | some text =>
    obtain rfl : text = unlines lines := hfile
    unfold verifyTrialRegistry
    simp only [readLines_unlines fun line hline ↦ (hlines line hline).1, hverify]
    rfl

theorem readRecords_of_chain (h : ChainHolds file records previous) :
    readRecords file = .ok (records.map Json.dict) := by
  obtain ⟨⟨lines, hfile, hlines, hloads, -⟩, -, -⟩ := h
  cases file with
  | none =>
    obtain rfl := unlines_eq_nil hfile.symm
    exact hloads
  | some text =>
    obtain rfl : text = unlines lines := hfile
    show List.mapM loads ((readLines (unlines lines)).filter fun line ↦ !line.all isspace) = _
    rw [readLines_unlines fun line hline ↦ (hlines line hline).1, filter_eq_self.mpr]
    · exact hloads
    · intro line hline
      rw [(hlines line hline).2]
      rfl

theorem inline_hex {s : String} (h : ∀ c ∈ s.toList, IsHex c) : IsInline s :=
  fun c hc _ ↦ (forall_mem_of_all (by decide) : ∀ c ∈ "0123456789abcdef".toList,
    isLineBreak c = false) c (h c hc)

theorem ChainHolds.append (h : ChainHolds file records previous) (hpayload : IsPayload payload)
    (hnumber : Dict.find "trial_number" payload = some (.int (records.length + 1)))
    (hprevious : Dict.find "previous_record_sha256" payload = some (.str previous))
    (hline : Unbroken (canonicalText (.dict (withHash payload)))) :
    ChainHolds (some (file.getD [] ++ (canonicalText (.dict (withHash payload)) ++ ['\n'])))
      (records ++ [sortedRecord (withHash payload)])
      (sha256 (canonicalText (.dict payload))).text := by
  obtain ⟨⟨lines, hfile, hlines, hloads, hverify⟩, -, -⟩ := h
  refine ⟨⟨lines ++ [canonicalText (.dict (withHash payload))], ?_, ?_, ?_, ?_⟩, ?_, ?_⟩
  · rw [Option.getD_some, unlines_concat, hfile]
  · intro line hmem
    rcases mem_append.mp hmem with hmem | hmem
    · exact hlines line hmem
    · rw [mem_singleton.mp hmem]
      exact ⟨hline, not_blank_record _⟩
  · rw [mapM_append, hloads, mapM_cons, loads_record hpayload, map_append]
    rfl
  · unfold verifyLines at hverify ⊢
    rw [zipIdx_append, foldl_append, hverify]
    exact verifyLine_record hpayload hnumber hprevious _
  · unfold previousHash
    rw [map_append, map_singleton, getLast?_concat]
    refine found_eq_ok.mpr ?_
    unfold getEntry
    rw [find_sortedRecord hpayload, withHash, find_concat_self hpayload.fresh]
    rfl
  · exact inline_hex (sha256 _).hex

/-! ## Registration -/

/-- What is registered is written on one line and read back: the metadata is a JSON value, and no
string of the caller holds a character at which the line would be split. -/
structure Trial.Writable (t : Trial F) : Prop where
  metadata : ∃ m : List (String × Json F), t.metadata.getD [] = Json.toEntries m ∧
    (Json.dict m).Distinct ∧ ∀ s ∈ (Json.dict m).strings, IsInline s
  codeSha : IsInline t.codeSha

/-- The payload of a trial whose metadata is a JSON value. -/
def trialJson (t : Trial F) (metadata : List (String × Json F)) (number : Nat)
    (hypothesisSha256 : HexDigest) (previous : String) : List (String × Json F) := [
  ("trial_number", .int number),
  ("timestamp_utc", .str t.now.text),
  ("hypothesis_id", .str t.hypothesisId),
  ("hypothesis_sha256", .str hypothesisSha256.text),
  ("data_sha256", .str (lower t.dataSha256)),
  ("code_sha", .str t.codeSha),
  ("phase", .str t.phase),
  ("metadata", .dict metadata),
  ("previous_record_sha256", .str previous)]

variable {t : Trial F}

theorem toEntries_trialJson (h : t.metadata.getD [] = Json.toEntries metadata) (number : Nat)
    (digest : HexDigest) (previous : String) :
    Json.toEntries (trialJson t metadata number digest previous) =
      trialPayload t number digest (.str previous) := by
  unfold trialPayload
  rw [h]
  rfl

theorem isPayload_trialJson (t : Trial F) (h : (Json.dict metadata).Distinct) (number : Nat)
    (digest : HexDigest) (previous : String) :
    IsPayload (trialJson t metadata number digest previous) where
  fresh := by simp [trialJson]
  distinct := by
    refine Json.distinct_dict.mpr ⟨by simp [trialJson], ?_⟩
    simp only [trialJson, forall_mem_cons]
    exact ⟨trivial, trivial, trivial, trivial, trivial, trivial, trivial, h, trivial, nofun⟩

theorem canonicalJson_toValue (j : Json F) : canonicalJson j.toValue = .ok (canonicalText j) := by
  unfold canonicalJson
  rw [Json.encode_toValue]
  rfl

theorem sha256Json_toValue (j : Json F) :
    sha256Json j.toValue = .ok (sha256 (canonicalText j)) := by
  unfold sha256Json
  rw [canonicalJson_toValue]
  rfl

theorem mem_keys_of_find {α : Type} {entries : List (String × α)} {k : String} {a : α}
    (h : Dict.find k entries = some a) : k ∈ entries.map Prod.fst := by
  induction entries with
  | nil => cases h
  | cons e entries ih =>
    rw [Dict.find] at h
    split at h
    · rename_i hk
      rw [← hk]
      exact mem_cons_self
    · exact mem_cons_of_mem _ (ih h)

theorem inline_hypotheses : ∀ s ∈ (hypotheses (F := F)).map Prod.fst, IsInline s := by
  have hkeys : (hypotheses (F := F)).map Prod.fst = ["session_liquidity", "vol_compression_expansion",
      "daily_weekly_reversion", "trend_persistence_regime", "news_window_behavior"] := rfl
  rw [hkeys]
  decide

theorem inline_of_accepted {record : Value F} {file' : RegistryFile}
    (h : registerTrial file t = .ok (record, file')) :
    IsInline t.hypothesisId ∧ IsInline t.phase ∧ IsInline (lower t.dataSha256) := by
  unfold registerTrial at h
  obtain ⟨hypothesis, hfound, h⟩ := bind_eq_ok.mp h
  obtain ⟨_, hphase, h⟩ := bind_eq_ok.mp h
  obtain ⟨_, hdata, h⟩ := bind_eq_ok.mp h
  refine ⟨?_, ?_, inline_hex (of_require hdata).2⟩
  · exact inline_hypotheses (F := F) _ (mem_keys_of_find (found_eq_ok.mp hfound))
  · exact (by decide : ∀ s ∈ ["EXPLORATORY", "CANDIDATE_VALIDATION", "FINAL_HOLDOUT"], IsInline s) _
      (require_eq_ok.mp hphase)

theorem inline_ascii (now : IsoTime) : IsInline now.text := by
  intro c hc _
  obtain ⟨hlow, hhigh⟩ := now.ascii c hc
  unfold isLineBreak
  simp only [Bool.or_eq_false_iff, Bool.and_eq_false_iff, decide_eq_false_iff_not,
    beq_eq_false_iff_ne]
  omega

theorem unbroken_trial (number : Nat) (digest : HexDigest) (hid : IsInline t.hypothesisId)
    (hphase : IsInline t.phase) (hdata : IsInline (lower t.dataSha256))
    (hcode : IsInline t.codeSha) (hmetadata : ∀ s ∈ (Json.dict metadata).strings, IsInline s)
    (hprevious : IsInline previous) :
    Unbroken (canonicalText
      (.dict (withHash (trialJson t metadata number digest previous)))) := by
  have hkeys : ∀ s ∈ ["trial_number", "timestamp_utc", "hypothesis_id", "hypothesis_sha256",
      "data_sha256", "code_sha", "phase", "metadata", "previous_record_sha256", "record_sha256"],
      IsInline s := by decide
  refine unbroken_text (by decide) (by decide) _ fun s hs ↦ ?_
  rw [Json.mem_strings_sortKeys, Json.strings, Json.mem_entryStrings] at hs
  obtain ⟨e, he, hs⟩ := hs
  have hkey : e.1 ∈ (withHash (trialJson t metadata number digest previous)).map Prod.fst :=
    mem_map_of_mem he
  rcases hs with rfl | hs
  · exact hkeys e.1 hkey
  · have hstr : ∀ {u : String}, IsInline u → s ∈ (Json.str u : Json F).strings → IsInline s := by
      intro u hu hmem
      rwa [mem_singleton.mp hmem]
    simp only [withHash, trialJson, cons_append, nil_append, mem_cons,
      not_mem_nil, or_false] at he
    rcases he with rfl | rfl | rfl | rfl | rfl | rfl | rfl | rfl | rfl | rfl
    · cases hs
    · exact hstr (inline_ascii t.now) hs
    · exact hstr hid hs
    · exact hstr (inline_hex digest.hex) hs
    · exact hstr hdata hs
    · exact hstr hcode hs
    · exact hstr hphase hs
    · exact hmetadata s hs
    · exact hstr hprevious hs
    · exact hstr (inline_hex (sha256 _).hex) hs

theorem registerTrial_of_chain (h : ChainHolds file records previous) (hwritable : t.Writable)
    {record : Value F} {file' : RegistryFile} (hok : registerTrial file t = .ok (record, file')) :
    ∃ payload, record = (Json.dict (withHash payload)).toValue ∧
      ChainHolds file' (records ++ [sortedRecord (withHash payload)])
        (sha256 (canonicalText (.dict payload))).text := by
  obtain ⟨hid, hphase, hdata⟩ := inline_of_accepted hok
  obtain ⟨⟨metadata, hmetadata, hdistinct, hstrings⟩, hcode⟩ := hwritable
  unfold registerTrial at hok
  obtain ⟨hypothesis, _, hok⟩ := bind_eq_ok.mp hok
  obtain ⟨_, _, hok⟩ := bind_eq_ok.mp hok
  obtain ⟨_, _, hok⟩ := bind_eq_ok.mp hok
  obtain ⟨_, _, hok⟩ := bind_eq_ok.mp hok
  rw [readRecords_of_chain h] at hok
  obtain ⟨_, hrecords, hok⟩ := bind_eq_ok.mp hok
  obtain rfl := Except.ok.inj hrecords
  rw [h.last] at hok
  obtain ⟨_, hlast, hok⟩ := bind_eq_ok.mp hok
  obtain rfl := Except.ok.inj hlast
  obtain ⟨digest, _, hok⟩ := bind_eq_ok.mp hok
  rw [length_map, ← toEntries_trialJson hmetadata] at hok
  have hpayload := isPayload_trialJson t hdistinct (records.length + 1) digest previous
  have hline := unbroken_trial (records.length + 1) digest hid hphase hdata hcode hstrings h.inline
  have happend := h.append hpayload rfl rfl hline
  generalize trialJson t metadata (records.length + 1) digest previous = payload at hok happend
  obtain ⟨_, hsha, hok⟩ := bind_eq_ok.mp hok
  rw [show Value.dict (Json.toEntries payload) = (Json.dict payload).toValue from rfl,
    sha256Json_toValue] at hsha
  obtain rfl := Except.ok.inj hsha
  have hrecord : (.dict (Json.toEntries payload ++
      [(.str "record_sha256", .str (sha256 (canonicalText (.dict payload))).text)]) : Value F) =
      (Json.dict (withHash payload)).toValue := by
    rw [Json.toValue, Json.toEntries_eq_map, Json.toEntries_eq_map, withHash, map_append]
    rfl
  rw [hrecord] at hok
  obtain ⟨_, hwritten, hok⟩ := bind_eq_ok.mp hok
  rw [canonicalJson_toValue] at hwritten
  obtain rfl := Except.ok.inj hwritten
  obtain ⟨rfl, rfl⟩ := Prod.mk.inj (Except.ok.inj hok)
  exact ⟨payload, rfl, happend⟩

/-! ## Runs -/

/-- The value that was read is the one that was registered: a JSON value, up to the order of the
entries of its dictionaries. -/
def ReadBack (registered : Value F) (read : Json F) : Prop :=
  ∃ j : Json F, registered = j.toValue ∧ read.sortKeys = j.sortKeys

/-- The records that the accepted calls of a run return. -/
def accepted (trials : List (Trial F)) : List (Value F) :=
  (trialRegistry.trace trials).filterMap fun call ↦
    match call.2 with
    | .ok record => some record
    | .error _ => none

structure RegistrySound (trials : List (Trial F)) : Prop where
  verifies : verifyTrialRegistry F (trialRegistry.after trials) =
    ⟨true, (accepted trials).length, []⟩
  readBack : ∃ records, readRecords (trialRegistry.after trials) = .ok records ∧
    List.Forall₂ ReadBack (accepted trials) records

theorem chain_after (trials : List (Trial F)) (h : ∀ t ∈ trials, t.Writable) :
    ∃ records previous, ChainHolds (trialRegistry.after trials) records previous ∧
      List.Forall₂ ReadBack (accepted trials) (records.map Json.dict) := by
  induction trials using reverseRecOn with
  | nil =>
    refine ⟨[], "GENESIS", ⟨⟨[], rfl, nofun, rfl, rfl⟩, rfl, by decide⟩, ?_⟩
    exact List.Forall₂.nil
  | append_singleton trials t ih =>
    obtain ⟨records, previous, hchain, hread⟩ := ih fun u hu ↦ h u (mem_append_left _ hu)
    have hwritable := h t (mem_append_right _ (mem_singleton_self t))
    unfold accepted at hread ⊢
    rw [Machine.after_concat, Machine.trace_concat, filterMap_append]
    cases hcall : registerTrial (trialRegistry.after trials) t with
    | error message =>
      have hstep : trialRegistry.step t (trialRegistry.after trials) =
          (.error message, trialRegistry.after trials) := by
        unfold trialRegistry at hcall ⊢
        simp only [hcall]
      rw [hstep]
      refine ⟨records, previous, hchain, ?_⟩
      rw [filterMap_cons_none rfl, filterMap_nil, append_nil]
      exact hread
    | ok answer =>
      obtain ⟨record, file'⟩ := answer
      have hstep : trialRegistry.step t (trialRegistry.after trials) = (.ok record, file') := by
        unfold trialRegistry at hcall ⊢
        simp only [hcall]
      rw [hstep]
      obtain ⟨payload, rfl, hchain'⟩ := registerTrial_of_chain hchain hwritable hcall
      refine ⟨_, _, hchain', ?_⟩
      rw [map_append]
      refine rel_append hread (List.Forall₂.cons ⟨_, rfl, ?_⟩ List.Forall₂.nil)
      exact Json.sortKeys_sortKeys (.dict (withHash payload))

/-- In every run whose trials are writable the registry is sound. -/
theorem registry_sound (trials : List (Trial F)) (h : ∀ t ∈ trials, t.Writable) :
    RegistrySound trials := by
  obtain ⟨records, previous, hchain, hread⟩ := chain_after trials h
  refine ⟨?_, records.map Json.dict, readRecords_of_chain hchain, hread⟩
  rw [verifyTrialRegistry_of_chain hchain, hread.length_eq, length_map]

end Records

/-- A digest that tells no texts apart. -/
@[reducible]
def constantDigest : Hashlib := ⟨fun _ ↦ ⟨"0", isHex_zero⟩⟩

/-- A trial without metadata. -/
def plainTrial (codeSha : String) : Trial Tenths where
  hypothesisId := "session_liquidity"
  dataSha256 := "00000000000000000000000000000000000000000000000000000000000000aa"
  codeSha := codeSha
  phase := "EXPLORATORY"
  metadata := none
  now := ⟨"2024-01-01T00:00:00+00:00", forall_mem_of_all (by decide)⟩

theorem registry_sound_plain :
    @RegistrySound Tenths _ _ constantDigest [plainTrial "abc", plainTrial "abc"] :=
  @registry_sound Tenths _ _ constantDigest _ _ _ (by
    intro t ht
    simp only [mem_cons, not_mem_nil, or_false, or_self] at ht
    obtain rfl := ht
    exact ⟨⟨[], rfl, Json.distinct_dict.mpr ⟨nodup_nil, nofun⟩, nofun⟩, by decide⟩)

/-- After a trial whose code is named with a line separator the registry does not verify. -/
theorem registry_broken : ¬ @RegistrySound Tenths _ _ constantDigest [plainTrial "a\u2028b"] := by
  intro h
  obtain ⟨hverifies, -⟩ := h
  revert hverifies
  decide +kernel

end Qros.Orchestration
