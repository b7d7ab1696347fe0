import Qros.Lib.Machine
import Qros.Python.JsonLines
import Qros.Python.Builtins
import Qros.Python.Value

/-!
# The trial registry

`register_trial` and `verify_trial_registry` of
`researchos/orchestration/hypothesis_research.py`, over the text of the registry file.

The record that is written is a Python value and the records that are read are JSON
values; `canonical_json` of the latter is `canonicalText`, which is the same by
`Json.encode_toValue`.
-/

namespace Qros.Orchestration

open Qros.Lib Qros.Python

/-- The characters of a text are checked one after the other. -/
local instance (priority := high) decidableBAllChar (l : List Char) (p : Char → Prop)
    [DecidablePred p] : Decidable (∀ c ∈ l, p c) := List.decidableBAll p l

/-- What the file holds, if it exists. -/
abbrev RegistryFile := Option (List Char)

section Registry

variable {F : Type} [FloatText F] [NumberOps F] [Hashlib]

def canonicalJson (v : Value F) : Except String (List Char) := do
  return (← v.encode).text .compact

def sha256Json (v : Value F) : Except String HexDigest := do
  return sha256 (← canonicalJson v)

/-- `canonical_json` of a value that was read. -/
def canonicalText (j : Json F) : List Char := j.sortKeys.text .compact

/-- A float that is written as a literal. -/
def literal (text : String) : Json F := .float (FloatText.ofText text.toList)

def hypotheses : List (String × Json F) := [
  ("session_liquidity", .dict [
    ("title", .str "Session liquidity/volatility transition"),
    ("rationale", .str ("London/New York openings can change participation and volatility; " ++
      "test whether a pre-registered opening-window rule has net value.")),
    ("parameters", .dict [
      ("session", .str "LONDON_OPEN"), ("lookback_bars", .int 8), ("threshold", literal "1.0")])]),
  ("vol_compression_expansion", .dict [
    ("title", .str "Volatility compression then expansion"),
    ("rationale", .str ("A contraction in realized range may precede a volatility expansion; " ++
      "directional edge must be separately demonstrated, not assumed.")),
    ("parameters", .dict [
      ("compression_window", .int 8), ("expansion_window", .int 3), ("threshold", literal "0.8")])]),
  ("daily_weekly_reversion", .dict [
    ("title", .str "Daily/weekly extreme mean reversion"),
    ("rationale", .str ("Large deviations from a frozen daily/weekly reference may revert when " ++
      "liquidity normalizes; trend days are a known failure mode.")),
    ("parameters", .dict [
      ("reference", .str "PRIOR_DAY_RANGE"), ("z_threshold", literal "1.5"),
      ("max_holding_bars", .int 16)])]),
  ("trend_persistence_regime", .dict [
    ("title", .str "Trend persistence conditional on regime"),
    ("rationale", .str ("Directional persistence may be stronger in sustained-trend regimes than " ++
      "in range regimes; the regime classifier must be causal.")),
    ("parameters", .dict [
      ("trend_window", .int 16), ("regime_window", .int 32), ("threshold", literal "1.0")])]),
  ("news_window_behavior", .dict [
    ("title", .str "Pre/post scheduled news behavior"),
    ("rationale", .str ("Scheduled macro releases can alter volatility and liquidity; timestamps " ++
      "and event classifications must be sourced and time-aligned.")),
    ("parameters", .dict [
      ("pre_event_minutes", .int 30), ("post_event_minutes", .int 60),
      ("event_class", .str "HIGH_IMPACT")])])]

/-! ## Verification -/

def getEntry (key : String) (record : List (String × Json F)) : Option (Json F) :=
  Dict.find key record

/-- `value == n`, for a number. -/
def Json.equalsInt (j : Option (Json F)) (n : Int) : Bool :=
  match j with
  | some (.int m) => Number.eq (F := F) (.int m) (.int n)
  | some (.bool b) => Number.eq (F := F) (.int b.toNat) (.int n)
  | some (.float x) => Number.eq (.float x) (.int n)
  | _ => false

def Json.equalsStr (j : Option (Json F)) (s : String) : Bool :=
  match j with
  | some (.str t) => decide (t = s)
  | _ => false

def withoutHash (record : List (String × Json F)) : List (String × Json F) :=
  record.filter fun e ↦ decide (e.1 ≠ "record_sha256")

/-- The variables of the loop of `verify_trial_registry`. -/
structure Verification (F : Type) where
  errors : List String
  records : List (List (String × Json F))
  previous : String

def recordErrors (lineNumber : Nat) (v : Verification F) (record : List (String × Json F)) :
    List String :=
  let line := "line " ++ toString lineNumber
  (if Json.equalsInt (getEntry "trial_number" record) (v.records.length + 1) then []
    else [line ++ ": trial_number mismatch"]) ++
  (if Json.equalsStr (getEntry "previous_record_sha256" record) v.previous then []
    else [line ++ ": previous hash mismatch"]) ++
  (if Json.equalsStr (getEntry "record_sha256" record)
      (sha256 (canonicalText (.dict (withoutHash record)))).text then []
    else [line ++ ": record hash mismatch"])

/-- One turn of the loop of `verify_trial_registry`. -/
def verifyLine (v : Verification F) (line : List Char × Nat) : Verification F :=
  if line.1.all isspace then v
  else match (loads line.1 : Except String (Json F)) with
    | .error msg =>
      { v with errors := v.errors ++ ["line " ++ toString line.2 ++ ": invalid JSON (" ++ msg ++ ")"] }
    | .ok (.dict record) =>
      { errors := v.errors ++ recordErrors line.2 v record
        records := v.records ++ [record]
        previous := match getEntry "record_sha256" record with
          | some (.str s) => s
          | _ => "INVALID" }
    | .ok _ =>
      { v with errors := v.errors ++ ["line " ++ toString line.2 ++ ": record must be an object"] }

/-- The loop of `verify_trial_registry`. -/
def verifyLines (lines : List (List Char)) : Verification F :=
  (lines.zipIdx 1).foldl verifyLine ⟨[], [], "GENESIS"⟩

def readLines (text : List Char) : List (List Char) := splitlines (universalNewlines text)

structure RegistryReport where
  valid : Bool
  records : Nat
  errors : List String
deriving DecidableEq

variable (F) in
def verifyTrialRegistry (file : RegistryFile) : RegistryReport :=
  match file with
  | none => ⟨true, 0, []⟩
  | some text =>
    let v : Verification F := verifyLines (readLines text)
    ⟨decide (v.errors = []), v.records.length, v.errors⟩

/-! ## Registration -/

structure IsoTime where
  text : String
  ascii : ∀ c ∈ text.toList, 0x20 ≤ c.toNat ∧ c.toNat < 0x7F

/-- A call of `register_trial`, with the time at which it is made. -/
structure Trial (F : Type) where
  hypothesisId : String
  dataSha256 : String
  codeSha : String
  phase : String
  metadata : Option (List (Key F × Value F))
  now : IsoTime

/-- `str.lower()`; no character but those of ASCII turns into a hexadecimal digit. -/
def lower (s : String) : String := s.map Char.toLower

def readRecords (file : RegistryFile) : Except String (List (Json F)) :=
  match file with
  | none => .ok []
  | some text => ((readLines text).filter fun line ↦ !line.all isspace).mapM loads

/-- `records[-1]["record_sha256"] if records else "GENESIS"`. -/
def previousHash (records : List (Json F)) : Except String (Json F) :=
  match records.getLast? with
  | none => .ok (.str "GENESIS")
  | some (.dict record) => found (getEntry "record_sha256" record) "KeyError: 'record_sha256'"
  | some _ => .error "TypeError"

/-- The record without its hash. -/
def trialPayload (t : Trial F) (number : Nat) (hypothesisSha256 : HexDigest) (previous : Json F) :
    List (Key F × Value F) := [
  (.str "trial_number", .int number),
  (.str "timestamp_utc", .str t.now.text),
  (.str "hypothesis_id", .str t.hypothesisId),
  (.str "hypothesis_sha256", .str hypothesisSha256.text),
  (.str "data_sha256", .str (lower t.dataSha256)),
  (.str "code_sha", .str t.codeSha),
  (.str "phase", .str t.phase),
  (.str "metadata", .dict (t.metadata.getD [])),
  (.str "previous_record_sha256", previous.toValue)]

def registerTrial (file : RegistryFile) (t : Trial F) : Except String (Value F × RegistryFile) := do
  let hypothesis ← found (Dict.find t.hypothesisId (hypotheses (F := F)))
    ("Unknown hypothesis_id: " ++ t.hypothesisId)
  require (t.phase ∈ ["EXPLORATORY", "CANDIDATE_VALIDATION", "FINAL_HOLDOUT"])
    "Invalid research phase"
  require (t.dataSha256.length = 64 ∧ ∀ c ∈ (lower t.dataSha256).toList, IsHex c)
    "data_sha256 must be a 64-character SHA-256 hex digest"
  let integrity := verifyTrialRegistry F file
  require (integrity.valid = true)
    ("TRIAL_REGISTRY_INTEGRITY_FAILURE: " ++ "; ".intercalate integrity.errors)
  let records ← readRecords file
  let previous ← previousHash records
  let hypothesisSha256 ← sha256Json (Json.toValue hypothesis)
  let payload := trialPayload t (records.length + 1) hypothesisSha256 previous
  let recordSha256 ← sha256Json (.dict payload)
  let record : Value F := .dict (payload ++ [(.str "record_sha256", .str recordSha256.text)])
  let line ← canonicalJson record
  return (record, some (file.getD [] ++ (line ++ ['\n'])))

/-- A registry that does not exist at first; a call that raises leaves the file as it is. -/
def trialRegistry : Machine RegistryFile (Trial F) (Except String (Value F)) where
  init := none
  step := fun t file ↦
    match registerTrial file t with
    | .ok (record, file') => (.ok record, file')
    | .error message => (.error message, file)

end Registry

end Qros.Orchestration
