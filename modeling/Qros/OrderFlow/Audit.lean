import Qros.Lib.KeySort
import Qros.OrderFlow.Canonical
import Qros.Python.Value

/-!
# The replay audit

`build_replay_audit` of `order_flow/audit.py`.  Events are grouped by stream and partition and
sorted by their ordinals; the digest of the rows and of the settings are the audit.
-/

namespace Qros.OrderFlow

open Qros.Lib Qros.Lib.KeySort Qros.Python

/-! ## Values of a configuration -/

/-- A value of the replay configuration, by what `_canonical_value` asks of it. -/
inductive ConfigValue where
  | none
  | bool (b : Bool)
  | int (n : Int)
  | str (s : String)
  | decimal (d : Decimal)
  | nonFiniteDecimal
  | time (t : Utc)
  | naiveTime
  /-- An `Enum` by its value. -/
  | enumStr (value : String)
  | enumInt (value : Int)
  | list (items : List ConfigValue)
  | tuple (items : List ConfigValue)
  | mapping (entries : List (String × ConfigValue))
  /-- A `Mapping` with a key that is no string. -/
  | otherMapping
  | record (qualname : String) (fields : List (String × ConfigValue))
  | float
  | other (qualname : String)

namespace ConfigValue

mutual

def canonical : ConfigValue → Except String Canonical
  | .none => .ok .null
  | .bool b => .ok (.bool b)
  | .int n => .ok (.int n)
  | .str s => .ok (.str s)
  | .decimal d => .ok (canonicalDecimal d)
  | .nonFiniteDecimal => .error "non-finite Decimal cannot be canonicalized"
  | .time t => .ok (canonicalTime t)
  | .naiveTime => .error "datetime must be timezone-aware UTC"
  | .enumStr value => .ok (.str value)
  | .enumInt value => .ok (.int value)
  | .list items => (canonicalItems items).map .list
  | .tuple items => (canonicalItems items).map .list
  | .mapping entries => (canonicalEntries entries).map .dict
  | .otherMapping => .error "canonical mapping keys must be strings"
  | .record qualname fields =>
    (canonicalEntries fields).map fun es ↦ .dict (("__type__", .str qualname) :: es)
  | .float => .error "float is not accepted in canonical audit payloads; use Decimal"
  | .other qualname => .error ("unsupported canonical value: " ++ qualname)

def canonicalItems : List ConfigValue → Except String (List Canonical)
  | [] => .ok []
  | v :: vs => do
    let j ← canonical v
    let js ← canonicalItems vs
    return j :: js

def canonicalEntries : List (String × ConfigValue) → Except String (List (String × Canonical))
  | [] => .ok []
  | (key, v) :: es => do
    let j ← canonical v
    let js ← canonicalEntries es
    return (key, j) :: js

end

mutual

/-- The keys of every dictionary and the fields of every record are different. -/
def Distinct : ConfigValue → Prop
  | .list items => DistinctItems items
  | .tuple items => DistinctItems items
  | .mapping entries => (entries.map Prod.fst).Nodup ∧ DistinctEntries entries
  | .record _ fields =>
    "__type__" ∉ fields.map Prod.fst ∧ (fields.map Prod.fst).Nodup ∧ DistinctEntries fields
  | _ => True

def DistinctItems : List ConfigValue → Prop
  | [] => True
  | v :: vs => v.Distinct ∧ DistinctItems vs

def DistinctEntries : List (String × ConfigValue) → Prop
  | [] => True
  | (_, v) :: es => v.Distinct ∧ DistinctEntries es

end

end ConfigValue

/-! ## Streams -/

structure StreamKey where
  sourceId : String
  datasetId : String
  instrumentId : String
  className : String
deriving DecidableEq

def StreamKey.parts (k : StreamKey) : List String :=
  [k.sourceId, k.datasetId, k.instrumentId, k.className]

def MarketEvent.streamKey (e : MarketEvent) : StreamKey :=
  ⟨e.base.sourceId, e.base.datasetId, e.base.instrumentId, e.className⟩

def MarketEvent.sequenceNumber : MarketEvent → Option Sequence
  | .trade e => e.sequenceNumber
  | .quote e => e.sequenceNumber
  | .book e => some e.sequenceNumber
  | .mutation e => some e.sequenceNumber

/-- The text of a key in an error. -/
class StreamText where
  text : StreamKey → String

inductive SequenceMode where
  | contiguous
  | monotonic
deriving DecidableEq

def SequenceMode.value : SequenceMode → String
  | .contiguous => "CONTIGUOUS"
  | .monotonic => "MONOTONIC"

structure SequencePolicy where
  mode : SequenceMode := .contiguous
  expectedFirstSequence : Option Nat := some 1
  requireEventTimeMonotonic : Bool := true
  requireReceiveTimeMonotonic : Bool := true
deriving DecidableEq

structure AuditInput where
  events : List MarketEvent
  replayConfig : List (String × ConfigValue)
  codeRevision : String
  expectedFirstSequence : Option Int
  sequencePolicies : Dict StreamKey SequencePolicy
  sequenceOrdinals : Dict String Int
  streamPartitions : Dict String String
  replayConfig_ok : (ConfigValue.mapping replayConfig).Distinct

/-- A partition and an event. -/
abbrev Row : Type := String × MarketEvent

namespace AuditInput

variable (I : AuditInput)

def partitionOf (e : MarketEvent) : String :=
  (I.streamPartitions.get? e.base.rawEventHash).getD "default"

def streams : Dict StreamKey (List MarketEvent) := .groupBy MarketEvent.streamKey I.events

section

variable [StreamText]

/-- The ordinal of an event, from its sequence number or the adapter. -/
def adapted (k : StreamKey) (e : MarketEvent) : Except String Int :=
  let given := I.sequenceOrdinals.get? e.base.rawEventHash
  match e.sequenceNumber with
  | some (.int n) => do
    require (∀ m ∈ given, m = n) "integer sequence conflicts with supplied adapter ordinal"
    return n
  | some (.str _) =>
    found given ("stream " ++ StreamText.text k ++
      " requires explicit ordinal adapter for string sequence")
  | none => .error ("stream " ++ StreamText.text k ++ " requires integer sequence number")

def ordinal (k : StreamKey) (e : MarketEvent) : Except String (Int × MarketEvent) := do
  let ordinal ← I.adapted k e
  require (0 ≤ ordinal) ("stream " ++ StreamText.text k ++ " contains negative sequence ordinal")
  return (ordinal, e)

def checkOrdinals (policy : SequencePolicy) (name : String) (previous current : Int) :
    Except String Unit :=
  match policy.mode with
  | .contiguous => require (current = previous + 1) (name ++ " contains sequence gap")
  | .monotonic => require (previous < current) (name ++ " is not strictly increasing")

def checkTimes (policy : SequencePolicy) (name : String) (previous current : BaseEvent) :
    Except String Unit := do
  require (policy.requireEventTimeMonotonic = true → previous.eventTimeUtc ≤ current.eventTimeUtc)
    (name ++ " event time regresses by sequence")
  require (policy.requireReceiveTimeMonotonic = true →
    previous.receiveTimeUtc ≤ current.receiveTimeUtc) (name ++ " receive time regresses by sequence")

def auditPartition (k : StreamKey) (policy : SequencePolicy) (partition_id : String)
    (events : List MarketEvent) : Except String (List Row) := do
  let stream := "stream " ++ StreamText.text k
  let name := stream ++ " partition " ++ partition_id
  let unsorted ← events.mapM (I.ordinal k)
  let ordinals := stableSortBy Prod.fst unsorted
  let values := ordinals.map Prod.fst
  require values.Nodup (name ++ " has duplicate sequence ordinals")
  require (∀ first ∈ policy.expectedFirstSequence, values.head? = some (first : Int))
    (name ++ " does not start at expected sequence")
  forM (values.zip values.tail) fun v ↦ checkOrdinals policy name v.1 v.2
  require (ordinals.map fun o ↦ o.2.base.rawEventHash).Nodup
    (name ++ " has duplicate raw event hashes")
  forM (ordinals.zip ordinals.tail) fun o ↦ checkTimes policy stream o.1.2.base o.2.2.base
  return ordinals.map fun o ↦ (partition_id, o.2)

def defaultPolicy : SequencePolicy :=
  { expectedFirstSequence := I.expectedFirstSequence.map Int.toNat }

def auditStream (k : StreamKey) : Except String (List Row) := do
  let group := (I.streams.get? k).getD []
  let explicit := fun e : MarketEvent ↦ e.base.rawEventHash ∈ I.streamPartitions.keys
  require ((∃ e ∈ group, explicit e) → ∀ e ∈ group, explicit e)
    ("stream " ++ StreamText.text k ++ " has incomplete reset partition mapping")
  let partitioned := Dict.groupBy I.partitionOf group
  let policy := (I.sequencePolicies.get? k).getD I.defaultPolicy
  let rows ← (sortStrings partitioned.keys).mapM fun partition_id ↦
    I.auditPartition k policy partition_id ((partitioned.get? partition_id).getD [])
  return rows.flatten

def sortedStreams : List StreamKey :=
  I.streams.keys.insertionSort fun k k' ↦ k.parts ≤ k'.parts

def rows : Except String (List Row) := do
  require (strip I.codeRevision ≠ "") "code_revision must be non-empty"
  require (∀ n ∈ I.expectedFirstSequence, 0 ≤ n)
    "expected_first_sequence must be a non-negative int or None"
  require (∀ v ∈ I.streamPartitions.values, strip v ≠ "")
    "stream_partitions must map raw event hashes to non-empty partition IDs"
  let hashes := I.events.map fun e ↦ e.base.rawEventHash
  require (I.sequenceOrdinals.keys ⊆ hashes ∧ I.streamPartitions.keys ⊆ hashes)
    "sequence adapter mappings contain unknown raw event hashes"
  require (I.sequencePolicies.keys ⊆ I.streams.keys)
    "sequence_policies contains an unknown stream key"
  let rows ← I.sortedStreams.mapM I.auditStream
  return rows.flatten

end

end AuditInput

/-! ## The digests -/

def rowCanonical (r : Row) : Canonical :=
  .dict [("partition_id", .str r.1), ("event", r.2.canonical)]

def eventsPayload (rows : List Row) : List Char := canonicalBytes (.list (rows.map rowCanonical))

def SequencePolicy.canonical (p : SequencePolicy) : Canonical :=
  .dict [("mode", .str p.mode.value),
    ("expected_first_sequence", canonicalOption (fun n : Nat ↦ .int n) p.expectedFirstSequence),
    ("require_event_time_monotonic", .bool p.requireEventTimeMonotonic),
    ("require_receive_time_monotonic", .bool p.requireReceiveTimeMonotonic)]

def StreamKey.joined (k : StreamKey) : String :=
  String.ofList (['|'].intercalate (k.parts.map String.toList))

def policyPayload (policies : Dict StreamKey SequencePolicy) : Dict String Canonical :=
  policies.entries.foldl (fun d e ↦ d.set e.1.joined e.2.canonical) ∅

namespace AuditInput

variable (I : AuditInput)

def replayFields (eventsHash : String) (config : Canonical) : List (String × Canonical) :=
  [("canonical_events_sha256", .str eventsHash),
    ("replay_config", config),
    ("code_revision", .str I.codeRevision),
    ("default_expected_first_sequence", canonicalOption .int I.expectedFirstSequence),
    ("sequence_policies", .dict (policyPayload I.sequencePolicies).entries),
    ("sequence_ordinals", .dict (I.sequenceOrdinals.entries.map fun e ↦ (e.1, .int e.2))),
    ("stream_partitions", .dict (I.streamPartitions.entries.map fun e ↦ (e.1, .str e.2)))]

def replayPayload (eventsHash : String) : Except String (List Char) := do
  let config ← (ConfigValue.mapping I.replayConfig).canonical
  return canonicalBytes (.dict (I.replayFields eventsHash config))

/-- What `canonical_events_sha256` is the digest of. -/
def eventsPreimage [StreamText] : Except String (List Char) := do
  let rows ← I.rows
  return eventsPayload rows

/-- What `replay_sha256` is the digest of. -/
def replayPreimage [Hashlib] [StreamText] : Except String (List Char) := do
  let payload ← I.eventsPreimage
  I.replayPayload (sha256 payload).text

end AuditInput

structure ReplayAudit where
  eventCount : Nat
  streamCount : Nat
  canonicalEventsSha256 : HexDigest
  replaySha256 : HexDigest
  codeRevision : String

def buildReplayAudit [Hashlib] [StreamText] (I : AuditInput) : Except String ReplayAudit := do
  let rows ← I.rows
  let eventsHash := sha256 (eventsPayload rows)
  let replayPayload ← I.replayPayload eventsHash.text
  return {
    eventCount := rows.length
    streamCount := (I.streams.values.map fun group ↦ ((group.map I.partitionOf).dedup).length).sum
    canonicalEventsSha256 := eventsHash
    replaySha256 := sha256 replayPayload
    codeRevision := I.codeRevision }

end Qros.OrderFlow
