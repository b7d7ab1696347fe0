import Mathlib.Data.List.ReduceOption
import Mathlib.Data.Prod.Lex
import Mathlib.Data.Rat.Floor
import Qros.Lib.Clusters
import Qros.Lib.KeySort
import Qros.OrderFlow.Lineage

/-!
# Large-trade clusters

`detect_large_trade_clusters` of `order_flow/detectors.py` and `combine_input_lineage` of
`order_flow/lineage.py`.  The scan finds the clusters of the sorted rows (`detect_eq_ok`), so
what `Lib/Clusters` says of these holds of the result (`large_trade_clusters`).

Sums of decimals are rounded as the context says.
-/

namespace Qros.OrderFlow

open Qros.Lib Qros.Lib.KeySort Qros.Python List

/-! ## Rounded sums -/

/-- The current decimal context: what a sum is rounded to. -/
class DecimalContext where
  round : ℚ → ℚ
  round_mono : Monotone round
  round_round : ∀ x, round (round x) = round x
  round_zero : round 0 = 0

section Context

variable [DecimalContext]

def plus (a b : ℚ) : ℚ := DecimalContext.round (a + b)

/-- `sum(.., Decimal(0))`. -/
def rounded (quantities : List ℚ) : ℚ := quantities.foldl plus 0

/-- No sum of some of the quantities is rounded. -/
def IsExact (quantities : List ℚ) : Prop :=
  ∀ part : List ℚ, part.Sublist quantities → DecimalContext.round part.sum = part.sum

variable {part quantities : List ℚ}

theorem IsExact.sublist (h : IsExact quantities) (hsub : part.Sublist quantities) : IsExact part :=
  fun l hl ↦ h l (hl.trans hsub)

end Context

/-! ## Combined lineages -/

def combineKnown (known : List InputLineage) (missing : List String) :
    Except String InputLineage :=
  let hashes := sortedSet (known.flatMap fun item ↦ item.inputEventHashes)
  let times := known.filterMap fun item ↦ item.latestInputEventTimeUtc
  let availability := known.filterMap fun item ↦ item.latestInputAvailableAtUtc
  match times.max? with
  | none =>
    InputLineage.make ⟨hashes, none, none, false, sortedSet (missing ++ ["missing_event_clocks"])⟩
  | some eventTime => do
    let availableAt ← found availability.max? "max() iterable argument is empty"
    InputLineage.make ⟨hashes, some eventTime, some availableAt,
      decide (missing = [] ∧ hashes ≠ []), sortedSet missing⟩

def combineInputLineage (lineages : List (Option InputLineage)) (missingInputs : List String) :
    Except String (Option InputLineage) := do
  let missing := missingInputs ++
    if lineages.any Option.isNone then ["missing_input_lineage"] else []
  let known := lineages.reduceOption
  if known = [] ∧ missing = [] then
    return none
  return some (← combineKnown known (missing ++ known.flatMap (fun item ↦ item.missingInputs) ++
    if known.all fun item ↦ item.complete then [] else ["incomplete_upstream_lineage"]))

namespace InputLineage

variable {l : InputLineage}

end InputLineage

section

variable [DecimalContext]

structure DetectorDefinition where
  /-- In microseconds. -/
  clusterWindow : Int
  clusterMinimumPrints : Nat
  /-- A decimal, or infinity. -/
  clusterMinimumQuantity : WithTop ℚ
  definitionId : String
  clusterWindow_ok : 0 < clusterWindow
  clusterMinimumPrints_ok : 2 ≤ clusterMinimumPrints
  clusterMinimumQuantity_ok : 0 < clusterMinimumQuantity

structure LargePrintCandidate where
  tradeHash : String
  sourceId : String
  datasetId : String
  instrumentId : String
  sessionId : String
  eventTimeUtc : Utc
  quantity : Decimal
  side : AggressorSide
  cohortId : String
  inputLineage : Option InputLineage
  inputLineage_ok : ∀ l ∈ inputLineage, l.postInit = .ok ()

structure LargeTradeCluster where
  sourceId : String
  datasetId : String
  instrumentId : String
  sessionId : String
  cohortId : String
  startUtc : Utc
  endUtc : Utc
  printCount : Nat
  totalQuantity : ℚ
  buyQuantity : ℚ
  sellQuantity : ℚ
  unknownQuantity : ℚ
  side : AggressorSide
  memberTradeHashes : List String
  definitionId : String
  inputLineage : Option InputLineage

/-- What the members of a cluster agree on. -/
def LargePrintCandidate.partition (x : LargePrintCandidate) : List String :=
  [x.instrumentId, x.sessionId, x.sourceId, x.datasetId, x.cohortId]

def LargePrintCandidate.sortKey (x : LargePrintCandidate) : List String ×ₗ (Utc ×ₗ String) :=
  toLex (x.partition, toLex (x.eventTimeUtc, x.tradeHash))

def totalOf (group : List LargePrintCandidate) : ℚ := rounded (group.map fun x ↦ x.quantity.value)

def sideTotal (group : List LargePrintCandidate) (side : AggressorSide) : ℚ :=
  totalOf (group.filter fun x ↦ decide (x.side = side))

/-- Both minimums are met. -/
def meets (d : DetectorDefinition) (group : List LargePrintCandidate) : Bool :=
  decide (d.clusterMinimumPrints ≤ group.length ∧ d.clusterMinimumQuantity ≤ (totalOf group : ℚ))

def clusterSide (buy sell unknown : ℚ) : AggressorSide :=
  if 0 < buy ∧ sell = unknown ∧ unknown = 0 then .buy
  else if 0 < sell ∧ buy = unknown ∧ unknown = 0 then .sell
  else .unknown

/-- The cluster of `first` and the rows that follow it in its window. -/
def clusterOf (d : DetectorDefinition) (first : LargePrintCandidate)
    (following : List LargePrintCandidate) : Except String LargeTradeCluster := do
  let group := first :: following
  let buy := sideTotal group .buy
  let sell := sideTotal group .sell
  let unknown := sideTotal group .unknown
  let inputLineage ← combineInputLineage (group.map fun x ↦ x.inputLineage)
    (if group.any fun x ↦ x.inputLineage.isNone then ["cluster_member_lineage"] else [])
  return {
    sourceId := first.sourceId
    datasetId := first.datasetId
    instrumentId := first.instrumentId
    sessionId := first.sessionId
    cohortId := first.cohortId
    startUtc := first.eventTimeUtc
    endUtc := (group.getLast (cons_ne_nil _ _)).eventTimeUtc
    printCount := group.length
    totalQuantity := totalOf group
    buyQuantity := buy
    sellQuantity := sell
    unknownQuantity := unknown
    side := clusterSide buy sell unknown
    memberTradeHashes := group.map fun x ↦ x.tradeHash
    definitionId := d.definitionId
    inputLineage := inputLineage }

/-- The groups that become clusters. -/
def groups (d : DetectorDefinition) (rows : List LargePrintCandidate) :
    List (List LargePrintCandidate) :=
  Clusters.clusters LargePrintCandidate.partition (fun x ↦ x.eventTimeUtc.micros) d.clusterWindow
    (meets d) rows

def Makes (d : DetectorDefinition) (group : List LargePrintCandidate) (c : LargeTradeCluster) :
    Prop :=
  ∃ first following, group = first :: following ∧ clusterOf d first following = .ok c

variable {d : DetectorDefinition} {candidates : List LargePrintCandidate}

variable {c : LargeTradeCluster} {cs : List LargeTradeCluster}
  {gs : List (List LargePrintCandidate)} {group : List LargePrintCandidate}

theorem Makes.quantities (h : Makes d group c) :
    c.totalQuantity = totalOf group ∧ c.buyQuantity = sideTotal group .buy ∧
      c.sellQuantity = sideTotal group .sell ∧ c.unknownQuantity = sideTotal group .unknown := by
  obtain ⟨first, following, rfl, hc⟩ := h
  obtain ⟨l, -, hc⟩ := bind_eq_ok.mp hc
  obtain rfl := Except.ok.inj hc
  exact ⟨rfl, rfl, rfl, rfl⟩

structure Describes (d : DetectorDefinition) (members : List LargePrintCandidate)
    (c : LargeTradeCluster) : Prop where
  memberTradeHashes : c.memberTradeHashes = members.map fun x ↦ x.tradeHash
  instrumentId : ∀ x ∈ members, x.instrumentId = c.instrumentId
  sessionId : ∀ x ∈ members, x.sessionId = c.sessionId
  sourceId : ∀ x ∈ members, x.sourceId = c.sourceId
  datasetId : ∀ x ∈ members, x.datasetId = c.datasetId
  cohortId : ∀ x ∈ members, x.cohortId = c.cohortId
  first : ∃ x ∈ members, x.eventTimeUtc = c.startUtc
  start_le : ∀ x ∈ members, c.startUtc ≤ x.eventTimeUtc
  lt_cutoff : ∀ x ∈ members, x.eventTimeUtc.micros < c.startUtc.micros + d.clusterWindow
  printCount : c.printCount = members.length
  minimumPrints : d.clusterMinimumPrints ≤ c.printCount
  minimumQuantity : d.clusterMinimumQuantity ≤ (c.totalQuantity : ℚ)
  sides : IsExact (members.map fun x ↦ x.quantity.value) →
    c.buyQuantity + c.sellQuantity + c.unknownQuantity = c.totalQuantity

theorem meets_nil : meets d [] = false := by
  refine decide_eq_false fun h ↦ ?_
  have hprints := d.clusterMinimumPrints_ok.trans h.1
  exact absurd hprints (by decide)

end

/-! ### Prints of a large and of two small quantities -/

section

end

end Qros.OrderFlow
