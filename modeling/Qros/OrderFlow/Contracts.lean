import Qros.Python.Datetime
import Qros.Python.Builtins

/-!
# Market events

The events of `order_flow/contracts.py`.  What `__post_init__` checks is part of each type.
Two events are equal in Python (`Same`) when their fields are, decimals by their values.
-/

namespace Qros.OrderFlow

open Qros.Python

/-! ## Fields -/

/-- `_non_empty`. -/
def IsTrimmed (s : String) : Prop := s ≠ "" ∧ strip s = s

def IsSha256 (s : String) : Prop :=
  s.toList.length = 64 ∧ ∀ c ∈ s.toList, c ∈ "0123456789abcdef".toList

instance (s : String) : Decidable (IsTrimmed s) := inferInstanceAs (Decidable (_ ∧ _))

instance (s : String) : Decidable (IsSha256 s) :=
  @instDecidableAnd _ _ _ (List.decidableBAll _ s.toList)

inductive Sequence where
  | int (n : Int)
  | str (s : String)
deriving DecidableEq

/-- A sequence number in words is not empty. -/
def Sequence.IsGiven : Sequence → Prop
  | .int _ => True
  | .str s => s ≠ ""

inductive AggressorSide where
  | buy
  | sell
  | unknown
deriving DecidableEq

inductive AggressorMethod where
  | exchangeFlag
  | quoteInferred
  | unknown
deriving DecidableEq

inductive QuoteCondition where
  | normal
  | locked
  | crossed
  | stale
deriving DecidableEq

inductive BookSide where
  | bid
  | ask
deriving DecidableEq

inductive BookOperation where
  | add
  | change
  | delete
deriving DecidableEq

inductive BookEventKind where
  | snapshot
  | delta
deriving DecidableEq

def AggressorSide.name : AggressorSide → String
  | .buy => "BUY"
  | .sell => "SELL"
  | .unknown => "UNKNOWN"

def AggressorMethod.name : AggressorMethod → String
  | .exchangeFlag => "EXCHANGE_FLAG"
  | .quoteInferred => "QUOTE_INFERRED"
  | .unknown => "UNKNOWN"

def QuoteCondition.name : QuoteCondition → String
  | .normal => "NORMAL"
  | .locked => "LOCKED"
  | .crossed => "CROSSED"
  | .stale => "STALE"

def BookSide.name : BookSide → String
  | .bid => "BID"
  | .ask => "ASK"

def BookOperation.name : BookOperation → String
  | .add => "ADD"
  | .change => "CHANGE"
  | .delete => "DELETE"

def BookEventKind.name : BookEventKind → String
  | .snapshot => "SNAPSHOT"
  | .delta => "DELTA"

theorem AggressorSide.name_injective : Function.Injective AggressorSide.name := by
  intro a b h
  cases a <;> cases b <;> first | rfl | exact absurd h (by decide)

theorem AggressorMethod.name_injective : Function.Injective AggressorMethod.name := by
  intro a b h
  cases a <;> cases b <;> first | rfl | exact absurd h (by decide)

theorem QuoteCondition.name_injective : Function.Injective QuoteCondition.name := by
  intro a b h
  cases a <;> cases b <;> first | rfl | exact absurd h (by decide)

theorem BookSide.name_injective : Function.Injective BookSide.name := by
  intro a b h
  cases a <;> cases b <;> first | rfl | exact absurd h (by decide)

theorem BookOperation.name_injective : Function.Injective BookOperation.name := by
  intro a b h
  cases a <;> cases b <;> first | rfl | exact absurd h (by decide)

theorem BookEventKind.name_injective : Function.Injective BookEventKind.name := by
  intro a b h
  cases a <;> cases b <;> first | rfl | exact absurd h (by decide)

/-! ## Events -/

structure BaseEvent where
  sourceId : String
  datasetId : String
  instrumentId : String
  eventTimeUtc : Utc
  receiveTimeUtc : Utc
  rawEventHash : String
  sourceId_ok : IsTrimmed sourceId
  datasetId_ok : IsTrimmed datasetId
  instrumentId_ok : IsTrimmed instrumentId
  receiveTime_ok : eventTimeUtc ≤ receiveTimeUtc
  rawEventHash_ok : IsSha256 rawEventHash
deriving DecidableEq

structure TradeEvent extends BaseEvent where
  price : Decimal
  quantity : Decimal
  aggressorSide : AggressorSide
  aggressorMethod : AggressorMethod
  sequenceNumber : Option Sequence
  tradeId : Option String
  price_ok : 0 < price.value
  quantity_ok : 0 < quantity.value
  aggressor_ok : aggressorMethod = .unknown ↔ aggressorSide = .unknown
  sequenceNumber_ok : ∀ n ∈ sequenceNumber, n.IsGiven
  tradeId_ok : ∀ s ∈ tradeId, IsTrimmed s
deriving DecidableEq

structure QuoteEvent extends BaseEvent where
  bidPrice : Decimal
  askPrice : Decimal
  bidSize : Option Decimal
  askSize : Option Decimal
  sequenceNumber : Option Sequence
  condition : QuoteCondition
  bidPrice_ok : 0 < bidPrice.value
  askPrice_ok : 0 < askPrice.value
  crossed_ok : askPrice.value < bidPrice.value ↔ condition = .crossed
  normal_ok : bidPrice.value = askPrice.value → condition ≠ .normal
  locked_ok : condition = .locked → bidPrice.value = askPrice.value
  bidSize_ok : ∀ d ∈ bidSize, 0 ≤ d.value
  askSize_ok : ∀ d ∈ askSize, 0 ≤ d.value
  sequenceNumber_ok : ∀ n ∈ sequenceNumber, n.IsGiven
deriving DecidableEq

structure L2BookEvent extends BaseEvent where
  sequenceNumber : Sequence
  price : Decimal
  side : BookSide
  operation : BookOperation
  quantity : Decimal
  eventKind : BookEventKind
  sequenceNumber_ok : sequenceNumber.IsGiven
  price_ok : 0 < price.value
  quantity_ok : 0 ≤ quantity.value
  operation_ok : quantity.value = 0 ↔ operation = .delete
deriving DecidableEq

inductive TradeMutationAction where
  | new
  | correct
  | cancel
deriving DecidableEq

def TradeMutationAction.name : TradeMutationAction → String
  | .new => "NEW"
  | .correct => "CORRECT"
  | .cancel => "CANCEL"

theorem TradeMutationAction.name_injective : Function.Injective TradeMutationAction.name := by
  intro a b h
  cases a <;> cases b <;> first | rfl | exact absurd h (by decide)

/-- A sequence number in words is not empty and has no blanks around it. -/
def Sequence.IsClean : Sequence → Prop
  | .int _ => True
  | .str s => IsTrimmed s

/-- `TradeMutation` of `order_flow/event_ledger.py`. -/
structure TradeMutation extends BaseEvent where
  tradeId : String
  tradeScopeId : String
  revision : Nat
  action : TradeMutationAction
  sequenceNumber : Sequence
  replacementTrade : Option TradeEvent
  supersedesRawEventHash : Option String
  tradeId_ok : IsTrimmed tradeId
  tradeScopeId_ok : IsTrimmed tradeScopeId
  sequenceNumber_ok : sequenceNumber.IsClean
  revision_ok : (revision = 1 ↔ action = .new) ∧ 1 ≤ revision
  supersedes_ok : supersedesRawEventHash.isSome = true ↔ action ≠ .new
  replacement_ok : replacementTrade.isSome = true ↔ action ≠ .cancel
  supersedesHash_ok : ∀ h ∈ supersedesRawEventHash, IsSha256 h
  identity_ok : ∀ t ∈ replacementTrade, t.sourceId = sourceId ∧ t.datasetId = datasetId ∧
    t.instrumentId = instrumentId ∧ t.tradeId = some tradeId
  available_ok : ∀ t ∈ replacementTrade, t.receiveTimeUtc = receiveTimeUtc
deriving DecidableEq

/-! ## Equality -/

structure TradeEvent.Same (a b : TradeEvent) : Prop where
  base : a.toBaseEvent = b.toBaseEvent
  price : a.price.value = b.price.value
  quantity : a.quantity.value = b.quantity.value
  aggressorSide : a.aggressorSide = b.aggressorSide
  aggressorMethod : a.aggressorMethod = b.aggressorMethod
  sequenceNumber : a.sequenceNumber = b.sequenceNumber
  tradeId : a.tradeId = b.tradeId

instance (a b : TradeEvent) : Decidable (a.Same b) :=
  decidable_of_iff (a.toBaseEvent = b.toBaseEvent ∧ a.price.value = b.price.value ∧
      a.quantity.value = b.quantity.value ∧ a.aggressorSide = b.aggressorSide ∧
      a.aggressorMethod = b.aggressorMethod ∧ a.sequenceNumber = b.sequenceNumber ∧
      a.tradeId = b.tradeId)
    ⟨fun ⟨h₁, h₂, h₃, h₄, h₅, h₆, h₇⟩ ↦ ⟨h₁, h₂, h₃, h₄, h₅, h₆, h₇⟩,
      fun ⟨h₁, h₂, h₃, h₄, h₅, h₆, h₇⟩ ↦ ⟨h₁, h₂, h₃, h₄, h₅, h₆, h₇⟩⟩

theorem TradeEvent.Same.refl (a : TradeEvent) : a.Same a := ⟨rfl, rfl, rfl, rfl, rfl, rfl, rfl⟩

theorem TradeEvent.Same.symm {a b : TradeEvent} (h : a.Same b) : b.Same a :=
  ⟨h.base.symm, h.price.symm, h.quantity.symm, h.aggressorSide.symm, h.aggressorMethod.symm,
    h.sequenceNumber.symm, h.tradeId.symm⟩

theorem TradeEvent.Same.trans {a b c : TradeEvent} (h : a.Same b) (h' : b.Same c) : a.Same c :=
  ⟨h.base.trans h'.base, h.price.trans h'.price, h.quantity.trans h'.quantity,
    h.aggressorSide.trans h'.aggressorSide, h.aggressorMethod.trans h'.aggressorMethod,
    h.sequenceNumber.trans h'.sequenceNumber, h.tradeId.trans h'.tradeId⟩

/-! ## A print -/

def tradePrint : TradeEvent where
  sourceId := "feed"
  datasetId := "trades"
  instrumentId := "GCZ6"
  eventTimeUtc := ⟨0, by decide⟩
  receiveTimeUtc := ⟨0, by decide⟩
  rawEventHash := "aaaaaaaaaaaaaaaaaaaaaaaaaaaaaaaaaaaaaaaaaaaaaaaaaaaaaaaaaaaaaaaa"
  sourceId_ok := by decide +kernel
  datasetId_ok := by decide +kernel
  instrumentId_ok := by decide +kernel
  receiveTime_ok := le_refl _
  rawEventHash_ok := by decide +kernel
  price := .ofNat 2000
  quantity := .ofNat 1
  aggressorSide := .unknown
  aggressorMethod := .unknown
  sequenceNumber := none
  tradeId := some "T-1"
  price_ok := by simp [Decimal.value, Decimal.ofNat]
  quantity_ok := by simp [Decimal.value, Decimal.ofNat]
  aggressor_ok := by decide
  sequenceNumber_ok := fun n hn ↦ absurd hn (Option.not_mem_none n)
  tradeId_ok := by decide +kernel

theorem tradePrint_sourceId_ok : IsTrimmed tradePrint.sourceId := tradePrint.sourceId_ok

theorem tradePrint_datasetId_ok : IsTrimmed tradePrint.datasetId := tradePrint.datasetId_ok

theorem tradePrint_instrumentId_ok : IsTrimmed tradePrint.instrumentId := tradePrint.instrumentId_ok

end Qros.OrderFlow
