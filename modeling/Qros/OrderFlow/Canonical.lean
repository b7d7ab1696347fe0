import Qros.OrderFlow.Contracts
import Qros.Python.JsonAscii

/-!
# Canonical bytes

`canonical_bytes` of `order_flow/audit.py`, for events.  Decimals become their fixed-point
text, times their text in UTC, and a record a dictionary with the name of its class.  No
float is accepted, so the JSON values here are those whose floats are `nan` only.

Two events have the same bytes just when they agree in everything but the exponents of
their decimals (`Alike`).
-/

namespace Qros.OrderFlow

open Qros.Lib Qros.Python

/-- The floats of canonical values, of which none is used. -/
instance : FloatText Unit where
  kind _ := .nan
  repr _ := []
  ofText _ := ()
  nan := ()
  posInf := ()
  negInf := ()

instance : LawfulFloatText Unit where
  literal _ h := nomatch h
  ofText_repr _ h := nomatch h
  posInf _ h := nomatch h
  negInf _ h := nomatch h

instance : SingleNan Unit := ⟨fun _ _ ↦ rfl⟩

abbrev Canonical : Type := Json Unit

/-- `json.dumps` with sorted keys and compact separators, in ASCII. -/
def canonicalBytes (j : Canonical) : List Char := j.sortKeys.asciiText .compact

theorem canonicalBytes_eq_iff {j k : Canonical} (hj : j.Distinct) (hk : k.Distinct) :
    canonicalBytes j = canonicalBytes k ↔ j.sortKeys = k.sortKeys := by
  constructor
  · intro h
    have hdecoded := decoded_eq_of_asciiText_eq hj.sortKeys hk.sortKeys h
    rwa [Json.decoded_eq_self, Json.decoded_eq_self] at hdecoded
  · intro h
    rw [canonicalBytes, canonicalBytes, h]

/-! ## Dictionaries with sorted keys -/

section

variable {α : Type} {es es' : List (String × α)}

theorem find_eq_of_perm (h : es.Perm es') (hnd : (es.map Prod.fst).Nodup) (k : String) :
    Dict.find k es = Dict.find k es' := by
  have hnd' : (es'.map Prod.fst).Nodup := (h.map Prod.fst).nodup_iff.mp hnd
  ext a
  rw [Dict.find_eq_some_iff hnd, Dict.find_eq_some_iff hnd', h.mem_iff]

theorem find_map {β : Type} (f : α → β) (k : String) (es : List (String × α)) :
    Dict.find k (es.map fun e ↦ (e.1, f e.2)) = (Dict.find k es).map f := by
  induction es with
  | nil => rfl
  | cons e es ih =>
    rw [List.map_cons, Dict.find, Dict.find, ih]
    split <;> rfl

end

variable {es es' : List (String × Canonical)}

theorem find_of_sortKeys_eq (hnd : (es.map Prod.fst).Nodup) (hnd' : (es'.map Prod.fst).Nodup)
    (h : (Json.dict es).sortKeys = (Json.dict es').sortKeys) (k : String) :
    (Dict.find k es).map Json.sortKeys = (Dict.find k es').map Json.sortKeys := by
  have hsorted : ∀ {es : List (String × Canonical)}, (es.map Prod.fst).Nodup →
      Dict.find k (sortEntries (Json.sortValues es)) = (Dict.find k es).map Json.sortKeys := by
    intro es hnd
    rw [Json.sortValues_eq_map, sortEntries_map, find_map]
    exact congrArg _ (find_eq_of_perm (perm_sortEntries es) (nodup_keys_sortEntries.mpr hnd) k)
  rw [Json.sortKeys, Json.sortKeys, Json.dict.injEq] at h
  rw [← hsorted hnd, h, hsorted hnd']

/-! ## Values -/

def canonicalTime (t : Utc) : Canonical := .str (String.ofList t.isoMicroseconds)

def canonicalDecimal (d : Decimal) : Canonical := .str (String.ofList d.fixed)

def canonicalSequence : Sequence → Canonical
  | .int n => .int n
  | .str s => .str s

def canonicalOption {α : Type} (f : α → Canonical) : Option α → Canonical
  | none => .null
  | some a => f a

theorem canonicalTime_injective {t u : Utc}
    (h : (canonicalTime t).sortKeys = (canonicalTime u).sortKeys) : t = u :=
  Utc.isoMicroseconds_injective (String.ofList_injective (Json.str.inj h))

theorem fixed_eq_of_canonicalDecimal {d e : Decimal}
    (h : (canonicalDecimal d).sortKeys = (canonicalDecimal e).sortKeys) : d.fixed = e.fixed :=
  String.ofList_injective (Json.str.inj h)

theorem canonicalSequence_injective {m n : Sequence}
    (h : (canonicalSequence m).sortKeys = (canonicalSequence n).sortKeys) : m = n := by
  cases m with
  | int m =>
    cases n with
    | int n => exact congrArg Sequence.int (Json.int.inj h)
    | str n => cases h
  | str m =>
    cases n with
    | int n => cases h
    | str n => exact congrArg Sequence.str (Json.str.inj h)

theorem rel_of_canonicalOption {α : Type} {f : α → Canonical} {R : α → α → Prop}
    (hf : ∀ a, (f a).sortKeys ≠ .null) (hR : ∀ a b, (f a).sortKeys = (f b).sortKeys → R a b)
    {a b : Option α} (h : (canonicalOption f a).sortKeys = (canonicalOption f b).sortKeys) :
    Option.Rel R a b := by
  cases a with
  | none =>
    cases b with
    | none => exact .none
    | some b => exact absurd h.symm (hf b)
  | some a =>
    cases b with
    | none => exact absurd h (hf a)
    | some b => exact .some (hR a b h)

theorem eq_of_rel {α : Type} {a b : Option α} (h : Option.Rel (· = ·) a b) : a = b := by
  cases h with
  | some h => rw [h]
  | none => rfl

theorem canonicalSequence_ne_null (n : Sequence) : (canonicalSequence n).sortKeys ≠ .null := by
  cases n with
  | int n => exact nofun
  | str s => exact nofun

theorem eq_of_optionalStr {a b : Option String}
    (h : (canonicalOption .str a).sortKeys = (canonicalOption .str b).sortKeys) : a = b := by
  refine eq_of_rel (rel_of_canonicalOption ?_ ?_ h)
  · intro s
    exact nofun
  · intro s t hst
    exact Json.str.inj hst

theorem eq_of_optionalSequence {a b : Option Sequence}
    (h : (canonicalOption canonicalSequence a).sortKeys =
      (canonicalOption canonicalSequence b).sortKeys) : a = b :=
  eq_of_rel (rel_of_canonicalOption canonicalSequence_ne_null
    (fun _ _ ↦ canonicalSequence_injective) h)

/-! ## Records -/

def BaseEvent.fields (e : BaseEvent) : List (String × Canonical) :=
  [("source_id", .str e.sourceId),
    ("dataset_id", .str e.datasetId),
    ("instrument_id", .str e.instrumentId),
    ("event_time_utc", canonicalTime e.eventTimeUtc),
    ("receive_time_utc", canonicalTime e.receiveTimeUtc),
    ("raw_event_hash", .str e.rawEventHash)]

def TradeEvent.fields (e : TradeEvent) : List (String × Canonical) :=
  ("__type__", .str "TradeEvent") :: (e.toBaseEvent.fields ++
    [("price", canonicalDecimal e.price),
      ("quantity", canonicalDecimal e.quantity),
      ("aggressor_side", .str e.aggressorSide.name),
      ("aggressor_method", .str e.aggressorMethod.name),
      ("sequence_number", canonicalOption canonicalSequence e.sequenceNumber),
      ("trade_id", canonicalOption .str e.tradeId)])

def QuoteEvent.fields (e : QuoteEvent) : List (String × Canonical) :=
  ("__type__", .str "QuoteEvent") :: (e.toBaseEvent.fields ++
    [("bid_price", canonicalDecimal e.bidPrice),
      ("ask_price", canonicalDecimal e.askPrice),
      ("bid_size", canonicalOption canonicalDecimal e.bidSize),
      ("ask_size", canonicalOption canonicalDecimal e.askSize),
      ("sequence_number", canonicalOption canonicalSequence e.sequenceNumber),
      ("condition", .str e.condition.name)])

def L2BookEvent.fields (e : L2BookEvent) : List (String × Canonical) :=
  ("__type__", .str "L2BookEvent") :: (e.toBaseEvent.fields ++
    [("sequence_number", canonicalSequence e.sequenceNumber),
      ("price", canonicalDecimal e.price),
      ("side", .str e.side.name),
      ("operation", .str e.operation.name),
      ("quantity", canonicalDecimal e.quantity),
      ("event_kind", .str e.eventKind.name)])

def TradeMutation.fields (e : TradeMutation) : List (String × Canonical) :=
  ("__type__", .str "TradeMutation") :: (e.toBaseEvent.fields ++
    [("trade_id", .str e.tradeId),
      ("trade_scope_id", .str e.tradeScopeId),
      ("revision", .int e.revision),
      ("action", .str e.action.name),
      ("sequence_number", canonicalSequence e.sequenceNumber),
      ("replacement_trade", canonicalOption (fun t ↦ .dict t.fields) e.replacementTrade),
      ("supersedes_raw_event_hash", canonicalOption .str e.supersedesRawEventHash)])

inductive MarketEvent where
  | trade (e : TradeEvent)
  | quote (e : QuoteEvent)
  | book (e : L2BookEvent)
  | mutation (e : TradeMutation)
deriving DecidableEq

namespace MarketEvent

def base : MarketEvent → BaseEvent
  | .trade e => e.toBaseEvent
  | .quote e => e.toBaseEvent
  | .book e => e.toBaseEvent
  | .mutation e => e.toBaseEvent

def className : MarketEvent → String
  | .trade _ => "TradeEvent"
  | .quote _ => "QuoteEvent"
  | .book _ => "L2BookEvent"
  | .mutation _ => "TradeMutation"

def fields : MarketEvent → List (String × Canonical)
  | .trade e => e.fields
  | .quote e => e.fields
  | .book e => e.fields
  | .mutation e => e.fields

def canonical (e : MarketEvent) : Canonical := .dict e.fields

end MarketEvent

/-! ### Their fields are different and hold values with different fields -/

theorem distinct_canonicalOption {α : Type} {f : α → Canonical} (hf : ∀ a, (f a).Distinct)
    (a : Option α) : (canonicalOption f a).Distinct := by
  cases a with
  | none => trivial
  | some a => exact hf a

theorem distinct_canonicalSequence (n : Sequence) : (canonicalSequence n).Distinct := by
  cases n <;> trivial

theorem distinct_str (s : String) : (Json.str s : Canonical).Distinct := trivial

theorem distinct_canonicalDecimal (d : Decimal) : (canonicalDecimal d).Distinct := trivial

theorem TradeEvent.nodup_fields (e : TradeEvent) : (e.fields.map Prod.fst).Nodup := by
  simp [TradeEvent.fields, BaseEvent.fields]

theorem TradeEvent.distinct (e : TradeEvent) : (Json.dict e.fields).Distinct := by
  rw [Json.distinct_dict]
  refine ⟨e.nodup_fields, ?_⟩
  simp [TradeEvent.fields, BaseEvent.fields, distinct_str, canonicalTime, canonicalDecimal,
    distinct_canonicalOption, distinct_canonicalSequence]

theorem MarketEvent.nodup_fields (e : MarketEvent) : (e.fields.map Prod.fst).Nodup := by
  cases e with
  | trade e => exact e.nodup_fields
  | quote e => simp [MarketEvent.fields, QuoteEvent.fields, BaseEvent.fields]
  | book e => simp [MarketEvent.fields, L2BookEvent.fields, BaseEvent.fields]
  | mutation e => simp [MarketEvent.fields, TradeMutation.fields, BaseEvent.fields]

theorem MarketEvent.distinct (e : MarketEvent) : e.canonical.Distinct := by
  rw [MarketEvent.canonical, Json.distinct_dict]
  refine ⟨e.nodup_fields, ?_⟩
  cases e with
  | trade e => exact (Json.distinct_dict.mp e.distinct).2
  | quote e =>
    simp [MarketEvent.fields, QuoteEvent.fields, BaseEvent.fields, distinct_str, canonicalTime,
      distinct_canonicalDecimal, distinct_canonicalOption, distinct_canonicalSequence]
  | book e =>
    simp [MarketEvent.fields, L2BookEvent.fields, BaseEvent.fields, distinct_str, canonicalTime,
      distinct_canonicalDecimal, distinct_canonicalSequence]
  | mutation e =>
    simp [MarketEvent.fields, TradeMutation.fields, BaseEvent.fields, distinct_str, canonicalTime,
      distinct_canonicalOption, distinct_canonicalSequence, TradeEvent.distinct]
    trivial

/-! ## Events with the same bytes -/

/-- The decimals have one fixed-point text. -/
def Alike (d e : Decimal) : Prop := d.fixed = e.fixed

structure TradeEvent.Alike (a b : TradeEvent) : Prop where
  base : a.toBaseEvent = b.toBaseEvent
  price : OrderFlow.Alike a.price b.price
  quantity : OrderFlow.Alike a.quantity b.quantity
  aggressorSide : a.aggressorSide = b.aggressorSide
  aggressorMethod : a.aggressorMethod = b.aggressorMethod
  sequenceNumber : a.sequenceNumber = b.sequenceNumber
  tradeId : a.tradeId = b.tradeId

structure QuoteEvent.Alike (a b : QuoteEvent) : Prop where
  base : a.toBaseEvent = b.toBaseEvent
  bidPrice : OrderFlow.Alike a.bidPrice b.bidPrice
  askPrice : OrderFlow.Alike a.askPrice b.askPrice
  bidSize : Option.Rel OrderFlow.Alike a.bidSize b.bidSize
  askSize : Option.Rel OrderFlow.Alike a.askSize b.askSize
  sequenceNumber : a.sequenceNumber = b.sequenceNumber
  condition : a.condition = b.condition

structure L2BookEvent.Alike (a b : L2BookEvent) : Prop where
  base : a.toBaseEvent = b.toBaseEvent
  sequenceNumber : a.sequenceNumber = b.sequenceNumber
  price : OrderFlow.Alike a.price b.price
  side : a.side = b.side
  operation : a.operation = b.operation
  quantity : OrderFlow.Alike a.quantity b.quantity
  eventKind : a.eventKind = b.eventKind

structure TradeMutation.Alike (a b : TradeMutation) : Prop where
  base : a.toBaseEvent = b.toBaseEvent
  tradeId : a.tradeId = b.tradeId
  tradeScopeId : a.tradeScopeId = b.tradeScopeId
  revision : a.revision = b.revision
  action : a.action = b.action
  sequenceNumber : a.sequenceNumber = b.sequenceNumber
  replacementTrade : Option.Rel TradeEvent.Alike a.replacementTrade b.replacementTrade
  supersedes : a.supersedesRawEventHash = b.supersedesRawEventHash

/-- The events agree in everything, decimals in their fixed-point text. -/
inductive MarketEvent.Alike : MarketEvent → MarketEvent → Prop
  | trade {a b : TradeEvent} (h : a.Alike b) : Alike (.trade a) (.trade b)
  | quote {a b : QuoteEvent} (h : a.Alike b) : Alike (.quote a) (.quote b)
  | book {a b : L2BookEvent} (h : a.Alike b) : Alike (.book a) (.book b)
  | mutation {a b : TradeMutation} (h : a.Alike b) : Alike (.mutation a) (.mutation b)

/-- Fields that agree up to the order of the keys of their values. -/
def FieldsAgree (es es' : List (String × Canonical)) : Prop :=
  ∀ k, (Dict.find k es).map Json.sortKeys = (Dict.find k es').map Json.sortKeys

theorem str_eq_of_agree (h : FieldsAgree es es') (k : String) {s t : String}
    (hs : Dict.find k es = some (.str s)) (ht : Dict.find k es' = some (.str t)) :
    s = t := by
  have hk := h k
  rw [hs, ht] at hk
  exact Json.str.inj (Option.some.inj hk)

theorem value_eq_of_agree (h : FieldsAgree es es') (k : String) {v w : Canonical}
    (hv : Dict.find k es = some v) (hw : Dict.find k es' = some w) :
    v.sortKeys = w.sortKeys := by
  have hk := h k
  rw [hv, hw] at hk
  exact Option.some.inj hk

theorem BaseEvent.ext' {a b : BaseEvent} (h₁ : a.sourceId = b.sourceId)
    (h₂ : a.datasetId = b.datasetId) (h₃ : a.instrumentId = b.instrumentId)
    (h₄ : a.eventTimeUtc = b.eventTimeUtc) (h₅ : a.receiveTimeUtc = b.receiveTimeUtc)
    (h₆ : a.rawEventHash = b.rawEventHash) : a = b := by
  cases a
  cases b
  cases h₁
  cases h₂
  cases h₃
  cases h₄
  cases h₅
  cases h₆
  rfl

theorem base_eq_of_agree {a b : BaseEvent} {name : String}
    (h : FieldsAgree (("__type__", .str name) :: (a.fields ++ es))
      (("__type__", .str name) :: (b.fields ++ es'))) : a = b :=
  BaseEvent.ext' (str_eq_of_agree h "source_id" rfl rfl) (str_eq_of_agree h "dataset_id" rfl rfl)
    (str_eq_of_agree h "instrument_id" rfl rfl)
    (canonicalTime_injective (value_eq_of_agree h "event_time_utc" rfl rfl))
    (canonicalTime_injective (value_eq_of_agree h "receive_time_utc" rfl rfl))
    (str_eq_of_agree h "raw_event_hash" rfl rfl)

variable {a b : TradeEvent}

theorem TradeEvent.alike_of_agree (h : FieldsAgree a.fields b.fields) :
    a.Alike b where
  base := base_eq_of_agree h
  price := fixed_eq_of_canonicalDecimal (value_eq_of_agree h "price" rfl rfl)
  quantity := fixed_eq_of_canonicalDecimal (value_eq_of_agree h "quantity" rfl rfl)
  aggressorSide := AggressorSide.name_injective (str_eq_of_agree h "aggressor_side" rfl rfl)
  aggressorMethod := AggressorMethod.name_injective (str_eq_of_agree h "aggressor_method" rfl rfl)
  sequenceNumber := eq_of_optionalSequence (value_eq_of_agree h "sequence_number" rfl rfl)
  tradeId := eq_of_optionalStr (value_eq_of_agree h "trade_id" rfl rfl)

theorem TradeEvent.alike_of_sortKeys_eq
    (h : (Json.dict a.fields : Canonical).sortKeys = (Json.dict b.fields).sortKeys) : a.Alike b :=
  TradeEvent.alike_of_agree (find_of_sortKeys_eq a.nodup_fields b.nodup_fields h)

theorem rel_of_optionalDecimal {a b : Option Decimal}
    (h : (canonicalOption canonicalDecimal a).sortKeys =
      (canonicalOption canonicalDecimal b).sortKeys) : Option.Rel Alike a b := by
  refine rel_of_canonicalOption ?_ ?_ h
  · intro d
    exact nofun
  · intro d e hde
    exact fixed_eq_of_canonicalDecimal hde

theorem rel_of_optionalTrade {a b : Option TradeEvent}
    (h : (canonicalOption (fun t : TradeEvent ↦ .dict t.fields) a).sortKeys =
      (canonicalOption (fun t : TradeEvent ↦ .dict t.fields) b).sortKeys) :
    Option.Rel TradeEvent.Alike a b := by
  refine rel_of_canonicalOption ?_ ?_ h
  · intro t
    exact nofun
  · intro t u htu
    exact TradeEvent.alike_of_sortKeys_eq htu

theorem QuoteEvent.alike_of_agree {a b : QuoteEvent} (h : FieldsAgree a.fields b.fields) :
    a.Alike b where
  base := base_eq_of_agree h
  bidPrice := fixed_eq_of_canonicalDecimal (value_eq_of_agree h "bid_price" rfl rfl)
  askPrice := fixed_eq_of_canonicalDecimal (value_eq_of_agree h "ask_price" rfl rfl)
  bidSize := rel_of_optionalDecimal (value_eq_of_agree h "bid_size" rfl rfl)
  askSize := rel_of_optionalDecimal (value_eq_of_agree h "ask_size" rfl rfl)
  sequenceNumber := eq_of_optionalSequence (value_eq_of_agree h "sequence_number" rfl rfl)
  condition := QuoteCondition.name_injective (str_eq_of_agree h "condition" rfl rfl)

theorem L2BookEvent.alike_of_agree {a b : L2BookEvent} (h : FieldsAgree a.fields b.fields) :
    a.Alike b where
  base := base_eq_of_agree h
  sequenceNumber := canonicalSequence_injective (value_eq_of_agree h "sequence_number" rfl rfl)
  price := fixed_eq_of_canonicalDecimal (value_eq_of_agree h "price" rfl rfl)
  side := BookSide.name_injective (str_eq_of_agree h "side" rfl rfl)
  operation := BookOperation.name_injective (str_eq_of_agree h "operation" rfl rfl)
  quantity := fixed_eq_of_canonicalDecimal (value_eq_of_agree h "quantity" rfl rfl)
  eventKind := BookEventKind.name_injective (str_eq_of_agree h "event_kind" rfl rfl)

theorem TradeMutation.alike_of_agree {a b : TradeMutation} (h : FieldsAgree a.fields b.fields) :
    a.Alike b where
  base := base_eq_of_agree h
  tradeId := str_eq_of_agree h "trade_id" rfl rfl
  tradeScopeId := str_eq_of_agree h "trade_scope_id" rfl rfl
  revision := Int.ofNat.inj (Json.int.inj (value_eq_of_agree h "revision" rfl rfl))
  action := TradeMutationAction.name_injective (str_eq_of_agree h "action" rfl rfl)
  sequenceNumber := canonicalSequence_injective (value_eq_of_agree h "sequence_number" rfl rfl)
  replacementTrade := rel_of_optionalTrade (value_eq_of_agree h "replacement_trade" rfl rfl)
  supersedes := eq_of_optionalStr (value_eq_of_agree h "supersedes_raw_event_hash" rfl rfl)

/-! ### The other direction -/

theorem optionalDecimal_eq {a b : Option Decimal} (h : Option.Rel Alike a b) :
    canonicalOption canonicalDecimal a = canonicalOption canonicalDecimal b := by
  cases h with
  | some h => exact congrArg (fun t ↦ Json.str (String.ofList t)) h
  | none => rfl

theorem TradeEvent.Alike.fields_eq (h : a.Alike b) : a.fields = b.fields := by
  have hprice : canonicalDecimal a.price = canonicalDecimal b.price :=
    congrArg (fun t ↦ Json.str (String.ofList t)) h.price
  have hquantity : canonicalDecimal a.quantity = canonicalDecimal b.quantity :=
    congrArg (fun t ↦ Json.str (String.ofList t)) h.quantity
  rw [TradeEvent.fields, TradeEvent.fields, h.base, hprice, hquantity, h.aggressorSide,
    h.aggressorMethod, h.sequenceNumber, h.tradeId]

theorem optionalTrade_eq {a b : Option TradeEvent} (h : Option.Rel TradeEvent.Alike a b) :
    canonicalOption (fun t : TradeEvent ↦ .dict t.fields) a =
      canonicalOption (fun t : TradeEvent ↦ .dict t.fields) b := by
  cases h with
  | some h => exact congrArg Json.dict h.fields_eq
  | none => rfl

theorem QuoteEvent.Alike.fields_eq {a b : QuoteEvent} (h : a.Alike b) : a.fields = b.fields := by
  have hbid : canonicalDecimal a.bidPrice = canonicalDecimal b.bidPrice :=
    congrArg (fun t ↦ Json.str (String.ofList t)) h.bidPrice
  have hask : canonicalDecimal a.askPrice = canonicalDecimal b.askPrice :=
    congrArg (fun t ↦ Json.str (String.ofList t)) h.askPrice
  rw [QuoteEvent.fields, QuoteEvent.fields, h.base, hbid, hask, optionalDecimal_eq h.bidSize,
    optionalDecimal_eq h.askSize, h.sequenceNumber, h.condition]

theorem L2BookEvent.Alike.fields_eq {a b : L2BookEvent} (h : a.Alike b) :
    a.fields = b.fields := by
  have hprice : canonicalDecimal a.price = canonicalDecimal b.price :=
    congrArg (fun t ↦ Json.str (String.ofList t)) h.price
  have hquantity : canonicalDecimal a.quantity = canonicalDecimal b.quantity :=
    congrArg (fun t ↦ Json.str (String.ofList t)) h.quantity
  rw [L2BookEvent.fields, L2BookEvent.fields, h.base, h.sequenceNumber, hprice, h.side, h.operation,
    hquantity, h.eventKind]

theorem TradeMutation.Alike.fields_eq {a b : TradeMutation} (h : a.Alike b) :
    a.fields = b.fields := by
  rw [TradeMutation.fields, TradeMutation.fields, h.base, h.tradeId, h.tradeScopeId, h.revision,
    h.action, h.sequenceNumber, optionalTrade_eq h.replacementTrade, h.supersedes]

/-- **Canonical events.**  The canonical values of two events are the same, up to the order of
keys, just when the events agree. -/
theorem MarketEvent.sortKeys_eq_iff {a b : MarketEvent} :
    a.canonical.sortKeys = b.canonical.sortKeys ↔ a.Alike b := by
  constructor
  · intro h
    have hagree : FieldsAgree a.fields b.fields :=
      find_of_sortKeys_eq a.nodup_fields b.nodup_fields h
    have hname : a.className = b.className := by
      refine str_eq_of_agree hagree "__type__" ?_ ?_
      · cases a <;> rfl
      · cases b <;> rfl
    cases a with
    | trade a =>
      cases b with
      | trade b => exact .trade (TradeEvent.alike_of_agree hagree)
      | quote b => exact absurd hname (by simp [MarketEvent.className])
      | book b => exact absurd hname (by simp [MarketEvent.className])
      | mutation b => exact absurd hname (by simp [MarketEvent.className])
    | quote a =>
      cases b with
      | trade b => exact absurd hname (by simp [MarketEvent.className])
      | quote b => exact .quote (QuoteEvent.alike_of_agree hagree)
      | book b => exact absurd hname (by simp [MarketEvent.className])
      | mutation b => exact absurd hname (by simp [MarketEvent.className])
    | book a =>
      cases b with
      | trade b => exact absurd hname (by simp [MarketEvent.className])
      | quote b => exact absurd hname (by simp [MarketEvent.className])
      | book b => exact .book (L2BookEvent.alike_of_agree hagree)
      | mutation b => exact absurd hname (by simp [MarketEvent.className])
    | mutation a =>
      cases b with
      | trade b => exact absurd hname (by simp [MarketEvent.className])
      | quote b => exact absurd hname (by simp [MarketEvent.className])
      | book b => exact absurd hname (by simp [MarketEvent.className])
      | mutation b => exact .mutation (TradeMutation.alike_of_agree hagree)
  · intro h
    have hfields : a.fields = b.fields := by
      cases h with
      | trade h => exact h.fields_eq
      | quote h => exact h.fields_eq
      | book h => exact h.fields_eq
      | mutation h => exact h.fields_eq
    rw [MarketEvent.canonical, MarketEvent.canonical, hfields]

end Qros.OrderFlow
