import Qros.Storage.LoadedAudit

/-!
# Records

`BaseObject` of `core/base_object.py`, `core/lifecycle.py`, and the record classes of
`data_engine`: `Candle`, `Tick`, `Quote`, `Trade` and `OrderBook`.

A dictionary has the entries that a `from_dict` reads, `none` for one that is missing or `None`.
What `to_dict` computes from the fields is not among them (`current_stage`, `hash`, the ranges
of a candle, mid prices, spreads and totals).  Times are in UTC.
-/

namespace Qros.DataEngine.Records

open Qros.Lib Qros.Python

theorem mapM_map_eq_ok {ε α β : Type} {f : β → Except ε α} {g : α → β} {as : List α}
    (h : ∀ a ∈ as, f (g a) = .ok a) : (as.map g).mapM f = .ok as := by
  induction as with
  | nil => rfl
  | cons a as ih =>
    rw [List.map_cons, List.mapM_cons, h a List.mem_cons_self,
      ih fun a ha ↦ h a (List.mem_cons_of_mem _ ha)]
    rfl

/-! ## Times -/

def isoformat (t : Utc) : String := String.ofList (Python.Datetime.isoChars ⟨t, some 0⟩)

def parseTimestamp (ts : String) : Except String Utc :=
  match Storage.parseTimestamp ts with
  | none => .error "Invalid isoformat string"
  | some t =>
    if h : -62135596800000000 ≤ t.instant ∧ t.instant ≤ 253402300799999999 then
      .ok ⟨t.instant, h⟩
    else .error "date value out of range"

theorem isoformat_ne_empty (t : Utc) : isoformat t ≠ "" := Storage.isoChars_ne_nil _

theorem parseTimestamp_isoformat (t : Utc) : parseTimestamp (isoformat t) = .ok t := by
  have hparse : Storage.parseTimestamp (isoformat t) = some ⟨t, some 0⟩ := by
    refine Storage.parseTimestamp_isoChars rfl ?_
    rintro o ⟨⟩
    omega
  have hinstant : Python.Datetime.instant ⟨t, some 0⟩ = t.micros := sub_zero _
  unfold parseTimestamp
  rw [hparse]
  dsimp only
  rw [dif_pos (hinstant.symm ▸ t.property)]
  exact congrArg Except.ok (Utc.micros_injective hinstant)

/-! ## Objects -/

inductive LifecycleStage where
  | created
  | validated
  | active
  | inProgress
  | complete
  | finalized
  | superseded
  | invalidated
  | resolved
  | retired
  | archived
  | draft
  | final
  | initiated
  | verified
  | detected
  | tracked
  | mitigated
  | assessed
  | completed
  | analyzed
  | started
  | updated
  | calibrated
  | resolvedEscalated
deriving DecidableEq

namespace LifecycleStage

def value : LifecycleStage → String
  | created => "Created"
  | validated => "Validated"
  | active => "Active"
  | inProgress => "In Progress"
  | complete => "Complete"
  | finalized => "Finalized"
  | superseded => "Superseded"
  | invalidated => "Invalidated"
  | resolved => "Resolved"
  | retired => "Retired"
  | archived => "Archived"
  | draft => "Draft"
  | final => "Final"
  | initiated => "Initiated"
  | verified => "Verified"
  | detected => "Detected"
  | tracked => "Tracked"
  | mitigated => "Mitigated"
  | assessed => "Assessed"
  | completed => "Completed"
  | analyzed => "Analyzed"
  | started => "Started"
  | updated => "Updated"
  | calibrated => "Calibrated"
  | resolvedEscalated => "Resolved/Escalated"

def all : List LifecycleStage :=
  [created, validated, active, inProgress, complete, finalized, superseded, invalidated, resolved,
    retired, archived, draft, final, initiated, verified, detected, tracked, mitigated, assessed,
    completed, analyzed, started, updated, calibrated, resolvedEscalated]

def ofValue (value : String) : Option LifecycleStage :=
  all.find? fun stage ↦ decide (stage.value = value)

theorem ofValue_value (stage : LifecycleStage) : ofValue stage.value = some stage := by
  cases stage <;> decide

end LifecycleStage

structure LifecycleTransition where
  stage : LifecycleStage
  timestamp : Utc
  reason : Option String

structure TransitionDict where
  stage : String
  timestamp : String
  reason : Option String

namespace LifecycleTransition

def toDict (t : LifecycleTransition) : TransitionDict where
  stage := t.stage.value
  timestamp := isoformat t.timestamp
  reason := t.reason

def fromDict (data : TransitionDict) : Except String LifecycleTransition := do
  let stage ← found (LifecycleStage.ofValue data.stage) "not a valid LifecycleStage"
  let timestamp ← parseTimestamp data.timestamp
  return { stage, timestamp, reason := data.reason }

theorem fromDict_toDict (t : LifecycleTransition) : fromDict t.toDict = .ok t := by
  unfold fromDict toDict
  dsimp only
  rw [LifecycleStage.ofValue_value, parseTimestamp_isoformat]
  rfl

end LifecycleTransition

structure Lifecycle where
  transitions : List LifecycleTransition

namespace Lifecycle

def new (now : Utc) : Lifecycle := ⟨[⟨.created, now, some "Object created"⟩]⟩

def currentStage (l : Lifecycle) : Except String LifecycleStage :=
  found (l.transitions.getLast?.map LifecycleTransition.stage) "list index out of range"

/-- The lifecycle with one more transition. -/
def append (now : Utc) (stage : LifecycleStage) (reason : String) (l : Lifecycle) : Lifecycle :=
  ⟨l.transitions ++ [⟨stage, now, some reason⟩]⟩

def transition (now : Utc) (stage : LifecycleStage) (reason : String) (l : Lifecycle) :
    Except String Lifecycle := do
  let current ← l.currentStage
  require (current ≠ .finalized ∧ current ≠ .archived)
    ("Cannot transition from terminal stage " ++ current.value)
  return l.append now stage reason

/-- The transitions of the dictionary; `current_stage` is read on the way. -/
def toDict (l : Lifecycle) : Except String (List TransitionDict) := do
  let _ ← l.currentStage
  return l.transitions.map LifecycleTransition.toDict

def fromDict (data : List TransitionDict) : Except String Lifecycle := do
  return ⟨← data.mapM LifecycleTransition.fromDict⟩

def Begun (l : Lifecycle) : Prop := l.transitions ≠ []

theorem toDict_isOk_iff {l : Lifecycle} : (∃ data, l.toDict = .ok data) ↔ l.Begun := by
  unfold toDict currentStage Begun
  cases hlast : l.transitions.getLast? with
  | none =>
    rw [List.getLast?_eq_none_iff] at hlast
    refine iff_of_false ?_ (not_not.mpr hlast)
    rintro ⟨data, ⟨⟩⟩
  | some t =>
    refine iff_of_true ⟨_, rfl⟩ fun hnil ↦ ?_
    rw [hnil] at hlast
    cases hlast

theorem fromDict_toDict {l : Lifecycle} {data : List TransitionDict} (h : l.toDict = .ok data) :
    fromDict data = .ok l := by
  obtain ⟨stage, -, hreturn⟩ := bind_eq_ok.mp h
  cases hreturn
  have htransitions := mapM_map_eq_ok fun t (_ : t ∈ l.transitions) ↦
    LifecycleTransition.fromDict_toDict t
  exact bind_eq_ok.mpr ⟨l.transitions, htransitions, rfl⟩

end Lifecycle

structure BaseObject where
  id : Option String
  createdAt : Utc
  ontologyTags : List String
  lifecycle : Lifecycle

structure BaseDict where
  id : Option String
  createdAt : Option String
  ontologyTags : Option (List String)
  /-- The transitions of the entry `lifecycle`. -/
  lifecycle : Option (List TransitionDict)

namespace BaseObject

/-- `__init__`, with an identifier, and the transition that ends the constructor of a class. -/
def new (now : Utc) (id : String) (ontologyTags : List String) (reason : String) : BaseObject where
  id := id
  createdAt := now
  ontologyTags := ontologyTags
  lifecycle := (Lifecycle.new now).append now .created reason

def toDict (o : BaseObject) : Except String BaseDict := do
  let lifecycle ← o.lifecycle.toDict
  return {
    id := o.id
    createdAt := isoformat o.createdAt
    ontologyTags := o.ontologyTags
    lifecycle := lifecycle }

def createdAtOf (now : Utc) : Option String → Except String Utc
  | none => .ok now
  | some ts => if ts = "" then .ok now else parseTimestamp ts

def fromDict (now : Utc) (data : BaseDict) : Except String BaseObject := do
  let createdAt ← createdAtOf now data.createdAt
  let lifecycle ← Lifecycle.fromDict (data.lifecycle.getD [])
  return { id := data.id, createdAt, ontologyTags := data.ontologyTags.getD [], lifecycle }

theorem toDict_isOk_iff {o : BaseObject} : (∃ data, o.toDict = .ok data) ↔ o.lifecycle.Begun := by
  rw [← Lifecycle.toDict_isOk_iff]
  constructor
  · rintro ⟨data, h⟩
    obtain ⟨transitions, htransitions, -⟩ := bind_eq_ok.mp h
    exact ⟨transitions, htransitions⟩
  · rintro ⟨transitions, h⟩
    exact ⟨_, bind_eq_ok.mpr ⟨transitions, h, rfl⟩⟩

theorem fromDict_toDict {o : BaseObject} {data : BaseDict} (h : o.toDict = .ok data) (now : Utc) :
    fromDict now data = .ok o := by
  obtain ⟨transitions, htransitions, hreturn⟩ := bind_eq_ok.mp h
  cases hreturn
  have hcreated : createdAtOf now (some (isoformat o.createdAt)) = .ok o.createdAt := by
    rw [createdAtOf, if_neg (isoformat_ne_empty _), parseTimestamp_isoformat]
  exact bind_eq_ok.mpr ⟨o.createdAt, hcreated,
    bind_eq_ok.mpr ⟨o.lifecycle, Lifecycle.fromDict_toDict htransitions, rfl⟩⟩

end BaseObject

/-! ## Record classes -/

structure Candle (F : Type) where
  timeframe : String
  openPrice : F
  high : F
  low : F
  close : F
  volume : F
  quoteVolume : F
  tradesCount : Int
  spread : Option F
  tickVolume : Option F
  realVolume : Option F
  isComplete : Bool

structure Tick (F : Type) where
  price : F
  volume : F
  side : String
  exchange : String
  conditions : List String
  bid : Option F
  ask : Option F

structure Quote (F : Type) where
  bid : F
  ask : F
  bidSize : F
  askSize : F
  exchange : String
  condition : String

structure Trade (F : Type) where
  price : F
  volume : F
  side : String
  exchange : String
  conditions : List String
  tradeId : String
  isBlockTrade : Bool

structure OrderBookLevel (F : Type) where
  price : F
  size : F
  orderCount : Int

structure OrderBook (F : Type) where
  bids : List (OrderBookLevel F)
  asks : List (OrderBookLevel F)
  exchange : String
  isSnapshot : Bool
  sequence : Int

/-- The classes of `_deserialize_records`. -/
inductive RecordClass where
  | candle
  | tick
  | quote
  | trade
  | orderbook
deriving DecidableEq

def RecordClass.ofDataType (dataType : String) : Option RecordClass :=
  [("candle", candle), ("tick", tick), ("quote", quote), ("trade", trade),
    ("orderbook", orderbook)].lookup dataType

/-- What a record has besides its base, symbol and timestamp. -/
inductive RecordData (F : Type) where
  | candle (c : Candle F)
  | tick (t : Tick F)
  | quote (q : Quote F)
  | trade (t : Trade F)
  | orderbook (b : OrderBook F)

def RecordData.cls {F : Type} : RecordData F → RecordClass
  | .candle _ => .candle
  | .tick _ => .tick
  | .quote _ => .quote
  | .trade _ => .trade
  | .orderbook _ => .orderbook

structure Fields (F : Type) where
  base : BaseObject
  symbol : String
  timestamp : Utc
  data : RecordData F

structure LevelDict (F : Type) where
  price : Option F
  size : Option F
  orderCount : Option Int

structure RecordDict (F : Type) where
  base : BaseDict
  symbol : Option String
  timestamp : Option String
  timeframe : Option String := none
  openPrice : Option F := none
  high : Option F := none
  low : Option F := none
  close : Option F := none
  volume : Option F := none
  quoteVolume : Option F := none
  tradesCount : Option Int := none
  spread : Option F := none
  tickVolume : Option F := none
  realVolume : Option F := none
  isComplete : Option Bool := none
  price : Option F := none
  side : Option String := none
  exchange : Option String := none
  conditions : Option (List String) := none
  bid : Option F := none
  ask : Option F := none
  bidSize : Option F := none
  askSize : Option F := none
  condition : Option String := none
  tradeId : Option String := none
  isBlockTrade : Option Bool := none
  bids : Option (List (LevelDict F)) := none
  asks : Option (List (LevelDict F)) := none
  isSnapshot : Option Bool := none
  sequence : Option Int := none

section Classes

variable {F : Type} [Zero F]

namespace OrderBookLevel

def toDict (level : OrderBookLevel F) : LevelDict F where
  price := level.price
  size := level.size
  orderCount := level.orderCount

def fromDict (data : LevelDict F) : Except String (OrderBookLevel F) := do
  let price ← found data.price "'price'"
  return { price, size := data.size.getD 0, orderCount := data.orderCount.getD 0 }

end OrderBookLevel

/-- `Candle.from_dict`, behind the symbol and the timestamp. -/
def Candle.fromDict (data : RecordDict F) : Except String (Candle F) := do
  let timeframe ← found data.timeframe "'timeframe'"
  let openPrice ← found data.openPrice "'open'"
  let high ← found data.high "'high'"
  let low ← found data.low "'low'"
  let close ← found data.close "'close'"
  return {
    timeframe, openPrice, high, low, close
    volume := data.volume.getD 0
    quoteVolume := data.quoteVolume.getD 0
    tradesCount := data.tradesCount.getD 0
    spread := data.spread
    tickVolume := data.tickVolume
    realVolume := data.realVolume
    isComplete := data.isComplete.getD true }

def Tick.fromDict (data : RecordDict F) : Tick F where
  price := data.price.getD 0
  volume := data.volume.getD 0
  side := data.side.getD "unknown"
  exchange := data.exchange.getD ""
  conditions := data.conditions.getD []
  bid := data.bid
  ask := data.ask

def Quote.fromDict (data : RecordDict F) : Except String (Quote F) := do
  let bid ← found data.bid "'bid'"
  let ask ← found data.ask "'ask'"
  return {
    bid, ask
    bidSize := data.bidSize.getD 0
    askSize := data.askSize.getD 0
    exchange := data.exchange.getD ""
    condition := data.condition.getD "" }

def Trade.fromDict (data : RecordDict F) : Except String (Trade F) := do
  let price ← found data.price "'price'"
  let volume ← found data.volume "'volume'"
  return {
    price, volume
    side := data.side.getD "unknown"
    exchange := data.exchange.getD ""
    conditions := data.conditions.getD []
    tradeId := data.tradeId.getD ""
    isBlockTrade := data.isBlockTrade.getD false }

def OrderBook.fromDict (data : RecordDict F) : Except String (OrderBook F) := do
  let bids ← (data.bids.getD []).mapM OrderBookLevel.fromDict
  let asks ← (data.asks.getD []).mapM OrderBookLevel.fromDict
  return {
    bids, asks
    exchange := data.exchange.getD ""
    isSnapshot := data.isSnapshot.getD true
    sequence := data.sequence.getD 0 }

def RecordData.fromDict (data : RecordDict F) : RecordClass → Except String (RecordData F)
  | .candle => .candle <$> Candle.fromDict data
  | .tick => .ok (.tick (Tick.fromDict data))
  | .quote => .quote <$> Quote.fromDict data
  | .trade => .trade <$> Trade.fromDict data
  | .orderbook => .orderbook <$> OrderBook.fromDict data

namespace Fields

/-- The dictionary of each class, with the entries of the base. -/
def dict (base : BaseDict) (r : Fields F) : RecordDict F :=
  let symbol := some r.symbol
  let timestamp := some (isoformat r.timestamp)
  match r.data with
    | .candle c => {
        base, symbol, timestamp
        timeframe := c.timeframe
        openPrice := c.openPrice
        high := c.high
        low := c.low
        close := c.close
        volume := c.volume
        quoteVolume := c.quoteVolume
        tradesCount := c.tradesCount
        spread := c.spread
        tickVolume := c.tickVolume
        realVolume := c.realVolume
        isComplete := c.isComplete }
    | .tick t => {
        base, symbol, timestamp
        price := t.price
        volume := t.volume
        side := t.side
        exchange := t.exchange
        conditions := t.conditions
        bid := t.bid
        ask := t.ask }
    | .quote q => {
        base, symbol, timestamp
        bid := q.bid
        ask := q.ask
        bidSize := q.bidSize
        askSize := q.askSize
        exchange := q.exchange
        condition := q.condition }
    | .trade t => {
        base, symbol, timestamp
        price := t.price
        volume := t.volume
        side := t.side
        exchange := t.exchange
        conditions := t.conditions
        tradeId := t.tradeId
        isBlockTrade := t.isBlockTrade }
    | .orderbook b => {
        base, symbol, timestamp
        bids := some (b.bids.map OrderBookLevel.toDict)
        asks := some (b.asks.map OrderBookLevel.toDict)
        exchange := b.exchange
        isSnapshot := b.isSnapshot
        sequence := b.sequence }

def toDict (r : Fields F) : Except String (RecordDict F) := do
  return r.dict (← r.base.toDict)

def fromDict (now : Utc) (data : RecordDict F) (cls : RecordClass) : Except String (Fields F) := do
  let base ← BaseObject.fromDict now data.base
  let symbol ← found data.symbol "'symbol'"
  let timestamp ← found data.timestamp "'timestamp'" >>= parseTimestamp
  return { base, symbol, timestamp, data := ← RecordData.fromDict data cls }

end Fields

/-! ## Hashes -/

/-- `round(x, 10)`. -/
class RoundTen (F : Type) where
  round : F → F

section Hash

variable [FloatText F] [LT F] [DecidableLT F] [RoundTen F]

/-- `sorted([b.to_dict() for b in levels], key=lambda x: x["price"])`. -/
def sortedLevels (levels : List (OrderBookLevel F)) : Json F :=
  .list ((levels.insertionSort fun a b ↦ ¬ b.price < a.price).map fun level ↦ .dict [
    ("price", .float level.price),
    ("size", .float level.size),
    ("order_count", .int level.orderCount)])

def optionalEntry (key : String) : Option F → List (String × Json F)
  | none => []
  | some x => [(key, .float (RoundTen.round x))]

def Fields.toHashableDict (r : Fields F) : Json F :=
  let number (x : F) : Json F := .float (RoundTen.round x)
  let strings (xs : List String) : Json F := .list ((sortStrings xs).map .str)
  let symbol := ("symbol", .str r.symbol)
  let timestamp := ("timestamp", .str (isoformat r.timestamp))
  let ontologyTags := ("ontology_tags", strings r.base.ontologyTags)
  .dict (match r.data with
    | .candle c => [
        symbol,
        ("timeframe", .str c.timeframe),
        timestamp,
        ("open", number c.openPrice),
        ("high", number c.high),
        ("low", number c.low),
        ("close", number c.close),
        ("volume", number c.volume),
        ("quote_volume", number c.quoteVolume),
        ("trades_count", .int c.tradesCount),
        ("is_complete", .bool c.isComplete),
        ontologyTags] ++ optionalEntry "spread" c.spread ++
          optionalEntry "tick_volume" c.tickVolume ++ optionalEntry "real_volume" c.realVolume
    | .tick t => [
        symbol,
        timestamp,
        ("price", number t.price),
        ("volume", number t.volume),
        ("side", .str t.side),
        ("exchange", .str t.exchange),
        ("conditions", strings t.conditions),
        ("bid", t.bid.elim .null number),
        ("ask", t.ask.elim .null number),
        ontologyTags]
    | .quote q => [
        symbol,
        timestamp,
        ("bid", number q.bid),
        ("ask", number q.ask),
        ("bid_size", number q.bidSize),
        ("ask_size", number q.askSize),
        ("exchange", .str q.exchange),
        ("condition", .str q.condition),
        ontologyTags]
    | .trade t => [
        symbol,
        timestamp,
        ("price", number t.price),
        ("volume", number t.volume),
        ("side", .str t.side),
        ("exchange", .str t.exchange),
        ("conditions", strings t.conditions),
        ("trade_id", .str t.tradeId),
        ("is_block_trade", .bool t.isBlockTrade),
        ontologyTags]
    | .orderbook b => [
        symbol,
        timestamp,
        ("bids", sortedLevels b.bids),
        ("asks", sortedLevels b.asks),
        ("exchange", .str b.exchange),
        ("is_snapshot", .bool b.isSnapshot),
        ("sequence", .int b.sequence),
        ontologyTags])

def Fields.computeHash [Hashlib] (r : Fields F) : String :=
  (Storage.deterministicHash F r.toHashableDict).text

end Hash

/-! ## Reading a record back -/

namespace Fields

variable {r : Fields F} {data : RecordDict F} {base : BaseDict}

omit [Zero F] in
theorem toDict_eq_ok :
    r.toDict = .ok data ↔ ∃ base, r.base.toDict = .ok base ∧ r.dict base = data := by
  constructor
  · intro h
    obtain ⟨base, hbase, hreturn⟩ := bind_eq_ok.mp h
    cases hreturn
    exact ⟨base, hbase, rfl⟩
  · rintro ⟨base, hbase, rfl⟩
    exact bind_eq_ok.mpr ⟨base, hbase, rfl⟩

omit [Zero F] in
theorem toDict_isOk_iff : (∃ data, r.toDict = .ok data) ↔ r.base.lifecycle.Begun := by
  rw [← BaseObject.toDict_isOk_iff]
  constructor
  · rintro ⟨data, h⟩
    obtain ⟨base, hbase, -⟩ := toDict_eq_ok.mp h
    exact ⟨base, hbase⟩
  · rintro ⟨base, h⟩
    exact ⟨_, toDict_eq_ok.mpr ⟨base, h, rfl⟩⟩

omit [Zero F] in
theorem base_dict (r : Fields F) (base : BaseDict) :
    (r.dict base).base = base ∧ (r.dict base).symbol = some r.symbol ∧
      (r.dict base).timestamp = some (isoformat r.timestamp) := by
  unfold dict
  cases r.data <;> exact ⟨rfl, rfl, rfl⟩

theorem fromDict_dict (hbase : r.base.toDict = .ok base) (now : Utc) (cls : RecordClass) :
    fromDict now (r.dict base) cls =
      (fun data ↦ { r with data }) <$> RecordData.fromDict (r.dict base) cls := by
  obtain ⟨hdict, hsymbol, htimestamp⟩ := base_dict r base
  have htime : (found (r.dict base).timestamp "'timestamp'" >>= parseTimestamp) =
      .ok r.timestamp := by
    rw [htimestamp]
    exact parseTimestamp_isoformat r.timestamp
  unfold fromDict
  rw [hdict, BaseObject.fromDict_toDict hbase now, htime, hsymbol]
  rfl

theorem level_fromDict_toDict (level : OrderBookLevel F) :
    OrderBookLevel.fromDict level.toDict = .ok level := rfl

theorem data_fromDict_dict : RecordData.fromDict (r.dict base) r.data.cls = .ok r.data := by
  obtain ⟨_, _, _, data⟩ := r
  cases data with
  | candle c => rfl
  | tick t => rfl
  | quote q => rfl
  | trade t => rfl
  | orderbook b =>
    have hlevels (levels : List (OrderBookLevel F)) :
        (levels.map OrderBookLevel.toDict).mapM OrderBookLevel.fromDict = .ok levels :=
      mapM_map_eq_ok fun level _ ↦ level_fromDict_toDict level
    change RecordData.orderbook <$> (do
      let bids ← (b.bids.map OrderBookLevel.toDict).mapM OrderBookLevel.fromDict
      let asks ← (b.asks.map OrderBookLevel.toDict).mapM OrderBookLevel.fromDict
      pure (OrderBook.mk bids asks b.exchange b.isSnapshot b.sequence)) = _
    rw [hlevels, hlevels]
    rfl

theorem fromDict_toDict (h : r.toDict = .ok data) (now : Utc) :
    fromDict now data r.data.cls = .ok r := by
  obtain ⟨base, hbase, rfl⟩ := toDict_eq_ok.mp h
  rw [fromDict_dict hbase, data_fromDict_dict]
  rfl

variable {cls : RecordClass}

theorem cls_of_fromDict {now : Utc} (h : fromDict now data cls = .ok r) :
    r.data.cls = cls := by
  obtain ⟨base, -, h⟩ := bind_eq_ok.mp h
  obtain ⟨symbol, -, h⟩ := bind_eq_ok.mp h
  obtain ⟨timestamp, -, h⟩ := bind_eq_ok.mp h
  obtain ⟨fields, hfields, hreturn⟩ := bind_eq_ok.mp h
  cases hreturn
  cases cls with
  | tick => cases hfields; rfl
  | candle | quote | trade | orderbook =>
    obtain ⟨_, -, rfl⟩ := map_eq_ok.mp hfields
    rfl

theorem exists_fromDict_candle (h : r.toDict = .ok data) (hcandle : r.data.cls = .candle)
    (hcls : cls = .tick ∨ cls = .orderbook) (now : Utc) :
    ∃ r', fromDict now data cls = .ok r' := by
  obtain ⟨base, hbase, rfl⟩ := toDict_eq_ok.mp h
  rw [fromDict_dict hbase]
  obtain ⟨_, _, _, _ | _ | _ | _ | _⟩ := r
  case candle c => rcases hcls with rfl | rfl <;> exact ⟨_, rfl⟩
  all_goals cases hcandle

omit [Zero F] in
theorem prices_of_candle (h : r.toDict = .ok data) (hcandle : r.data.cls = .candle) :
    data.openPrice.isSome = true ∧ data.close.isSome = true := by
  obtain ⟨base, -, rfl⟩ := toDict_eq_ok.mp h
  obtain ⟨_, _, _, _ | _ | _ | _ | _⟩ := r
  case candle c => exact ⟨rfl, rfl⟩
  all_goals cases hcandle

theorem fromDict_candle_ne_ok (h : r.toDict = .ok data) (hcandle : r.data.cls = .candle)
    (hcls : cls = .quote ∨ cls = .trade) (now : Utc) (r' : Fields F) :
    fromDict now data cls ≠ .ok r' := by
  obtain ⟨base, hbase, rfl⟩ := toDict_eq_ok.mp h
  rw [fromDict_dict hbase]
  obtain ⟨_, _, _, _ | _ | _ | _ | _⟩ := r
  case candle c => rcases hcls with rfl | rfl <;> exact fun h ↦ by cases h
  all_goals cases hcandle

end Fields

end Classes

end Qros.DataEngine.Records
