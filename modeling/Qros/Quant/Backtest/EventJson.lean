import Qros.Quant.Backtest.CandleCsv
import Qros.Quant.Backtest.Json

/-!
# Events as JSON

`events_to_json` and `events_from_json` of `src/backtest/serialization.cpp`.  A candle is
written without its time stamp, its trades and its volume-weighted price, and read back
with the defaults of these; a number that is not finite is written as a text the reader has no
number for.
-/

universe u

namespace Qros.Quant

open Json List
open CharConv (isfinite)

def eventTypeName : EventType → List Char
  | .candle => "candle".toList
  | .timestamp => "timestamp".toList
  | .session => "session".toList

/-- The comparisons with the names of the types. -/
def eventTypeFromName (name : List Char) : Option EventType :=
  if name = "candle".toList then some .candle
  else if name = "timestamp".toList then some .timestamp
  else if name = "session".toList then some .session
  else none

def sessionStatusName : SessionStatus → List Char
  | .open => "open".toList
  | .close => "close".toList

section Write

variable {F : Type u} [CharConv F]

def candleToJson (c : Candle F) : List Char :=
  "\x7b\"open\":".toList ++ toGeneral c.open ++ ",\"high\":".toList ++ toGeneral c.high ++
    ",\"low\":".toList ++ toGeneral c.low ++ ",\"close\":".toList ++ toGeneral c.close ++
    ",\"volume\":".toList ++ toGeneral c.volume ++ ",\"timeframe\":\"".toList ++
    timeframeName c.timeframe ++ "\"\x7d".toList

/-- One round of the loop of `events_to_json`, without the comma before it. -/
def eventToJson (e : ReplayEvent F) : List Char :=
  "\x7b\"seq\":".toList ++ natText e.sequence ++ ",\"type\":\"".toList ++ eventTypeName e.type ++
    "\",\"time\":\"".toList ++ toIso8601 e.timestamp ++ "\",\"bar\":".toList ++ natText e.barIndex ++
    (if e.type = .candle then ",\"candle\":".toList ++ candleToJson e.candle else []) ++
    (if e.type = .session then
      ",\"status\":\"".toList ++ sessionStatusName e.sessionStatus ++ ['"'] else []) ++ ['}']

def eventsToJson (events : List (ReplayEvent F)) : Result (List Char) :=
  .ok ('[' :: (List.intercalate [','] (events.map eventToJson) ++ [']']))

end Write

section Read

variable {F : Type u} [CharConv F] [Zero F]

/-- `num`. -/
def numberAt (cobj : JsonValue F) (key : List Char) (dst : F) : F :=
  match cobj.find key with
  | some (.number d) => d
  | _ => dst

/-- The fields of `e.candle` that are read. -/
def candleFromJson (cobj : JsonValue F) (c : Candle F) : Candle F :=
  let c := { c with
    «open» := numberAt cobj "open".toList c.open
    high := numberAt cobj "high".toList c.high
    low := numberAt cobj "low".toList c.low
    close := numberAt cobj "close".toList c.close
    volume := numberAt cobj "volume".toList c.volume }
  match cobj.find "timeframe".toList with
  | some (.string name) => { c with timeframe := timeframeFromName name }
  | _ => c

def readCandle (item : JsonValue F) (e : ReplayEvent F) : ReplayEvent F :=
  if e.type = .candle then
    match item.find "candle".toList with
    | some cobj => { e with candle := candleFromJson cobj e.candle }
    | none => e
  else e

def readStatus (item : JsonValue F) (e : ReplayEvent F) : ReplayEvent F :=
  if e.type = .session then
    match item.find "status".toList with
    | some (.string st) => if st = "close".toList then { e with sessionStatus := .close } else e
    | _ => e
  else e

def eventFromJson (item : JsonValue F) : Result (ReplayEvent F) :=
  let e : ReplayEvent F := .empty
  let e : ReplayEvent F := match item.find "seq".toList with
    | some (.number d) => { e with sequence := CharConv.toUInt64 d }
    | _ => e
  match item.find "type".toList with
  | some (.string name) =>
    match eventTypeFromName name with
    | none => .error ⟨.invalidArgument,
        "serialization::events_from_json: unknown type '" ++ String.ofList name ++ "'"⟩
    | some type =>
      let e : ReplayEvent F := { e with type := type }
      let e : ReplayEvent F := match item.find "time".toList with
        | some (.string t) => { e with timestamp := fromIso8601 t }
        | _ => e
      let e : ReplayEvent F := match item.find "bar".toList with
        | some (.number d) => { e with barIndex := CharConv.toUInt64 d }
        | _ => e
      .ok (readStatus item (readCandle item e))
  | _ => .error ⟨.invalidArgument, "serialization::events_from_json: missing type"⟩

def eventsFromJson (json : List Char) : Result (List (ReplayEvent F)) :=
  match parseJson json with
  | .error e => .error ⟨.invalidArgument, "serialization::events_from_json: " ++ e⟩
  | .ok (.array items) => items.mapM eventFromJson
  | .ok _ => .error ⟨.invalidArgument, "serialization::events_from_json: expected JSON array"⟩

/-- What is written of the events is read back as these events. -/
def RoundTrips (events : List (ReplayEvent F)) : Prop :=
  ∃ json, eventsToJson events = .ok json ∧ eventsFromJson json = .ok events

/-- An unsigned integer that is the same when it has been a `double`. -/
def SurvivesDouble (F : Type u) [CharConv F] [Zero F] (n : Nat) : Prop :=
  (textNumber (natText n) : Option F).map CharConv.toUInt64 = some n

structure CandleCarried (c : Candle F) : Prop where
  finite : ∀ x ∈ [c.open, c.high, c.low, c.close, c.volume], isfinite x = true
  timestamp : c.timestamp = 0
  tradeCount : c.tradeCount = 0
  vwap : c.vwap = 0

/-- An event of which nothing is lost. -/
structure Carried (e : ReplayEvent F) : Prop where
  sequence : SurvivesDouble F e.sequence
  barIndex : SurvivesDouble F e.barIndex
  candle : if e.type = .candle then CandleCarried e.candle else e.candle = .empty
  status : e.type ≠ .session → e.sessionStatus = .open

end Read

/-! ## The text of an event is read -/

section

variable {F : Type u} [CharConv F] [Zero F]

def finiteValue (x : F) : Option (JsonValue F) := if isfinite x then some (.number x) else none

/-- An unsigned integer, as a value. -/
def natValue (n : Nat) : Option (JsonValue F) := (textNumber (natText n)).map .number

def textMember (key s : List Char) : List Char × Option (JsonValue F) × List Char :=
  (key, some (.string s), '"' :: (s ++ ['"']))

def candleNumbers (c : Candle F) : List (List Char × F) :=
  [("open".toList, c.open), ("high".toList, c.high), ("low".toList, c.low),
    ("close".toList, c.close), ("volume".toList, c.volume)]

def candleMembers (c : Candle F) : List (List Char × Option (JsonValue F) × List Char) :=
  (candleNumbers c).map (fun m ↦ (m.1, finiteValue m.2, toGeneral m.2)) ++
    [textMember "timeframe".toList (timeframeName c.timeframe)]

omit [Zero F] in
theorem candleToJson_eq (c : Candle F) :
    candleToJson c =
    '{' :: (List.intercalate [','] ((candleMembers c).map memberText) ++ ['}']) := by
  unfold candleToJson candleMembers candleNumbers memberText textMember
  simp only [map_cons, map_nil, cons_append, nil_append,
    intercalate_cons_cons, intercalate_singleton]
  simp only [String.reduceToList, append_assoc, cons_append, nil_append]

def candleValue (c : Candle F) : Option (JsonValue F) :=
  ((candleMembers c).mapM memberValue).map .object

def eventMembers (e : ReplayEvent F) : List (List Char × Option (JsonValue F) × List Char) :=
  [("seq".toList, natValue e.sequence, natText e.sequence),
    textMember "type".toList (eventTypeName e.type),
    textMember "time".toList (toIso8601 e.timestamp),
    ("bar".toList, natValue e.barIndex, natText e.barIndex)] ++
    (if e.type = .candle then
      [("candle".toList, candleValue e.candle, candleToJson e.candle)] else []) ++
    (if e.type = .session then
      [textMember "status".toList (sessionStatusName e.sessionStatus)] else [])

theorem eventToJson_eq (e : ReplayEvent F) :
    eventToJson e = '{' :: (List.intercalate [','] ((eventMembers e).map memberText) ++ ['}']) := by
  unfold eventToJson eventMembers memberText textMember
  cases e.type <;>
    simp only [reduceCtorEq, if_true, if_false, append_nil, cons_append, nil_append,
      map_cons, map_nil, intercalate_cons_cons, intercalate_singleton] <;>
    simp only [String.reduceToList, append_assoc, cons_append, nil_append]

def eventValue (e : ReplayEvent F) : Option (JsonValue F) :=
  ((eventMembers e).mapM memberValue).map .object

theorem reads_natValue (n : Nat) : Reads (natValue n : Option (JsonValue F)) (natText n) :=
  .number (natText_ne_nil n) fun _ hc ↦ isNumberChar_of_isDigit (isDigit_of_mem_natText hc)

theorem reads_textMember {key s : List Char} (hkey : Unescaped key) (hs : Unescaped s) :
    let m : List Char × Option (JsonValue F) × List Char := textMember key s
    Unescaped m.1 ∧ Reads m.2.1 m.2.2 :=
  ⟨hkey, .string hs⟩

section Lawful

variable [LawfulCharConv F]

theorem textNumber_toGeneral (x : F) : textNumber (toGeneral x) = some x := by
  rw [textNumber, parseDouble_toGeneral]

theorem reads_finiteValue (x : F) : Reads (finiteValue x) (toGeneral x) := by
  rw [finiteValue]
  cases hx : isfinite x with
  | true =>
    obtain ⟨hne, hchars⟩ := LawfulCharConv.toChars_finite x hx
    have hread := Reads.number (F := F) hne hchars
    rwa [show CharConv.toChars x = toGeneral x from rfl, textNumber_toGeneral] at hread
  | false =>
    obtain ⟨t, ht, hshape⟩ := LawfulCharConv.toChars_infinite x hx
    have hshape' : t = ['i', 'n', 'f'] ∨ ∃ kind, t = 'n' :: 'a' :: 'n' :: kind :=
      hshape.imp_right fun ⟨kind, h, _⟩ ↦ ⟨kind, h⟩
    rw [toGeneral]
    rcases ht with ht | ht <;> rw [ht]
    · exact .infinite hshape'
    · exact .minus_infinite LawfulCharConv.fromChars_minus hshape'

theorem reads_candleValue (c : Candle F) : Reads (candleValue c) (candleToJson c) := by
  rw [candleToJson_eq]
  refine .object (cons_ne_nil _ _) fun m hm ↦ ?_
  rcases mem_append.mp hm with hm | hm
  · obtain ⟨number, hnumber, rfl⟩ := mem_map.mp hm
    have hkeys : ∀ key ∈ (candleNumbers c).map Prod.fst, Unescaped key :=
      (by decide : ∀ key ∈ ["open".toList, "high".toList, "low".toList, "close".toList,
        "volume".toList], Unescaped key)
    exact ⟨hkeys _ (mem_map_of_mem hnumber), reads_finiteValue number.2⟩
  · rw [mem_singleton.mp hm]
    exact reads_textMember (by decide) (by cases c.timeframe <;> decide)

theorem reads_eventValue {e : ReplayEvent F}
    (hstamp : IsStamp (toIso8601 e.timestamp) e.timestamp) :
    Reads (eventValue e) (eventToJson e) := by
  rw [eventToJson_eq]
  have htime : Unescaped (toIso8601 e.timestamp) := by
    intro c hc
    have := hstamp.chars c hc
    constructor <;> rintro rfl <;> exact absurd this (by decide)
  have hne : eventMembers e ≠ [] := by
    unfold eventMembers
    exact append_ne_nil_of_left_ne_nil
      (append_ne_nil_of_left_ne_nil (cons_ne_nil _ _) _) _
  refine .object hne fun m hm ↦ ?_
  simp only [eventMembers, mem_append, mem_cons, not_mem_nil, or_false] at hm
  rcases hm with ((rfl | rfl | rfl | rfl) | hm) | hm
  · exact ⟨(by decide : Unescaped "seq".toList), reads_natValue e.sequence⟩
  · exact reads_textMember (by decide) (by cases e.type <;> decide)
  · exact reads_textMember (by decide) htime
  · exact ⟨(by decide : Unescaped "bar".toList), reads_natValue e.barIndex⟩
  · split at hm
    · rw [mem_singleton.mp hm]
      exact ⟨(by decide : Unescaped "candle".toList), reads_candleValue e.candle⟩
    · cases hm
  · split at hm
    · rw [mem_singleton.mp hm]
      exact reads_textMember (by decide) (by cases e.sessionStatus <;> decide)
    · cases hm

end Lawful

/-! ## What comes back -/

/-- The candle that is read, for a candle that was written. -/
def candleRestored (c : Candle F) : Option (Candle F) :=
  if ∀ m ∈ candleNumbers c, isfinite m.2 = true then
    some { c with timestamp := 0, tradeCount := 0, vwap := 0 }
  else none

/-- The event that is read, for an event that was written. -/
def restored (e : ReplayEvent F) : Option (ReplayEvent F) :=
  (textNumber (natText e.sequence) : Option F).bind fun sequence ↦
    (textNumber (natText e.barIndex) : Option F).bind fun barIndex ↦
      (if e.type = .candle then candleRestored e.candle else some .empty).map fun candle ↦
        { type := e.type
          timestamp := e.timestamp
          barIndex := CharConv.toUInt64 barIndex
          candle := candle
          sessionStatus := if e.type = .session then e.sessionStatus else .open
          sequence := CharConv.toUInt64 sequence }

theorem mapM_ite {α β : Type u} (p : α → Prop) [DecidablePred p] (g : α → β) (as : List α) :
    as.mapM (fun a ↦ if p a then some (g a) else none) =
      if ∀ a ∈ as, p a then some (as.map g) else none := by
  induction as with
  | nil => simp
  | cons a as ih =>
    rw [mapM_option_cons, ih]
    by_cases ha : p a
    · by_cases has : ∀ b ∈ as, p b
      · rw [if_pos ha, if_pos has, if_pos (forall_mem_cons.mpr ⟨ha, has⟩)]
        rfl
      · rw [if_pos ha, if_neg has, if_neg fun h ↦ has (forall_mem_cons.mp h).2]
        rfl
    · rw [if_neg ha, if_neg fun h ↦ ha (forall_mem_cons.mp h).1]
      rfl

variable {v : JsonValue F}

omit [CharConv F] [Zero F] in
theorem candleFromJson_timeframe (tf : Timeframe)
    (h : v.find "timeframe".toList = some (.string (timeframeName tf))) (c : Candle F) :
    candleFromJson v c =
      { c with
        «open» := numberAt v "open".toList c.open
        high := numberAt v "high".toList c.high
        low := numberAt v "low".toList c.low
        close := numberAt v "close".toList c.close
        volume := numberAt v "volume".toList c.volume
        timeframe := tf } := by
  rw [candleFromJson, h]
  dsimp only
  rw [timeframeFromName_timeframeName]

theorem candleFromJson_value (c : Candle F) :
    (candleValue c).map (fun v ↦ candleFromJson v .empty) = candleRestored c := by
  have hnumbers : ((candleNumbers c).map fun m ↦ (m.1, finiteValue m.2, toGeneral m.2)).mapM
      memberValue = if ∀ m ∈ candleNumbers c, isfinite m.2 = true then
        some ((candleNumbers c).map fun m ↦ (m.1, .number m.2)) else none := by
    rw [mapM_map, ← mapM_ite]
    congr 1
    funext m
    show (finiteValue m.2).map (fun v ↦ (m.1, v)) = _
    unfold finiteValue
    split <;> rfl
  rw [candleValue, candleMembers, mapM_append, hnumbers, candleRestored]
  split
  · exact congrArg some (candleFromJson_timeframe _ rfl .empty)
  · rfl

theorem eventTypeFromName_eventTypeName (type : EventType) :
    eventTypeFromName (eventTypeName type) = some type := by
  cases type <;> decide

theorem eventFromJson_object (type : EventType) {time : List Char} {seq bar : F}
    (hseq : v.find "seq".toList = some (.number seq))
    (htype : v.find "type".toList = some (.string (eventTypeName type)))
    (htime : v.find "time".toList = some (.string time))
    (hbar : v.find "bar".toList = some (.number bar)) :
    eventFromJson v = .ok
    (readStatus v (readCandle v ⟨type, fromIso8601 time, CharConv.toUInt64 bar,
      .empty, .open, CharConv.toUInt64 seq⟩)) := by
  rw [eventFromJson, hseq, htype]
  dsimp only
  rw [eventTypeFromName_eventTypeName, htime, hbar]
  rfl

omit [CharConv F] [Zero F] in
theorem readStatus_session {e : ReplayEvent F} {st : SessionStatus} (htype : e.type = .session)
    (hopen : e.sessionStatus = .open)
    (hstatus : v.find "status".toList = some (.string (sessionStatusName st))) :
    readStatus v e = { e with sessionStatus := st } := by
  rw [readStatus, if_pos htype, hstatus]
  cases st with
  | «open» =>
    have hname : sessionStatusName .open ≠ "close".toList := by decide
    dsimp only
    rw [if_neg hname, ← hopen]
  | close => exact if_pos rfl

theorem eventFromJson_value {e : ReplayEvent F}
    (hstamp : IsStamp (toIso8601 e.timestamp) e.timestamp) :
    (eventValue e).map eventFromJson = (restored e).map .ok := by
  unfold eventValue eventMembers restored natValue
  cases (textNumber (natText e.sequence) : Option F) with
  | none => rfl
  | some seq =>
    cases (textNumber (natText e.barIndex) : Option F) with
    | none => rfl
    | some bar =>
      cases htype : e.type with
      | candle =>
        have hcandle := candleFromJson_value e.candle
        cases hvalue : candleValue e.candle with
        | none =>
          rw [hvalue] at hcandle
          rw [if_pos rfl, ← hcandle]
          rfl
        | some v =>
          rw [hvalue] at hcandle
          rw [if_pos rfl, if_neg (by decide), if_pos rfl, ← hcandle]
          refine congrArg some ((eventFromJson_object .candle rfl rfl rfl rfl).trans ?_)
          rw [hstamp.value]
          rfl
      | timestamp =>
        refine congrArg some ((eventFromJson_object .timestamp rfl rfl rfl rfl).trans ?_)
        rw [hstamp.value]
        rfl
      | session =>
        refine congrArg some ((eventFromJson_object .session rfl rfl rfl rfl).trans ?_)
        rw [hstamp.value]
        exact congrArg Except.ok (readStatus_session rfl rfl rfl)

end

/-! ## The round trip -/

section

variable {F : Type u} [CharConv F] [Zero F]

theorem candleRestored_eq_iff (c : Candle F) : candleRestored c = some c ↔ CandleCarried c := by
  have hfinite : (∀ m ∈ candleNumbers c, isfinite m.2 = true) ↔
      ∀ x ∈ [c.open, c.high, c.low, c.close, c.volume], isfinite x = true := by
    simp only [candleNumbers, forall_mem_cons, not_mem_nil, false_imp_iff, implies_true]
  rw [candleRestored]
  constructor
  · intro h
    split at h
    · next hall =>
        have hc := Option.some.inj h
        exact ⟨hfinite.mp hall, (congrArg Candle.timestamp hc).symm,
          (congrArg Candle.tradeCount hc).symm, (congrArg Candle.vwap hc).symm⟩
    · cases h
  · rintro ⟨hall, htimestamp, htrades, hvwap⟩
    rw [if_pos (hfinite.mpr hall), ← htimestamp, ← htrades, ← hvwap]

theorem restored_eq_iff (e : ReplayEvent F) : restored e = some e ↔ Carried e := by
  constructor
  · intro h
    obtain ⟨seq, hseq, h⟩ := Option.bind_eq_some_iff.mp h
    obtain ⟨bar, hbar, h⟩ := Option.bind_eq_some_iff.mp h
    obtain ⟨c, hc, h⟩ := Option.map_eq_some_iff.mp h
    obtain rfl : c = e.candle := congrArg ReplayEvent.candle h
    refine ⟨?_, ?_, ?_, fun hne ↦ ?_⟩
    · rw [SurvivesDouble, hseq]
      exact congrArg some (congrArg ReplayEvent.sequence h)
    · rw [SurvivesDouble, hbar]
      exact congrArg some (congrArg ReplayEvent.barIndex h)
    · split at hc
      · rwa [if_pos ‹_›, ← candleRestored_eq_iff]
      · rw [if_neg ‹_›]
        exact (Option.some.inj hc).symm
    · have hstatus := congrArg ReplayEvent.sessionStatus h
      rw [if_neg hne] at hstatus
      exact hstatus.symm
  · rintro ⟨hseq, hbar, hcandle, hstatus⟩
    obtain ⟨seq, hs, hseq⟩ := Option.map_eq_some_iff.mp hseq
    obtain ⟨bar, hb, hbar⟩ := Option.map_eq_some_iff.mp hbar
    have hc : (if e.type = .candle then candleRestored e.candle else some .empty) = some e.candle := by
      split
      · rw [if_pos ‹_›] at hcandle
        exact (candleRestored_eq_iff e.candle).mpr hcandle
      · rw [if_neg ‹_›] at hcandle
        rw [hcandle]
    have hst : (if e.type = .session then e.sessionStatus else .open) = e.sessionStatus := by
      split
      · rfl
      · exact (hstatus ‹_›).symm
    rw [restored, hs, hb, hc, hst]
    dsimp only [Option.bind_some, Option.map_some]
    rw [hseq, hbar]

theorem map_eq_map_ok {ε : Type} {β γ : Type u} {x : Option β} {g : β → Except ε γ} {y : Option γ}
    (h : x.map g = y.map .ok) :
    (x = none ∧ y = none) ∨ ∃ b c, x = some b ∧ y = some c ∧ g b = .ok c := by
  cases x with
  | none => exact .inl ⟨rfl, Option.map_eq_none_iff.mp h.symm⟩
  | some b =>
    obtain ⟨c, hc, hb⟩ := Option.map_eq_some_iff.mp h.symm
    exact .inr ⟨b, c, rfl, hc, hb.symm⟩

theorem mapM_trans {ε : Type} {α β γ : Type u} {f : α → Option β} {g : β → Except ε γ}
    {h : α → Option γ} {as : List α} (hpoint : ∀ a ∈ as, (f a).map g = (h a).map .ok) :
    (as.mapM f).map (fun bs ↦ bs.mapM g) = (as.mapM h).map .ok := by
  induction as with
  | nil => rfl
  | cons a as ih =>
    have hhead := map_eq_map_ok (hpoint a mem_cons_self)
    have htail := map_eq_map_ok (ih fun b hb ↦ hpoint b (mem_cons_of_mem _ hb))
    rw [mapM_option_cons, mapM_option_cons]
    rcases hhead with ⟨hf, hh⟩ | ⟨b, c, hf, hh, hg⟩
    · rw [hf, hh]
      rfl
    rcases htail with ⟨hfs, hhs⟩ | ⟨bs, cs, hfs, hhs, hgs⟩
    · rw [hf, hh, hfs, hhs]
      rfl
    rw [hf, hh, hfs, hhs]
    show some ((b :: bs).mapM g) = some (.ok (c :: cs))
    rw [mapM_cons, hg]
    show some ((bs.mapM g).bind _) = _
    rw [hgs]
    rfl

theorem mapM_eq_self_iff {α : Type u} (f : α → Option α) (as : List α) :
    as.mapM f = some as ↔ ∀ a ∈ as, f a = some a := by
  induction as with
  | nil => exact iff_of_true rfl fun _ h ↦ nomatch h
  | cons a as ih =>
    rw [mapM_option_cons, forall_mem_cons, ← ih]
    cases f a with
    | none => simp
    | some b =>
      cases as.mapM f with
      | none => simp
      | some bs => simp

variable [LawfulCharConv F]

theorem reads_eventsToJson {es : List (ReplayEvent F)}
    (hstamp : ∀ e ∈ es, IsStamp (toIso8601 e.timestamp) e.timestamp) :
    Reads ((es.mapM eventValue).map .array)
      ('[' :: (List.intercalate [','] (es.map eventToJson) ++ [']'])) := by
  have hitems : (es.map fun e ↦ (eventValue e, eventToJson e)).mapM Prod.fst = es.mapM eventValue :=
    mapM_map
  have htexts : (es.map fun e ↦ (eventValue e, eventToJson e)).map Prod.snd = es.map eventToJson :=
    map_map
  rw [← hitems, ← htexts]
  refine .array fun i hi ↦ ?_
  obtain ⟨e, he, rfl⟩ := mem_map.mp hi
  exact reads_eventValue (hstamp e he)

theorem roundTrips_iff_restored {es : List (ReplayEvent F)}
    (hstamp : ∀ e ∈ es, IsStamp (toIso8601 e.timestamp) e.timestamp) :
    RoundTrips es ↔ ∀ e ∈ es, restored e = some e := by
  have hread := reads_eventsToJson hstamp
  have hback := mapM_trans fun e he ↦ eventFromJson_value (hstamp e he)
  have hround : RoundTrips es ↔
      eventsFromJson ('[' :: (List.intercalate [','] (es.map eventToJson) ++ [']'])) = .ok es := by
    constructor
    · rintro ⟨json, hjson, h⟩
      rwa [← Except.ok.inj hjson] at h
    · intro h
      exact ⟨_, rfl, h⟩
  rw [hround, ← mapM_eq_self_iff, eventsFromJson]
  cases hvalues : es.mapM eventValue with
  | none =>
    rw [hvalues] at hread hback
    obtain ⟨err, herr⟩ := hread.parseJson_error
    rw [herr, show es.mapM restored = none from Option.map_eq_none_iff.mp hback.symm]
    exact iff_of_false nofun nofun
  | some vs =>
    rw [hvalues] at hread hback
    obtain ⟨es', hes', h⟩ := Option.map_eq_some_iff.mp hback.symm
    have hitems : .ok es' = vs.mapM eventFromJson := h
    rw [hread.parseJson_eq, show es.mapM restored = some es' from hes']
    show vs.mapM eventFromJson = _ ↔ _
    rw [← hitems, Except.ok.injEq, Option.some.injEq]

/-- **Events survive their text** just when nothing of any of them is lost. -/
theorem events_roundTrip_iff {es : List (ReplayEvent F)}
    (htime : ∀ e ∈ es, WholeSecond e.timestamp ∧ InRange e.timestamp) :
    RoundTrips es ↔ ∀ e ∈ es, Carried e := by
  rw [roundTrips_iff_restored fun e he ↦
    isStamp_toIso8601 (htime e he).1 (htime e he).2.inYears]
  exact forall₂_congr fun e _ ↦ restored_eq_iff e

end

def tradedBar : MarketData Int :=
  ⟨⟨['S'], .h1, none, none⟩, [⟨1577836800000000000, 101, 105, 99, 102, 1500, 12, 103, .h1⟩],
    .empty, true⟩

theorem events_roundTrip_sample :
    RoundTrips (buildEventSequence tradedBar .fullWithSessions) ↔
      ∀ e ∈ buildEventSequence tradedBar .fullWithSessions, Carried e :=
  events_roundTrip_iff (by decide)

/-- The candle of the bar comes back without its time, its trades and its price. -/
theorem events_lose_candle :
    ¬ ∀ (data : MarketData Int) (mode : ReplayMode),
      (∀ e ∈ buildEventSequence data mode, WholeSecond e.timestamp ∧ InRange e.timestamp) →
        RoundTrips (buildEventSequence data mode) := by
  intro h
  have htime : ∀ e ∈ buildEventSequence tradedBar .fullWithSessions,
      WholeSecond e.timestamp ∧ InRange e.timestamp := by decide
  have hback := (roundTrips_iff_restored fun e he ↦
    isStamp_toIso8601 (htime e he).1 (htime e he).2.inYears).mp (h tradedBar .fullWithSessions htime)
  exact absurd hback (by decide)

end Qros.Quant
