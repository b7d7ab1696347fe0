import Qros.OrderFlow.Canonical
import Qros.Python.Value

/-!
# Input lineage

`InputLineage` of `order_flow/lineage.py`.  `from_events` accepts events just when those
with one raw hash are equal (`fromEvents_eq_ok_iff`), and then names the hash of each once.
-/

namespace Qros.OrderFlow

open Qros.Lib Qros.Python List

/-! ## Equality of events -/

/-- `a == b` for values that may be missing. -/
def SameOption {α : Type} (R : α → α → Prop) : Option α → Option α → Prop
  | none, none => True
  | some a, some b => R a b
  | _, _ => False

instance {α : Type} (R : α → α → Prop) [DecidableRel R] (a b : Option α) :
    Decidable (SameOption R a b) :=
  match a, b with
  | none, none => isTrue trivial
  | some a, some b => inferInstanceAs (Decidable (R a b))
  | none, some _ => isFalse not_false
  | some _, none => isFalse not_false

def SameDecimal (d e : Decimal) : Prop := d.value = e.value

instance : DecidableRel SameDecimal := fun d e ↦ inferInstanceAs (Decidable (d.value = e.value))

/-- `a == b`. -/
def QuoteEvent.Same (a b : QuoteEvent) : Prop :=
  a.toBaseEvent = b.toBaseEvent ∧ SameDecimal a.bidPrice b.bidPrice ∧
    SameDecimal a.askPrice b.askPrice ∧ SameOption SameDecimal a.bidSize b.bidSize ∧
      SameOption SameDecimal a.askSize b.askSize ∧ a.sequenceNumber = b.sequenceNumber ∧
        a.condition = b.condition

/-- `a == b`. -/
def L2BookEvent.Same (a b : L2BookEvent) : Prop :=
  a.toBaseEvent = b.toBaseEvent ∧ a.sequenceNumber = b.sequenceNumber ∧
    SameDecimal a.price b.price ∧ a.side = b.side ∧ a.operation = b.operation ∧
      SameDecimal a.quantity b.quantity ∧ a.eventKind = b.eventKind

/-- `a == b`. -/
def TradeMutation.Same (a b : TradeMutation) : Prop :=
  a.toBaseEvent = b.toBaseEvent ∧ a.tradeId = b.tradeId ∧ a.tradeScopeId = b.tradeScopeId ∧
    a.revision = b.revision ∧ a.action = b.action ∧ a.sequenceNumber = b.sequenceNumber ∧
      SameOption TradeEvent.Same a.replacementTrade b.replacementTrade ∧
        a.supersedesRawEventHash = b.supersedesRawEventHash

instance : DecidableRel TradeEvent.Same := fun _ _ ↦ inferInstance

instance : DecidableRel QuoteEvent.Same := fun _ _ ↦ inferInstanceAs (Decidable (_ ∧ _))

instance : DecidableRel L2BookEvent.Same := fun _ _ ↦ inferInstanceAs (Decidable (_ ∧ _))

instance : DecidableRel TradeMutation.Same := fun _ _ ↦ inferInstanceAs (Decidable (_ ∧ _))

theorem SameOption.refl {α : Type} {R : α → α → Prop} (hR : ∀ a, R a a) (a : Option α) :
    SameOption R a a := by
  cases a with
  | none => trivial
  | some a => exact hR a

theorem SameOption.symm {α : Type} {R : α → α → Prop} (hR : ∀ a b, R a b → R b a) {a b : Option α}
    (h : SameOption R a b) : SameOption R b a := by
  cases a with
  | none =>
    cases b with
    | none => exact h
    | some b => exact h
  | some a =>
    cases b with
    | none => exact h
    | some b => exact hR a b h

theorem SameOption.trans {α : Type} {R : α → α → Prop} (hR : ∀ a b c, R a b → R b c → R a c)
    {a b c : Option α} (h : SameOption R a b) (h' : SameOption R b c) : SameOption R a c := by
  cases a with
  | none =>
    cases b with
    | none => exact h'
    | some b => exact h.elim
  | some a =>
    cases b with
    | none => exact h.elim
    | some b =>
      cases c with
      | none => exact h'
      | some c => exact hR a b c h h'

namespace MarketEvent

/-- `a == b`: events of different classes are not equal. -/
def Same : MarketEvent → MarketEvent → Prop
  | .trade a, .trade b => a.Same b
  | .quote a, .quote b => a.Same b
  | .book a, .book b => a.Same b
  | .mutation a, .mutation b => a.Same b
  | _, _ => False

instance : DecidableRel Same := fun a b ↦
  match a, b with
  | .trade a, .trade b => inferInstanceAs (Decidable (a.Same b))
  | .quote a, .quote b => inferInstanceAs (Decidable (a.Same b))
  | .book a, .book b => inferInstanceAs (Decidable (a.Same b))
  | .mutation a, .mutation b => inferInstanceAs (Decidable (a.Same b))
  | .trade _, .quote _ => isFalse not_false
  | .trade _, .book _ => isFalse not_false
  | .trade _, .mutation _ => isFalse not_false
  | .quote _, .trade _ => isFalse not_false
  | .quote _, .book _ => isFalse not_false
  | .quote _, .mutation _ => isFalse not_false
  | .book _, .trade _ => isFalse not_false
  | .book _, .quote _ => isFalse not_false
  | .book _, .mutation _ => isFalse not_false
  | .mutation _, .trade _ => isFalse not_false
  | .mutation _, .quote _ => isFalse not_false
  | .mutation _, .book _ => isFalse not_false

theorem Same.refl (a : MarketEvent) : a.Same a := by
  have hdecimal : ∀ d : Decimal, SameDecimal d d := fun _ ↦ rfl
  cases a with
  | trade e => exact TradeEvent.Same.refl e
  | quote e => exact ⟨rfl, rfl, rfl, .refl hdecimal _, .refl hdecimal _, rfl, rfl⟩
  | book e => exact ⟨rfl, rfl, rfl, rfl, rfl, rfl, rfl⟩
  | mutation e => exact ⟨rfl, rfl, rfl, rfl, rfl, rfl, .refl TradeEvent.Same.refl _, rfl⟩

theorem Same.symm {a b : MarketEvent} (h : a.Same b) : b.Same a := by
  have hdecimal : ∀ d e : Decimal, SameDecimal d e → SameDecimal e d := fun _ _ ↦ Eq.symm
  cases a <;> cases b
  case trade.trade => exact TradeEvent.Same.symm h
  case quote.quote =>
    obtain ⟨h₁, h₂, h₃, h₄, h₅, h₆, h₇⟩ := h
    exact ⟨h₁.symm, h₂.symm, h₃.symm, h₄.symm hdecimal, h₅.symm hdecimal, h₆.symm, h₇.symm⟩
  case book.book =>
    obtain ⟨h₁, h₂, h₃, h₄, h₅, h₆, h₇⟩ := h
    exact ⟨h₁.symm, h₂.symm, h₃.symm, h₄.symm, h₅.symm, h₆.symm, h₇.symm⟩
  case mutation.mutation =>
    obtain ⟨h₁, h₂, h₃, h₄, h₅, h₆, h₇, h₈⟩ := h
    exact ⟨h₁.symm, h₂.symm, h₃.symm, h₄.symm, h₅.symm, h₆.symm,
      h₇.symm fun _ _ ↦ TradeEvent.Same.symm, h₈.symm⟩
  all_goals exact h.elim

theorem Same.trans {a b c : MarketEvent} (h : a.Same b) (h' : b.Same c) : a.Same c := by
  have hdecimal : ∀ d e f : Decimal, SameDecimal d e → SameDecimal e f → SameDecimal d f :=
    fun _ _ _ ↦ Eq.trans
  have htrade : ∀ t u v : TradeEvent, t.Same u → u.Same v → t.Same v := fun _ _ _ h h' ↦ h.trans h'
  cases a <;> cases b
  case trade.trade =>
    cases c
    case trade => exact TradeEvent.Same.trans h h'
    all_goals exact h'.elim
  case quote.quote =>
    cases c
    case quote =>
      obtain ⟨h₁, h₂, h₃, h₄, h₅, h₆, h₇⟩ := h
      obtain ⟨g₁, g₂, g₃, g₄, g₅, g₆, g₇⟩ := h'
      exact ⟨h₁.trans g₁, h₂.trans g₂, h₃.trans g₃, h₄.trans hdecimal g₄, h₅.trans hdecimal g₅,
        h₆.trans g₆, h₇.trans g₇⟩
    all_goals exact h'.elim
  case book.book =>
    cases c
    case book =>
      obtain ⟨h₁, h₂, h₃, h₄, h₅, h₆, h₇⟩ := h
      obtain ⟨g₁, g₂, g₃, g₄, g₅, g₆, g₇⟩ := h'
      exact ⟨h₁.trans g₁, h₂.trans g₂, h₃.trans g₃, h₄.trans g₄, h₅.trans g₅, h₆.trans g₆,
        h₇.trans g₇⟩
    all_goals exact h'.elim
  case mutation.mutation =>
    cases c
    case mutation =>
      obtain ⟨h₁, h₂, h₃, h₄, h₅, h₆, h₇, h₈⟩ := h
      obtain ⟨g₁, g₂, g₃, g₄, g₅, g₆, g₇, g₈⟩ := h'
      exact ⟨h₁.trans g₁, h₂.trans g₂, h₃.trans g₃, h₄.trans g₄, h₅.trans g₅, h₆.trans g₆,
        h₇.trans htrade g₇, h₈.trans g₈⟩
    all_goals exact h'.elim
  all_goals exact h.elim

end MarketEvent

/-! ## The record -/

def sortedSet (xs : List String) : List String := sortStrings xs.dedup

theorem mem_sortedSet {xs : List String} {x : String} : x ∈ sortedSet xs ↔ x ∈ xs := by
  rw [sortedSet, sortStrings, mem_insertionSort, mem_dedup]

theorem nodup_sortedSet (xs : List String) : (sortedSet xs).Nodup :=
  (perm_insertionSort _ _).nodup_iff.mpr (nodup_dedup xs)

theorem sortedSet_sortedSet (xs : List String) : sortedSet (sortedSet xs) = sortedSet xs := by
  rw [sortedSet, (nodup_sortedSet xs).dedup, sortedSet, sortStrings_sortStrings]

structure InputLineage where
  inputEventHashes : List String
  latestInputEventTimeUtc : Option Utc
  latestInputAvailableAtUtc : Option Utc
  complete : Bool
  missingInputs : List String

namespace InputLineage

def checkClocks : Option Utc → Option Utc → Except String Unit
  | none, some _ => .error "availability clock requires an event-time clock"
  | none, none => .ok ()
  | some _, none => .error "latest_input_available_at_utc must be timezone-aware UTC"
  | some eventTime, some availableAt =>
    require (eventTime ≤ availableAt) "input availability cannot precede latest input event time"

def postInit (l : InputLineage) : Except String Unit := do
  require (sortedSet l.inputEventHashes = l.inputEventHashes)
    "input_event_hashes must be unique and sorted"
  forM l.inputEventHashes fun digest ↦
    require (IsSha256 digest) "input_event_hashes must contain lowercase SHA-256"
  require (∀ item ∈ l.missingInputs, IsTrimmed item)
    "missing_inputs must contain non-empty trimmed labels"
  checkClocks l.latestInputEventTimeUtc l.latestInputAvailableAtUtc
  require (¬ (l.complete = true ∧ (l.inputEventHashes = [] ∨ l.latestInputEventTimeUtc = none ∨
      l.latestInputAvailableAtUtc = none ∨ l.missingInputs ≠ [])))
    "complete lineage requires hashes, clocks, and no missing inputs"

/-- The record, if it passes its checks. -/
def make (l : InputLineage) : Except String InputLineage := do
  l.postInit
  return l

/-- One round of the loop over the events. -/
def enter (d : Dict String MarketEvent) (event : MarketEvent) :
    Except String (Dict String MarketEvent) := do
  require (∀ prior ∈ d.get? event.base.rawEventHash, prior.Same event)
    "same raw hash has conflicting lineage event payload"
  return d.set event.base.rawEventHash event

def fromEvents (rows : List MarketEvent) (unresolvedHashes missingInputs : List String) :
    Except String (Option InputLineage) := do
  if rows = [] ∧ unresolvedHashes = [] ∧ missingInputs = [] then
    return none
  let byHash ← rows.foldlM enter ∅
  let orderedHashes := sortedSet (byHash.keys ++ unresolvedHashes)
  if byHash.entries = [] then
    return some (← make ⟨orderedHashes, none, none, false,
      sortedSet (missingInputs ++ ["unresolved_event_clocks"])⟩)
  let eventTime := (byHash.values.map fun e ↦ e.base.eventTimeUtc).max?
  let availableAt := (byHash.values.map fun e ↦ e.base.receiveTimeUtc).max?
  let missing := sortedSet (missingInputs ++
    if unresolvedHashes = [] then [] else ["unresolved_event_clocks"])
  return some (← make ⟨orderedHashes, eventTime, availableAt, decide (missing = []), missing⟩)

end InputLineage

/-! ## What `from_events` accepts -/

/-- Events with one raw hash are equal. -/
def Compatible (events : List MarketEvent) : Prop :=
  ∀ a ∈ events, ∀ b ∈ events, a.base.rawEventHash = b.base.rawEventHash → a.Same b

/-- What the loop has read. -/
structure Entered (events : List MarketEvent) (d : Dict String MarketEvent) : Prop where
  from_events : ∀ h e, d.get? h = some e → e ∈ events ∧ e.base.rawEventHash = h
  all_events : ∀ e ∈ events, e.base.rawEventHash ∈ d.keys
  compatible : Compatible events

variable {d : Dict String MarketEvent} {events : List MarketEvent}

theorem mem_keys_iff {h : String} :
    h ∈ d.keys ↔ ∃ e, d.get? h = some e := by
  constructor
  · intro hmem
    obtain ⟨⟨_, e⟩, he, rfl⟩ := mem_map.mp hmem
    exact ⟨e, Dict.mem_entries.mp he⟩
  · rintro ⟨e, he⟩
    exact mem_map_of_mem (f := Prod.fst) (Dict.mem_entries.mpr he)

variable {e : MarketEvent}

theorem compatible_concat :
    Compatible (events ++ [e]) ↔ Compatible events ∧
      ∀ a ∈ events, a.base.rawEventHash = e.base.rawEventHash → a.Same e := by
  constructor
  · intro h
    have hlast : e ∈ events ++ [e] := mem_append_right _ mem_cons_self
    exact ⟨fun a ha b hb ↦ h a (mem_append_left _ ha) b (mem_append_left _ hb),
      fun a ha ↦ h a (mem_append_left _ ha) e hlast⟩
  · rintro ⟨hevents, he⟩ a ha b hb hab
    rw [mem_append, mem_singleton] at ha hb
    rcases ha with ha | rfl
    · rcases hb with hb | rfl
      · exact hevents a ha b hb hab
      · exact he a ha hab
    · rcases hb with hb | rfl
      · exact (he b hb hab.symm).symm
      · exact .refl _

/-- **One event.** -/
theorem Entered.enter_eq_ok_iff {d d' : Dict String MarketEvent} (h : Entered events d) :
    InputLineage.enter d e = .ok d' ↔
      Compatible (events ++ [e]) ∧ d' = d.set e.base.rawEventHash e := by
  rw [InputLineage.enter, bind_eq_ok]
  have hprior : (∀ prior ∈ d.get? e.base.rawEventHash, prior.Same e) ↔
      Compatible (events ++ [e]) := by
    rw [compatible_concat, and_iff_right h.compatible]
    constructor
    · intro hd a ha hae
      obtain ⟨p, hp⟩ := mem_keys_iff.mp (hae ▸ h.all_events a ha)
      obtain ⟨hpe, hph⟩ := h.from_events _ p hp
      exact (h.compatible a ha p hpe (hae.trans hph.symm)).trans (hd p hp)
    · intro he p hp
      obtain ⟨hpe, hph⟩ := h.from_events _ p hp
      exact he p hpe hph
  constructor
  · rintro ⟨_, hok, hd'⟩
    exact ⟨hprior.mp (require_eq_ok.mp hok), (Except.ok.inj hd').symm⟩
  · rintro ⟨hc, rfl⟩
    exact ⟨(), require_eq_ok.mpr (hprior.mpr hc), rfl⟩

theorem Entered.set (h : Entered events d) (hc : Compatible (events ++ [e])) :
    Entered (events ++ [e]) (d.set e.base.rawEventHash e) where
  from_events k a hk := by
    rw [Dict.get?_set] at hk
    by_cases hek : e.base.rawEventHash = k
    · rw [if_pos hek] at hk
      obtain rfl := Option.some.inj hk
      exact ⟨mem_append_right _ mem_cons_self, hek⟩
    · rw [if_neg hek] at hk
      obtain ⟨ha, hak⟩ := h.from_events k a hk
      exact ⟨mem_append_left _ ha, hak⟩
  all_events a ha := by
    rw [mem_keys_iff]
    by_cases hae : e.base.rawEventHash = a.base.rawEventHash
    · exact ⟨e, by rw [Dict.get?_set, if_pos hae]⟩
    · rw [mem_append, mem_singleton] at ha
      rcases ha with ha | rfl
      · obtain ⟨p, hp⟩ := mem_keys_iff.mp (h.all_events a ha)
        exact ⟨p, by rw [Dict.get?_set, if_neg hae, hp]⟩
      · exact absurd rfl hae
  compatible := hc

/-- **The loop.** -/
theorem entered_of_foldlM (h : events.foldlM InputLineage.enter ∅ = .ok d) : Entered events d := by
  induction events using reverseRecOn generalizing d with
  | nil =>
    obtain rfl := Except.ok.inj h
    exact ⟨fun k e hk ↦ (Option.some_ne_none e hk.symm).elim,
      fun e he ↦ absurd he not_mem_nil, fun e he ↦ absurd he not_mem_nil⟩
  | append_singleton events e ih =>
    rw [foldlM_append, bind_eq_ok] at h
    obtain ⟨d', hd', h⟩ := h
    rw [foldlM_cons, bind_eq_ok] at h
    obtain ⟨d'', henter, h⟩ := h
    obtain rfl := Except.ok.inj h
    obtain ⟨hc, rfl⟩ := (ih hd').enter_eq_ok_iff.mp henter
    exact (ih hd').set hc

theorem exists_foldlM_iff :
    (∃ d, events.foldlM InputLineage.enter ∅ = .ok d) ↔ Compatible events := by
  constructor
  · rintro ⟨d, hd⟩
    exact (entered_of_foldlM hd).compatible
  · intro hc
    induction events using reverseRecOn with
    | nil => exact ⟨_, rfl⟩
    | append_singleton events e ih =>
      obtain ⟨d, hd⟩ := ih (compatible_concat.mp hc).1
      refine ⟨d.set e.base.rawEventHash e, ?_⟩
      rw [foldlM_append, bind_eq_ok]
      refine ⟨d, hd, ?_⟩
      rw [foldlM_cons, bind_eq_ok]
      exact ⟨_, (entered_of_foldlM hd).enter_eq_ok_iff.mpr ⟨hc, rfl⟩, rfl⟩

/-! ## The lineage of events -/

theorem exists_max (ts : List Utc) (h : ts ≠ []) :
    ∃ t, ts.max? = some t ∧ t ∈ ts ∧ ∀ u ∈ ts, u ≤ t := by
  obtain ⟨t, ht⟩ := Option.ne_none_iff_exists'.mp (mt max?_eq_none_iff.mp h)
  obtain ⟨hmem, hle⟩ := max?_eq_some_iff.mp ht
  exact ⟨t, ht, hmem, hle⟩

namespace InputLineage

/-- The record made of events that were entered. -/
def ofEntered (d : Dict String MarketEvent) : InputLineage where
  inputEventHashes := sortedSet d.keys
  latestInputEventTimeUtc := (d.values.map fun e ↦ e.base.eventTimeUtc).max?
  latestInputAvailableAtUtc := (d.values.map fun e ↦ e.base.receiveTimeUtc).max?
  complete := true
  missingInputs := []

theorem postInit_ofEntered {events : List MarketEvent} {d : Dict String MarketEvent}
    (h : Entered events d) (hne : d.entries ≠ []) : (ofEntered d).postInit = .ok () := by
  have hvalues : d.values ≠ [] := mt map_eq_nil_iff.mp hne
  obtain ⟨t, ht, htmem, -⟩ := exists_max (d.values.map fun e ↦ e.base.eventTimeUtc)
    (mt map_eq_nil_iff.mp hvalues)
  obtain ⟨u, hu, -, hle⟩ := exists_max (d.values.map fun e ↦ e.base.receiveTimeUtc)
    (mt map_eq_nil_iff.mp hvalues)
  rw [postInit]
  refine bind_eq_ok.mpr ⟨(), require_eq_ok.mpr (sortedSet_sortedSet _), ?_⟩
  refine bind_eq_ok.mpr ⟨⟨⟩, forM_eq_ok.mpr ?_, ?_⟩
  · intro digest hdigest
    obtain ⟨e, he⟩ := mem_keys_iff.mp (mem_sortedSet.mp hdigest)
    obtain ⟨-, rfl⟩ := h.from_events _ e he
    exact require_eq_ok.mpr e.base.rawEventHash_ok
  · refine bind_eq_ok.mpr ⟨(), require_eq_ok.mpr ?_, bind_eq_ok.mpr ⟨(), ?_, require_eq_ok.mpr ?_⟩⟩
    · intro item hitem
      exact absurd hitem not_mem_nil
    · rw [ofEntered, ht, hu]
      obtain ⟨e, he, rfl⟩ := mem_map.mp htmem
      exact require_eq_ok.mpr (e.base.receiveTime_ok.trans (hle _ (mem_map_of_mem he)))
    · rintro ⟨-, hbad⟩
      rw [ofEntered, ht, hu] at hbad
      rcases hbad with hnil | hnone | hnone | hmissing
      · obtain ⟨e, he⟩ := exists_mem_of_ne_nil _ hne
        have hmem : e.1 ∈ sortedSet d.keys := mem_sortedSet.mpr (mem_map_of_mem he)
        rw [show sortedSet d.keys = [] from hnil] at hmem
        exact absurd hmem not_mem_nil
      · exact absurd hnone (Option.some_ne_none t)
      · exact absurd hnone (Option.some_ne_none u)
      · exact hmissing rfl

/-- **Lineage of events.**  With no gaps named, events are accepted just when those with one
hash are equal. -/
theorem fromEvents_eq_ok_iff {events : List MarketEvent} (hne : events ≠ []) {l : InputLineage} :
    fromEvents events [] [] = .ok (some l) ↔
      ∃ d, events.foldlM enter ∅ = .ok d ∧ l = ofEntered d := by
  have hentries : ∀ d, events.foldlM enter ∅ = .ok d → d.entries ≠ [] := by
    intro d hd hnil
    obtain ⟨e, he⟩ := exists_mem_of_ne_nil _ hne
    have hmem := (entered_of_foldlM hd).all_events e he
    rw [Dict.keys, hnil] at hmem
    exact absurd hmem not_mem_nil
  rw [fromEvents, if_neg fun h ↦ hne h.1, bind_eq_ok]
  refine exists_congr fun d ↦ and_congr_right fun hd ↦ ?_
  rw [if_neg (hentries d hd)]
  have hmake : make (ofEntered d) = .ok (ofEntered d) :=
    bind_eq_ok.mpr ⟨(), postInit_ofEntered (entered_of_foldlM hd) (hentries d hd), rfl⟩
  rw [append_nil, if_pos rfl]
  change (make (ofEntered d) >>= fun l' ↦ pure (some l')) = _ ↔ _
  rw [hmake]
  constructor
  · intro h
    exact (Option.some.inj (Except.ok.inj h)).symm
  · rintro rfl
    rfl

theorem exists_fromEvents_iff {events : List MarketEvent} (hne : events ≠ []) :
    (∃ l, fromEvents events [] [] = .ok (some l)) ↔ Compatible events := by
  rw [← exists_foldlM_iff]
  constructor
  · rintro ⟨l, hl⟩
    obtain ⟨d, hd, -⟩ := (fromEvents_eq_ok_iff hne).mp hl
    exact ⟨d, hd⟩
  · rintro ⟨d, hd⟩
    exact ⟨_, (fromEvents_eq_ok_iff hne).mpr ⟨d, hd, rfl⟩⟩

theorem count_of_fromEvents {events : List MarketEvent} {l : InputLineage}
    (h : fromEvents events [] [] = .ok (some l)) {e : MarketEvent} (he : e ∈ events) :
    l.inputEventHashes.count e.base.rawEventHash = 1 := by
  obtain ⟨d, hd, rfl⟩ := (fromEvents_eq_ok_iff (ne_nil_of_mem he)).mp h
  exact count_eq_one_of_mem (nodup_sortedSet _)
    (mem_sortedSet.mpr ((entered_of_foldlM hd).all_events e he))

end InputLineage

end Qros.OrderFlow
