import Mathlib.Data.List.ReduceOption
import Qros.OrderFlow.EventLedger
import Qros.OrderFlow.Lineage

/-!
# Trade flow

`aggregate_trade_flow` and `compute_cvd` of `order_flow/features.py`.  Quantities are the
values of decimals, so sums are exact; times are in UTC.

A window is determined by the trades that it selects, and windows that tile an interval select
what the interval selects (`selected_perm`).  So every quantity of the interval is the sum over
the windows, and its lineage is their union (`trade_flow_additive`).
-/

namespace Qros.OrderFlow

open Qros.Lib Qros.Python List

theorem MarketEvent.Same.base_eq {a b : MarketEvent} (h : a.Same b) : a.base = b.base := by
  cases a <;> cases b
  case trade.trade => exact TradeEvent.Same.base h
  case quote.quote => exact h.1
  case book.book => exact h.1
  case mutation.mutation => exact h.1
  all_goals exact h.elim

/-! ## Latest times -/

theorem max?_congr {ts us : List Utc} (h : ∀ t ∈ ts, ∃ u ∈ us, t ≤ u)
    (h' : ∀ u ∈ us, ∃ t ∈ ts, u ≤ t) : ts.max? = us.max? := by
  by_cases hnil : ts = []
  · subst hnil
    cases us with
    | nil => rfl
    | cons u us =>
      obtain ⟨t, ht, -⟩ := h' u mem_cons_self
      exact absurd ht not_mem_nil
  · obtain ⟨t, ht, htmem, hmax⟩ := exists_max ts hnil
    obtain ⟨u, hu, -⟩ := h t htmem
    obtain ⟨u', hu', hmem', hmax'⟩ := exists_max us (ne_nil_of_mem hu)
    obtain ⟨v, hv, htv⟩ := h t htmem
    obtain ⟨w, hw, huw⟩ := h' u' hmem'
    rw [ht, hu', le_antisymm (htv.trans (hmax' v hv)) (huw.trans (hmax w hw))]

theorem max?_congr_mem {ts us : List Utc} (h : ∀ t, t ∈ ts ↔ t ∈ us) : ts.max? = us.max? :=
  max?_congr (fun t ht ↦ ⟨t, (h t).mp ht, le_refl t⟩) fun u hu ↦ ⟨u, (h u).mpr hu, le_refl u⟩

theorem sortedSet_congr {xs ys : List String} (h : ∀ x, x ∈ xs ↔ x ∈ ys) :
    sortedSet xs = sortedSet ys := by
  have hperm : xs.dedup.Perm ys.dedup :=
    (perm_ext_iff_of_nodup (nodup_dedup xs) (nodup_dedup ys)).mpr fun x ↦ by
      rw [mem_dedup, mem_dedup, h]
  have hsorted : (sortedSet xs).Perm (sortedSet ys) :=
    (perm_insertionSort _ _).trans (hperm.trans (perm_insertionSort _ _).symm)
  exact hsorted.eq_of_pairwise (fun a b _ _ hab hba ↦ le_antisymm hab hba)
    (pairwise_insertionSort _ _) (pairwise_insertionSort _ _)

namespace InputLineage

/-- The lineage of events of which some dependencies are known by their hashes only. -/
def ofEvents (rows : List MarketEvent) (unresolved : List String) : InputLineage where
  inputEventHashes := sortedSet (rows.map (fun e ↦ e.base.rawEventHash) ++ unresolved)
  latestInputEventTimeUtc := (rows.map fun e ↦ e.base.eventTimeUtc).max?
  latestInputAvailableAtUtc := (rows.map fun e ↦ e.base.receiveTimeUtc).max?
  complete := decide (unresolved = [])
  missingInputs := if unresolved = [] then [] else ["unresolved_event_clocks"]

theorem unresolved_isTrimmed : IsTrimmed "unresolved_event_clocks" := by decide +kernel

variable {rows : List MarketEvent} {unresolved : List String} {d : Dict String MarketEvent}

theorem postInit_ofEvents (hne : rows ≠ []) :
    (ofEvents rows unresolved).postInit = .ok () ↔ ∀ h ∈ unresolved, IsSha256 h := by
  obtain ⟨t, ht, htmem, -⟩ := exists_max (rows.map fun e ↦ e.base.eventTimeUtc)
    (mt map_eq_nil_iff.mp hne)
  obtain ⟨u, hu, -, hle⟩ := exists_max (rows.map fun e ↦ e.base.receiveTimeUtc)
    (mt map_eq_nil_iff.mp hne)
  have hclocks : checkClocks (ofEvents rows unresolved).latestInputEventTimeUtc
      (ofEvents rows unresolved).latestInputAvailableAtUtc = .ok () := by
    rw [ofEvents, ht, hu]
    obtain ⟨e, he, rfl⟩ := mem_map.mp htmem
    exact require_eq_ok.mpr (e.base.receiveTime_ok.trans (hle _ (mem_map_of_mem he)))
  rw [postInit]
  simp only [bind_eq_ok, require_eq_ok, forM_eq_ok]
  constructor
  · rintro ⟨-, -, -, hsha, -⟩ h hh
    exact hsha h (mem_sortedSet.mpr (mem_append_right _ hh))
  · intro hsha
    refine ⟨(), sortedSet_sortedSet _, ⟨⟩, fun digest hdigest ↦ ?_, (), fun item hitem ↦ ?_, (),
      hclocks, ?_⟩
    · rcases mem_append.mp (mem_sortedSet.mp hdigest) with hrow | hun
      · obtain ⟨e, -, rfl⟩ := mem_map.mp hrow
        exact e.base.rawEventHash_ok
      · exact hsha digest hun
    · unfold ofEvents at hitem
      simp only at hitem
      split at hitem
      · exact absurd hitem not_mem_nil
      · rw [mem_singleton.mp hitem]
        exact unresolved_isTrimmed
    · rintro ⟨hcomplete, hbad⟩
      have hresolved : unresolved = [] := of_decide_eq_true hcomplete
      rcases hbad with hnil | hnone | hnone | hmissing
      · obtain ⟨e, he⟩ := exists_mem_of_ne_nil _ hne
        have hmem : e.base.rawEventHash ∈ (ofEvents rows unresolved).inputEventHashes :=
          mem_sortedSet.mpr (mem_append_left _ (mem_map_of_mem he))
        rw [hnil] at hmem
        exact absurd hmem not_mem_nil
      · rw [ofEvents, ht] at hnone
        cases hnone
      · rw [ofEvents, hu] at hnone
        cases hnone
      · exact hmissing (if_pos hresolved)

theorem ofEvents_of_entered (h : Entered rows d) :
    (⟨sortedSet (d.keys ++ unresolved), (d.values.map fun e ↦ e.base.eventTimeUtc).max?,
      (d.values.map fun e ↦ e.base.receiveTimeUtc).max?,
      decide (sortedSet ([] ++ if unresolved = [] then [] else ["unresolved_event_clocks"]) = []),
      sortedSet ([] ++ if unresolved = [] then [] else ["unresolved_event_clocks"])⟩ :
      InputLineage) = ofEvents rows unresolved := by
  have hkeys : ∀ x, x ∈ d.keys ↔ x ∈ rows.map fun e ↦ e.base.rawEventHash := by
    intro x
    constructor
    · intro hx
      obtain ⟨e, he⟩ := mem_keys_iff.mp hx
      obtain ⟨hmem, rfl⟩ := h.from_events _ e he
      exact mem_map_of_mem hmem
    · intro hx
      obtain ⟨e, he, rfl⟩ := mem_map.mp hx
      exact h.all_events e he
  -- An event and the one that is entered under its hash have the same times.
  have htimes : ∀ f : MarketEvent → Utc, (∀ a b : MarketEvent, a.base = b.base → f a = f b) →
      ∀ t, t ∈ d.values.map f ↔ t ∈ rows.map f := by
    intro f hf t
    constructor
    · intro ht
      obtain ⟨e, he, rfl⟩ := mem_map.mp ht
      obtain ⟨k, hk⟩ := Dict.mem_values.mp he
      exact mem_map_of_mem (h.from_events k e hk).1
    · intro ht
      obtain ⟨e, he, rfl⟩ := mem_map.mp ht
      obtain ⟨p, hp⟩ := mem_keys_iff.mp (h.all_events e he)
      obtain ⟨hpmem, hphash⟩ := h.from_events _ p hp
      rw [← hf p e (MarketEvent.Same.base_eq (h.compatible p hpmem e he hphash))]
      exact mem_map_of_mem (Dict.mem_values.mpr ⟨_, hp⟩)
  have hmissing : sortedSet ([] ++ if unresolved = [] then [] else ["unresolved_event_clocks"]) =
      if unresolved = [] then [] else ["unresolved_event_clocks"] := by
    split
    · rfl
    · rfl
  rw [hmissing, ofEvents, max?_congr_mem (htimes (fun e ↦ e.base.eventTimeUtc) fun a b hab ↦ by
      simp only [hab]),
    max?_congr_mem (htimes (fun e ↦ e.base.receiveTimeUtc) fun a b hab ↦ by simp only [hab]),
    @sortedSet_congr (d.keys ++ unresolved) (rows.map (fun e ↦ e.base.rawEventHash) ++ unresolved)
      fun x ↦ by rw [mem_append, mem_append, hkeys]]
  refine congrArg (fun b ↦ InputLineage.mk _ _ _ b _) (decide_eq_decide.mpr ?_)
  by_cases hun : unresolved = []
  · simp [hun]
  · simp [hun]

/-- **Lineage of events**, some of which may be unresolved. -/
theorem fromEvents_unresolved (hne : rows ≠ []) {l : Option InputLineage} :
    fromEvents rows unresolved [] = .ok l ↔
      Compatible rows ∧ (∀ h ∈ unresolved, IsSha256 h) ∧ l = some (ofEvents rows unresolved) := by
  have hread : ∀ d, rows.foldlM enter ∅ = .ok d →
      (fromEvents rows unresolved [] = .ok l ↔ (∀ h ∈ unresolved, IsSha256 h) ∧
        l = some (ofEvents rows unresolved)) := by
    intro d hd
    have hentered := entered_of_foldlM hd
    have hentries : d.entries ≠ [] := by
      intro hnil
      obtain ⟨e, he⟩ := exists_mem_of_ne_nil _ hne
      have hmem := hentered.all_events e he
      rw [Dict.keys, hnil] at hmem
      exact absurd hmem not_mem_nil
    rw [fromEvents, if_neg fun h ↦ hne h.1, hd]
    change (if d.entries = [] then _ else _) = _ ↔ _
    rw [if_neg hentries]
    change (make _ >>= fun l' ↦ pure (some l')) = _ ↔ _
    rw [ofEvents_of_entered hentered, make]
    simp only [bind_eq_ok, ← postInit_ofEvents hne]
    constructor
    · rintro ⟨_, ⟨_, hpost, hmade⟩, hl⟩
      obtain rfl := Except.ok.inj hmade
      exact ⟨hpost, (Except.ok.inj hl).symm⟩
    · rintro ⟨hpost, rfl⟩
      exact ⟨_, ⟨(), hpost, rfl⟩, rfl⟩
  constructor
  · intro h
    have hloop := h
    rw [fromEvents, if_neg fun h ↦ hne h.1] at hloop
    obtain ⟨d, hd, -⟩ := bind_eq_ok.mp hloop
    exact ⟨(entered_of_foldlM hd).compatible, (hread d hd).mp h⟩
  · rintro ⟨hcompatible, hrest⟩
    obtain ⟨d, hd⟩ := exists_foldlM_iff.mpr hcompatible
    exact (hread d hd).mpr hrest

def ofEvents? (rows : List MarketEvent) (unresolved : List String) : Option InputLineage :=
  if rows = [] then none else some (ofEvents rows unresolved)

/-- **Lineage of events**, where nothing is unresolved unless there are events. -/
theorem fromEvents_eq_ok {l : Option InputLineage} (hun : rows = [] → unresolved = []) :
    fromEvents rows unresolved [] = .ok l ↔
      Compatible rows ∧ (∀ h ∈ unresolved, IsSha256 h) ∧ l = ofEvents? rows unresolved := by
  by_cases hne : rows = []
  · obtain rfl := hne
    obtain rfl := hun rfl
    constructor
    · intro h
      exact ⟨fun a ha ↦ absurd ha not_mem_nil, fun h hh ↦ absurd hh not_mem_nil,
        (Except.ok.inj h).symm⟩
    · rintro ⟨-, -, rfl⟩
      rfl
  · rw [ofEvents?, if_neg hne]
    exact fromEvents_unresolved hne

/-! ## Unions -/

/-- The lineage of everything that some of the parts depend on. -/
def union (parts : List (Option InputLineage)) : Option InputLineage :=
  let known := parts.reduceOption
  if known = [] then none else some {
    inputEventHashes := sortedSet (known.flatMap fun l ↦ l.inputEventHashes)
    latestInputEventTimeUtc := (known.filterMap fun l ↦ l.latestInputEventTimeUtc).max?
    latestInputAvailableAtUtc := (known.filterMap fun l ↦ l.latestInputAvailableAtUtc).max?
    complete := known.all fun l ↦ l.complete
    missingInputs := sortedSet (known.flatMap fun l ↦ l.missingInputs) }

section Union

variable {ι : Type} {parts : List ι} {rowsOf : ι → List MarketEvent}
  {unresolvedOf : ι → List String}

theorem mem_reduceOption {l : InputLineage} :
    l ∈ (parts.map fun p ↦ ofEvents? (rowsOf p) (unresolvedOf p)).reduceOption ↔
      ∃ p ∈ parts, rowsOf p ≠ [] ∧ l = ofEvents (rowsOf p) (unresolvedOf p) := by
  rw [reduceOption_mem_iff, mem_map]
  constructor
  · rintro ⟨p, hp, hl⟩
    rw [ofEvents?] at hl
    split at hl
    · cases hl
    · rename_i hne
      exact ⟨p, hp, hne, (Option.some.inj hl).symm⟩
  · rintro ⟨p, hp, hne, rfl⟩
    exact ⟨p, hp, if_neg hne⟩

/-- The parts have together what the whole has. -/
structure Covers (rows : List MarketEvent) (unresolved : List String) (parts : List ι)
    (rowsOf : ι → List MarketEvent) (unresolvedOf : ι → List String) : Prop where
  rows_iff : ∀ e, e ∈ rows ↔ ∃ p ∈ parts, e ∈ rowsOf p
  unresolved_iff : ∀ h, h ∈ unresolved ↔ ∃ p ∈ parts, h ∈ unresolvedOf p
  nil : ∀ p ∈ parts, rowsOf p = [] → unresolvedOf p = []

namespace Covers

theorem rows_ne_nil (h : Covers rows unresolved parts rowsOf unresolvedOf) {p : ι} (hp : p ∈ parts)
    {x : String} (hx : x ∈ unresolvedOf p) : rowsOf p ≠ [] := by
  intro hempty
  rw [h.nil p hp hempty] at hx
  exact absurd hx not_mem_nil

theorem known_eq_nil (h : Covers rows unresolved parts rowsOf unresolvedOf) :
    (parts.map fun p ↦ ofEvents? (rowsOf p) (unresolvedOf p)).reduceOption = [] ↔ rows = [] := by
  rw [eq_nil_iff_forall_not_mem, eq_nil_iff_forall_not_mem]
  constructor
  · intro hnone e he
    obtain ⟨p, hp, hep⟩ := (h.rows_iff e).mp he
    exact hnone _ (mem_reduceOption.mpr ⟨p, hp, ne_nil_of_mem hep, rfl⟩)
  · intro hnone l hl
    obtain ⟨p, hp, hne, -⟩ := mem_reduceOption.mp hl
    obtain ⟨e, he⟩ := exists_mem_of_ne_nil _ hne
    exact hnone e ((h.rows_iff e).mpr ⟨p, hp, he⟩)

theorem unresolved_eq_nil (h : Covers rows unresolved parts rowsOf unresolvedOf) :
    unresolved = [] ↔ ∀ p ∈ parts, unresolvedOf p = [] := by
  simp only [eq_nil_iff_forall_not_mem]
  constructor
  · intro hnone p hp x hx
    exact hnone x ((h.unresolved_iff x).mpr ⟨p, hp, hx⟩)
  · intro hnone x hx
    obtain ⟨p, hp, hxp⟩ := (h.unresolved_iff x).mp hx
    exact hnone p hp x hxp

theorem mem_hashes (h : Covers rows unresolved parts rowsOf unresolvedOf) (x : String) :
    x ∈ rows.map (fun e ↦ e.base.rawEventHash) ++ unresolved ↔
      x ∈ (parts.map fun p ↦ ofEvents? (rowsOf p) (unresolvedOf p)).reduceOption.flatMap
        fun l ↦ l.inputEventHashes := by
  rw [mem_append, mem_flatMap]
  constructor
  · rintro (hrow | hx)
    · obtain ⟨e, he, rfl⟩ := mem_map.mp hrow
      obtain ⟨p, hp, hep⟩ := (h.rows_iff e).mp he
      exact ⟨_, mem_reduceOption.mpr ⟨p, hp, ne_nil_of_mem hep, rfl⟩,
        mem_sortedSet.mpr (mem_append_left _ (mem_map_of_mem hep))⟩
    · obtain ⟨p, hp, hxp⟩ := (h.unresolved_iff x).mp hx
      exact ⟨_, mem_reduceOption.mpr ⟨p, hp, h.rows_ne_nil hp hxp, rfl⟩,
        mem_sortedSet.mpr (mem_append_right _ hxp)⟩
  · rintro ⟨l, hl, hx⟩
    obtain ⟨p, hp, -, rfl⟩ := mem_reduceOption.mp hl
    rcases mem_append.mp (mem_sortedSet.mp hx) with hrow | hxp
    · obtain ⟨e, he, rfl⟩ := mem_map.mp hrow
      exact Or.inl (mem_map_of_mem ((h.rows_iff e).mpr ⟨p, hp, he⟩))
    · exact Or.inr ((h.unresolved_iff x).mpr ⟨p, hp, hxp⟩)

theorem max?_eq (h : Covers rows unresolved parts rowsOf unresolvedOf) (f : MarketEvent → Utc)
    (g : InputLineage → Option Utc)
    (hg : ∀ rows unresolved, g (ofEvents rows unresolved) = (rows.map f).max?) :
    (rows.map f).max? = ((parts.map fun p ↦
      ofEvents? (rowsOf p) (unresolvedOf p)).reduceOption.filterMap g).max? := by
  refine max?_congr (fun t ht ↦ ?_) fun u hu ↦ ?_
  · obtain ⟨e, he, rfl⟩ := mem_map.mp ht
    obtain ⟨p, hp, hep⟩ := (h.rows_iff e).mp he
    obtain ⟨u, hu, -, hle⟩ := exists_max ((rowsOf p).map f)
      (mt map_eq_nil_iff.mp (ne_nil_of_mem hep))
    exact ⟨u, mem_filterMap.mpr ⟨_,
      mem_reduceOption.mpr ⟨p, hp, ne_nil_of_mem hep, rfl⟩, (hg _ _).trans hu⟩,
      hle _ (mem_map_of_mem hep)⟩
  · obtain ⟨l, hl, hgl⟩ := mem_filterMap.mp hu
    obtain ⟨p, hp, hne, rfl⟩ := mem_reduceOption.mp hl
    rw [hg] at hgl
    obtain ⟨e, he, rfl⟩ := mem_map.mp (max?_mem hgl)
    exact ⟨f e, mem_map_of_mem ((h.rows_iff e).mpr ⟨p, hp, he⟩), le_refl _⟩

theorem complete_eq (h : Covers rows unresolved parts rowsOf unresolvedOf) :
    decide (unresolved = []) = (parts.map fun p ↦
      ofEvents? (rowsOf p) (unresolvedOf p)).reduceOption.all fun l ↦ l.complete := by
  rw [Bool.eq_iff_iff, decide_eq_true_iff, all_eq_true, h.unresolved_eq_nil]
  constructor
  · intro hnone l hl
    obtain ⟨p, hp, -, rfl⟩ := mem_reduceOption.mp hl
    exact decide_eq_true (hnone p hp)
  · intro hall p hp
    by_contra hne
    obtain ⟨x, hx⟩ := exists_mem_of_ne_nil _ hne
    exact hne (of_decide_eq_true
      (hall _ (mem_reduceOption.mpr ⟨p, hp, h.rows_ne_nil hp hx, rfl⟩)))

theorem missing_eq (h : Covers rows unresolved parts rowsOf unresolvedOf) :
    (if unresolved = [] then [] else ["unresolved_event_clocks"]) = sortedSet
      ((parts.map fun p ↦ ofEvents? (rowsOf p) (unresolvedOf p)).reduceOption.flatMap
        fun l ↦ l.missingInputs) := by
  have hlabel : ∀ x, x ∈ (if unresolved = [] then [] else ["unresolved_event_clocks"]) ↔
      x ∈ (parts.map fun p ↦ ofEvents? (rowsOf p) (unresolvedOf p)).reduceOption.flatMap
        fun l ↦ l.missingInputs := by
    intro x
    rw [mem_flatMap]
    constructor
    · intro hx
      split at hx
      · exact absurd hx not_mem_nil
      · rename_i hne
        obtain ⟨y, hy⟩ := exists_mem_of_ne_nil _ hne
        obtain ⟨p, hp, hyp⟩ := (h.unresolved_iff y).mp hy
        refine ⟨_, mem_reduceOption.mpr ⟨p, hp, h.rows_ne_nil hp hyp, rfl⟩, ?_⟩
        rw [ofEvents]
        simp only
        rwa [if_neg (ne_nil_of_mem hyp)]
    · rintro ⟨l, hl, hx⟩
      obtain ⟨p, hp, -, rfl⟩ := mem_reduceOption.mp hl
      unfold ofEvents at hx
      simp only at hx
      split at hx
      · exact absurd hx not_mem_nil
      · rename_i hne
        rwa [if_neg fun hnone ↦ hne (h.unresolved_eq_nil.mp hnone p hp)]
  rw [← sortedSet_congr hlabel]
  split
  · rfl
  · rfl

/-- **Events of several parts** have the union of the parts' lineages. -/
theorem ofEvents?_eq (h : Covers rows unresolved parts rowsOf unresolvedOf) :
    ofEvents? rows unresolved =
      union (parts.map fun p ↦ ofEvents? (rowsOf p) (unresolvedOf p)) := by
  rw [ofEvents?, union]
  by_cases hne : rows = []
  · rw [if_pos hne, if_pos (h.known_eq_nil.mpr hne)]
  · rw [if_neg hne, if_neg (mt h.known_eq_nil.mp hne), ofEvents, sortedSet_congr h.mem_hashes,
      h.max?_eq (fun e ↦ e.base.eventTimeUtc) (fun l ↦ l.latestInputEventTimeUtc) fun _ _ ↦ rfl,
      h.max?_eq (fun e ↦ e.base.receiveTimeUtc) (fun l ↦ l.latestInputAvailableAtUtc)
        fun _ _ ↦ rfl, h.complete_eq, h.missing_eq]

end Covers

theorem ofEvents?_congr {rows' : List MarketEvent} {unresolved' : List String}
    (hrows : ∀ e, e ∈ rows ↔ e ∈ rows') (hun : ∀ h, h ∈ unresolved ↔ h ∈ unresolved')
    (hnil : rows' = [] → unresolved' = []) :
    ofEvents? rows unresolved = ofEvents? rows' unresolved' := by
  have hunion : ∀ (r : List MarketEvent) (u : List String), (∀ e, e ∈ r ↔ e ∈ rows') →
      (∀ h, h ∈ u ↔ h ∈ unresolved') →
      ofEvents? r u = union ([()].map fun _ ↦ ofEvents? rows' unresolved') := by
    intro r u hr hu
    refine Covers.ofEvents?_eq ⟨fun e ↦ ?_, fun h ↦ ?_, fun _ _ ↦ hnil⟩
    · rw [hr]
      exact ⟨fun he ↦ ⟨(), mem_singleton_self _, he⟩, fun ⟨_, _, he⟩ ↦ he⟩
    · rw [hu]
      exact ⟨fun hh ↦ ⟨(), mem_singleton_self _, hh⟩, fun ⟨_, _, hh⟩ ↦ hh⟩
  rw [hunion rows unresolved hrows hun,
    ← hunion rows' unresolved' (fun _ ↦ Iff.rfl) fun _ ↦ Iff.rfl]

end Union

end InputLineage

/-! ## Classified trades -/

section

variable [Hashlib]

structure TradeClassification where
  trade : TradeEvent
  side : AggressorSide
  method : AggressorMethod
  quoteHash : Option String
  reason : String
  supportingQuoteEvents : List QuoteEvent
  supportingMutationEvents : List TradeMutation
  reason_ok : reason ≠ ""
  quoteHash_ok : ∀ h ∈ quoteHash, supportingQuoteEvents ≠ [] →
    h ∈ supportingQuoteEvents.map fun q ↦ q.rawEventHash
  mutations_ok : supportingMutationEvents ≠ [] →
    ∃ snapshot, replayTradeMutations supportingMutationEvents = .ok snapshot ∧
      ∃ t, snapshot.activeTrades = [t] ∧ t.Same trade
  method_ok : method = .unknown ↔ side = .unknown

structure FlowWindow where
  instrumentId : String
  sessionId : String
  startUtc : Utc
  endUtc : Utc
  tradeCount : Nat
  classifiedTradeCount : Nat
  unknownTradeCount : Nat
  totalQuantity : ℚ
  buyQuantity : ℚ
  sellQuantity : ℚ
  unknownQuantity : ℚ
  exchangeFlagBuyQuantity : ℚ
  exchangeFlagSellQuantity : ℚ
  quoteInferredBuyQuantity : ℚ
  quoteInferredSellQuantity : ℚ
  exchangeFlagDelta : ℚ
  quoteInferredDelta : ℚ
  delta : ℚ
  classifiedCoverage : ℚ
  inputLineage : Option InputLineage

structure CvdPoint where
  instrumentId : String
  sessionId : String
  startUtc : Utc
  endUtc : Utc
  delta : ℚ
  cvd : ℚ

/-! ## Aggregation -/

def select (classifications : List TradeClassification) (instrumentId : String)
    (startUtc endUtc : Utc) : List TradeClassification :=
  classifications.filter fun item ↦ decide (item.trade.instrumentId = instrumentId ∧
    startUtc ≤ item.trade.eventTimeUtc ∧ item.trade.eventTimeUtc < endUtc)

def sideQuantity (selected : List TradeClassification) (side : AggressorSide) : ℚ :=
  ((selected.filter fun item ↦ decide (item.side = side)).map
    fun item ↦ item.trade.quantity.value).sum

def methodQuantity (selected : List TradeClassification) (side : AggressorSide)
    (method : AggressorMethod) : ℚ :=
  ((selected.filter fun item ↦ decide (item.side = side ∧ item.method = method)).map
    fun item ↦ item.trade.quantity.value).sum

def classifiedCount (selected : List TradeClassification) : Nat :=
  selected.countP fun item ↦ decide (item.side ≠ .unknown)

/-- What a trade depends on besides itself. -/
def TradeClassification.supportingEvents (item : TradeClassification) : List MarketEvent :=
  item.supportingQuoteEvents.map .quote ++ item.supportingMutationEvents.map .mutation ++
    item.supportingMutationEvents.filterMap fun m ↦ m.replacementTrade.map .trade

def TradeClassification.unresolvedHash (item : TradeClassification) : Option String :=
  if item.supportingQuoteEvents = [] then item.quoteHash else none

def lineageEventsOf (selected : List TradeClassification) (extraEvents : List MarketEvent) :
    List MarketEvent :=
  selected.map (fun item ↦ .trade item.trade) ++ extraEvents ++
    selected.flatMap TradeClassification.supportingEvents

def flowWindow (instrumentId sessionId : String) (startUtc endUtc : Utc)
    (selected : List TradeClassification) (inputLineage : Option InputLineage) : FlowWindow :=
  let buy := sideQuantity selected .buy
  let sell := sideQuantity selected .sell
  let unknown := sideQuantity selected .unknown
  let total := buy + sell + unknown
  let exchangeBuy := methodQuantity selected .buy .exchangeFlag
  let exchangeSell := methodQuantity selected .sell .exchangeFlag
  let quoteBuy := methodQuantity selected .buy .quoteInferred
  let quoteSell := methodQuantity selected .sell .quoteInferred
  { instrumentId := instrumentId
    sessionId := sessionId
    startUtc := startUtc
    endUtc := endUtc
    tradeCount := selected.length
    classifiedTradeCount := classifiedCount selected
    unknownTradeCount := selected.length - classifiedCount selected
    totalQuantity := total
    buyQuantity := buy
    sellQuantity := sell
    unknownQuantity := unknown
    exchangeFlagBuyQuantity := exchangeBuy
    exchangeFlagSellQuantity := exchangeSell
    quoteInferredBuyQuantity := quoteBuy
    quoteInferredSellQuantity := quoteSell
    exchangeFlagDelta := exchangeBuy - exchangeSell
    quoteInferredDelta := quoteBuy - quoteSell
    delta := buy - sell
    classifiedCoverage := if 0 < total then (buy + sell) / total else 0
    inputLineage := inputLineage }

def aggregateTradeFlow (classifications : List TradeClassification)
    (instrumentId sessionId : String) (startUtc endUtc : Utc)
    (additionalLineageEvents : List MarketEvent) : Except String FlowWindow := do
  require (¬ endUtc ≤ startUtc) "end_utc must be after start_utc"
  require (instrumentId ≠ "" ∧ sessionId ≠ "") "instrument_id and session_id must be non-empty"
  let selected := select classifications instrumentId startUtc endUtc
  require (¬ ∃ event ∈ additionalLineageEvents, event.base.instrumentId ≠ instrumentId)
    "additional lineage events must match the flow instrument"
  let inputLineage ← InputLineage.fromEvents (lineageEventsOf selected additionalLineageEvents)
    (selected.filterMap TradeClassification.unresolvedHash) []
  return flowWindow instrumentId sessionId startUtc endUtc selected inputLineage

/-! ## Cumulative delta -/

structure CvdState where
  points : List CvdPoint
  previousEnd : Option Utc
  previousInstrument : Option String
  previousSession : Option String
  running : ℚ

def CvdState.empty : CvdState := ⟨[], none, none, none, 0⟩

def CvdState.add (s : CvdState) (window : FlowWindow) : Except String CvdState := do
  require (∀ previous ∈ s.previousInstrument, window.instrumentId = previous)
    "compute_cvd accepts one instrument per ordered series"
  require (∀ previous ∈ s.previousEnd, ¬ window.startUtc < previous)
    "CVD windows must be chronological and non-overlapping"
  let base := if some window.sessionId ≠ s.previousSession then 0 else s.running
  let running := base + window.delta
  return {
    points := s.points ++ [⟨window.instrumentId, window.sessionId, window.startUtc, window.endUtc,
      window.delta, running⟩]
    previousEnd := some window.endUtc
    previousInstrument := some window.instrumentId
    previousSession := some window.sessionId
    running := running }

def computeCvd (windows : List FlowWindow) : Except String (List CvdPoint) := do
  let s ← windows.foldlM CvdState.add .empty
  return s.points

/-! ## What adds up -/

/-- A quantity of selected trades that adds up, in whatever order they are. -/
structure Additive {M : Type} [AddCommMonoid M] (g : List TradeClassification → M) : Prop where
  nil : g [] = 0
  append : ∀ l l', g (l ++ l') = g l + g l'
  perm : ∀ l l', l.Perm l' → g l = g l'

section Additive

variable {M : Type} [AddCommMonoid M]

theorem Additive.flatMap {g : List TradeClassification → M} (hg : Additive g) {ι : Type}
    (parts : List ι) (f : ι → List TradeClassification) :
    g (parts.flatMap f) = (parts.map fun p ↦ g (f p)).sum := by
  induction parts with
  | nil => exact hg.nil
  | cons p parts ih => rw [flatMap_cons, hg.append, ih, map_cons, sum_cons]

theorem additive_sum_map_filter (p : TradeClassification → Bool) (f : TradeClassification → M) :
    Additive fun l ↦ ((l.filter p).map f).sum where
  nil := rfl
  append l l' := by rw [filter_append, map_append, sum_append]
  perm _ _ h := ((h.filter p).map f).sum_eq

theorem additive_countP (p : TradeClassification → Bool) : Additive fun l ↦ l.countP p where
  nil := rfl
  append _ _ := countP_append
  perm _ _ h := h.countP_eq p

theorem additive_length : Additive fun l ↦ l.length where
  nil := rfl
  append _ _ := length_append
  perm _ _ h := h.length_eq

theorem Additive.add {g g' : List TradeClassification → M} (hg : Additive g) (hg' : Additive g') :
    Additive fun l ↦ g l + g' l where
  nil := by rw [hg.nil, hg'.nil, add_zero]
  append l l' := by rw [hg.append, hg'.append, add_add_add_comm]
  perm l l' h := by rw [hg.perm l l' h, hg'.perm l l' h]

theorem Additive.sub {g g' : List TradeClassification → ℚ} (hg : Additive g) (hg' : Additive g') :
    Additive fun l ↦ g l - g' l where
  nil := by rw [hg.nil, hg'.nil, sub_zero]
  append l l' := by rw [hg.append, hg'.append, add_sub_add_comm]
  perm l l' h := by rw [hg.perm l l' h, hg'.perm l l' h]

theorem unknownCount_eq (l : List TradeClassification) : l.length - classifiedCount l =
    l.countP fun item ↦ decide (item.side = .unknown) := by
  have hsplit := l.length_eq_countP_add_countP fun item ↦ decide (item.side ≠ .unknown)
  rw [classifiedCount, hsplit, Nat.add_sub_cancel_left]
  exact countP_congr fun item _ ↦ by simp

end Additive

/-! ## Windows that tile an interval -/

structure Part where
  sessionId : String
  startUtc : Utc
  endUtc : Utc
  additionalLineageEvents : List MarketEvent

/-- Each part starts where the one before ends. -/
def Tiles (startUtc endUtc : Utc) : List Part → Prop
  | [] => startUtc = endUtc
  | p :: parts => p.startUtc = startUtc ∧ Tiles p.endUtc endUtc parts

section Tiles

variable {classifications classifications' : List TradeClassification} {instrumentId : String}
  {sessionId : String} {startUtc midUtc endUtc : Utc} {parts : List Part} {extra : List MarketEvent}
  {w : FlowWindow}

omit [Hashlib] in
theorem Tiles.le (h : Tiles startUtc endUtc parts) (hpos : ∀ p ∈ parts, p.startUtc < p.endUtc) :
    startUtc ≤ endUtc := by
  induction parts generalizing startUtc with
  | nil => exact le_of_eq h
  | cons p parts ih =>
    obtain ⟨hstart, hrest⟩ := h
    rw [← hstart]
    exact (hpos p mem_cons_self).le.trans
      (ih hrest fun q hq ↦ hpos q (mem_cons_of_mem _ hq))

/-- **One cut.** -/
theorem select_cut (h : startUtc ≤ midUtc) (h' : midUtc ≤ endUtc) :
    (select classifications instrumentId startUtc endUtc).Perm
      (select classifications instrumentId startUtc midUtc ++
        select classifications instrumentId midUtc endUtc) := by
  have hbefore : (select classifications instrumentId startUtc endUtc).filter
      (fun item ↦ decide (item.trade.eventTimeUtc < midUtc)) =
        select classifications instrumentId startUtc midUtc := by
    rw [select, select, filter_filter]
    refine filter_congr fun item _ ↦ ?_
    rw [← Bool.decide_and, decide_eq_decide]
    constructor
    · rintro ⟨hmid, hid, hstart, -⟩
      exact ⟨hid, hstart, hmid⟩
    · rintro ⟨hid, hstart, hmid⟩
      exact ⟨hmid, hid, hstart, hmid.trans_le h'⟩
  have hafter : (select classifications instrumentId startUtc endUtc).filter
      (fun item ↦ !decide (item.trade.eventTimeUtc < midUtc)) =
        select classifications instrumentId midUtc endUtc := by
    rw [select, select, filter_filter]
    refine filter_congr fun item _ ↦ ?_
    rw [← decide_not, ← Bool.decide_and, decide_eq_decide]
    constructor
    · rintro ⟨hmid, hid, -, hend⟩
      exact ⟨hid, not_lt.mp hmid, hend⟩
    · rintro ⟨hid, hmid, hend⟩
      exact ⟨not_lt.mpr hmid, hid, h.trans hmid, hend⟩
  rw [← hbefore, ← hafter]
  exact (filter_append_perm _ _).symm

/-- **Every cut.** -/
theorem selected_perm (h : Tiles startUtc endUtc parts)
    (hpos : ∀ p ∈ parts, p.startUtc < p.endUtc) :
    (select classifications instrumentId startUtc endUtc).Perm
      (parts.flatMap fun p ↦ select classifications instrumentId p.startUtc p.endUtc) := by
  induction parts generalizing startUtc with
  | nil =>
    obtain rfl : startUtc = endUtc := h
    rw [flatMap_nil, select, filter_eq_nil_iff.mpr]
    intro item _
    rw [decide_eq_true_iff]
    rintro ⟨-, hle, hlt⟩
    exact absurd hlt (not_lt.mpr hle)
  | cons p parts ih =>
    obtain ⟨rfl, hrest⟩ := h
    have hpos' : ∀ q ∈ parts, q.startUtc < q.endUtc :=
      fun q hq ↦ hpos q (mem_cons_of_mem _ hq)
    rw [flatMap_cons]
    exact (select_cut (hpos p mem_cons_self).le (hrest.le hpos')).trans
      ((ih hrest hpos').append_left _)

/-! ## One call -/

theorem unresolved_of_events_nil {selected : List TradeClassification}
    (h : lineageEventsOf selected extra = []) :
    selected.filterMap TradeClassification.unresolvedHash = [] := by
  rw [lineageEventsOf, append_eq_nil_iff, append_eq_nil_iff] at h
  rw [map_eq_nil_iff.mp h.1.1, filterMap_nil]

/-- The window of the selected trades, with their lineage. -/
def windowOf (instrumentId sessionId : String) (startUtc endUtc : Utc)
    (selected : List TradeClassification) (extra : List MarketEvent) : FlowWindow :=
  flowWindow instrumentId sessionId startUtc endUtc selected
    (InputLineage.ofEvents? (lineageEventsOf selected extra)
      (selected.filterMap TradeClassification.unresolvedHash))

/-- **When a call returns**, and what. -/
theorem aggregate_eq_ok : aggregateTradeFlow classifications instrumentId sessionId startUtc endUtc
      extra = .ok w ↔
    startUtc < endUtc ∧ (instrumentId ≠ "" ∧ sessionId ≠ "") ∧
      (∀ event ∈ extra, event.base.instrumentId = instrumentId) ∧
        Compatible (lineageEventsOf (select classifications instrumentId startUtc endUtc) extra) ∧
          (∀ h ∈ (select classifications instrumentId startUtc endUtc).filterMap
            TradeClassification.unresolvedHash, IsSha256 h) ∧
            w = windowOf instrumentId sessionId startUtc endUtc
              (select classifications instrumentId startUtc endUtc) extra := by
  rw [aggregateTradeFlow]
  simp only [bind_eq_ok, require_eq_ok, InputLineage.fromEvents_eq_ok unresolved_of_events_nil]
  constructor
  · rintro ⟨_, hlt, _, hids, _, hextra, _, ⟨hcompatible, hsha, rfl⟩, hw⟩
    refine ⟨not_le.mp hlt, hids, fun event hevent ↦ ?_, hcompatible, hsha,
      (Except.ok.inj hw).symm⟩
    by_contra hne
    exact hextra ⟨event, hevent, hne⟩
  · rintro ⟨hlt, hids, hextra, hcompatible, hsha, rfl⟩
    exact ⟨(), not_le.mpr hlt, (), hids, (), fun ⟨event, hevent, hne⟩ ↦ hne (hextra event hevent),
      _, ⟨hcompatible, hsha, rfl⟩, rfl⟩

theorem mem_lineageEventsOf {selected : List TradeClassification} {e : MarketEvent} :
    e ∈ lineageEventsOf selected extra ↔
      (∃ item ∈ selected, e = .trade item.trade ∨ e ∈ item.supportingEvents) ∨ e ∈ extra := by
  rw [lineageEventsOf, mem_append, mem_append, mem_map, mem_flatMap]
  constructor
  · rintro ((⟨item, hitem, rfl⟩ | hextra) | ⟨item, hitem, he⟩)
    · exact Or.inl ⟨item, hitem, Or.inl rfl⟩
    · exact Or.inr hextra
    · exact Or.inl ⟨item, hitem, Or.inr he⟩
  · rintro (⟨item, hitem, rfl | he⟩ | hextra)
    · exact Or.inl (Or.inl ⟨item, hitem, rfl⟩)
    · exact Or.inr ⟨item, hitem, he⟩
    · exact Or.inl (Or.inr hextra)

/-! ## The order of the list -/

theorem windowOf_perm {selected selected' : List TradeClassification}
    (h : selected.Perm selected') :
    windowOf instrumentId sessionId startUtc endUtc selected extra =
      windowOf instrumentId sessionId startUtc endUtc selected' extra := by
  have hside : ∀ side, sideQuantity selected side = sideQuantity selected' side :=
    fun side ↦ (additive_sum_map_filter _ _).perm _ _ h
  have hmethod : ∀ side method,
      methodQuantity selected side method = methodQuantity selected' side method :=
    fun side method ↦ (additive_sum_map_filter _ _).perm _ _ h
  have hclassified : classifiedCount selected = classifiedCount selected' :=
    (additive_countP _).perm _ _ h
  have hlineage : InputLineage.ofEvents? (lineageEventsOf selected extra)
      (selected.filterMap TradeClassification.unresolvedHash) =
        InputLineage.ofEvents? (lineageEventsOf selected' extra)
          (selected'.filterMap TradeClassification.unresolvedHash) :=
    InputLineage.ofEvents?_congr
      (fun e ↦ by rw [mem_lineageEventsOf, mem_lineageEventsOf]; simp only [h.mem_iff])
      (fun x ↦ (h.filterMap _).mem_iff) unresolved_of_events_nil
  rw [windowOf, windowOf, hlineage]
  unfold flowWindow
  simp only [hside, hmethod, hclassified, h.length_eq]

/-- **The order of the list does not matter.** -/
theorem aggregate_perm (h : classifications.Perm classifications') :
    aggregateTradeFlow classifications instrumentId sessionId startUtc endUtc extra = .ok w ↔
      aggregateTradeFlow classifications' instrumentId sessionId startUtc endUtc extra = .ok w := by
  have hselected : (select classifications instrumentId startUtc endUtc).Perm
      (select classifications' instrumentId startUtc endUtc) := h.filter _
  have hevents : ∀ e, e ∈ lineageEventsOf (select classifications instrumentId startUtc endUtc)
      extra ↔ e ∈ lineageEventsOf (select classifications' instrumentId startUtc endUtc) extra :=
    fun e ↦ by rw [mem_lineageEventsOf, mem_lineageEventsOf]; simp only [hselected.mem_iff]
  rw [aggregate_eq_ok, aggregate_eq_ok, windowOf_perm hselected, Compatible, Compatible]
  simp only [hevents, (hselected.filterMap _).mem_iff]

/-! ## The parts of an interval -/

/-- The quantities of a window are the sums over others. -/
structure IsSum (w : FlowWindow) (windows : List FlowWindow) : Prop where
  tradeCount : w.tradeCount = (windows.map fun v ↦ v.tradeCount).sum
  classifiedTradeCount : w.classifiedTradeCount = (windows.map fun v ↦ v.classifiedTradeCount).sum
  unknownTradeCount : w.unknownTradeCount = (windows.map fun v ↦ v.unknownTradeCount).sum
  totalQuantity : w.totalQuantity = (windows.map fun v ↦ v.totalQuantity).sum
  buyQuantity : w.buyQuantity = (windows.map fun v ↦ v.buyQuantity).sum
  sellQuantity : w.sellQuantity = (windows.map fun v ↦ v.sellQuantity).sum
  unknownQuantity : w.unknownQuantity = (windows.map fun v ↦ v.unknownQuantity).sum
  exchangeFlagBuyQuantity :
    w.exchangeFlagBuyQuantity = (windows.map fun v ↦ v.exchangeFlagBuyQuantity).sum
  exchangeFlagSellQuantity :
    w.exchangeFlagSellQuantity = (windows.map fun v ↦ v.exchangeFlagSellQuantity).sum
  quoteInferredBuyQuantity :
    w.quoteInferredBuyQuantity = (windows.map fun v ↦ v.quoteInferredBuyQuantity).sum
  quoteInferredSellQuantity :
    w.quoteInferredSellQuantity = (windows.map fun v ↦ v.quoteInferredSellQuantity).sum
  exchangeFlagDelta : w.exchangeFlagDelta = (windows.map fun v ↦ v.exchangeFlagDelta).sum
  quoteInferredDelta : w.quoteInferredDelta = (windows.map fun v ↦ v.quoteInferredDelta).sum
  delta : w.delta = (windows.map fun v ↦ v.delta).sum

def Part.window (classifications : List TradeClassification) (instrumentId : String) (p : Part) :
    FlowWindow :=
  windowOf instrumentId p.sessionId p.startUtc p.endUtc
    (select classifications instrumentId p.startUtc p.endUtc) p.additionalLineageEvents

theorem Additive.windows {M : Type} [AddCommMonoid M] {g : List TradeClassification → M}
    (hg : Additive g) {field : FlowWindow → M}
    (hfield : ∀ (p : Part), field (p.window classifications instrumentId) =
      g (select classifications instrumentId p.startUtc p.endUtc))
    (hperm : (select classifications instrumentId startUtc endUtc).Perm
      (parts.flatMap fun p ↦ select classifications instrumentId p.startUtc p.endUtc)) :
    g (select classifications instrumentId startUtc endUtc) =
      ((parts.map (Part.window classifications instrumentId)).map field).sum := by
  rw [hg.perm _ _ hperm, hg.flatMap, map_map]
  exact congrArg List.sum (map_congr_left fun p _ ↦ (hfield p).symm)

theorem isSum_windows (h : (select classifications instrumentId startUtc endUtc).Perm
    (parts.flatMap fun p ↦ select classifications instrumentId p.startUtc p.endUtc)) :
    IsSum (windowOf instrumentId sessionId startUtc endUtc
      (select classifications instrumentId startUtc endUtc) extra)
        (parts.map (Part.window classifications instrumentId)) := by
  have hside : ∀ side, Additive fun l ↦ sideQuantity l side :=
    fun side ↦ additive_sum_map_filter _ _
  have hmethod : ∀ side method, Additive fun l ↦ methodQuantity l side method :=
    fun side method ↦ additive_sum_map_filter _ _
  exact {
    tradeCount := additive_length.windows (fun _ ↦ rfl) h
    classifiedTradeCount := (additive_countP _).windows (fun _ ↦ rfl) h
    unknownTradeCount := (unknownCount_eq _).trans
      ((additive_countP _).windows (fun _ ↦ unknownCount_eq _) h)
    totalQuantity := (((hside .buy).add (hside .sell)).add (hside .unknown)).windows
      (fun _ ↦ rfl) h
    buyQuantity := (hside .buy).windows (fun _ ↦ rfl) h
    sellQuantity := (hside .sell).windows (fun _ ↦ rfl) h
    unknownQuantity := (hside .unknown).windows (fun _ ↦ rfl) h
    exchangeFlagBuyQuantity := (hmethod .buy .exchangeFlag).windows (fun _ ↦ rfl) h
    exchangeFlagSellQuantity := (hmethod .sell .exchangeFlag).windows (fun _ ↦ rfl) h
    quoteInferredBuyQuantity := (hmethod .buy .quoteInferred).windows (fun _ ↦ rfl) h
    quoteInferredSellQuantity := (hmethod .sell .quoteInferred).windows (fun _ ↦ rfl) h
    exchangeFlagDelta :=
      ((hmethod .buy .exchangeFlag).sub (hmethod .sell .exchangeFlag)).windows (fun _ ↦ rfl) h
    quoteInferredDelta :=
      ((hmethod .buy .quoteInferred).sub (hmethod .sell .quoteInferred)).windows (fun _ ↦ rfl) h
    delta := ((hside .buy).sub (hside .sell)).windows (fun _ ↦ rfl) h }

theorem lineage_windows (h : (select classifications instrumentId startUtc endUtc).Perm
    (parts.flatMap fun p ↦ select classifications instrumentId p.startUtc p.endUtc))
    (hextra : ∀ e, e ∈ extra ↔ ∃ p ∈ parts, e ∈ p.additionalLineageEvents) :
    (windowOf instrumentId sessionId startUtc endUtc
      (select classifications instrumentId startUtc endUtc) extra).inputLineage =
        InputLineage.union ((parts.map (Part.window classifications instrumentId)).map
          fun v ↦ v.inputLineage) := by
  have hselected : ∀ item, item ∈ select classifications instrumentId startUtc endUtc ↔
      ∃ p ∈ parts, item ∈ select classifications instrumentId p.startUtc p.endUtc :=
    fun item ↦ h.mem_iff.trans mem_flatMap
  have hcovers : InputLineage.Covers
      (lineageEventsOf (select classifications instrumentId startUtc endUtc) extra)
      ((select classifications instrumentId startUtc endUtc).filterMap
        TradeClassification.unresolvedHash) parts
      (fun p ↦ lineageEventsOf (select classifications instrumentId p.startUtc p.endUtc)
        p.additionalLineageEvents)
      fun p ↦ (select classifications instrumentId p.startUtc p.endUtc).filterMap
        TradeClassification.unresolvedHash := by
    refine ⟨fun e ↦ ?_, fun x ↦ ?_, fun _ _ ↦ unresolved_of_events_nil⟩
    · simp only [mem_lineageEventsOf]
      constructor
      · rintro (⟨item, hitem, he⟩ | he)
        · obtain ⟨p, hp, hitemp⟩ := (hselected item).mp hitem
          exact ⟨p, hp, Or.inl ⟨item, hitemp, he⟩⟩
        · obtain ⟨p, hp, hep⟩ := (hextra e).mp he
          exact ⟨p, hp, Or.inr hep⟩
      · rintro ⟨p, hp, ⟨item, hitemp, he⟩ | hep⟩
        · exact Or.inl ⟨item, (hselected item).mpr ⟨p, hp, hitemp⟩, he⟩
        · exact Or.inr ((hextra e).mpr ⟨p, hp, hep⟩)
    · simp only [mem_filterMap]
      constructor
      · rintro ⟨item, hitem, hx⟩
        obtain ⟨p, hp, hitemp⟩ := (hselected item).mp hitem
        exact ⟨p, hp, item, hitemp, hx⟩
      · rintro ⟨p, hp, item, hitemp, hx⟩
        exact ⟨item, (hselected item).mpr ⟨p, hp, hitemp⟩, hx⟩
  rw [map_map]
  exact hcovers.ofEvents?_eq

/-! ## Points -/

/-- The windows up to the last one since the session changed, from the last one back. -/
def sinceChange (windows : List FlowWindow) : List FlowWindow :=
  match windows.reverse with
  | [] => []
  | w :: before => w :: before.takeWhile fun v ↦ decide (v.sessionId = w.sessionId)

/-- Each window has a point with the sum of the deltas since the session changed. -/
def Cumulative (windows : List FlowWindow) (points : List CvdPoint) : Prop :=
  ∀ i : Nat, points[i]? = windows[i]?.map fun w ↦
    ⟨w.instrumentId, w.sessionId, w.startUtc, w.endUtc, w.delta,
      ((sinceChange (windows.take (i + 1))).map fun v ↦ v.delta).sum⟩

omit [Hashlib] in
theorem sinceChange_snoc (before : List FlowWindow) (w : FlowWindow) :
    sinceChange (before ++ [w]) =
      w :: if some w.sessionId ≠ before.getLast?.map (fun v ↦ v.sessionId) then []
        else sinceChange before := by
  rw [sinceChange, reverse_append, reverse_singleton, singleton_append]
  refine congrArg (w :: ·) ?_
  rw [sinceChange, ← head?_reverse]
  cases before.reverse with
  | nil => rfl
  | cons v rest =>
    simp only [head?_cons, Option.map_some, ne_eq, Option.some.injEq, ite_not]
    by_cases hsession : v.sessionId = w.sessionId
    · rw [if_pos hsession.symm, takeWhile_cons, if_pos (decide_eq_true hsession), hsession]
    · rw [if_neg (Ne.symm hsession), takeWhile_cons,
        if_neg (mt of_decide_eq_true hsession)]

/-- What the loop has done. -/
structure Accumulated (windows : List FlowWindow) (s : CvdState) : Prop where
  points : Cumulative windows s.points
  previousSession : s.previousSession = windows.getLast?.map fun w ↦ w.sessionId
  running : s.running = ((sinceChange windows).map fun w ↦ w.delta).sum

omit [Hashlib] in
theorem accumulated_empty : Accumulated [] .empty where
  points i := by rw [CvdState.empty, getElem?_nil, getElem?_nil, Option.map_none]
  previousSession := rfl
  running := rfl

omit [Hashlib] in
theorem Cumulative.length_eq {windows : List FlowWindow} {points : List CvdPoint}
    (h : Cumulative windows points) : points.length = windows.length := by
  refine le_antisymm ?_ ?_
  · have hend := h windows.length
    rw [getElem?_eq_none le_rfl, Option.map_none] at hend
    exact getElem?_eq_none_iff.mp hend
  · have hend := h points.length
    rw [getElem?_eq_none le_rfl] at hend
    exact getElem?_eq_none_iff.mp (Option.map_eq_none_iff.mp hend.symm)

omit [Hashlib] in
theorem Accumulated.add {before : List FlowWindow} {w : FlowWindow} {s s' : CvdState}
    (h : Accumulated before s) (hs : s.add w = .ok s') : Accumulated (before ++ [w]) s' := by
  rw [CvdState.add] at hs
  simp only [bind_eq_ok, require_eq_ok] at hs
  obtain ⟨_, -, _, -, hs⟩ := hs
  obtain rfl := Except.ok.inj hs
  have hrunning : (if some w.sessionId ≠ s.previousSession then 0 else s.running) + w.delta =
      ((sinceChange (before ++ [w])).map fun v ↦ v.delta).sum := by
    rw [sinceChange_snoc, map_cons, sum_cons, add_comm, h.previousSession]
    split
    · rfl
    · rw [h.running]
  have hlength := h.points.length_eq
  refine ⟨fun i ↦ ?_, ?_, hrunning⟩
  · rcases lt_trichotomy i before.length with hlt | rfl | hgt
    · rw [getElem?_append_left (hlength ▸ hlt), getElem?_append_left hlt, h.points i,
        take_append_of_le_length hlt]
    · rw [← hlength, getElem?_concat_length, hlength, getElem?_concat_length,
        Option.map_some, hrunning, take_of_length_le (by rw [length_append]; rfl)]
    · have hlong : (before ++ [w]).length ≤ i := by rw [length_append]; exact hgt
      rw [getElem?_eq_none hlong, getElem?_eq_none, Option.map_none]
      rw [length_append, hlength]
      exact hgt
  · rw [getLast?_concat, Option.map_some]

omit [Hashlib] in
theorem Accumulated.foldlM {before windows : List FlowWindow} {s s' : CvdState}
    (h : Accumulated before s) (hs : windows.foldlM CvdState.add s = .ok s') :
    Accumulated (before ++ windows) s' := by
  induction windows generalizing before s with
  | nil =>
    obtain rfl := Except.ok.inj hs
    rwa [append_nil]
  | cons w windows ih =>
    obtain ⟨s₁, h₁, hrest⟩ := bind_eq_ok.mp hs
    rw [append_cons]
    exact ih (h.add h₁) hrest

omit [Hashlib] in
/-- **The running total** is the sum since the session changed. -/
theorem cumulative_of_ok {windows : List FlowWindow} {points : List CvdPoint}
    (h : computeCvd windows = .ok points) : Cumulative windows points := by
  obtain ⟨s, hs, hpoints⟩ := bind_eq_ok.mp h
  obtain rfl := Except.ok.inj hpoints
  exact (accumulated_empty.foldlM hs).points

theorem exists_foldlM_windows {s : CvdState}
    (hinstrument : ∀ previous ∈ s.previousInstrument, instrumentId = previous)
    (hend : ∀ previous ∈ s.previousEnd, previous ≤ startUtc)
    (h : Tiles startUtc endUtc parts) :
    ∃ s', (parts.map (Part.window classifications instrumentId)).foldlM CvdState.add s =
      .ok s' := by
  induction parts generalizing startUtc s with
  | nil => exact ⟨s, rfl⟩
  | cons p parts ih =>
    obtain ⟨rfl, hrest⟩ := h
    let w := p.window classifications instrumentId
    have hadd : ∃ s₁, s.add w = .ok s₁ ∧ s₁.previousEnd = some w.endUtc ∧
        s₁.previousInstrument = some w.instrumentId := by
      have hchronological : ∀ previous ∈ s.previousEnd, ¬ p.startUtc < previous :=
        fun previous hp ↦ not_lt.mpr (hend previous hp)
      exact ⟨_, bind_eq_ok.mpr ⟨(), require_eq_ok.mpr hinstrument,
        bind_eq_ok.mpr ⟨(), require_eq_ok.mpr hchronological, rfl⟩⟩, rfl, rfl⟩
    obtain ⟨s₁, h₁, hend₁, hinstrument₁⟩ := hadd
    obtain ⟨s', hs'⟩ := @ih p.endUtc s₁
      (fun previous hp ↦ by rw [hinstrument₁] at hp; exact Option.some.inj hp)
      (fun previous hp ↦ by rw [hend₁] at hp; exact (Option.some.inj hp).symm.le) hrest
    exact ⟨s', bind_eq_ok.mpr ⟨s₁, h₁, hs'⟩⟩

/-! ## Additivity -/

/-- **Trade flow is additive.** -/
theorem trade_flow_additive {windows : List FlowWindow} (htiles : Tiles startUtc endUtc parts)
    (hextra : ∀ e, e ∈ extra ↔ ∃ p ∈ parts, e ∈ p.additionalLineageEvents)
    (hw : aggregateTradeFlow classifications instrumentId sessionId startUtc endUtc extra = .ok w)
    (hparts : parts.mapM (fun p ↦ aggregateTradeFlow classifications instrumentId p.sessionId
      p.startUtc p.endUtc p.additionalLineageEvents) = .ok windows) :
    IsSum w windows ∧
      w.inputLineage = InputLineage.union (windows.map fun v ↦ v.inputLineage) ∧
      (∀ classifications', classifications.Perm classifications' →
        aggregateTradeFlow classifications' instrumentId sessionId startUtc endUtc extra = .ok w) ∧
      ∃ points, computeCvd windows = .ok points ∧ Cumulative windows points := by
  have hwindows : windows = parts.map (Part.window classifications instrumentId) :=
    eq_map_of_mapM hparts fun p _ v hv ↦ (aggregate_eq_ok.mp hv).2.2.2.2.2
  have hpos : ∀ p ∈ parts, p.startUtc < p.endUtc := by
    intro p hp
    obtain ⟨v, -, hv⟩ := mem_of_mapM hparts p hp
    exact (aggregate_eq_ok.mp hv).1
  have hperm := @selected_perm _ classifications instrumentId _ _ _ htiles hpos
  obtain rfl := (aggregate_eq_ok.mp hw).2.2.2.2.2
  obtain rfl := hwindows
  refine ⟨isSum_windows hperm, lineage_windows hperm hextra,
    fun classifications' hperm' ↦ (aggregate_perm hperm').mp hw, ?_⟩
  obtain ⟨s, hs⟩ := @exists_foldlM_windows _ classifications instrumentId startUtc endUtc parts
    .empty (fun _ h ↦ by cases h) (fun _ h ↦ by cases h) htiles
  have hpoints : computeCvd (parts.map (Part.window classifications instrumentId)) =
      .ok s.points := bind_eq_ok.mpr ⟨s, hs, rfl⟩
  exact ⟨s.points, hpoints, cumulative_of_ok hpoints⟩

end Tiles

end

/-! ### Two seconds of two prints -/

section

theorem isHex_none : ∀ c ∈ "".toList, IsHex c := forall_mem_of_all (by decide)

/-- No digest is taken of a trade. -/
local instance flowHashlib : Hashlib := ⟨fun _ ↦ ⟨"", isHex_none⟩⟩

def printSecond : Utc := ⟨1000000, by decide⟩

def printEnd : Utc := ⟨2000000, by decide⟩

theorem tradePrint_sourceId : IsTrimmed tradePrint.sourceId := tradePrint.sourceId_ok

theorem tradePrint_datasetId : IsTrimmed tradePrint.datasetId := tradePrint.datasetId_ok

theorem tradePrint_instrumentId : IsTrimmed tradePrint.instrumentId := tradePrint.instrumentId_ok

/-- A print of a buyer, a second after the other. -/
def buyerPrint : TradeEvent :=
  { tradePrint with
    sourceId_ok := tradePrint_sourceId
    datasetId_ok := tradePrint_datasetId
    instrumentId_ok := tradePrint_instrumentId
    eventTimeUtc := printSecond
    receiveTimeUtc := printSecond
    rawEventHash := "bbbbbbbbbbbbbbbbbbbbbbbbbbbbbbbbbbbbbbbbbbbbbbbbbbbbbbbbbbbbbbbb"
    receiveTime_ok := le_refl _
    rawEventHash_ok := by decide +kernel
    aggressorSide := .buy
    aggressorMethod := .exchangeFlag
    aggressor_ok := iff_of_false (fun h ↦ by cases h) fun h ↦ by cases h }

/-- What the vendor's flag says of a print. -/
def flagged (trade : TradeEvent) (side : AggressorSide) (method : AggressorMethod)
    (h : method = .unknown ↔ side = .unknown) : TradeClassification where
  trade := trade
  side := side
  method := method
  quoteHash := none
  reason := "vendor aggressor flag"
  supportingQuoteEvents := []
  supportingMutationEvents := []
  reason_ok := by decide
  quoteHash_ok digest h := by cases h
  mutations_ok h := absurd rfl h
  method_ok := h

def printClassifications : List TradeClassification :=
  [flagged buyerPrint .buy .exchangeFlag buyerPrint.aggressor_ok,
    flagged tradePrint .unknown .unknown tradePrint.aggressor_ok]

def printParts : List Part :=
  [⟨"open", tradePrint.eventTimeUtc, printSecond, []⟩, ⟨"close", printSecond, printEnd, []⟩]

theorem print_calls_return :
    (aggregateTradeFlow printClassifications "GCZ6" "day" tradePrint.eventTimeUtc printEnd
      []).isOk = true ∧
    (printParts.mapM fun p ↦ aggregateTradeFlow printClassifications "GCZ6" p.sessionId
      p.startUtc p.endUtc p.additionalLineageEvents).isOk = true := by
  decide +kernel

/-- The day of the two prints has the sum of the seconds. -/
theorem print_day_additive : ∃ w windows,
    aggregateTradeFlow printClassifications "GCZ6" "day" tradePrint.eventTimeUtc printEnd [] =
      .ok w ∧
    (printParts.mapM fun p ↦ aggregateTradeFlow printClassifications "GCZ6" p.sessionId
      p.startUtc p.endUtc p.additionalLineageEvents) = .ok windows ∧ IsSum w windows := by
  obtain ⟨hday, hseconds⟩ := print_calls_return
  obtain ⟨w, hw⟩ := exists_of_isOk hday
  obtain ⟨windows, hwindows⟩ := exists_of_isOk hseconds
  have htiles : Tiles tradePrint.eventTimeUtc printEnd printParts := ⟨rfl, rfl, rfl⟩
  refine ⟨w, windows, hw, hwindows, (trade_flow_additive htiles (fun e ↦ ?_) hw hwindows).1⟩
  constructor
  · intro he
    exact absurd he not_mem_nil
  · rintro ⟨p, hp, he⟩
    simp only [printParts, mem_cons, not_mem_nil, or_false] at hp
    rcases hp with rfl | rfl
    · exact he
    · exact he

end

end Qros.OrderFlow
