import Mathlib.Data.Prod.Lex
import Qros.OrderFlow.Audit

/-!
# The rows of the audit

The rows that are accepted are listed by stream, partition and ordinal (`rows_eq_listing`),
and this order is strict.  So two inputs have the same rows, up to the exponents of decimals,
just when they hold the same events in the same partitions and order them alike
(`listing_eq_iff`).
-/

namespace Qros.OrderFlow

open Qros.Lib Qros.Lib.Groups Qros.Lib.KeySort Qros.Python List

namespace AuditInput

def ordinalOf (I : AuditInput) (e : MarketEvent) : Int :=
  match e.sequenceNumber with
  | some (.int n) => n
  | _ => (I.sequenceOrdinals.get? e.base.rawEventHash).getD 0

def eventsAt (I : AuditInput) (k : StreamKey) (p : String) : List MarketEvent :=
  (I.events.filter fun e ↦ decide (e.streamKey = k)).filter fun e ↦ decide (I.partitionOf e = p)

def partitionsOf (I : AuditInput) (k : StreamKey) : List String :=
  sortStrings (Dict.groupBy I.partitionOf ((I.streams.get? k).getD [])).keys

/-- The events by stream, partition and ordinal. -/
def listing (I : AuditInput) : List Row :=
  I.sortedStreams.flatMap fun k ↦ (I.partitionsOf k).flatMap fun p ↦
    (stableSortBy I.ordinalOf (I.eventsAt k p)).map fun e ↦ (p, e)

/-- In every partition ordinals and hashes are different. -/
structure Valid (I : AuditInput) : Prop where
  ordinals : ∀ k p, ((I.eventsAt k p).map I.ordinalOf).Nodup
  hashes : ∀ k p, ((I.eventsAt k p).map fun e ↦ e.base.rawEventHash).Nodup

variable {I I' : AuditInput} {k : StreamKey} {p : String} {e : MarketEvent} {r : Row}

theorem mem_eventsAt : e ∈ I.eventsAt k p ↔
    e ∈ I.events ∧ e.streamKey = k ∧ I.partitionOf e = p := by
  rw [eventsAt, mem_filter, mem_filter, decide_eq_true_iff, decide_eq_true_iff, and_assoc]

theorem stream_eq (I : AuditInput) (k : StreamKey) :
    (I.streams.get? k).getD [] = I.events.filter fun e ↦ decide (e.streamKey = k) :=
  getD_groupBy I.events k

theorem mem_partitionsOf : p ∈ I.partitionsOf k ↔
    ∃ e ∈ I.events, e.streamKey = k ∧ I.partitionOf e = p := by
  rw [partitionsOf, sortStrings, mem_insertionSort, mem_keys_groupBy, stream_eq]
  refine exists_congr fun e ↦ ?_
  rw [mem_filter, decide_eq_true_iff, and_assoc]

theorem mem_sortedStreams : k ∈ I.sortedStreams ↔ ∃ e ∈ I.events, e.streamKey = k := by
  rw [sortedStreams, mem_insertionSort, streams, mem_keys_groupBy]

theorem mem_listing : r ∈ I.listing ↔ r.2 ∈ I.events ∧ r.1 = I.partitionOf r.2 := by
  rw [listing, mem_flatMap]
  constructor
  · rintro ⟨k, -, hr⟩
    obtain ⟨p, -, hr⟩ := mem_flatMap.mp hr
    obtain ⟨e, hsorted, rfl⟩ := mem_map.mp hr
    obtain ⟨he, -, rfl⟩ := mem_eventsAt.mp ((mem_stableSortBy _).mp hsorted)
    exact ⟨he, rfl⟩
  · rintro ⟨he, hr⟩
    refine ⟨r.2.streamKey, mem_sortedStreams.mpr ⟨r.2, he, rfl⟩, ?_⟩
    refine mem_flatMap.mpr ⟨r.1, mem_partitionsOf.mpr ⟨r.2, he, rfl, hr.symm⟩, ?_⟩
    refine mem_map.mpr ⟨r.2, (mem_stableSortBy _).mpr (mem_eventsAt.mpr ⟨he, rfl, hr.symm⟩), ?_⟩
    rfl

/-! ## What is accepted -/

section

variable [StreamText]

theorem ordinal_eq_ok {o : Int × MarketEvent} (h : I.ordinal k e = .ok o) :
    o = (I.ordinalOf e, e) := by
  obtain ⟨n, hn, h⟩ := bind_eq_ok.mp h
  obtain ⟨_, -, h⟩ := bind_eq_ok.mp h
  obtain rfl := Except.ok.inj h
  refine Prod.ext ?_ rfl
  unfold adapted at hn
  dsimp only at hn
  rw [ordinalOf]
  cases hsequence : e.sequenceNumber with
  | none => rw [hsequence] at hn; cases hn
  | some s =>
    rw [hsequence] at hn
    cases s with
    | int m =>
      obtain ⟨_, -, hn⟩ := bind_eq_ok.mp hn
      exact (Except.ok.inj hn).symm
    | str s =>
      have hgiven := found_eq_ok.mp hn
      change n = (I.sequenceOrdinals.get? e.base.rawEventHash).getD 0
      rw [hgiven, Option.getD_some]

variable {rows : List Row}

theorem auditPartition_eq_ok {policy : SequencePolicy} {events : List MarketEvent}
    (h : I.auditPartition k policy p events = .ok rows) :
    rows = (stableSortBy I.ordinalOf events).map (fun e ↦ (p, e)) ∧
      (events.map I.ordinalOf).Nodup ∧ (events.map fun e ↦ e.base.rawEventHash).Nodup := by
  obtain ⟨unsorted, hunsorted, h⟩ := bind_eq_ok.mp h
  obtain rfl := eq_map_of_mapM hunsorted fun e _ o ho ↦ ordinal_eq_ok ho
  obtain ⟨_, hvalues, h⟩ := bind_eq_ok.mp h
  obtain ⟨_, -, h⟩ := bind_eq_ok.mp h
  obtain ⟨_, -, h⟩ := bind_eq_ok.mp h
  obtain ⟨_, hhashes, h⟩ := bind_eq_ok.mp h
  obtain ⟨_, -, h⟩ := bind_eq_ok.mp h
  obtain rfl := Except.ok.inj h
  have hperm := stableSortBy_perm Prod.fst (events.map fun e ↦ (I.ordinalOf e, e))
  refine ⟨?_, ?_, ?_⟩
  · rw [stableSortBy_map, map_map]
    rfl
  · have hnodup := (hperm.map Prod.fst).nodup_iff.mp (require_eq_ok.mp hvalues)
    rwa [map_map] at hnodup
  · have hnodup := (hperm.map fun o ↦ o.2.base.rawEventHash).nodup_iff.mp (require_eq_ok.mp hhashes)
    rwa [map_map] at hnodup

theorem auditStream_eq_ok (h : I.auditStream k = .ok rows) :
    rows = (I.partitionsOf k).flatMap (fun p ↦
        (stableSortBy I.ordinalOf (I.eventsAt k p)).map fun e ↦ (p, e)) ∧
      ∀ p ∈ I.partitionsOf k, ((I.eventsAt k p).map I.ordinalOf).Nodup ∧
        ((I.eventsAt k p).map fun e ↦ e.base.rawEventHash).Nodup := by
  obtain ⟨_, -, h⟩ := bind_eq_ok.mp h
  obtain ⟨parts, hparts, h⟩ := bind_eq_ok.mp h
  obtain rfl := Except.ok.inj h
  have hevents : ∀ p, ((Dict.groupBy I.partitionOf ((I.streams.get? k).getD [])).get? p).getD [] =
      I.eventsAt k p := fun p ↦ by rw [getD_groupBy, stream_eq]; rfl
  constructor
  · rw [flatMap_def]
    refine congrArg List.flatten (eq_map_of_mapM hparts fun p _ rows hrows ↦ ?_)
    rw [hevents] at hrows
    exact (auditPartition_eq_ok hrows).1
  · intro p hp
    obtain ⟨rows, -, hrows⟩ := mem_of_mapM hparts p hp
    rw [hevents] at hrows
    exact (auditPartition_eq_ok hrows).2

/-- **The rows that are accepted.** -/
theorem rows_eq_ok (h : I.rows = .ok rows) : rows = I.listing ∧ I.Valid := by
  obtain ⟨_, -, h⟩ := bind_eq_ok.mp h
  obtain ⟨_, -, h⟩ := bind_eq_ok.mp h
  obtain ⟨_, -, h⟩ := bind_eq_ok.mp h
  obtain ⟨_, -, h⟩ := bind_eq_ok.mp h
  obtain ⟨_, -, h⟩ := bind_eq_ok.mp h
  obtain ⟨parts, hparts, h⟩ := bind_eq_ok.mp h
  obtain rfl := Except.ok.inj h
  constructor
  · rw [listing, flatMap_def]
    exact congrArg List.flatten (eq_map_of_mapM hparts fun k _ rows hrows ↦
      (auditStream_eq_ok hrows).1)
  · have hnodup : ∀ k p, ((I.eventsAt k p).map I.ordinalOf).Nodup ∧
        ((I.eventsAt k p).map fun e ↦ e.base.rawEventHash).Nodup := by
      intro k p
      cases hevents : I.eventsAt k p with
      | nil => exact ⟨nodup_nil, nodup_nil⟩
      | cons e es =>
        obtain ⟨he, hk, hp⟩ := mem_eventsAt.mp (hevents ▸ mem_cons_self)
        obtain ⟨rows, -, hrows⟩ := mem_of_mapM hparts k (mem_sortedStreams.mpr ⟨e, he, hk⟩)
        rw [← hevents]
        exact (auditStream_eq_ok hrows).2 p (mem_partitionsOf.mpr ⟨e, he, hk, hp⟩)
    exact ⟨fun k p ↦ (hnodup k p).1, fun k p ↦ (hnodup k p).2⟩

end

/-! ## The order of the rows -/

def rank (I : AuditInput) (r : Row) : List String ×ₗ (String ×ₗ Int) :=
  toLex (r.2.streamKey.parts, toLex (r.1, I.ordinalOf r.2))

theorem parts_injective : Function.Injective StreamKey.parts := by
  rintro ⟨a, b, c, d⟩ ⟨a', b', c', d'⟩ h
  simp only [StreamKey.parts, List.cons.injEq, and_true] at h
  obtain ⟨rfl, rfl, rfl, rfl⟩ := h
  rfl

theorem pairwise_listing (h : I.Valid) : I.listing.Pairwise fun r r' ↦ I.rank r < I.rank r' := by
  have hstreams : I.sortedStreams.Pairwise fun k k' ↦ k.parts < k'.parts :=
    sorted_lt parts_injective I.streams.nodup
  refine Groups.pairwise_listing hstreams ?_ ?_
  · intro k _
    have hpartitions : (I.partitionsOf k).Pairwise fun p p' ↦ p < p' :=
      sorted_lt Function.injective_id (Dict.nodup _)
    refine Groups.pairwise_listing hpartitions ?_ ?_
    · intro p _
      -- Ordinals of one partition are different.
      rw [pairwise_map]
      have hnodup := ((stableSortBy_perm I.ordinalOf (I.eventsAt k p)).map
        I.ordinalOf).nodup_iff.mpr (h.ordinals k p)
      have hlt : (stableSortBy I.ordinalOf (I.eventsAt k p)).Pairwise fun e e' ↦
          I.ordinalOf e < I.ordinalOf e' :=
        (stableSortBy_sorted I.ordinalOf (I.eventsAt k p)).imp₂
          (fun e e' hle hne ↦ lt_of_le_of_ne hle hne) (pairwise_map.mp hnodup)
      refine hlt.imp_of_mem ?_
      · intro e e' he he' hlt
        have hk := (mem_eventsAt.mp ((mem_stableSortBy _).mp he)).2.1
        have hk' := (mem_eventsAt.mp ((mem_stableSortBy _).mp he')).2.1
        rw [rank, rank, Prod.Lex.toLex_lt_toLex, hk, hk', Prod.Lex.toLex_lt_toLex]
        exact .inr ⟨rfl, .inr ⟨rfl, hlt⟩⟩
    · intro p p' hp r hr r' hr'
      obtain ⟨e, he, rfl⟩ := mem_map.mp hr
      obtain ⟨e', he', rfl⟩ := mem_map.mp hr'
      have hk := (mem_eventsAt.mp ((mem_stableSortBy _).mp he)).2.1
      have hk' := (mem_eventsAt.mp ((mem_stableSortBy _).mp he')).2.1
      rw [rank, rank, Prod.Lex.toLex_lt_toLex, hk, hk', Prod.Lex.toLex_lt_toLex]
      exact .inr ⟨rfl, .inl hp⟩
  · intro k k' hlt r hr r' hr'
    have hstream : ∀ {k : StreamKey} {r : Row}, r ∈ ((I.partitionsOf k).flatMap fun p ↦
        (stableSortBy I.ordinalOf (I.eventsAt k p)).map fun e ↦ (p, e)) → r.2.streamKey = k := by
      intro k r hr
      obtain ⟨p, -, hr⟩ := mem_flatMap.mp hr
      obtain ⟨e, he, rfl⟩ := mem_map.mp hr
      exact (mem_eventsAt.mp ((mem_stableSortBy _).mp he)).2.1
    rw [rank, rank, Prod.Lex.toLex_lt_toLex, hstream hr, hstream hr']
    exact .inl hlt

theorem rank_lt_iff {r r' : Row} (hk : r.2.streamKey = r'.2.streamKey) (hp : r.1 = r'.1) :
    I.rank r < I.rank r' ↔ I.ordinalOf r.2 < I.ordinalOf r'.2 := by
  rw [rank, rank, Prod.Lex.toLex_lt_toLex, hk, Prod.Lex.toLex_lt_toLex, hp]
  simp only [lt_self_iff_false, false_or, true_and]

end AuditInput

/-! ## Rows that agree -/

theorem MarketEvent.Alike.refl (e : MarketEvent) : e.Alike e := MarketEvent.sortKeys_eq_iff.mp rfl

theorem MarketEvent.Alike.base_eq {a b : MarketEvent} (h : a.Alike b) : a.base = b.base := by
  cases h with
  | trade h => exact h.base
  | quote h => exact h.base
  | book h => exact h.base
  | mutation h => exact h.base

theorem MarketEvent.Alike.streamKey_eq {a b : MarketEvent} (h : a.Alike b) :
    a.streamKey = b.streamKey := by
  have hclass : a.className = b.className := by cases h <;> rfl
  rw [streamKey, streamKey, h.base_eq, hclass]

def Row.form (r : Row) : String × Canonical := (r.1, r.2.canonical.sortKeys)

theorem form_eq_iff {r r' : Row} : r.form = r'.form ↔ r.1 = r'.1 ∧ r.2.Alike r'.2 := by
  rw [Row.form, Row.form, Prod.mk.injEq, MarketEvent.sortKeys_eq_iff]

namespace AuditInput

variable {I I' : AuditInput}

/-- The inputs hold the same pairs of partition and event, decimals by their text. -/
def SamePairs (I I' : AuditInput) : Prop :=
  (∀ e ∈ I.events, ∃ e' ∈ I'.events, e.Alike e' ∧ I'.partitionOf e' = I.partitionOf e) ∧
    ∀ e' ∈ I'.events, ∃ e ∈ I.events, e.Alike e' ∧ I'.partitionOf e' = I.partitionOf e

/-- In every partition of a stream the ordinals of the inputs put the events in one order. -/
def SameOrder (I I' : AuditInput) : Prop :=
  ∀ a ∈ I.events, ∀ b ∈ I.events, ∀ a' ∈ I'.events, ∀ b' ∈ I'.events, a.Alike a' → b.Alike b' →
    a.streamKey = b.streamKey → I.partitionOf a = I.partitionOf b →
      (I.ordinalOf a < I.ordinalOf b ↔ I'.ordinalOf a' < I'.ordinalOf b')

theorem SamePairs.partitionOf_eq (h : SamePairs I I') {a a' : MarketEvent} (ha : a ∈ I.events)
    (haa : a.Alike a') : I'.partitionOf a' = I.partitionOf a := by
  obtain ⟨e', -, hae, hpartition⟩ := h.1 a ha
  rw [← hpartition, AuditInput.partitionOf, AuditInput.partitionOf, ← haa.base_eq, hae.base_eq]

theorem form_injOn (h : I.Valid) :
    ∀ r ∈ I.listing, ∀ r' ∈ I.listing, r.form = r'.form → r = r' := by
  intro r hr r' hr' hform
  obtain ⟨hp, halike⟩ := form_eq_iff.mp hform
  obtain ⟨he, hpr⟩ := mem_listing.mp hr
  obtain ⟨he', hpr'⟩ := mem_listing.mp hr'
  refine Prod.ext hp (inj_on_of_nodup_map (h.hashes r.2.streamKey r.1) ?_ ?_ ?_)
  · exact mem_eventsAt.mpr ⟨he, rfl, hpr.symm⟩
  · exact mem_eventsAt.mpr ⟨he', halike.streamKey_eq.symm, hpr'.symm.trans hp.symm⟩
  · exact congrArg BaseEvent.rawEventHash halike.base_eq

theorem nodup_forms (h : I.Valid) : (I.listing.map Row.form).Nodup := by
  refine List.Nodup.map_on (form_injOn h) ?_
  refine (pairwise_listing h).imp fun hlt heq ↦ ?_
  rw [heq] at hlt
  exact lt_irrefl _ hlt

theorem mem_listing_self {e : MarketEvent} (he : e ∈ I.events) : (I.partitionOf e, e) ∈ I.listing :=
  mem_listing.mpr ⟨he, rfl⟩

theorem samePairs_of_forms (hforms : I.listing.map Row.form = I'.listing.map Row.form) :
    SamePairs I I' := by
  constructor
  · intro e he
    have hmem := mem_map_of_mem (f := Row.form) (mem_listing_self he)
    rw [hforms] at hmem
    obtain ⟨r, hr, hform⟩ := mem_map.mp hmem
    obtain ⟨hp, halike⟩ := form_eq_iff.mp hform.symm
    obtain ⟨he', hpr⟩ := mem_listing.mp hr
    exact ⟨r.2, he', halike, hpr.symm.trans hp.symm⟩
  · intro e' he'
    have hmem := mem_map_of_mem (f := Row.form) (mem_listing_self he')
    rw [← hforms] at hmem
    obtain ⟨r, hr, hform⟩ := mem_map.mp hmem
    obtain ⟨hp, halike⟩ := form_eq_iff.mp hform
    obtain ⟨he, hpr⟩ := mem_listing.mp hr
    exact ⟨r.2, he, halike, hp.symm.trans hpr⟩

theorem SamePairs.form_eq (h : SamePairs I I') {a a' : MarketEvent} (ha : a ∈ I.events)
    (haa : a.Alike a') : Row.form (I.partitionOf a, a) = Row.form (I'.partitionOf a', a') :=
  form_eq_iff.mpr ⟨(h.partitionOf_eq ha haa).symm, haa⟩

/-- **Rows.**  Two inputs list the same rows just when they hold the same pairs and order
them alike. -/
theorem listing_eq_iff (h : I.Valid) (h' : I'.Valid) :
    I.listing.map Row.form = I'.listing.map Row.form ↔ SamePairs I I' ∧ SameOrder I I' := by
  constructor
  · intro hforms
    have hpairs := samePairs_of_forms hforms
    refine ⟨hpairs, ?_⟩
    intro a ha b hb a' ha' b' hb' haa hbb hk hp
    have hfa := hpairs.form_eq ha haa
    have hfb := hpairs.form_eq hb hbb
    have hk' : a'.streamKey = b'.streamKey :=
      haa.streamKey_eq.symm.trans (hk.trans hbb.streamKey_eq)
    have hp' : I'.partitionOf a' = I'.partitionOf b' := by
      rw [hpairs.partitionOf_eq ha haa, hpairs.partitionOf_eq hb hbb, hp]
    constructor
    · intro hlt
      refine (rank_lt_iff hk' hp').mp (lt_of_map_eq (fun _ _ ↦ lt_asymm) (pairwise_listing h)
        (pairwise_listing h') hforms (form_injOn h') (mem_listing_self ha) (mem_listing_self hb)
        ((rank_lt_iff hk hp).mpr hlt) (mem_listing_self ha') (mem_listing_self hb') hfa.symm hfb.symm)
    · intro hlt
      exact (rank_lt_iff hk hp).mp (lt_of_map_eq (fun _ _ ↦ lt_asymm) (pairwise_listing h')
        (pairwise_listing h) hforms.symm (form_injOn h) (mem_listing_self ha')
        (mem_listing_self hb') ((rank_lt_iff hk' hp').mpr hlt) (mem_listing_self ha)
        (mem_listing_self hb) hfa hfb)
  · rintro ⟨hpairs, horder⟩
    -- Forms are ordered as the first input orders its rows.
    have hsorted : (I.listing.map Row.form).Pairwise fun c d ↦ ∃ a ∈ I.listing, ∃ b ∈ I.listing,
        a.form = c ∧ b.form = d ∧ I.rank a < I.rank b := by
      rw [pairwise_map]
      exact (pairwise_listing h).imp_of_mem fun {a b} ha hb hlt ↦ ⟨a, ha, b, hb, rfl, rfl, hlt⟩
    refine listing_unique ?_ hsorted ?_ ?_
    · rintro c d ⟨a, ha, b, hb, rfl, rfl, hlt⟩ ⟨b', hb', a', ha', hbb, haa, hlt'⟩
      rw [form_injOn h b' hb' b hb hbb, form_injOn h a' ha' a ha haa] at hlt'
      exact lt_asymm hlt hlt'
    · rw [pairwise_map]
      refine (pairwise_listing h').imp_of_mem fun {a' b'} ha' hb' hlt ↦ ?_
      obtain ⟨hae', hap'⟩ := mem_listing.mp ha'
      obtain ⟨hbe', hbp'⟩ := mem_listing.mp hb'
      obtain ⟨a, ha, haa, hpa⟩ := hpairs.2 a'.2 hae'
      obtain ⟨b, hb, hbb, hpb⟩ := hpairs.2 b'.2 hbe'
      have hpa' : a'.1 = I.partitionOf a := hap'.trans hpa
      have hpb' : b'.1 = I.partitionOf b := hbp'.trans hpb
      refine ⟨(I.partitionOf a, a), mem_listing_self ha, (I.partitionOf b, b), mem_listing_self hb,
        form_eq_iff.mpr ⟨hpa'.symm, haa⟩, form_eq_iff.mpr ⟨hpb'.symm, hbb⟩, ?_⟩
      rw [rank, rank, Prod.Lex.toLex_lt_toLex, Prod.Lex.toLex_lt_toLex] at hlt ⊢
      rw [haa.streamKey_eq, hbb.streamKey_eq, ← hpa', ← hpb']
      refine hlt.imp_right fun ⟨hk, hlt⟩ ↦ ⟨hk, hlt.imp_right fun ⟨hp, hlt⟩ ↦ ⟨hp, ?_⟩⟩
      have hk' : a.streamKey = b.streamKey := by
        rw [haa.streamKey_eq, hbb.streamKey_eq]
        exact parts_injective hk
      exact (horder a ha b hb a'.2 hae' b'.2 hbe' haa hbb hk'
        (hpa'.symm.trans (hp.trans hpb'))).mpr hlt
    · refine (perm_ext_iff_of_nodup (nodup_forms h) (nodup_forms h')).mpr fun c ↦ ?_
      rw [mem_map, mem_map]
      constructor
      · rintro ⟨r, hr, rfl⟩
        obtain ⟨he, hp⟩ := mem_listing.mp hr
        obtain ⟨e', he', halike, hpartition⟩ := hpairs.1 r.2 he
        exact ⟨(I'.partitionOf e', e'), mem_listing_self he',
          (form_eq_iff.mpr ⟨hp.trans hpartition.symm, halike⟩).symm⟩
      · rintro ⟨r, hr, rfl⟩
        obtain ⟨he', hp⟩ := mem_listing.mp hr
        obtain ⟨e, he, halike, hpartition⟩ := hpairs.2 r.2 he'
        exact ⟨(I.partitionOf e, e), mem_listing_self he,
          form_eq_iff.mpr ⟨(hp.trans hpartition).symm, halike⟩⟩

end AuditInput

end Qros.OrderFlow
