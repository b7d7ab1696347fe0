import Qros.OrderFlow.AuditRows

/-!
# The identity of an audit

The texts of which the audit takes digests are canonical values with different keys, so that
equal texts have equal fields (`canonicalBytes_eq_iff`).  Keys of streams are joined with a
bar; they are told apart when no identifier has one (`joined_injOn`).
-/

namespace Qros.OrderFlow

open Qros.Lib Qros.Python List

/-! ## Values have different keys -/

namespace ConfigValue

mutual

theorem distinct_canonical : ∀ (v : ConfigValue) (j : Canonical), v.Distinct →
    v.canonical = .ok j → j.Distinct
  | .none, _, _, h => by obtain rfl := Except.ok.inj h; trivial
  | .bool _, _, _, h => by obtain rfl := Except.ok.inj h; trivial
  | .int _, _, _, h => by obtain rfl := Except.ok.inj h; trivial
  | .str _, _, _, h => by obtain rfl := Except.ok.inj h; trivial
  | .decimal _, _, _, h => by obtain rfl := Except.ok.inj h; trivial
  | .nonFiniteDecimal, _, _, h => nomatch h
  | .time _, _, _, h => by obtain rfl := Except.ok.inj h; trivial
  | .naiveTime, _, _, h => nomatch h
  | .enumStr _, _, _, h => by obtain rfl := Except.ok.inj h; trivial
  | .enumInt _, _, _, h => by obtain rfl := Except.ok.inj h; trivial
  | .list items, _, hd, h => by
      rw [canonical] at h
      cases hitems : canonicalItems items with
      | error e => rw [hitems] at h; cases h
      | ok js =>
        rw [hitems] at h
        obtain rfl := Except.ok.inj h
        exact Json.distinct_list.mpr (distinct_canonicalItems items js hd hitems)
  | .tuple items, _, hd, h => by
      rw [canonical] at h
      cases hitems : canonicalItems items with
      | error e => rw [hitems] at h; cases h
      | ok js =>
        rw [hitems] at h
        obtain rfl := Except.ok.inj h
        exact Json.distinct_list.mpr (distinct_canonicalItems items js hd hitems)
  | .mapping entries, _, hd, h => by
      rw [canonical] at h
      cases hentries : canonicalEntries entries with
      | error e => rw [hentries] at h; cases h
      | ok js =>
        rw [hentries] at h
        obtain rfl := Except.ok.inj h
        obtain ⟨hkeys, hvalues⟩ := distinct_canonicalEntries entries js hd.2 hentries
        exact Json.distinct_dict.mpr ⟨hkeys ▸ hd.1, hvalues⟩
  | .otherMapping, _, _, h => nomatch h
  | .record qualname fields, _, hd, h => by
      rw [canonical] at h
      cases hfields : canonicalEntries fields with
      | error e => rw [hfields] at h; cases h
      | ok js =>
        rw [hfields] at h
        obtain rfl := Except.ok.inj h
        obtain ⟨hkeys, hvalues⟩ := distinct_canonicalEntries fields js hd.2.2 hfields
        refine Json.distinct_dict.mpr ⟨?_, ?_⟩
        · rw [map_cons, hkeys]
          exact nodup_cons.mpr ⟨hd.1, hd.2.1⟩
        · exact forall_mem_cons.mpr ⟨trivial, hvalues⟩
  | .float, _, _, h => nomatch h
  | .other _, _, _, h => nomatch h

theorem distinct_canonicalItems : ∀ (vs : List ConfigValue) (js : List Canonical),
    DistinctItems vs → canonicalItems vs = .ok js → ∀ j ∈ js, j.Distinct
  | [], _, _, h => by obtain rfl := Except.ok.inj h; exact nofun
  | v :: vs, _, hd, h => by
      rw [canonicalItems] at h
      obtain ⟨j, hj, h⟩ := bind_eq_ok.mp h
      obtain ⟨js, hjs, h⟩ := bind_eq_ok.mp h
      obtain rfl := Except.ok.inj h
      exact forall_mem_cons.mpr
        ⟨distinct_canonical v j hd.1 hj, distinct_canonicalItems vs js hd.2 hjs⟩

theorem distinct_canonicalEntries : ∀ (es : List (String × ConfigValue))
    (js : List (String × Canonical)), DistinctEntries es → canonicalEntries es = .ok js →
    js.map Prod.fst = es.map Prod.fst ∧ ∀ e ∈ js, e.2.Distinct
  | [], _, _, h => by obtain rfl := Except.ok.inj h; exact ⟨rfl, nofun⟩
  | (key, v) :: es, _, hd, h => by
      rw [canonicalEntries] at h
      obtain ⟨j, hj, h⟩ := bind_eq_ok.mp h
      obtain ⟨js, hjs, h⟩ := bind_eq_ok.mp h
      obtain rfl := Except.ok.inj h
      obtain ⟨hkeys, hvalues⟩ := distinct_canonicalEntries es js hd.2 hjs
      exact ⟨by rw [map_cons, hkeys, map_cons],
        forall_mem_cons.mpr ⟨distinct_canonical v j hd.1 hj, hvalues⟩⟩

end

end ConfigValue

/-! ## The text of the events -/

theorem distinct_rowCanonical (r : Row) : (rowCanonical r).Distinct := by
  refine Json.distinct_dict.mpr ⟨by simp, ?_⟩
  intro e he
  rcases mem_cons.mp he with rfl | he
  · trivial
  · obtain rfl := mem_singleton.mp he
    exact MarketEvent.distinct _

theorem rowCanonical_eq_iff {r r' : Row} :
    (rowCanonical r).sortKeys = (rowCanonical r').sortKeys ↔ r.form = r'.form := by
  constructor
  · intro h
    have hagree : FieldsAgree _ _ := find_of_sortKeys_eq (Json.distinct_dict.mp
      (distinct_rowCanonical r)).1 (Json.distinct_dict.mp (distinct_rowCanonical r')).1 h
    exact Prod.ext (str_eq_of_agree hagree "partition_id" rfl rfl)
      (value_eq_of_agree hagree "event" rfl rfl)
  · intro h
    obtain ⟨hp, he⟩ := Prod.mk.inj h
    have hsort : ∀ r : Row, (rowCanonical r).sortKeys = .dict (sortEntries
        [("partition_id", .str r.1), ("event", r.2.canonical.sortKeys)]) := fun r ↦ rfl
    rw [hsort, hsort, hp, he]

theorem map_eq_map_iff {α β γ : Type} {f : α → β} {g : α → γ} (h : ∀ a b, f a = f b ↔ g a = g b)
    {l l' : List α} : l.map f = l'.map f ↔ l.map g = l'.map g := by
  induction l generalizing l' with
  | nil =>
    cases l' with
    | nil => exact iff_of_true rfl rfl
    | cons b l' => exact iff_of_false (cons_ne_nil _ _).symm (cons_ne_nil _ _).symm
  | cons a l ih =>
    cases l' with
    | nil => exact iff_of_false (cons_ne_nil _ _) (cons_ne_nil _ _)
    | cons b l' =>
      rw [map_cons, map_cons, map_cons, map_cons, List.cons.injEq,
        List.cons.injEq, h, ih]

/-- **The events payload** tells the rows, up to the exponents of decimals. -/
theorem eventsPayload_eq_iff {rows rows' : List Row} :
    eventsPayload rows = eventsPayload rows' ↔ rows.map Row.form = rows'.map Row.form := by
  have hdistinct : ∀ rows : List Row, (Json.list (rows.map rowCanonical)).Distinct := by
    intro rows
    refine Json.distinct_list.mpr fun j hj ↦ ?_
    obtain ⟨r, -, rfl⟩ := mem_map.mp hj
    exact distinct_rowCanonical r
  rw [eventsPayload, eventsPayload, canonicalBytes_eq_iff (hdistinct rows) (hdistinct rows'),
    Json.sortKeys, Json.sortKeys, Json.list.injEq, Json.sortItems_eq_map, Json.sortItems_eq_map,
    map_map, map_map]
  exact map_eq_map_iff fun r r' ↦ rowCanonical_eq_iff

/-! ## The text of the settings -/

theorem SequenceMode.value_injective : Function.Injective SequenceMode.value := by
  intro a b h
  cases a <;> cases b <;> first | rfl | exact absurd h (by decide)

theorem nodup_policyFields (p : SequencePolicy) : ∀ es, p.canonical = .dict es →
    (es.map Prod.fst).Nodup := by
  intro es h
  obtain rfl := (Json.dict.inj h).symm
  simp

theorem SequencePolicy.distinct_canonical (p : SequencePolicy) : p.canonical.Distinct := by
  rw [SequencePolicy.canonical, Json.distinct_dict]
  refine ⟨by simp, ?_⟩
  simp only [forall_mem_cons]
  refine ⟨trivial, ?_, trivial, trivial, fun e he ↦ absurd he not_mem_nil⟩
  cases p.expectedFirstSequence <;> trivial

theorem SequencePolicy.canonical_injective {p q : SequencePolicy}
    (h : p.canonical.sortKeys = q.canonical.sortKeys) : p = q := by
  have hagree : FieldsAgree _ _ := find_of_sortKeys_eq (nodup_policyFields p _ rfl)
    (nodup_policyFields q _ rfl) h
  have hmode := SequenceMode.value_injective (str_eq_of_agree hagree "mode" rfl rfl)
  have hfirst : p.expectedFirstSequence = q.expectedFirstSequence := by
    refine eq_of_rel (rel_of_canonicalOption ?_ ?_
      (value_eq_of_agree hagree "expected_first_sequence" rfl rfl))
    · intro n
      exact nofun
    · intro m n hmn
      exact Int.ofNat.inj (Json.int.inj hmn)
  have hevent := Json.bool.inj (value_eq_of_agree hagree "require_event_time_monotonic" rfl rfl)
  have hreceive := Json.bool.inj (value_eq_of_agree hagree "require_receive_time_monotonic" rfl rfl)
  cases p
  cases q
  simp only at hmode hfirst hevent hreceive
  rw [hmode, hfirst, hevent, hreceive]

/-! ### Joined keys -/

/-- No identifier of the event has a bar. -/
def MarketEvent.IsPlain (e : MarketEvent) : Prop :=
  '|' ∉ e.base.sourceId.toList ∧ '|' ∉ e.base.datasetId.toList ∧ '|' ∉ e.base.instrumentId.toList

theorem split_bar {a a' r r' : List Char} (ha : '|' ∉ a) (ha' : '|' ∉ a')
    (h : a ++ '|' :: r = a' ++ '|' :: r') : a = a' ∧ r = r' := by
  induction a generalizing a' with
  | nil =>
    cases a' with
    | nil => exact ⟨rfl, (List.cons.inj h).2⟩
    | cons c a' =>
      rw [(List.cons.inj h).1] at ha'
      exact absurd mem_cons_self ha'
  | cons c a ih =>
    cases a' with
    | nil =>
      rw [← (List.cons.inj h).1] at ha
      exact absurd mem_cons_self ha
    | cons c' a' =>
      obtain ⟨rfl, htail⟩ := List.cons.inj h
      obtain ⟨rfl, hr⟩ := ih (fun hc ↦ ha (mem_cons_of_mem _ hc))
        (fun hc ↦ ha' (mem_cons_of_mem _ hc)) htail
      exact ⟨rfl, hr⟩

theorem joined_injOn {e e' : MarketEvent} (he : e.IsPlain) (he' : e'.IsPlain)
    (h : e.streamKey.joined = e'.streamKey.joined) : e.streamKey = e'.streamKey := by
  obtain ⟨hs, hd, hi⟩ := he
  obtain ⟨hs', hd', hi'⟩ := he'
  have hjoined : ∀ k : StreamKey, ['|'].intercalate (k.parts.map String.toList) =
      k.sourceId.toList ++ '|' :: (k.datasetId.toList ++ '|' ::
        (k.instrumentId.toList ++ '|' :: k.className.toList)) := by
    intro k
    simp [StreamKey.parts, List.intercalate]
  have h := String.ofList_injective h
  rw [hjoined, hjoined] at h
  obtain ⟨hsource, h⟩ := split_bar hs hs' h
  obtain ⟨hdataset, h⟩ := split_bar hd hd' h
  obtain ⟨hinstrument, h⟩ := split_bar hi hi' h
  have hparts : ∀ {k k' : StreamKey}, k.sourceId = k'.sourceId → k.datasetId = k'.datasetId →
      k.instrumentId = k'.instrumentId → k.className = k'.className → k = k' := by
    rintro ⟨_, _, _, _⟩ ⟨_, _, _, _⟩ rfl rfl rfl rfl
    rfl
  exact hparts (String.toList_injective hsource) (String.toList_injective hdataset)
    (String.toList_injective hinstrument) (String.toList_injective h)

/-! ### Dictionaries with new keys -/

section

variable {κ α β : Type} {f : κ → String} {g : α → β}

theorem exists_of_get?_rekey {es : List (κ × α)} {x : String} {b : β}
    (h : (es.foldl (fun d e ↦ d.set (f e.1) (g e.2)) (∅ : Dict String β)).get? x = some b) :
    ∃ e ∈ es, f e.1 = x ∧ b = g e.2 := by
  induction es using reverseRecOn with
  | nil => cases h
  | append_singleton es e ih =>
    rw [foldl_append, foldl_cons, foldl_nil, Dict.get?_set] at h
    by_cases hx : f e.1 = x
    · rw [if_pos hx] at h
      exact ⟨e, mem_append_right _ mem_cons_self, hx, (Option.some.inj h).symm⟩
    · rw [if_neg hx] at h
      obtain ⟨e', he', heq⟩ := ih h
      exact ⟨e', mem_append_left _ he', heq⟩

theorem get?_rekey {es : List (κ × α)} (hnd : (es.map Prod.fst).Nodup)
    (hinj : ∀ e ∈ es, ∀ e' ∈ es, f e.1 = f e'.1 → e.1 = e'.1) {e : κ × α} (he : e ∈ es) :
    (es.foldl (fun d e ↦ d.set (f e.1) (g e.2)) (∅ : Dict String β)).get? (f e.1) =
      some (g e.2) := by
  induction es using reverseRecOn with
  | nil => exact absurd he not_mem_nil
  | append_singleton es e' ih =>
    have hlast : e' ∈ es ++ [e'] := mem_append_right _ mem_cons_self
    rw [foldl_append, foldl_cons, foldl_nil, Dict.get?_set]
    rw [map_append, nodup_append'] at hnd
    by_cases hkey : f e'.1 = f e.1
    · have hkeys := hinj e' hlast e he hkey
      rw [mem_append, mem_singleton] at he
      have heq : e = e' := by
        refine he.resolve_left fun hmem ↦ hnd.2.2 (mem_map_of_mem hmem) ?_
        rw [map_singleton, mem_singleton]
        exact hkeys.symm
      rw [if_pos hkey, heq]
    · rw [if_neg hkey]
      rw [mem_append, mem_singleton] at he
      refine ih hnd.1 (fun a ha b hb ↦ hinj a (mem_append_left _ ha) b
        (mem_append_left _ hb)) (he.resolve_right fun heq ↦ hkey (by rw [heq]))

end

/-! ## Settings -/

namespace AuditInput

variable {I I' : AuditInput}

/-- The inputs have the same settings: the configuration in its canonical form, and the
policies if no identifier has a bar. -/
structure SameSettings (I I' : AuditInput) : Prop where
  codeRevision : I.codeRevision = I'.codeRevision
  replayConfig : (ConfigValue.mapping I.replayConfig).canonical.map Json.sortKeys =
    (ConfigValue.mapping I'.replayConfig).canonical.map Json.sortKeys
  expectedFirstSequence : I.expectedFirstSequence = I'.expectedFirstSequence
  sequenceOrdinals : ∀ hash, I.sequenceOrdinals.get? hash = I'.sequenceOrdinals.get? hash
  streamPartitions : ∀ hash, I.streamPartitions.get? hash = I'.streamPartitions.get? hash
  sequencePolicies : (∀ e ∈ I.events, e.IsPlain) →
    ∀ k, I.sequencePolicies.get? k = I'.sequencePolicies.get? k

theorem distinct_replayFields (I : AuditInput) (eventsHash : String) {config : Canonical}
    (hconfig : config.Distinct) : (Json.dict (I.replayFields eventsHash config)).Distinct := by
  rw [Json.distinct_dict]
  refine ⟨by simp [replayFields], ?_⟩
  simp only [replayFields, forall_mem_cons]
  refine ⟨trivial, hconfig, trivial, ?_, ?_, ?_, ?_, fun e he ↦ absurd he not_mem_nil⟩
  · cases I.expectedFirstSequence <;> trivial
  · refine Json.distinct_dict.mpr ⟨(policyPayload I.sequencePolicies).nodup, ?_⟩
    rintro ⟨x, j⟩ he
    obtain ⟨e, -, -, rfl⟩ := exists_of_get?_rekey (Dict.mem_entries.mp he)
    exact e.2.distinct_canonical
  · refine Json.distinct_dict.mpr ⟨?_, ?_⟩
    · rw [map_map]
      exact I.sequenceOrdinals.nodup
    · intro e he
      obtain ⟨e', -, rfl⟩ := mem_map.mp he
      trivial
  · refine Json.distinct_dict.mpr ⟨?_, ?_⟩
    · rw [map_map]
      exact I.streamPartitions.nodup
    · intro e he
      obtain ⟨e', -, rfl⟩ := mem_map.mp he
      trivial

theorem get?_eq_of_sortKeys {α : Type} {d d' : Dict String α} {f : α → Canonical}
    (hf : ∀ a b, (f a).sortKeys = (f b).sortKeys → a = b)
    (h : (Json.dict (d.entries.map fun e ↦ (e.1, f e.2))).sortKeys =
      (Json.dict (d'.entries.map fun e ↦ (e.1, f e.2))).sortKeys) (k : String) :
    d.get? k = d'.get? k := by
  have hnd : ∀ d : Dict String α, ((d.entries.map fun e ↦ (e.1, f e.2)).map Prod.fst).Nodup := by
    intro d
    rw [map_map]
    exact d.nodup
  have hk := find_of_sortKeys_eq (hnd d) (hnd d') h k
  rw [find_map, find_map, Option.map_map, Option.map_map] at hk
  change (d.get? k).map _ = (d'.get? k).map _ at hk
  exact Option.map_injective (fun a b hab ↦ hf a b hab) hk

theorem policyPayload_eq (policies : Dict StreamKey SequencePolicy) : policyPayload policies =
    policies.entries.foldl (fun d e ↦ d.set (StreamKey.joined e.1) (SequencePolicy.canonical e.2))
      ∅ := rfl

theorem policy_of_payload {policies policies' : Dict StreamKey SequencePolicy}
    (h : ∀ x, ((policyPayload policies).get? x).map Json.sortKeys =
      ((policyPayload policies').get? x).map Json.sortKeys)
    (hinj : ∀ e ∈ policies.entries, ∀ e' ∈ policies.entries,
      e.1.joined = e'.1.joined → e.1 = e'.1)
    (hinj' : ∀ e ∈ policies.entries, ∀ e' ∈ policies'.entries,
      e.1.joined = e'.1.joined → e.1 = e'.1) {k : StreamKey} {p : SequencePolicy}
    (hp : policies.get? k = some p) : policies'.get? k = some p := by
  have he := Dict.mem_entries.mpr hp
  have hpayload : (policyPayload policies).get? k.joined = some p.canonical := by
    have hentry := get?_rekey (f := StreamKey.joined) (g := SequencePolicy.canonical) (e := (k, p))
      policies.nodup hinj he
    exact hentry
  have hx := h k.joined
  rw [hpayload, Option.map_some] at hx
  obtain ⟨j, hj, hsort⟩ := Option.map_eq_some_iff.mp hx.symm
  rw [policyPayload_eq] at hj
  obtain ⟨e', he', hjoined, hjp⟩ := exists_of_get?_rekey hj
  have hkey : k = e'.1 := hinj' (k, p) he e' he' hjoined.symm
  have hpolicy : e'.2 = p := by
    rw [hjp] at hsort
    exact SequencePolicy.canonical_injective hsort
  rw [← Dict.mem_entries, hkey, ← hpolicy]
  exact he'

variable [StreamText]

theorem exists_event_of_policy {rows : List Row} (h : I.rows = .ok rows)
    {e : StreamKey × SequencePolicy} (he : e ∈ I.sequencePolicies.entries) :
    ∃ event ∈ I.events, event.streamKey = e.1 := by
  obtain ⟨_, -, h⟩ := bind_eq_ok.mp h
  obtain ⟨_, -, h⟩ := bind_eq_ok.mp h
  obtain ⟨_, -, h⟩ := bind_eq_ok.mp h
  obtain ⟨_, -, h⟩ := bind_eq_ok.mp h
  obtain ⟨_, hpolicies, -⟩ := bind_eq_ok.mp h
  exact Groups.mem_keys_groupBy.mp (require_eq_ok.mp hpolicies (mem_map_of_mem he))

/-- **Settings.**  With the same pairs, equal replay payloads have the same settings. -/
theorem sameSettings_of_payload {rows rows' : List Row} {hash hash' : String}
    {payload : List Char} (hrows : I.rows = .ok rows) (hrows' : I'.rows = .ok rows')
    (hpairs : SamePairs I I') (h : I.replayPayload hash = .ok payload)
    (h' : I'.replayPayload hash' = .ok payload) : SameSettings I I' := by
  obtain ⟨config, hconfig, h⟩ := bind_eq_ok.mp h
  obtain ⟨config', hconfig', h'⟩ := bind_eq_ok.mp h'
  have hd := I.distinct_replayFields hash
    (ConfigValue.distinct_canonical _ _ I.replayConfig_ok hconfig)
  have hd' := I'.distinct_replayFields hash'
    (ConfigValue.distinct_canonical _ _ I'.replayConfig_ok hconfig')
  have hsort := (canonicalBytes_eq_iff hd hd').mp
    ((Except.ok.inj h).trans (Except.ok.inj h').symm)
  have hagree : FieldsAgree _ _ := find_of_sortKeys_eq (Json.distinct_dict.mp hd).1
    (Json.distinct_dict.mp hd').1 hsort
  refine ⟨str_eq_of_agree hagree "code_revision" rfl rfl, ?_, ?_, ?_, ?_, ?_⟩
  · rw [hconfig, hconfig']
    exact congrArg Except.ok (value_eq_of_agree hagree "replay_config" rfl rfl)
  · refine eq_of_rel (rel_of_canonicalOption ?_ ?_
      (value_eq_of_agree hagree "default_expected_first_sequence" rfl rfl))
    · intro n
      exact nofun
    · intro m n hmn
      exact Json.int.inj hmn
  · exact get?_eq_of_sortKeys (f := Json.int) (fun _ _ hab ↦ Json.int.inj hab)
      (value_eq_of_agree hagree "sequence_ordinals" rfl rfl)
  · exact get?_eq_of_sortKeys (f := Json.str) (fun _ _ hab ↦ Json.str.inj hab)
      (value_eq_of_agree hagree "stream_partitions" rfl rfl)
  · intro hplain k
    have hpayload := value_eq_of_agree hagree "sequence_policies" rfl rfl
    have hx := find_of_sortKeys_eq (policyPayload I.sequencePolicies).nodup
      (policyPayload I'.sequencePolicies).nodup hpayload
    have hplain' : ∀ e ∈ I'.events, e.IsPlain := by
      intro e' he'
      obtain ⟨e, he, halike, -⟩ := hpairs.2 e' he'
      have := hplain e he
      rwa [MarketEvent.IsPlain, halike.base_eq] at this
    have hstream : ∀ e ∈ I.sequencePolicies.entries, ∃ event : MarketEvent,
        event.IsPlain ∧ event.streamKey = e.1 := by
      intro e he
      obtain ⟨event, hevent, hkey⟩ := exists_event_of_policy hrows he
      exact ⟨event, hplain event hevent, hkey⟩
    have hstream' : ∀ e ∈ I'.sequencePolicies.entries, ∃ event : MarketEvent,
        event.IsPlain ∧ event.streamKey = e.1 := by
      intro e he
      obtain ⟨event, hevent, hkey⟩ := exists_event_of_policy hrows' he
      exact ⟨event, hplain' event hevent, hkey⟩
    have hinj : ∀ {a b : StreamKey × SequencePolicy},
        (∃ event : MarketEvent, event.IsPlain ∧ event.streamKey = a.1) →
        (∃ event : MarketEvent, event.IsPlain ∧ event.streamKey = b.1) →
        a.1.joined = b.1.joined → a.1 = b.1 := by
      rintro a b ⟨event, hplain, ha⟩ ⟨event', hplain', hb⟩ hjoined
      rw [← ha, ← hb] at hjoined ⊢
      exact joined_injOn hplain hplain' hjoined
    ext p
    constructor
    · exact policy_of_payload hx (fun a ha b hb ↦ hinj (hstream a ha) (hstream b hb))
        (fun a ha b hb ↦ hinj (hstream a ha) (hstream' b hb))
    · exact policy_of_payload (fun x ↦ (hx x).symm)
        (fun a ha b hb ↦ hinj (hstream' a ha) (hstream' b hb))
        (fun a ha b hb ↦ hinj (hstream' a ha) (hstream b hb))

variable [Hashlib]

theorem buildReplayAudit_digests {A : ReplayAudit} (h : buildReplayAudit I = .ok A) :
    ∃ rows payload, I.rows = .ok rows ∧ I.eventsPreimage = .ok (eventsPayload rows) ∧
      I.replayPreimage = .ok payload ∧ A.canonicalEventsSha256 = sha256 (eventsPayload rows) ∧
        A.replaySha256 = sha256 payload ∧
          I.replayPayload (sha256 (eventsPayload rows)).text = .ok payload := by
  obtain ⟨rows, hrows, h⟩ := bind_eq_ok.mp h
  obtain ⟨payload, hpayload, h⟩ := bind_eq_ok.mp h
  obtain rfl := Except.ok.inj h
  have hevents : I.eventsPreimage = .ok (eventsPayload rows) :=
    bind_eq_ok.mpr ⟨rows, hrows, rfl⟩
  exact ⟨rows, payload, hrows, hevents, bind_eq_ok.mpr ⟨_, hevents, hpayload⟩, rfl, rfl, hpayload⟩

/-- **Events.**  The texts of the events are equal just when the inputs hold the same pairs of
partition and event and order them alike. -/
theorem eventsPreimage_eq_iff {A A' : ReplayAudit} (h : buildReplayAudit I = .ok A)
    (h' : buildReplayAudit I' = .ok A') :
    I.eventsPreimage = I'.eventsPreimage ↔ SamePairs I I' ∧ SameOrder I I' := by
  obtain ⟨rows, _, hrows, hevents, -⟩ := buildReplayAudit_digests h
  obtain ⟨rows', _, hrows', hevents', -⟩ := buildReplayAudit_digests h'
  obtain ⟨rfl, hvalid⟩ := rows_eq_ok hrows
  obtain ⟨rfl, hvalid'⟩ := rows_eq_ok hrows'
  rw [hevents, hevents', Except.ok.injEq, eventsPayload_eq_iff, listing_eq_iff hvalid hvalid']

/-- **Identity.**  The texts of the events of two audits are equal just when the inputs hold
the same pairs of partition and event and order them alike; and then equal replay texts have
the same settings. -/
theorem audit_identity {A A' : ReplayAudit} (h : buildReplayAudit I = .ok A)
    (h' : buildReplayAudit I' = .ok A') :
    (I.eventsPreimage = I'.eventsPreimage ↔ SamePairs I I' ∧ SameOrder I I') ∧
      (I.eventsPreimage = I'.eventsPreimage → I.replayPreimage = I'.replayPreimage →
        SameSettings I I') := by
  refine ⟨eventsPreimage_eq_iff h h', fun hevents hreplays ↦ ?_⟩
  have hpairs := ((eventsPreimage_eq_iff h h').mp hevents).1
  obtain ⟨rows, payload, hrows, -, hreplay, -, -, hpayload⟩ := buildReplayAudit_digests h
  obtain ⟨rows', payload', hrows', -, hreplay', -, -, hpayload'⟩ := buildReplayAudit_digests h'
  rw [hreplay, hreplay', Except.ok.injEq] at hreplays
  rw [← hreplays] at hpayload'
  exact sameSettings_of_payload hrows hrows' hpairs hpayload hpayload'

omit [StreamText] [Hashlib] in
theorem sameOrder_of_ordinals
    (h : ∀ hash, I.sequenceOrdinals.get? hash = I'.sequenceOrdinals.get? hash) :
    SameOrder I I' := by
  have hordinal : ∀ a a' : MarketEvent, a.Alike a' → I.ordinalOf a = I'.ordinalOf a' := by
    intro a a' haa
    have hsequence : a.sequenceNumber = a'.sequenceNumber := by
      cases haa with
      | trade h => exact h.sequenceNumber
      | quote h => exact h.sequenceNumber
      | book h => exact congrArg some h.sequenceNumber
      | mutation h => exact congrArg some h.sequenceNumber
    rw [ordinalOf, ordinalOf, hsequence, haa.base_eq, h]
  intro a _ b _ a' _ b' _ haa hbb _ _
  rw [hordinal a a' haa, hordinal b b' hbb]

end AuditInput

/-! ### Prints with sequence numbers in words -/

/-- A print of a vendor that numbers its messages in words. -/
def vendorPrint (hash : String) (hhash : IsSha256 hash) : MarketEvent :=
  .trade { tradePrint with
    rawEventHash := hash
    rawEventHash_ok := hhash
    sequenceNumber := some (.str "A-1")
    sequenceNumber_ok := by
      rintro n hn
      obtain rfl := Option.some.inj hn
      exact (by decide : "A-1" ≠ "") }

def firstHash : String := "1111111111111111111111111111111111111111111111111111111111111111"

def secondHash : String := "2222222222222222222222222222222222222222222222222222222222222222"

def firstPrint : MarketEvent := vendorPrint firstHash (by decide +kernel)

def secondPrint : MarketEvent := vendorPrint secondHash (by decide +kernel)

/-- Events with an adapter for their two hashes. -/
def vendorInput (events : List MarketEvent) (first second : Int) : AuditInput where
  events := events
  replayConfig := []
  codeRevision := "r1"
  expectedFirstSequence := some 1
  sequencePolicies := ∅
  sequenceOrdinals := ((∅ : Dict String Int).set firstHash first).set secondHash second
  streamPartitions := ∅
  replayConfig_ok := ⟨nodup_nil, trivial⟩

section

/-- The digest and the text of a key play no part here. -/
local instance : Hashlib := ⟨fun _ ↦ ⟨"", forall_mem_of_all (by decide)⟩⟩

local instance : StreamText := ⟨fun _ ↦ ""⟩

theorem exists_audit {I : AuditInput} (hrows : I.rows.isOk = true) (hconfig : I.replayConfig = []) :
    ∃ A, buildReplayAudit I = .ok A := by
  cases h : I.rows with
  | error e =>
    rw [h] at hrows
    cases hrows
  | ok rows =>
    have hpayload : ∀ hash, ∃ payload, I.replayPayload hash = .ok payload := by
      intro hash
      rw [AuditInput.replayPayload, hconfig]
      exact ⟨_, rfl⟩
    obtain ⟨payload, hp⟩ := hpayload (sha256 (eventsPayload rows)).text
    exact ⟨_, bind_eq_ok.mpr ⟨rows, h, bind_eq_ok.mpr ⟨payload, hp, rfl⟩⟩⟩

theorem swapped_ordinals_audited : (vendorInput [firstPrint, secondPrint] 1 2).rows.isOk = true ∧
    (vendorInput [firstPrint, secondPrint] 2 1).rows.isOk = true ∧
      (vendorInput [secondPrint, firstPrint] 1 2).rows.isOk = true := by
  decide +kernel

/-- The same prints in another order of delivery. -/
theorem delivered_audit_identity :
    (vendorInput [firstPrint, secondPrint] 1 2).eventsPreimage =
        (vendorInput [secondPrint, firstPrint] 1 2).eventsPreimage ∧
      ((vendorInput [firstPrint, secondPrint] 1 2).replayPreimage =
          (vendorInput [secondPrint, firstPrint] 1 2).replayPreimage →
        AuditInput.SameSettings (vendorInput [firstPrint, secondPrint] 1 2)
          (vendorInput [secondPrint, firstPrint] 1 2)) := by
  obtain ⟨A, hA⟩ := exists_audit swapped_ordinals_audited.1 rfl
  obtain ⟨A', hA'⟩ := exists_audit swapped_ordinals_audited.2.2 rfl
  have hidentity := AuditInput.audit_identity hA hA'
  have hevents := hidentity.1.mpr ⟨⟨?_, ?_⟩, AuditInput.sameOrder_of_ordinals fun _ ↦ rfl⟩
  · exact ⟨hevents, hidentity.2 hevents⟩
  · intro e he
    exact ⟨e, (List.Perm.swap _ _ _).mem_iff.mp he, .refl e, rfl⟩
  · intro e he
    exact ⟨e, (List.Perm.swap _ _ _).mem_iff.mp he, .refl e, rfl⟩

/-- The same pairs with other ordinals have another text. -/
theorem ordinals_not_in_pairs : ¬ ∀ [Hashlib] [StreamText] (I I' : AuditInput) (A A' : ReplayAudit),
    buildReplayAudit I = .ok A → buildReplayAudit I' = .ok A' →
      (I.eventsPreimage = I'.eventsPreimage ↔ AuditInput.SamePairs I I') := by
  intro h
  obtain ⟨A, hA⟩ := exists_audit swapped_ordinals_audited.1 rfl
  obtain ⟨A', hA'⟩ := exists_audit swapped_ordinals_audited.2.1 rfl
  have hpairs : AuditInput.SamePairs (vendorInput [firstPrint, secondPrint] 1 2)
      (vendorInput [firstPrint, secondPrint] 2 1) :=
    ⟨fun e he ↦ ⟨e, he, .refl e, rfl⟩, fun e he ↦ ⟨e, he, .refl e, rfl⟩⟩
  have horder := ((AuditInput.eventsPreimage_eq_iff hA hA').mp ((h _ _ A A' hA hA').mpr hpairs)).2
  have hlt := (horder firstPrint mem_cons_self secondPrint
    (mem_cons_of_mem _ mem_cons_self) firstPrint mem_cons_self secondPrint
    (mem_cons_of_mem _ mem_cons_self) (.refl _) (.refl _) rfl rfl).mp (by decide +kernel)
  exact absurd hlt (by decide +kernel)

end

end Qros.OrderFlow
