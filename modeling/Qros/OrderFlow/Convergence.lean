import Qros.OrderFlow.EventLedger

/-!
# Interleaved mutations

A list of mutations is delivered again with those of different trades interleaved in another
way and duplicates sent again (`Reinterleaves`).  Whether it is accepted does not change, and
neither do the active trades and their histories up to their order.  The order is that of the
sort key, which leaves out the scope: two trades of different scopes whose payloads share a
hash (`Tied`) stand in the order in which they began.
-/

/-!
## The snapshot of a run

Active trades and histories are listed by one sorted list of entries, and a snapshot of what
was read passes its own checks (`postInit_snapshot`); so a list is accepted when the loop
ends on it (`replay_isOk_iff`).
-/

namespace Qros.OrderFlow

open Qros.Lib Qros.Lib.Interleave Qros.Lib.KeySort Qros.Python

/-- The active trades with their keys, in the order of the snapshot. -/
def LedgerState.sortedEntries (s : LedgerState) : List (TradeKey × TradeEvent) :=
  stableSortBy (fun e ↦ e.2.sortKey) s.active.entries

variable [Hashlib] {L : List TradeMutation} {s : LedgerState} {k : TradeKey} {t : TradeEvent}

theorem activeTrades_eq (s : LedgerState) :
    s.snapshot.activeTrades = s.sortedEntries.map Prod.snd := by
  refine (List.map_insertionSort _ _ _ _ ?_).symm
  intro e _ e' _
  rfl

omit [Hashlib] in
theorem mem_sortedEntries (h : Reflects s) : (k, t) ∈ s.sortedEntries ↔
    current (history TradeMutation.key k s.orderedUnique) = some t := by
  rw [LedgerState.sortedEntries, mem_stableSortBy, Dict.mem_entries, h.active]

theorem histories_eq (h : Reflects s) : s.snapshot.activeTradeMutationHistories =
    s.sortedEntries.map fun e ↦ history TradeMutation.key e.1 s.orderedUnique := by
  change (s.sortedEntries.map Prod.fst).map _ = _
  rw [List.map_map]
  refine List.map_congr_left fun e he ↦ ?_
  have hactive := (mem_sortedEntries h).mp he
  rw [← h.active] at hactive
  rw [Function.comp_apply, h.histories, hactive]
  rfl

theorem zip_eq (h : Reflects s) :
    s.snapshot.activeTrades.zip s.snapshot.activeTradeMutationHistories =
      s.sortedEntries.map fun e ↦ (e.2, history TradeMutation.key e.1 s.orderedUnique) := by
  rw [activeTrades_eq, histories_eq h, List.zip_map']

omit [Hashlib] in
theorem exists_last_of_current {h : List TradeMutation} (ht : current h = some t) :
    ∃ m ∈ h.getLast?, m.replacementTrade = some t := Option.bind_eq_some_iff.mp ht

/-- **The snapshot passes its own checks.** -/
theorem postInit_snapshot (h : HasRead L s) : s.snapshot.postInit = .ok () := by
  rw [TradeLedgerSnapshot.postInit]
  refine bind_eq_ok.mpr ⟨(), require_eq_ok.mpr ?_, bind_eq_ok.mpr ⟨(), require_eq_ok.mpr rfl, ?_⟩⟩
  · rw [activeTrades_eq, histories_eq h.reflects, List.length_map, List.length_map]
  · rw [zip_eq h.reflects, forM_eq_ok]
    rintro ⟨t, hist⟩ hzip
    obtain ⟨e, he, heq⟩ := List.mem_map.mp hzip
    obtain ⟨rfl, rfl⟩ := Prod.mk.inj heq
    have hcurrent := (mem_sortedEntries h.reflects).mp he
    have hchain := h.accepted e.1
    rw [← h.orderedUnique] at hchain
    rw [TradeLedgerSnapshot.checkHistory]
    refine bind_eq_ok.mpr ⟨(), require_eq_ok.mpr ?_, require_eq_ok.mpr ?_⟩
    · obtain ⟨m, hm, hreplacement⟩ := exists_last_of_current hcurrent
      exact ⟨m, hm, e.2, hreplacement, .refl _⟩
    · rintro ⟨m, hm, hcancel⟩
      exact action_ne_cancel_of_current hchain hcurrent m hm hcancel

theorem replay_eq_ok {S : TradeLedgerSnapshot} : replayTradeMutations L = .ok S ↔
    ∃ s, L.foldlM LedgerState.apply .empty = .ok s ∧ S = s.snapshot := by
  rw [replayTradeMutations, bind_eq_ok]
  constructor
  · rintro ⟨s, hs, h⟩
    obtain ⟨_, -, hsnapshot⟩ := bind_eq_ok.mp h
    exact ⟨s, hs, (Except.ok.inj hsnapshot).symm⟩
  · rintro ⟨s, hs, rfl⟩
    exact ⟨s, hs, bind_eq_ok.mpr ⟨(), postInit_snapshot (hasRead_of_run hs), rfl⟩⟩

/-- **Acceptance.** -/
theorem replay_isOk_iff : (∃ S, replayTradeMutations L = .ok S) ↔
    Consistent L ∧ Accepted Follows TradeMutation.key (unique L) := by
  rw [← exists_run_iff]
  constructor
  · rintro ⟨S, hS⟩
    obtain ⟨s, hs, -⟩ := replay_eq_ok.mp hS
    exact ⟨s, hs⟩
  · rintro ⟨s, hs⟩
    exact ⟨_, replay_eq_ok.mpr ⟨s, hs, rfl⟩⟩

end Qros.OrderFlow

namespace Qros.OrderFlow

open Qros.Lib Qros.Lib.Interleave Qros.Lib.KeySort Qros.Python

def IsDuplicate (a b : TradeMutation) : Prop := a.payload = b.payload

/-- The second list has the mutations of each trade in the order of the first, and duplicates
after their first occurrences. -/
def Reinterleaves (L L' : List TradeMutation) : Prop :=
  ∃ M, Interleaves TradeMutation.key L M ∧ Repeats IsDuplicate M L'

variable {L L' : List TradeMutation}

/-! ## Duplicates -/

theorem IsDuplicate.refl (a : TradeMutation) : IsDuplicate a a := rfl

theorem IsDuplicate.trans {a b c : TradeMutation} (h : IsDuplicate a b) (h' : IsDuplicate b c) :
    IsDuplicate a c := Eq.trans h h'

variable {a b : TradeMutation} {t : TradeEvent}

theorem IsDuplicate.symm (h : IsDuplicate a b) : IsDuplicate b a :=
  Eq.symm h

theorem IsDuplicate.alike (h : IsDuplicate a b) : a.Alike b := by
  have hsorted := (canonicalBytes_eq_iff (MarketEvent.distinct _) (MarketEvent.distinct _)).mp h
  cases MarketEvent.sortKeys_eq_iff.mp hsorted with
  | mutation h => exact h

theorem TradeMutation.Alike.key_eq (h : a.Alike b) : a.key = b.key := by
  rw [TradeMutation.key, TradeMutation.key, h.base, h.tradeScopeId, h.tradeId]

theorem IsDuplicate.rawEventHash (h : IsDuplicate a b) :
    a.rawEventHash = b.rawEventHash := congrArg BaseEvent.rawEventHash h.alike.base

theorem Consistent.key_eq (h : Consistent L) : ∀ a ∈ L, ∀ b ∈ L,
    a.rawEventHash = b.rawEventHash → a.key = b.key := fun a ha b hb hab ↦
  (IsDuplicate.alike (h a ha b hb hab)).key_eq

theorem Consistent.of_subset (h : Consistent L) (hsub : L' ⊆ L) : Consistent L' :=
  fun a ha b hb ↦ h a (hsub ha) b (hsub hb)

theorem Consistent.exists_unique (h : Consistent L) {a : TradeMutation} (ha : a ∈ L) :
    ∃ b ∈ unique L, IsDuplicate b a := by
  obtain ⟨b, hb, hba⟩ := exists_mem_firsts (f := fun m : TradeMutation ↦ m.rawEventHash) ha
  exact ⟨b, hb, h b (mem_of_mem_firsts hb) a ha hba⟩

theorem consistent_of_repeats {M : List TradeMutation} (h : Repeats IsDuplicate M L')
    (hM : Consistent M) : Consistent L' := by
  intro a ha b hb hab
  obtain ⟨c, hc, hca⟩ := h.exists_of_mem IsDuplicate.refl ha
  obtain ⟨d, hd, hdb⟩ := h.exists_of_mem IsDuplicate.refl hb
  have hcd : IsDuplicate c d :=
    hM c hc d hd (hca.rawEventHash.trans (hab.trans hdb.rawEventHash.symm))
  exact (hca.symm.trans hcd).trans hdb

theorem Reinterleaves.consistent_iff (h : Reinterleaves L L') : Consistent L' ↔ Consistent L := by
  obtain ⟨M, hM, hrepeats⟩ := h
  constructor
  · intro hc
    exact (hc.of_subset hrepeats.subset).of_subset fun a ha ↦ hM.mem_iff.mpr ha
  · intro hc
    exact consistent_of_repeats hrepeats (hc.of_subset fun a ha ↦ hM.mem_iff.mp ha)

theorem Reinterleaves.unique (h : Reinterleaves L L') (hc : Consistent L) :
    Interleaves TradeMutation.key (unique L) (unique L') := by
  obtain ⟨M, hM, hrepeats⟩ := h
  have hunique : OrderFlow.unique L' = OrderFlow.unique M :=
    hrepeats.firsts_eq fun a b hab ↦ hab.rawEventHash
  rw [hunique]
  exact hM.firsts_of hc.key_eq

/-! ## Acceptance -/

/-- The lists that are accepted: see `replay_isOk_iff`. -/
def WellFormed (L : List TradeMutation) : Prop :=
  Consistent L ∧ Accepted Follows TradeMutation.key (unique L)

theorem Reinterleaves.wellFormed_iff (h : Reinterleaves L L') : WellFormed L' ↔ WellFormed L := by
  rw [WellFormed, WellFormed, h.consistent_iff]
  exact and_congr_right fun hc ↦ (h.unique hc).accepted_iff

/-! ## Trades that are active -/

def IsLast (L : List TradeMutation) (m : TradeMutation) : Prop :=
  ∀ n ∈ L, n.key = m.key → n.revision ≤ m.revision

/-- Two active trades of different scopes have payloads with one hash. -/
structure Tie (L : List TradeMutation) (m n : TradeMutation) : Prop where
  left : m ∈ L ∧ IsLast L m
  right : n ∈ L ∧ IsLast L n
  sourceId : m.sourceId = n.sourceId
  datasetId : m.datasetId = n.datasetId
  instrumentId : m.instrumentId = n.instrumentId
  tradeId : m.tradeId = n.tradeId
  scope : m.tradeScopeId ≠ n.tradeScopeId
  payload : ∃ t ∈ m.replacementTrade, ∃ u ∈ n.replacementTrade, t.rawEventHash = u.rawEventHash

def Tied (L : List TradeMutation) : Prop := ∃ m n, Tie L m n

variable {m : TradeMutation}

theorem revision_le_of_isChain {h : List TradeMutation} (hc : IsChain Follows h) (hm : m ∈ h) :
    m.revision ≤ h.length := by
  induction hc with
  | nil => cases hm
  | concat _ ha ih =>
    rw [List.length_append, List.length_singleton]
    rw [List.mem_append, List.mem_singleton] at hm
    rcases hm with hm | rfl
    · exact Nat.le_succ_of_le (ih hm)
    · exact ha.revision.le

theorem WellFormed.exists_isLast (h : WellFormed L) {k : TradeKey}
    (ht : current (history TradeMutation.key k (unique L)) = some t) :
    ∃ m ∈ L, m.key = k ∧ IsLast L m ∧ m.replacementTrade = some t := by
  obtain ⟨m, hm, hreplacement⟩ := exists_last_of_current ht
  obtain ⟨hmu, rfl⟩ := mem_history.mp (List.mem_of_mem_getLast? hm)
  refine ⟨m, mem_of_mem_firsts hmu, rfl, ?_, hreplacement⟩
  intro n hn hnm
  obtain ⟨b, hb, hbn⟩ := h.1.exists_unique hn
  have hbk : b.key = m.key := hbn.alike.key_eq.trans hnm
  rw [← hbn.alike.revision, length_of_isChain (h.2 m.key) hm]
  exact revision_le_of_isChain (h.2 m.key) (mem_history.mpr ⟨hb, hbk⟩)

theorem TradeMutation.Alike.replacement (h : a.Alike b) (ht : t ∈ b.replacementTrade) :
    ∃ u ∈ a.replacementTrade, u.Alike t := by
  obtain hrel := h.replacementTrade
  rw [Option.mem_def.mp ht] at hrel
  generalize a.replacementTrade = o at hrel
  cases hrel with
  | some hut => exact ⟨_, rfl, hut⟩

theorem WellFormed.current_of_isLast (h : WellFormed L) (hm : m ∈ L) (hlast : IsLast L m)
    (ht : t ∈ m.replacementTrade) :
    ∃ u, current (history TradeMutation.key m.key (unique L)) = some u ∧ u.Alike t := by
  obtain ⟨b, hb, hbm⟩ := h.1.exists_unique hm
  obtain ⟨u, hu, hut⟩ := hbm.alike.replacement ht
  refine ⟨u, ?_, hut⟩
  have hbh : b ∈ history TradeMutation.key m.key (unique L) :=
    mem_history.mpr ⟨hb, hbm.alike.key_eq⟩
  have hlast' : ∀ n ∈ history TradeMutation.key m.key (unique L), n.revision ≤ b.revision := by
    intro n hn
    obtain ⟨hnu, hnk⟩ := mem_history.mp hn
    rw [hbm.alike.revision]
    exact hlast n (mem_of_mem_firsts hnu) hnk
  have hchain := h.2 m.key
  generalize history TradeMutation.key m.key (unique L) = hist at hbh hlast' hchain
  cases hchain with
  | nil => cases hbh
  | @concat hist p hhist hp =>
    -- Only the last mutation has the last revision.
    rw [current_concat]
    rw [List.mem_append, List.mem_singleton] at hbh
    rcases hbh with hbh | rfl
    · have hle := hlast' p (List.mem_append_right _ List.mem_cons_self)
      have hb := revision_le_of_isChain hhist hbh
      have hrevision := hp.revision
      omega
    · exact hu

theorem TradeMutation.sortKey_replacement (ht : t ∈ m.replacementTrade) : t.sortKey =
      [m.sourceId, m.datasetId, m.instrumentId, m.tradeId, t.rawEventHash] := by
  obtain ⟨hsource, hdataset, hinstrument, hid⟩ := m.identity_ok t ht
  rw [TradeEvent.sortKey, hsource, hdataset, hinstrument, hid]
  rfl

/-- **Ties.**  Two active trades with one sort key are tied. -/
theorem WellFormed.tied_iff (h : WellFormed L) : Tied L ↔ ∃ k k' t t',
    current (history TradeMutation.key k (unique L)) = some t ∧
      current (history TradeMutation.key k' (unique L)) = some t' ∧
        t.sortKey = t'.sortKey ∧ k ≠ k' := by
  constructor
  · rintro ⟨m, n, htie⟩
    obtain ⟨t, ht, u, hu, htu⟩ := htie.payload
    obtain ⟨t', ht', htt'⟩ := h.current_of_isLast htie.left.1 htie.left.2 ht
    obtain ⟨u', hu', huu'⟩ := h.current_of_isLast htie.right.1 htie.right.2 hu
    refine ⟨m.key, n.key, t', u', ht', hu', ?_, ?_⟩
    · have hkeys : ∀ {a b : TradeEvent}, a.Alike b → a.sortKey = b.sortKey := by
        intro a b hab
        rw [TradeEvent.sortKey, TradeEvent.sortKey, hab.base, hab.tradeId]
      rw [hkeys htt', hkeys huu', TradeMutation.sortKey_replacement ht,
        TradeMutation.sortKey_replacement hu, htie.sourceId, htie.datasetId, htie.instrumentId,
        htie.tradeId, htu]
    · intro hkey
      exact htie.scope (congrArg TradeKey.tradeScopeId hkey)
  · rintro ⟨k, k', t, t', ht, ht', hkey, hne⟩
    obtain ⟨m, hm, rfl, hmlast, hmt⟩ := h.exists_isLast ht
    obtain ⟨n, hn, rfl, hnlast, hnt⟩ := h.exists_isLast ht'
    rw [TradeMutation.sortKey_replacement hmt, TradeMutation.sortKey_replacement hnt] at hkey
    simp only [List.cons.injEq, and_true] at hkey
    obtain ⟨hsource, hdataset, hinstrument, hid, hhash⟩ := hkey
    refine ⟨m, n, ⟨hm, hmlast⟩, ⟨hn, hnlast⟩, hsource, hdataset, hinstrument, hid, ?_,
      t, hmt, t', hnt, hhash⟩
    intro hscope
    refine hne ?_
    rw [TradeMutation.key, TradeMutation.key, hsource, hdataset, hinstrument, hid, hscope]

/-! ## Convergence -/

theorem wellFormed_of_run {s : LedgerState} (h : L.foldlM LedgerState.apply .empty = .ok s) :
    WellFormed L := ⟨(hasRead_of_run h).consistent, (hasRead_of_run h).accepted⟩

theorem nodup_entries (s : LedgerState) : s.active.entries.Nodup := .of_map _ s.active.nodup

theorem history_injOn (s : LedgerState) (h : Reflects s) : ∀ e ∈ s.sortedEntries,
    ∀ e' ∈ s.sortedEntries, history TradeMutation.key e.1 s.orderedUnique =
      history TradeMutation.key e'.1 s.orderedUnique → e = e' := by
  intro e he e' he' heq
  have hcurrent := (mem_sortedEntries h).mp he
  have hcurrent' := (mem_sortedEntries h).mp he'
  obtain ⟨m, hm, -⟩ := exists_last_of_current hcurrent
  have hmem := List.mem_of_mem_getLast? hm
  have hkey : e.1 = e'.1 := (mem_history.mp hmem).2.symm.trans (mem_history.mp (heq ▸ hmem)).2
  refine Prod.ext hkey ?_
  rw [hkey, hcurrent'] at hcurrent
  exact (Option.some.inj hcurrent).symm

section Views

variable [Hashlib]

/-- What two runs must have in common. -/
structure SameView (S S' : TradeLedgerSnapshot) : Prop where
  activeTrades : S'.activeTrades = S.activeTrades
  histories : S'.activeTradeMutationHistories = S.activeTradeMutationHistories
  hashes : ∀ hash, hash ∈ S'.appliedMutationHashes ↔ hash ∈ S.appliedMutationHashes

/-- The list and every reinterleaving of it are accepted together, with the same results. -/
def Converges (L : List TradeMutation) : Prop :=
  ∀ L', Reinterleaves L L' →
    ((∃ S, replayTradeMutations L = .ok S) ↔ ∃ S', replayTradeMutations L' = .ok S') ∧
      ∀ S S', replayTradeMutations L = .ok S → replayTradeMutations L' = .ok S' → SameView S S'

variable {s s' : LedgerState}

theorem hashes_snapshot (h : HasRead L s) {hash : String} :
    hash ∈ s.snapshot.appliedMutationHashes ↔ ∃ m ∈ L, m.rawEventHash = hash := by
  change hash ∈ s.orderedUnique.map (fun m ↦ m.rawEventHash) ↔ _
  rw [h.orderedUnique, unique, mem_map_firsts, List.mem_map]

omit [Hashlib] in
theorem Reinterleaves.hashes (h : Reinterleaves L L') {hash : String} :
    (∃ m ∈ L', m.rawEventHash = hash) ↔ ∃ m ∈ L, m.rawEventHash = hash := by
  obtain ⟨M, hM, hrepeats⟩ := h
  constructor
  · rintro ⟨m, hm, rfl⟩
    obtain ⟨a, ha, ham⟩ := hrepeats.exists_of_mem IsDuplicate.refl hm
    exact ⟨a, hM.mem_iff.mp ha, ham.rawEventHash⟩
  · rintro ⟨m, hm, rfl⟩
    exact ⟨m, hrepeats.subset (hM.mem_iff.mpr hm), rfl⟩

omit [Hashlib] in
theorem sortedEntries_eq (h : HasRead L s) (h' : HasRead L' s') (hL : Reinterleaves L L')
    (htied : ¬ Tied L) : s'.sortedEntries = s.sortedEntries := by
  have hhistory : ∀ k, history TradeMutation.key k s'.orderedUnique =
      history TradeMutation.key k s.orderedUnique := by
    intro k
    rw [h.orderedUnique, h'.orderedUnique]
    exact hL.unique h.consistent k
  have hperm : s'.active.entries.Perm s.active.entries := by
    refine (List.perm_ext_iff_of_nodup (nodup_entries s') (nodup_entries s)).mpr ?_
    rintro ⟨k, t⟩
    rw [Dict.mem_entries, Dict.mem_entries, h.reflects.active, h'.reflects.active, hhistory]
  have hsorted : s'.sortedEntries.Perm s.sortedEntries :=
    (stableSortBy_perm _ _).trans (hperm.trans (stableSortBy_perm _ _).symm)
  refine hsorted.eq_of_pairwise ?_ (stableSortBy_sorted _ _) (stableSortBy_sorted _ _)
  rintro ⟨k, t⟩ ⟨k', t'⟩ he he' hle hle'
  -- Entries with one sort key have one key, for there are no ties.
  have hcurrent := (mem_sortedEntries h'.reflects).mp he
  have hcurrent' := (mem_sortedEntries h.reflects).mp he'
  rw [hhistory] at hcurrent
  have hk : k = k' := by
    by_contra hne
    refine htied ((WellFormed.tied_iff ⟨h.consistent, h.accepted⟩).mpr ?_)
    rw [h.orderedUnique] at hcurrent hcurrent'
    exact ⟨k, k', t, t', hcurrent, hcurrent', le_antisymm hle hle', hne⟩
  subst hk
  rw [hcurrent] at hcurrent'
  rw [Option.some.inj hcurrent']

theorem sameView_of_not_tied (h : HasRead L s) (h' : HasRead L' s') (hL : Reinterleaves L L')
    (htied : ¬ Tied L) : SameView s.snapshot s'.snapshot where
  activeTrades := by rw [activeTrades_eq, activeTrades_eq, sortedEntries_eq h h' hL htied]
  histories := by
    rw [histories_eq h.reflects, histories_eq h'.reflects, sortedEntries_eq h h' hL htied]
    refine List.map_congr_left fun e _ ↦ ?_
    rw [h.orderedUnique, h'.orderedUnique]
    exact hL.unique h.consistent e.1
  hashes hash := by rw [hashes_snapshot h, hashes_snapshot h', hL.hashes]

/-! ### Tied trades -/

def front (k : TradeKey) (L : List TradeMutation) : List TradeMutation :=
  history TradeMutation.key k L ++ L.filter fun m ↦ decide (m.key ≠ k)

omit [Hashlib] in
theorem reinterleaves_front (k : TradeKey) (L : List TradeMutation) :
    Reinterleaves L (front k L) := ⟨front k L, interleaves_front _ k L, .refl _ _⟩

omit [Hashlib] in
theorem exists_new_of_isChain {h : List TradeMutation} (hc : IsChain Follows h) (hne : h ≠ []) :
    ∃ m ∈ h, m.action = .new := by
  induction hc with
  | nil => exact absurd rfl hne
  | @concat h m hc hm ih =>
    cases h with
    | nil =>
      refine ⟨m, List.mem_append_right _ List.mem_cons_self, m.revision_ok.1.mp ?_⟩
      rw [hm.revision, List.length_nil]
    | cons p h =>
      obtain ⟨n, hn, hnew⟩ := ih (List.cons_ne_nil p h)
      exact ⟨n, List.mem_append_left _ hn, hnew⟩

omit [Hashlib] in
theorem WellFormed.exists_new (h : WellFormed L) {k : TradeKey} {t : TradeEvent}
    (ht : current (history TradeMutation.key k (unique L)) = some t) :
    ∃ m ∈ unique L, m.key = k ∧ m.action = .new := by
  have hne : history TradeMutation.key k (unique L) ≠ [] := by
    intro hnil
    rw [hnil] at ht
    cases ht
  obtain ⟨m, hm, hnew⟩ := exists_new_of_isChain (h.2 k) hne
  exact ⟨m, (mem_history.mp hm).1, (mem_history.mp hm).2, hnew⟩

omit [Hashlib] in
theorem pair_sublist_liveKeys {k k' : TradeKey} (h : WellFormed (front k L)) {t t' : TradeEvent}
    (ht : current (history TradeMutation.key k (unique (front k L))) = some t)
    (ht' : current (history TradeMutation.key k' (unique (front k L))) = some t') (hne : k ≠ k') :
    [k, k'].Sublist (liveKeys (unique (front k L))) := by
  obtain ⟨m, hm, hmk, hmnew⟩ := h.exists_new ht
  obtain ⟨n, hn, hnk, hnnew⟩ := h.exists_new ht'
  obtain ⟨rest, hrest, hsub⟩ := firsts_append (f := fun m : TradeMutation ↦ m.rawEventHash)
    (history TradeMutation.key k L) (L.filter fun m ↦ decide (m.key ≠ k))
  change unique (front k L) = unique (history TradeMutation.key k L) ++ rest at hrest
  have hkept : m ∈ unique (history TradeMutation.key k L) := by
    rw [hrest, List.mem_append] at hm
    refine hm.resolve_right fun hm ↦ ?_
    exact of_decide_eq_true (List.mem_filter.mp (hsub hm)).2 hmk
  have hlater : n ∈ rest := by
    rw [hrest, List.mem_append] at hn
    refine hn.resolve_left fun hn ↦ hne ?_
    exact (mem_history.mp (mem_of_mem_firsts hn)).2.symm.trans hnk
  have hpair : [m, n].Sublist (unique (front k L)) := by
    rw [hrest]
    exact (List.singleton_sublist.mpr hkept).append (List.singleton_sublist.mpr hlater)
  have hkeys := ((hpair.filter fun m ↦ decide (m.action = .new)).map TradeMutation.key).filter
    fun k' ↦ (current (history TradeMutation.key k' (unique (front k L)))).isSome
  rw [liveKeys]
  simpa [hmnew, hnnew, hmk, hnk, ht, ht'] using hkeys

theorem pair_sublist_histories {k k' : TradeKey} (h : HasRead L s) {t t' : TradeEvent}
    (hkeys : [k, k'].Sublist (liveKeys (unique L)))
    (ht : current (history TradeMutation.key k (unique L)) = some t)
    (ht' : current (history TradeMutation.key k' (unique L)) = some t')
    (hsort : t.sortKey = t'.sortKey) :
    [history TradeMutation.key k (unique L), history TradeMutation.key k' (unique L)].Sublist
      s.snapshot.activeTradeMutationHistories := by
  have hsorted : [(k, t), (k', t')].Sublist s.sortedEntries := by
    have htotal : Std.Total fun a b : TradeKey × TradeEvent ↦ a.2.sortKey ≤ b.2.sortKey :=
      ⟨fun a b ↦ le_total _ _⟩
    have htrans : IsTrans _ fun a b : TradeKey × TradeEvent ↦ a.2.sortKey ≤ b.2.sortKey :=
      ⟨fun _ _ _ ↦ le_trans⟩
    refine List.sublist_insertionSort ?_ ?_
    · refine List.pairwise_cons.mpr ⟨?_, List.pairwise_singleton _ _⟩
      intro e he
      rw [List.mem_singleton.mp he]
      exact hsort.le
    · rw [← h.keys] at hkeys
      obtain ⟨e, e', hes, rfl, rfl⟩ := exists_pair_sublist hkeys
      have hactive : ∀ e ∈ s.active.entries,
          current (history TradeMutation.key e.1 (unique L)) = some e.2 := by
        intro e he
        rw [← h.orderedUnique, ← h.reflects.active]
        exact Dict.mem_entries.mp he
      have he := hactive e (hes.subset List.mem_cons_self)
      have he' := hactive e' (hes.subset (List.mem_cons_of_mem _ List.mem_cons_self))
      obtain rfl := Option.some.inj (ht.symm.trans he)
      obtain rfl := Option.some.inj (ht'.symm.trans he')
      exact hes
  rw [histories_eq h.reflects, h.orderedUnique]
  exact hsorted.map fun e ↦ history TradeMutation.key e.1 (unique L)

theorem not_converges_of_tied (h : WellFormed L) (htied : Tied L) : ¬ Converges L := by
  intro hconverges
  obtain ⟨k, k', t, t', ht, ht', hsort, hne⟩ := h.tied_iff.mp htied
  obtain ⟨s, hs⟩ := exists_run_iff.mpr h
  have hS : replayTradeMutations L = .ok s.snapshot := replay_eq_ok.mpr ⟨s, hs, rfl⟩
  -- The histories of the list, when the mutations of one of its trades come first.
  have hfront : ∀ j j' u u', current (history TradeMutation.key j (unique L)) = some u →
      current (history TradeMutation.key j' (unique L)) = some u' → u.sortKey = u'.sortKey →
      j ≠ j' → [history TradeMutation.key j (unique L),
        history TradeMutation.key j' (unique L)].Sublist
          s.snapshot.activeTradeMutationHistories := by
    intro j j' u u' hu hu' hsort hne
    have hL := reinterleaves_front j L
    have hwf := hL.wellFormed_iff.mpr h
    obtain ⟨r, hr⟩ := exists_run_iff.mpr hwf
    have hview := (hconverges _ hL).2 _ _ hS (replay_eq_ok.mpr ⟨r, hr, rfl⟩)
    have hhistory := hL.unique h.1
    rw [← hhistory j] at hu ⊢
    rw [← hhistory j'] at hu' ⊢
    rw [← hview.histories]
    exact pair_sublist_histories (hasRead_of_run hr) (pair_sublist_liveKeys hwf hu hu' hne) hu hu'
      hsort
  have hread := hasRead_of_run hs
  have hnodup : s.snapshot.activeTradeMutationHistories.Nodup := by
    rw [histories_eq hread.reflects]
    exact ((stableSortBy_perm _ _).nodup_iff.mpr (nodup_entries s)).map_on
      (history_injOn s hread.reflects)
  have heq := eq_of_pair_sublist hnodup (hfront k k' t t' ht ht' hsort hne)
    (hfront k' k t' t ht' ht hsort.symm hne.symm)
  have he : (k, t) ∈ s.sortedEntries :=
    (mem_sortedEntries hread.reflects).mpr (hread.orderedUnique ▸ ht)
  have he' : (k', t') ∈ s.sortedEntries :=
    (mem_sortedEntries hread.reflects).mpr (hread.orderedUnique ▸ ht')
  exact hne (congrArg Prod.fst (history_injOn s hread.reflects _ he _ he'
    (by rw [hread.orderedUnique]; exact heq)))

theorem Reinterleaves.replay_isOk_iff (h : Reinterleaves L L') :
    (∃ S, replayTradeMutations L = .ok S) ↔ ∃ S', replayTradeMutations L' = .ok S' := by
  rw [OrderFlow.replay_isOk_iff, OrderFlow.replay_isOk_iff]
  exact h.wellFormed_iff.symm

/-- **Convergence.**  A list of mutations and its reinterleavings are accepted together with
the same results unless the list is well formed and two of its active trades are tied. -/
theorem replay_converges_iff (L : List TradeMutation) :
    Converges L ↔ ¬ (WellFormed L ∧ Tied L) := by
  constructor
  · rintro hconverges ⟨hwf, htied⟩
    exact not_converges_of_tied hwf htied hconverges
  · intro h L' hL
    refine ⟨hL.replay_isOk_iff, ?_⟩
    intro S S' hS hS'
    obtain ⟨s, hs, rfl⟩ := replay_eq_ok.mp hS
    obtain ⟨s', hs', rfl⟩ := replay_eq_ok.mp hS'
    exact sameView_of_not_tied (hasRead_of_run hs) (hasRead_of_run hs') hL fun htied ↦
      h ⟨wellFormed_of_run hs, htied⟩

end Views

/-! ### One print in two sessions -/

/-- The print as the first mutation of its trade in a session. -/
def printIn (scope hash : String) (hscope : IsTrimmed scope) (hhash : IsSha256 hash) :
    TradeMutation where
  sourceId := "feed"
  datasetId := "trades"
  instrumentId := "GCZ6"
  eventTimeUtc := ⟨0, Utc.epoch_ok⟩
  receiveTimeUtc := ⟨0, Utc.epoch_ok⟩
  rawEventHash := hash
  sourceId_ok := tradePrint_sourceId_ok
  datasetId_ok := tradePrint_datasetId_ok
  instrumentId_ok := tradePrint_instrumentId_ok
  receiveTime_ok := le_refl _
  rawEventHash_ok := hhash
  tradeId := "T-1"
  tradeScopeId := scope
  revision := 1
  action := .new
  sequenceNumber := .int 1
  replacementTrade := some tradePrint
  supersedesRawEventHash := none
  tradeId_ok := by decide +kernel
  tradeScopeId_ok := hscope
  sequenceNumber_ok := trivial
  revision_ok := by decide
  supersedes_ok := by decide
  replacement_ok := by decide
  supersedesHash_ok := by decide +kernel
  identity_ok := by
    rintro t ht
    obtain rfl := Option.some.inj ht
    exact ⟨rfl, rfl, rfl, rfl⟩
  available_ok := by
    rintro t ht
    obtain rfl := Option.some.inj ht
    rfl

theorem isTrimmed_sessionA : IsTrimmed "session-A" := by decide +kernel

def sessionA : TradeMutation := printIn "session-A"
  "1111111111111111111111111111111111111111111111111111111111111111" isTrimmed_sessionA
  (by decide +kernel)

def sessionB : TradeMutation := printIn "session-B"
  "2222222222222222222222222222222222222222222222222222222222222222" (by decide +kernel)
  (by decide +kernel)

theorem sessions_tied : Tied [sessionA, sessionB] := by
  have hlast : ∀ m, m.revision = 1 → IsLast [sessionA, sessionB] m := by
    intro m hm n hn _
    rw [hm]
    rcases List.mem_cons.mp hn with rfl | hn
    · exact le_refl _
    · obtain rfl := List.mem_singleton.mp hn
      exact le_refl _
  exact ⟨sessionA, sessionB, ⟨List.mem_cons_self, hlast _ rfl⟩,
    ⟨List.mem_cons_of_mem _ List.mem_cons_self, hlast _ rfl⟩, rfl, rfl, rfl, rfl,
    by decide +kernel, tradePrint, rfl, tradePrint, rfl, rfl⟩

theorem sessions_wellFormed : WellFormed [sessionA, sessionB] := by
  have hhash : sessionA.rawEventHash ≠ sessionB.rawEventHash := by decide +kernel
  have hkey : sessionA.key ≠ sessionB.key := by decide +kernel
  have hfollows : ∀ m : TradeMutation, m.revision = 1 → Follows [] m := fun m hm ↦
    ⟨hm, fun p hp ↦ absurd hp (Option.not_mem_none p), fun _ ↦ rfl, fun hne ↦ absurd (m.revision_ok.1.mp hm) hne⟩
  constructor
  · rintro a ha b hb hab
    simp only [List.mem_cons, List.not_mem_nil, or_false] at ha hb
    rcases ha with rfl | rfl
    · rcases hb with rfl | rfl
      · rfl
      · exact absurd hab hhash
    · rcases hb with rfl | rfl
      · exact absurd hab.symm hhash
      · rfl
  · have hunique : unique [sessionA, sessionB] = [] ++ [sessionA] ++ [sessionB] := by
      have hA : unique [sessionA] = [sessionA] :=
        unique_concat_of_not_mem (L := []) List.not_mem_nil
      refine (unique_concat_of_not_mem (L := [sessionA]) ?_).trans (by rw [hA]; rfl)
      rw [hA, List.map_singleton, List.mem_singleton]
      exact hhash.symm
    rw [hunique, accepted_concat, accepted_concat, history_concat_of_ne _ hkey]
    exact ⟨⟨accepted_nil, hfollows _ rfl⟩, hfollows _ rfl⟩

/-- The same print in two sessions: the order of the active trades is that of delivery. -/
theorem sessions_not_converge : ¬ ∀ [Hashlib] (L : List TradeMutation), Converges L := by
  intro h
  let _ : Hashlib := ⟨fun _ ↦ ⟨"", forall_mem_of_all (by decide)⟩⟩
  exact not_converges_of_tied sessions_wellFormed sessions_tied (h _)

end Qros.OrderFlow
