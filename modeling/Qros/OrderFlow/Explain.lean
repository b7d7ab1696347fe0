import Qros.OrderFlow.Convergence
import Qros.OrderFlow.Lineage

/-!
# The lineage of active trades

The snapshot of the ledger gives the mutations and payloads of an active trade as lineage
events.  It finds the trade by equality, and lineage takes events by their hash; so a trade is
explained when no other active trade equals it and the events of its history with one hash
are equal (`explained_iff`).
-/

namespace Qros.OrderFlow

open Qros.Lib Qros.Lib.Interleave Qros.Lib.KeySort Qros.Python List

def lineageEvents (history : List TradeMutation) : List MarketEvent :=
  history.map .mutation ++ (history.filterMap (·.replacementTrade)).map .trade

/-- The lineage of a trade can be made, and names its payload and its mutations once. -/
structure Explains (trade : TradeEvent) (history : List TradeMutation) (events : List MarketEvent)
    (lineage : InputLineage) : Prop where
  accepted : InputLineage.fromEvents events [] [] = .ok (some lineage)
  payload : .trade trade ∈ events
  mutations : ∀ m ∈ history, .mutation m ∈ events
  different : (trade.rawEventHash :: history.map (·.rawEventHash)).Nodup
  once : ∀ hash ∈ trade.rawEventHash :: history.map (·.rawEventHash),
    lineage.inputEventHashes.count hash = 1

def Explained (S : TradeLedgerSnapshot) (trade : TradeEvent) (history : List TradeMutation) : Prop :=
  ∃ events lineage, S.lineageEventsForActiveTrade trade = .ok events ∧
    Explains trade history events lineage

/-- The events of active trades with one hash are equal, and active trades are not. -/
structure Clear (u : List TradeMutation) : Prop where
  compatible : ∀ k t, current (history TradeMutation.key k u) = some t →
    Compatible (lineageEvents (history TradeMutation.key k u))
  separate : ∀ k k' t t', current (history TradeMutation.key k u) = some t →
    current (history TradeMutation.key k' u) = some t' → t.Same t' → k = k'

variable {L : List TradeMutation}

theorem mem_lineageEvents_mutation {h : List TradeMutation} {m : TradeMutation} :
    .mutation m ∈ lineageEvents h ↔ m ∈ h := by
  rw [lineageEvents, mem_append, mem_map, mem_map]
  constructor
  · rintro (⟨n, hn, heq⟩ | ⟨t, -, heq⟩)
    · exact MarketEvent.mutation.inj heq ▸ hn
    · cases heq
  · intro hm
    exact .inl ⟨m, hm, rfl⟩

theorem trade_mem_lineageEvents {h : List TradeMutation} {t : TradeEvent}
    (ht : current h = some t) :
    .trade t ∈ lineageEvents h := by
  obtain ⟨m, hm, hreplacement⟩ := exists_last_of_current ht
  refine mem_append_right _ (mem_map_of_mem ?_)
  exact mem_filterMap.mpr ⟨m, mem_of_mem_getLast? hm, hreplacement⟩

theorem nodup_hashes (L : List TradeMutation) (k : TradeKey) :
    ((history TradeMutation.key k (unique L)).map fun m ↦ m.rawEventHash).Nodup :=
  nodup_firsts.sublist (filter_sublist.map _)

section

variable [Hashlib] {s : LedgerState} {k : TradeKey} {t : TradeEvent}

theorem mutationsFor_eq_ok {H : List TradeMutation} (h : HasRead L s) :
    s.snapshot.mutationsForActiveTrade t = .ok H →
      ∃ e ∈ s.sortedEntries, e.2.Same t ∧
        H = history TradeMutation.key e.1 (unique L) := by
  intro hok
  rw [TradeLedgerSnapshot.mutationsForActiveTrade, zip_eq h.reflects] at hok
  split at hok
  · rename_i trade hist hfind
    obtain ⟨e, he, heq⟩ := mem_map.mp (mem_of_find?_eq_some hfind)
    obtain ⟨rfl, rfl⟩ := Prod.mk.inj heq
    have hsame := find?_some hfind
    refine ⟨e, he, of_decide_eq_true hsame, ?_⟩
    rw [← h.orderedUnique]
    exact (Except.ok.inj hok).symm
  · cases hok

theorem exists_mutationsFor (h : HasRead L s) (he : (k, t) ∈ s.sortedEntries) :
    ∃ H, s.snapshot.mutationsForActiveTrade t = .ok H := by
  rw [TradeLedgerSnapshot.mutationsForActiveTrade, zip_eq h.reflects]
  split
  · exact ⟨_, rfl⟩
  · rename_i hnone
    have hself := find?_eq_none.mp hnone _ (mem_map_of_mem he)
    exact absurd (decide_eq_true (TradeEvent.Same.refl t)) hself

omit [Hashlib] in
theorem mutationsFor_congr {t' : TradeEvent} (h : t.Same t') (S : TradeLedgerSnapshot) :
    S.mutationsForActiveTrade t = S.mutationsForActiveTrade t' := by
  have hpred : (fun e : TradeEvent × List TradeMutation ↦ decide (e.1.Same t)) =
      fun e ↦ decide (e.1.Same t') := by
    funext e
    exact decide_eq_decide.mpr ⟨fun he ↦ he.trans h, fun he ↦ he.trans h.symm⟩
  rw [TradeLedgerSnapshot.mutationsForActiveTrade, TradeLedgerSnapshot.mutationsForActiveTrade,
    hpred]

omit [Hashlib] in
theorem lineageEventsFor_eq_ok {S : TradeLedgerSnapshot} {events : List MarketEvent} :
    S.lineageEventsForActiveTrade t = .ok events ↔
      ∃ H, S.mutationsForActiveTrade t = .ok H ∧ events = lineageEvents H := by
  rw [TradeLedgerSnapshot.lineageEventsForActiveTrade, bind_eq_ok]
  exact exists_congr fun H ↦ and_congr_right fun _ ↦
    ⟨fun h ↦ (Except.ok.inj h).symm, fun h ↦ congrArg Except.ok h.symm⟩

/-- **One active trade.**  It is explained just when its own history is found for it and the
events of that history with one hash are equal. -/
theorem explained_iff (h : HasRead L s) (he : (k, t) ∈ s.sortedEntries) :
    Explained s.snapshot t (history TradeMutation.key k (unique L)) ↔
      s.snapshot.mutationsForActiveTrade t = .ok (history TradeMutation.key k (unique L)) ∧
        Compatible (lineageEvents (history TradeMutation.key k (unique L))) := by
  have hcurrent := (mem_sortedEntries h.reflects).mp he
  rw [h.orderedUnique] at hcurrent
  have hne : lineageEvents (history TradeMutation.key k (unique L)) ≠ [] :=
    ne_nil_of_mem (trade_mem_lineageEvents hcurrent)
  constructor
  · rintro ⟨events, lineage, hevents, hexplains⟩
    obtain ⟨H, hH, rfl⟩ := lineageEventsFor_eq_ok.mp hevents
    -- A mutation of the trade is among the events, and so the history is that of its key.
    obtain ⟨e, -, -, rfl⟩ := mutationsFor_eq_ok h hH
    obtain ⟨m, hm, -⟩ := exists_last_of_current hcurrent
    have hmk := mem_of_mem_getLast? hm
    have hmem := mem_lineageEvents_mutation.mp (hexplains.mutations m hmk)
    obtain rfl : e.1 = k := (mem_history.mp hmem).2.symm.trans (mem_history.mp hmk).2
    exact ⟨hH, (InputLineage.exists_fromEvents_iff hne).mp ⟨lineage, hexplains.accepted⟩⟩
  · rintro ⟨hfound, hcompatible⟩
    obtain ⟨lineage, hlineage⟩ := (InputLineage.exists_fromEvents_iff hne).mpr hcompatible
    have hpayload := trade_mem_lineageEvents hcurrent
    have hmutation : ∀ m ∈ history TradeMutation.key k (unique L),
        .mutation m ∈ lineageEvents (history TradeMutation.key k (unique L)) :=
      fun m hm ↦ mem_lineageEvents_mutation.mpr hm
    refine ⟨_, lineage, lineageEventsFor_eq_ok.mpr ⟨_, hfound, rfl⟩, hlineage, hpayload, hmutation,
      nodup_cons.mpr ⟨?_, nodup_hashes L k⟩, ?_⟩
    · intro hmem
      obtain ⟨m, hm, hash⟩ := mem_map.mp hmem
      exact hcompatible _ (hmutation m hm) _ hpayload hash
    · intro hash hhash
      rcases mem_cons.mp hhash with rfl | hhash
      · exact InputLineage.count_of_fromEvents hlineage hpayload
      · obtain ⟨m, hm, rfl⟩ := mem_map.mp hhash
        exact InputLineage.count_of_fromEvents hlineage (hmutation m hm)

/-- Every active trade of the snapshot is explained, with the history the snapshot gives it. -/
def Explainable (L : List TradeMutation) : Prop :=
  ∀ S, replayTradeMutations L = .ok S →
    ∀ e ∈ S.activeTrades.zip S.activeTradeMutationHistories, Explained S e.1 e.2

theorem mem_zip_iff (h : HasRead L s) {e : TradeEvent × List TradeMutation} :
    e ∈ s.snapshot.activeTrades.zip s.snapshot.activeTradeMutationHistories ↔
      ∃ k, (k, e.1) ∈ s.sortedEntries ∧ e.2 = history TradeMutation.key k (unique L) := by
  rw [zip_eq h.reflects, h.orderedUnique, mem_map]
  constructor
  · rintro ⟨⟨k, t⟩, he, rfl⟩
    exact ⟨k, he, rfl⟩
  · rintro ⟨k, he, heq⟩
    exact ⟨(k, e.1), he, Prod.ext rfl heq.symm⟩

omit [Hashlib] in
theorem mem_sortedEntries_of_current (h : HasRead L s)
    (ht : current (history TradeMutation.key k (unique L)) = some t) : (k, t) ∈ s.sortedEntries :=
  (mem_sortedEntries h.reflects).mpr (h.orderedUnique ▸ ht)

theorem clear_iff (h : HasRead L s) : Clear (unique L) ↔
    ∀ e ∈ s.snapshot.activeTrades.zip s.snapshot.activeTradeMutationHistories,
      Explained s.snapshot e.1 e.2 := by
  constructor
  · intro hclear
    rintro ⟨t, H⟩ hzip
    obtain ⟨k, he, rfl⟩ := (mem_zip_iff h).mp hzip
    have hcurrent := h.orderedUnique ▸ (mem_sortedEntries h.reflects).mp he
    refine (explained_iff h he).mpr ⟨?_, hclear.compatible k t hcurrent⟩
    obtain ⟨H, hH⟩ := exists_mutationsFor h he
    obtain ⟨e, hemem, hsame, rfl⟩ := mutationsFor_eq_ok h hH
    have hcurrent' := h.orderedUnique ▸ (mem_sortedEntries h.reflects).mp hemem
    rw [hH, hclear.separate e.1 k e.2 t hcurrent' hcurrent hsame]
  · intro hall
    have hfound : ∀ k t, current (history TradeMutation.key k (unique L)) = some t →
        s.snapshot.mutationsForActiveTrade t = .ok (history TradeMutation.key k (unique L)) ∧
          Compatible (lineageEvents (history TradeMutation.key k (unique L))) := by
      intro k t ht
      have he := mem_sortedEntries_of_current h ht
      exact (explained_iff h he).mp (hall (t, _) ((mem_zip_iff h).mpr ⟨k, he, rfl⟩))
    constructor
    · intro k t ht
      exact (hfound k t ht).2
    · intro k k' t t' ht ht' hsame
      have heq := mutationsFor_congr hsame s.snapshot
      rw [(hfound k t ht).1, (hfound k' t' ht').1] at heq
      obtain ⟨m, hm, -⟩ := exists_last_of_current ht
      have hmk := mem_of_mem_getLast? hm
      exact (mem_history.mp hmk).2.symm.trans (mem_history.mp (Except.ok.inj heq ▸ hmk)).2

/-- **Lineage.**  A list of mutations is rejected or all its active trades are explained, just
when it is clear if it is well formed. -/
theorem explainable_iff (L : List TradeMutation) :
    Explainable L ↔ (WellFormed L → Clear (unique L)) := by
  constructor
  · intro hexplain hwf
    obtain ⟨s, hs⟩ := exists_run_iff.mpr hwf
    exact (clear_iff (hasRead_of_run hs)).mpr (hexplain _ (replay_eq_ok.mpr ⟨s, hs, rfl⟩))
  · intro h S hS
    obtain ⟨s, hs, rfl⟩ := replay_eq_ok.mp hS
    exact (clear_iff (hasRead_of_run hs)).mp (h (wellFormed_of_run hs))

end

/-! ### A message that reports its trade -/

/-- The mutation and the print have the hash of one message. -/
def reported : TradeMutation :=
  printIn "session-A" tradePrint.rawEventHash isTrimmed_sessionA tradePrint.rawEventHash_ok

theorem unique_reported : unique [reported] = [reported] :=
  unique_concat_of_not_mem (L := []) not_mem_nil

theorem history_reported : history TradeMutation.key reported.key [reported] = [reported] :=
  history_concat_self [] reported

theorem wellFormed_reported : WellFormed [reported] := by
  constructor
  · rintro a ha b hb -
    rw [mem_singleton.mp ha, mem_singleton.mp hb]
  · rw [unique_reported]
    exact accepted_concat.mpr ⟨accepted_nil, rfl, fun p hp ↦ absurd hp (Option.not_mem_none p),
      fun _ ↦ rfl, fun hne ↦ absurd rfl hne⟩

theorem not_clear_reported : ¬ Clear (unique [reported]) := by
  intro h
  have hcurrent : current (history TradeMutation.key reported.key (unique [reported])) =
      some tradePrint := by
    rw [unique_reported, history_reported]
    rfl
  have hcompatible := h.compatible _ _ hcurrent
  rw [unique_reported, history_reported] at hcompatible
  exact hcompatible (.mutation reported) mem_cons_self (.trade tradePrint)
    (mem_cons_of_mem _ mem_cons_self) rfl

/-- The lineage of a trade whose mutation has its hash cannot be made. -/
theorem reported_not_explained : ¬ ∀ [Hashlib] (L : List TradeMutation), Explainable L := by
  intro h
  let _ : Hashlib := ⟨fun _ ↦ ⟨"", forall_mem_of_all (by decide)⟩⟩
  obtain ⟨s, hs⟩ := exists_run_iff.mpr wellFormed_reported
  refine not_clear_reported ((clear_iff (hasRead_of_run hs)).mpr ?_)
  exact h [reported] _ (replay_eq_ok.mpr ⟨s, hs, rfl⟩)

end Qros.OrderFlow
