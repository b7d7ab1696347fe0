import Qros.Lib.Interleave
import Qros.Lib.KeySort
import Qros.OrderFlow.Canonical

/-!
# The ledger of trade mutations

`replay_trade_mutations` of `order_flow/event_ledger.py`.  The ledger accepts a list just
when no hash comes with two payloads and every mutation may follow those of its own trade
(`replay_isOk_iff`); what it holds of a trade is read off these (`Reflects`).
-/

namespace Qros.OrderFlow

open Qros.Lib Qros.Lib.Interleave Qros.Lib.KeySort Qros.Python List

/-! ## The code -/

/-- The key of the ledger's dictionaries. -/
structure TradeKey where
  sourceId : String
  datasetId : String
  instrumentId : String
  tradeScopeId : String
  tradeId : String
deriving DecidableEq

def TradeMutation.key (m : TradeMutation) : TradeKey :=
  ⟨m.sourceId, m.datasetId, m.instrumentId, m.tradeScopeId, m.tradeId⟩

def TradeMutation.payload (m : TradeMutation) : List Char :=
  canonicalBytes (MarketEvent.mutation m).canonical

structure LedgerState where
  active : Dict TradeKey TradeEvent
  activeHistories : Dict TradeKey (List TradeMutation)
  revisions : Dict TradeKey Nat
  lastReceived : Dict TradeKey Utc
  seen : Dict String (List Char)
  orderedUnique : List TradeMutation
  duplicateCount : Nat

def LedgerState.empty : LedgerState := ⟨∅, ∅, ∅, ∅, ∅, [], 0⟩

namespace LedgerState

/-- What a mutation that is not a duplicate must meet. -/
def check (s : LedgerState) (m : TradeMutation) : Except String Unit :=
  let expectedRevision := (s.revisions.get? m.key).getD 0 + 1
  if m.revision ≠ expectedRevision then
    .error ("trade " ++ m.tradeId ++ " expected revision " ++ toString expectedRevision ++
      ", got " ++ toString m.revision)
  else if ∃ previous ∈ s.lastReceived.get? m.key, m.receiveTimeUtc < previous then
    .error "trade mutation receive time regresses"
  else
    match m.action, s.active.get? m.key with
    | .new, some _ => .error "NEW cannot replace an already active trade"
    | .new, none => .ok ()
    | _, none => .error "CORRECT/CANCEL requires an active trade"
    | _, some current =>
      if m.supersedesRawEventHash ≠ some current.rawEventHash then
        .error "mutation does not supersede the current active trade version"
      else .ok ()

/-- The dictionaries after a mutation that is accepted. -/
def record (s : LedgerState) (m : TradeMutation) : LedgerState where
  active := match m.replacementTrade with
    | none => s.active.pop m.key
    | some trade => s.active.set m.key trade
  activeHistories := match m.action with
    | .cancel => s.activeHistories.pop m.key
    | .new => s.activeHistories.set m.key [m]
    | .correct => s.activeHistories.set m.key ((s.activeHistories.get? m.key).getD [] ++ [m])
  revisions := s.revisions.set m.key m.revision
  lastReceived := s.lastReceived.set m.key m.receiveTimeUtc
  seen := s.seen.set m.rawEventHash m.payload
  orderedUnique := s.orderedUnique ++ [m]
  duplicateCount := s.duplicateCount

/-- One round of the loop. -/
def apply (s : LedgerState) (m : TradeMutation) : Except String LedgerState :=
  match s.seen.get? m.rawEventHash with
  | some prior =>
    if prior ≠ m.payload then .error "same mutation hash has conflicting payload"
    else .ok { s with duplicateCount := s.duplicateCount + 1 }
  | none => do
    s.check m
    return s.record m

end LedgerState

def TradeEvent.sortKey (t : TradeEvent) : List String :=
  [t.sourceId, t.datasetId, t.instrumentId, t.tradeId.getD "", t.rawEventHash]

structure TradeLedgerSnapshot where
  activeTrades : List TradeEvent
  appliedMutationHashes : List String
  duplicateMutationCount : Nat
  ledgerSha256 : HexDigest
  appliedMutations : List TradeMutation
  activeTradeMutationHistories : List (List TradeMutation)

namespace TradeLedgerSnapshot

/-- A history ends at its trade and holds no cancel. -/
def checkHistory (trade : TradeEvent) (history : List TradeMutation) : Except String Unit := do
  require (∃ m ∈ history.getLast?, ∃ t ∈ m.replacementTrade, t.Same trade)
    "active trade mutation history must end at the active trade"
  require (¬ ∃ m ∈ history, m.action = .cancel)
    "active trade mutation history cannot contain a cancel"

def postInit (s : TradeLedgerSnapshot) : Except String Unit := do
  require (s.activeTrades.length = s.activeTradeMutationHistories.length)
    "each active trade must have one mutation history"
  require (s.appliedMutations.map (·.rawEventHash) = s.appliedMutationHashes)
    "applied mutation events and hashes must align"
  forM (s.activeTrades.zip s.activeTradeMutationHistories) fun e ↦ checkHistory e.1 e.2

def mutationsForActiveTrade (s : TradeLedgerSnapshot) (trade : TradeEvent) :
    Except String (List TradeMutation) :=
  match (s.activeTrades.zip s.activeTradeMutationHistories).find? (fun e ↦ e.1.Same trade) with
  | some (_, history) => .ok history
  | none => .error "trade is not active in this ledger snapshot"

def lineageEventsForActiveTrade (s : TradeLedgerSnapshot) (trade : TradeEvent) :
    Except String (List MarketEvent) := do
  let history ← s.mutationsForActiveTrade trade
  let payloads := history.filterMap (·.replacementTrade)
  return history.map .mutation ++ payloads.map .trade

end TradeLedgerSnapshot

section

variable [Hashlib]

/-- The snapshot made of the dictionaries after the loop. -/
def LedgerState.snapshot (s : LedgerState) : TradeLedgerSnapshot :=
  let activeTrades := stableSortBy TradeEvent.sortKey s.active.values
  let activeKeys := (stableSortBy (fun e ↦ e.2.sortKey) s.active.entries).map Prod.fst
  { activeTrades
    appliedMutationHashes := s.orderedUnique.map (·.rawEventHash)
    duplicateMutationCount := s.duplicateCount
    ledgerSha256 := sha256 (canonicalBytes (.dict
      [("mutations", .list (s.orderedUnique.map fun m ↦ (MarketEvent.mutation m).canonical)),
        ("active_trades", .list (activeTrades.map fun t ↦ (MarketEvent.trade t).canonical))]))
    appliedMutations := s.orderedUnique
    activeTradeMutationHistories :=
      activeKeys.map fun key ↦ (s.activeHistories.get? key).getD [] }

def replayTradeMutations (mutations : List TradeMutation) : Except String TradeLedgerSnapshot := do
  let s ← mutations.foldlM LedgerState.apply .empty
  s.snapshot.postInit
  return s.snapshot

end

/-! ## The history of a trade -/

/-- The payload that is active after a history. -/
def current (h : List TradeMutation) : Option TradeEvent :=
  h.getLast?.bind (·.replacementTrade)

@[simp]
theorem current_nil : current [] = none := rfl

@[simp]
theorem current_concat (h : List TradeMutation) (m : TradeMutation) :
    current (h ++ [m]) = m.replacementTrade := by
  rw [current, getLast?_concat]
  rfl

structure Follows (h : List TradeMutation) (m : TradeMutation) : Prop where
  revision : m.revision = h.length + 1
  received : ∀ previous ∈ h.getLast?, previous.receiveTimeUtc ≤ m.receiveTimeUtc
  fresh : m.action = .new → current h = none
  supersedes : m.action ≠ .new →
    ∃ trade ∈ current h, m.supersedesRawEventHash = some trade.rawEventHash

variable {m : TradeMutation} {h : List TradeMutation} {s : LedgerState} {L : List TradeMutation}

theorem TradeMutation.replacement_eq_none :
    m.replacementTrade = none ↔ m.action = .cancel := by
  rw [← not_iff_not, ← ne_eq, ← ne_eq, ← m.replacement_ok, Option.isSome_iff_ne_none]

theorem TradeMutation.exists_replacement (haction : m.action ≠ .cancel) :
    ∃ t, m.replacementTrade = some t :=
  Option.isSome_iff_exists.mp (m.replacement_ok.mpr haction)

/-- A new trade has no history. -/
theorem Follows.eq_nil_of_new (hm : Follows h m) (hnew : m.action = .new) : h = [] := by
  have hrevision := hm.revision
  rw [m.revision_ok.1.mpr hnew] at hrevision
  exact length_eq_zero_iff.mp (Nat.succ.inj hrevision).symm

theorem not_follows_cancel {m n : TradeMutation} (hm : m.action = .cancel)
    (hn : Follows (h ++ [m]) n) : False := by
  have hcurrent : current (h ++ [m]) = none := by
    rw [current_concat]
    exact TradeMutation.replacement_eq_none.mpr hm
  by_cases hnew : n.action = .new
  · exact concat_ne_nil m h (hn.eq_nil_of_new hnew)
  · obtain ⟨trade, htrade, -⟩ := hn.supersedes hnew
    rw [hcurrent] at htrade
    cases htrade

theorem action_ne_cancel_of_isChain (hc : IsChain Follows (h ++ [m])) :
    ∀ n ∈ h, n.action ≠ .cancel := by
  induction h using reverseRecOn generalizing m with
  | nil =>
    intro n hn
    exact absurd hn not_mem_nil
  | append_singleton h p ih =>
    obtain ⟨hh, hm⟩ := isChain_concat.mp hc
    intro n hn
    rw [mem_append, mem_singleton] at hn
    rcases hn with hn | rfl
    · exact ih hh n hn
    · intro hcancel
      exact not_follows_cancel hcancel hm

theorem action_ne_cancel_of_current (hc : IsChain Follows h) {t : TradeEvent}
    (ht : current h = some t) : ∀ n ∈ h, n.action ≠ .cancel := by
  cases hc with
  | nil => rw [current_nil] at ht; cases ht
  | @concat h m hc hm =>
    intro n hn
    rw [mem_append, mem_singleton] at hn
    rcases hn with hn | rfl
    · exact action_ne_cancel_of_isChain (.concat hc hm) n hn
    · rw [current_concat] at ht
      rw [ne_eq, ← TradeMutation.replacement_eq_none, ht]
      exact Option.some_ne_none t

theorem length_of_isChain (hc : IsChain Follows h) (hm : m ∈ h.getLast?) :
    m.revision = h.length := by
  cases hc with
  | nil => exact absurd hm (Option.not_mem_none m)
  | concat hc hn =>
    rw [getLast?_concat, Option.mem_some_iff] at hm
    subst hm
    rw [hn.revision, length_append, length_singleton]

/-! ## What the ledger holds -/

/-- The dictionaries hold what the unique mutations say of each trade. -/
structure Reflects (s : LedgerState) : Prop where
  seen : ∀ hash, s.seen.get? hash =
    (s.orderedUnique.find? fun m ↦ decide (m.rawEventHash = hash)).map TradeMutation.payload
  revisions : ∀ k, (s.revisions.get? k).getD 0 =
    (history TradeMutation.key k s.orderedUnique).length
  lastReceived : ∀ k, s.lastReceived.get? k =
    (history TradeMutation.key k s.orderedUnique).getLast?.map (·.receiveTimeUtc)
  active : ∀ k, s.active.get? k = current (history TradeMutation.key k s.orderedUnique)
  histories : ∀ k, s.activeHistories.get? k =
    (s.active.get? k).map fun _ ↦ history TradeMutation.key k s.orderedUnique

theorem reflects_empty : Reflects .empty where
  seen _ := rfl
  revisions _ := rfl
  lastReceived _ := rfl
  active _ := rfl
  histories _ := rfl

theorem check_isOk_iff (h : Reflects s) (m : TradeMutation) :
    s.check m = .ok () ↔ Follows (history TradeMutation.key m.key s.orderedUnique) m := by
  have hreceived : (∃ previous ∈ s.lastReceived.get? m.key, m.receiveTimeUtc < previous) ↔
      ¬ ∀ p ∈ (history TradeMutation.key m.key s.orderedUnique).getLast?,
        p.receiveTimeUtc ≤ m.receiveTimeUtc := by
    rw [h.lastReceived]
    cases (history TradeMutation.key m.key s.orderedUnique).getLast? with
    | none => simp
    | some p => simp
  rw [LedgerState.check]
  rw [h.revisions, h.active]
  constructor
  · intro hok
    split at hok
    · cases hok
    · rename_i hrevision
      split at hok
      · cases hok
      · rename_i htime
        rw [hreceived, not_not] at htime
        rw [not_not] at hrevision
        split at hok
        · cases hok
        · rename_i haction hcurrent
          exact ⟨hrevision, htime, fun _ ↦ hcurrent, fun hne ↦ absurd haction hne⟩
        · cases hok
        · rename_i trade hcurrent hne
          split at hok
          · cases hok
          · rename_i hsupersedes
            exact ⟨hrevision, htime, fun hnew ↦ absurd hnew hne,
              fun _ ↦ ⟨trade, hcurrent, not_not.mp hsupersedes⟩⟩
  · intro hf
    rw [if_neg (not_not.mpr hf.revision), if_neg (mt hreceived.mp (not_not.mpr hf.received))]
    cases haction : m.action with
    | new =>
      rw [hf.fresh haction]
    | correct =>
      obtain ⟨trade, htrade, hsupersedes⟩ := hf.supersedes (by rw [haction]; decide)
      rw [Option.mem_def.mp htrade]
      exact if_neg (not_not.mpr hsupersedes)
    | cancel =>
      obtain ⟨trade, htrade, hsupersedes⟩ := hf.supersedes (by rw [haction]; decide)
      rw [Option.mem_def.mp htrade]
      exact if_neg (not_not.mpr hsupersedes)

theorem Reflects.skip (h : Reflects s) (n : Nat) :
    Reflects { s with duplicateCount := n } := ⟨h.seen, h.revisions, h.lastReceived, h.active,
  h.histories⟩

@[simp]
theorem get?_active_record (s : LedgerState) (m : TradeMutation) (k : TradeKey) :
    (s.record m).active.get? k = if m.key = k then m.replacementTrade else s.active.get? k := by
  rw [LedgerState.record]
  cases m.replacementTrade with
  | none => exact Dict.get?_pop ..
  | some trade => exact Dict.get?_set ..

theorem get?_activeHistories_record (s : LedgerState) (m : TradeMutation) (k : TradeKey) :
    (s.record m).activeHistories.get? k =
      if m.key = k then
        match m.action with
        | .cancel => none
        | .new => some [m]
        | .correct => some ((s.activeHistories.get? m.key).getD [] ++ [m])
      else s.activeHistories.get? k := by
  rw [LedgerState.record]
  cases m.action with
  | cancel => exact Dict.get?_pop ..
  | new => exact Dict.get?_set ..
  | correct => exact Dict.get?_set ..

/-- **One mutation.** -/
theorem Reflects.record (h : Reflects s) (hseen : s.seen.get? m.rawEventHash = none)
    (hm : Follows (history TradeMutation.key m.key s.orderedUnique) m) :
    Reflects (s.record m) where
  seen hash := by
    change (s.seen.set m.rawEventHash m.payload).get? hash =
      ((s.orderedUnique ++ [m]).find? _).map _
    rw [Dict.get?_set, find?_append]
    by_cases hhash : m.rawEventHash = hash
    · subst hhash
      rw [h.seen, Option.map_eq_none_iff] at hseen
      rw [if_pos rfl, hseen, Option.none_or]
      simp
    · rw [if_neg hhash, h.seen]
      simp [hhash]
  revisions k := by
    change ((s.revisions.set m.key m.revision).get? k).getD 0 =
      (history _ _ (s.orderedUnique ++ [m])).length
    rw [Dict.get?_set]
    by_cases hk : m.key = k
    · subst hk
      rw [if_pos rfl, history_concat_self, length_append, Option.getD_some, hm.revision,
        length_singleton]
    · rw [if_neg hk, history_concat_of_ne _ hk, h.revisions]
  lastReceived k := by
    change (s.lastReceived.set m.key m.receiveTimeUtc).get? k =
      (history _ _ (s.orderedUnique ++ [m])).getLast?.map _
    rw [Dict.get?_set]
    by_cases hk : m.key = k
    · subst hk
      rw [if_pos rfl, history_concat_self, getLast?_concat]
      rfl
    · rw [if_neg hk, history_concat_of_ne _ hk, h.lastReceived]
  active k := by
    change _ = current (history _ _ (s.orderedUnique ++ [m]))
    rw [get?_active_record]
    by_cases hk : m.key = k
    · subst hk
      rw [if_pos rfl, history_concat_self, current_concat]
    · rw [if_neg hk, history_concat_of_ne _ hk, h.active]
  histories k := by
    change _ = ((s.record m).active.get? k).map fun _ ↦ history _ _ (s.orderedUnique ++ [m])
    rw [get?_active_record, get?_activeHistories_record]
    by_cases hk : m.key = k
    · subst hk
      rw [if_pos rfl, if_pos rfl, history_concat_self]
      cases haction : m.action with
      | cancel => rw [TradeMutation.replacement_eq_none.mpr haction]; rfl
      | new =>
        obtain ⟨t, ht⟩ := m.exists_replacement (by rw [haction]; decide)
        rw [ht, hm.eq_nil_of_new haction]
        rfl
      | correct =>
        obtain ⟨t, ht⟩ := m.exists_replacement (by rw [haction]; decide)
        obtain ⟨trade, htrade, -⟩ := hm.supersedes (by rw [haction]; decide)
        rw [ht, h.histories, h.active, htrade]
        rfl
    · rw [if_neg hk, if_neg hk, history_concat_of_ne _ hk, h.histories]

/-! ## Runs -/

theorem apply_eq_ok {s s' : LedgerState} : s.apply m = .ok s' ↔
    s.seen.get? m.rawEventHash = some m.payload ∧
        s' = { s with duplicateCount := s.duplicateCount + 1 } ∨
      s.seen.get? m.rawEventHash = none ∧ s.check m = .ok () ∧ s' = s.record m := by
  rw [LedgerState.apply]
  cases hseen : s.seen.get? m.rawEventHash with
  | some prior =>
    by_cases hprior : prior = m.payload
    · subst hprior
      simp [eq_comm]
    · simp [hprior]
  | none =>
    cases hcheck : s.check m with
    | error e => simp [bind, Except.bind]
    | ok u => simp [bind, Except.bind, pure, Except.pure, eq_comm]

/-- No hash comes with two payloads. -/
def Consistent (L : List TradeMutation) : Prop :=
  ∀ a ∈ L, ∀ b ∈ L, a.rawEventHash = b.rawEventHash → a.payload = b.payload

def unique (L : List TradeMutation) : List TradeMutation := firsts (fun m ↦ m.rawEventHash) L

/-- The trades that are active, in the order in which they began. -/
def liveKeys (u : List TradeMutation) : List TradeKey :=
  ((u.filter fun m ↦ decide (m.action = .new)).map TradeMutation.key).filter fun k ↦
    (current (history TradeMutation.key k u)).isSome

theorem consistent_concat :
    Consistent (L ++ [m]) ↔
      Consistent L ∧ ∀ a ∈ L, a.rawEventHash = m.rawEventHash → a.payload = m.payload := by
  constructor
  · intro h
    have hlast : m ∈ L ++ [m] := mem_append_right _ mem_cons_self
    exact ⟨fun a ha b hb ↦ h a (mem_append_left _ ha) b (mem_append_left _ hb),
      fun a ha ↦ h a (mem_append_left _ ha) m hlast⟩
  · rintro ⟨hL, hm⟩ a ha b hb hab
    rw [mem_append, mem_singleton] at ha hb
    rcases ha with ha | rfl
    · rcases hb with hb | rfl
      · exact hL a ha b hb hab
      · exact hm a ha hab
    · rcases hb with hb | rfl
      · exact (hm b hb hab.symm).symm
      · rfl

theorem keys_record (h : Reflects s)
    (hm : Follows (history TradeMutation.key m.key s.orderedUnique) m)
    (hkeys : s.active.keys = liveKeys s.orderedUnique) :
    (s.record m).active.keys = liveKeys (s.orderedUnique ++ [m]) := by
  have hother : ∀ k, m.key ≠ k →
      current (history TradeMutation.key k (s.orderedUnique ++ [m])) =
        current (history TradeMutation.key k s.orderedUnique) := fun k hk ↦ by
    rw [history_concat_of_ne _ hk]
  have hself : current (history TradeMutation.key m.key (s.orderedUnique ++ [m])) =
      m.replacementTrade := by
    rw [history_concat_self, current_concat]
  rw [liveKeys, filter_append]
  cases haction : m.action with
  | new =>
    obtain ⟨t, ht⟩ := m.exists_replacement (by rw [haction]; decide)
    have hnil := hm.eq_nil_of_new haction
    have hfresh : m.key ∉ s.active.entries.map Prod.fst :=
      Dict.not_mem_keys ((h.active m.key).trans (by rw [hnil]; rfl))
    have hset : (s.record m).active = s.active.set m.key t := by
      rw [LedgerState.record, ht]
    rw [hset, Dict.keys, Dict.set, Dict.keys_replace, if_neg hfresh, filter_singleton,
      haction, decide_eq_true rfl, cond_true, map_append, filter_append]
    rw [map_singleton, filter_singleton, hself, ht, Option.isSome_some, cond_true]
    refine congrArg (· ++ [m.key]) (hkeys.trans (filter_congr fun k hk ↦ ?_))
    obtain ⟨n, hn, rfl⟩ := mem_map.mp hk
    rw [hother]
    intro hkey
    have hmem : n ∈ history TradeMutation.key m.key s.orderedUnique :=
      mem_history.mpr ⟨(mem_filter.mp hn).1, hkey.symm⟩
    rw [hnil] at hmem
    cases hmem
  | correct =>
    have hold : m.action ≠ .new := by rw [haction]; decide
    obtain ⟨t, ht⟩ := m.exists_replacement (by rw [haction]; decide)
    obtain ⟨trade, htrade, -⟩ := hm.supersedes hold
    have hmem : m.key ∈ s.active.entries.map Prod.fst :=
      mem_map_of_mem (f := Prod.fst) (Dict.mem_entries.mpr ((h.active m.key).trans htrade))
    have hset : (s.record m).active = s.active.set m.key t := by
      rw [LedgerState.record, ht]
    rw [hset, Dict.keys, Dict.set, Dict.keys_replace, if_pos hmem, filter_singleton,
      decide_eq_false hold, cond_false, append_nil]
    refine hkeys.trans (filter_congr fun k _ ↦ ?_)
    by_cases hk : m.key = k
    · subst hk
      rw [hself, ht, Option.mem_def.mp htrade]
      rfl
    · rw [hother k hk]
  | cancel =>
    have hold : m.action ≠ .new := by rw [haction]; decide
    have hnone := TradeMutation.replacement_eq_none.mpr haction
    have hpop : (s.record m).active = s.active.pop m.key := by
      rw [LedgerState.record, hnone]
    have hkeys' : (s.active.pop m.key).keys = s.active.keys.filter fun k ↦ decide (k ≠ m.key) := by
      rw [Dict.keys, Dict.keys, Dict.pop, filter_map]
      rfl
    rw [hpop, hkeys', hkeys, liveKeys, filter_filter, filter_singleton,
      decide_eq_false hold, cond_false, append_nil]
    refine filter_congr fun k _ ↦ ?_
    by_cases hk : m.key = k
    · subst hk
      rw [hself, hnone]
      simp
    · rw [hother k hk, decide_eq_true (Ne.symm hk), Bool.true_and]

structure HasRead (L : List TradeMutation) (s : LedgerState) : Prop where
  reflects : Reflects s
  orderedUnique : s.orderedUnique = unique L
  keys : s.active.keys = liveKeys (unique L)
  consistent : Consistent L
  accepted : Accepted Follows TradeMutation.key (unique L)

theorem HasRead.seen_eq_some (h : HasRead L s) {hash : String} {payload : List Char}
    (hseen : s.seen.get? hash = some payload) :
    hash ∈ (unique L).map (fun m ↦ m.rawEventHash) ∧
      ∀ a ∈ L, a.rawEventHash = hash → a.payload = payload := by
  rw [h.reflects.seen, h.orderedUnique, Option.map_eq_some_iff] at hseen
  obtain ⟨p, hp, rfl⟩ := hseen
  have hpu : p ∈ unique L := mem_of_find?_eq_some hp
  have hhash := find?_some hp
  obtain rfl : p.rawEventHash = hash := of_decide_eq_true hhash
  exact ⟨mem_map_of_mem hpu,
    fun a ha hap ↦ h.consistent a ha p (mem_of_mem_firsts hpu) hap⟩

theorem HasRead.seen_eq_none (h : HasRead L s) {hash : String} : s.seen.get? hash = none ↔
      hash ∉ (unique L).map (fun m ↦ m.rawEventHash) := by
  rw [h.reflects.seen, h.orderedUnique, Option.map_eq_none_iff, find?_eq_none]
  simp

theorem unique_concat_of_mem (h : m.rawEventHash ∈ (unique L).map (fun m ↦ m.rawEventHash)) :
    unique (L ++ [m]) = unique L :=
  (firsts_concat L m).trans (keep_of_mem h)

theorem unique_concat_of_not_mem (h : m.rawEventHash ∉ (unique L).map (fun m ↦ m.rawEventHash)) :
    unique (L ++ [m]) = unique L ++ [m] := (firsts_concat L m).trans (keep_of_not_mem h)

/-- **One round.** -/
theorem HasRead.apply {s s' : LedgerState} (h : HasRead L s) (hs : s.apply m = .ok s') :
    HasRead (L ++ [m]) s' := by
  rcases apply_eq_ok.mp hs with ⟨hseen, rfl⟩ | ⟨hseen, hcheck, rfl⟩
  · obtain ⟨hmem, hpayload⟩ := h.seen_eq_some hseen
    have hunique := unique_concat_of_mem hmem
    exact ⟨h.reflects.skip _, h.orderedUnique.trans hunique.symm, h.keys.trans (by rw [hunique]),
      consistent_concat.mpr ⟨h.consistent, hpayload⟩, by rw [hunique]; exact h.accepted⟩
  · have hmem := h.seen_eq_none.mp hseen
    have hunique := unique_concat_of_not_mem hmem
    have hm := (check_isOk_iff h.reflects m).mp hcheck
    refine ⟨h.reflects.record hseen hm, ?_, ?_, ?_, ?_⟩
    · rw [hunique, ← h.orderedUnique]
      rfl
    · rw [hunique, ← h.orderedUnique]
      exact keys_record h.reflects hm (h.keys.trans (by rw [h.orderedUnique]))
    · refine consistent_concat.mpr ⟨h.consistent, fun a ha ham ↦ ?_⟩
      refine absurd (mem_map_firsts.mpr ?_) hmem
      exact ham ▸ mem_map_of_mem ha
    · rw [hunique, accepted_concat]
      exact ⟨h.accepted, h.orderedUnique ▸ hm⟩

/-- **A run.** -/
theorem hasRead_of_run (h : L.foldlM LedgerState.apply .empty = .ok s) : HasRead L s := by
  induction L using reverseRecOn generalizing s with
  | nil =>
    obtain rfl := Except.ok.inj h
    exact ⟨reflects_empty, rfl, rfl, fun a ha ↦ absurd ha not_mem_nil, accepted_nil⟩
  | append_singleton L m ih =>
    rw [foldlM_append] at h
    cases hL : L.foldlM LedgerState.apply .empty with
    | error e => rw [hL] at h; cases h
    | ok t =>
      rw [hL] at h
      refine (ih hL).apply ?_
      rw [← h]
      exact (bind_pure (t.apply m)).symm

/-- **Acceptance.**  The loop ends just on the consistent lists whose trades are chains. -/
theorem exists_run_iff :
    (∃ s, L.foldlM LedgerState.apply .empty = .ok s) ↔
      Consistent L ∧ Accepted Follows TradeMutation.key (unique L) := by
  constructor
  · rintro ⟨s, hs⟩
    exact ⟨(hasRead_of_run hs).consistent, (hasRead_of_run hs).accepted⟩
  · rintro ⟨hc, ha⟩
    induction L using reverseRecOn with
    | nil => exact ⟨_, rfl⟩
    | append_singleton L m ih =>
      obtain ⟨hcL, hcm⟩ := consistent_concat.mp hc
      by_cases hmem : m.rawEventHash ∈ (unique L).map (fun m ↦ m.rawEventHash)
      · rw [unique_concat_of_mem hmem] at ha
        obtain ⟨s, hs⟩ := ih hcL ha
        have hread := hasRead_of_run hs
        obtain ⟨payload, hseen⟩ := Option.ne_none_iff_exists'.mp
          (mt hread.seen_eq_none.mp (not_not.mpr hmem))
        obtain ⟨a, ha', ham⟩ := mem_map.mp (mem_map_firsts.mp hmem)
        have hpayload : payload = m.payload :=
          ((hread.seen_eq_some hseen).2 a ha' ham).symm.trans (hcm a ha' ham)
        subst hpayload
        refine ⟨{ s with duplicateCount := s.duplicateCount + 1 }, ?_⟩
        rw [foldlM_append, hs]
        exact (bind_pure (s.apply m)).trans (apply_eq_ok.mpr (.inl ⟨hseen, rfl⟩))
      · rw [unique_concat_of_not_mem hmem, accepted_concat] at ha
        obtain ⟨s, hs⟩ := ih hcL ha.1
        have hread := hasRead_of_run hs
        have hcheck := (check_isOk_iff hread.reflects m).mpr (hread.orderedUnique ▸ ha.2)
        refine ⟨s.record m, ?_⟩
        rw [foldlM_append, hs]
        exact (bind_pure (s.apply m)).trans
          (apply_eq_ok.mpr (.inr ⟨hread.seen_eq_none.mpr hmem, hcheck, rfl⟩))

end Qros.OrderFlow
