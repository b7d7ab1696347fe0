import Qros.Lib.FirstMax
import Qros.Orchestration.MarketState

/-!
# What a ready market state was made of

A quote or a book is selected by its ingest time alone, and a fresh one was available,
so nothing that came later has a part in it (`quoteFeatures_available`,
`bookFeatures_available`).  All trades are counted, and the last macro point is compared
with the one before it, whether or not these were available.
-/

namespace Qros.Orchestration.MarketState

open Qros.Lib Qros.Lib.KeySort Qros.Python List

/-- The record was known at the decision time. -/
def Available (now : Int) (clock : EventClock) : Prop :=
  clock.eventTimeNs ≤ now ∧ clock.ingestTimeNs ≤ now

instance (now : Int) (clock : EventClock) : Decidable (Available now clock) :=
  inferInstanceAs (Decidable (_ ∧ _))

section Available

variable {F : Type} [FloatOps F]
variable {py : Builtins F} {symbol : String} {now : Int} {policy : SourcePolicy F}

/-! ## The source selected by its ingest time -/

theorem available_of_fresh (hpy : py.KeepsSign) {clock : EventClock} {features : ClockFeatures F}
    (h : clockFeatures py clock now policy = .ok features) (hfresh : features.fresh = true) :
    Available now clock := by
  obtain ⟨_, -, h⟩ := bind_eq_ok.mp h
  obtain ⟨ageMs, hage, h⟩ := bind_eq_ok.mp h
  obtain ⟨transportMs, -, h⟩ := bind_eq_ok.mp h
  obtain ⟨ingestAgeMs, hingest, h⟩ := bind_eq_ok.mp h
  obtain rfl := Except.ok.inj h
  obtain ⟨hage', hingest', -⟩ := of_decide_eq_true hfresh
  have hevent := (hpy _ _ (found_eq_ok.mp hage)).mp hage'
  have hknown := (hpy _ _ (found_eq_ok.mp hingest)).mp hingest'
  exact ⟨by omega, by omega⟩

theorem available_of_ok (hpy : py.KeepsSign) {α : Type} {clock : EventClock} {data : α}
    {features : ClockFeatures F} (h : clockFeatures py clock now policy = .ok features)
    (hok : (SourceFeatures.observed data features).status = .ok) : Available now clock := by
  refine available_of_fresh hpy h ?_
  by_contra hstale
  rw [SourceFeatures.status, if_neg hstale] at hok
  cases hok

theorem quoteData_observed {q : Quote F} {features : SourceFeatures F (QuoteData F)}
    (h : quoteData py q symbol now policy = .ok features) :
    ∃ data clock, features = .observed data clock ∧
      clockFeatures py q.clock now policy = .ok clock := by
  obtain ⟨_, -, h⟩ := bind_eq_ok.mp h
  obtain ⟨bid, -, h⟩ := bind_eq_ok.mp h
  obtain ⟨ask, -, h⟩ := bind_eq_ok.mp h
  obtain ⟨bs, -, h⟩ := bind_eq_ok.mp h
  obtain ⟨ass, -, h⟩ := bind_eq_ok.mp h
  obtain ⟨_, -, h⟩ := bind_eq_ok.mp h
  obtain ⟨clock, hclock, h⟩ := bind_eq_ok.mp h
  exact ⟨_, clock, (Except.ok.inj h).symm, hclock⟩

theorem bookData_observed {book : BookSnapshot F} {features : SourceFeatures F (BookData F)}
    (h : bookData py book symbol now policy = .ok features) :
    ∃ data clock, features = .observed data clock ∧
      clockFeatures py book.clock now policy = .ok clock := by
  obtain ⟨_, -, h⟩ := bind_eq_ok.mp h
  split at h
  · obtain ⟨bids, -, h⟩ := bind_eq_ok.mp h
    obtain ⟨asks, -, h⟩ := bind_eq_ok.mp h
    obtain ⟨_, -, h⟩ := bind_eq_ok.mp h
    obtain ⟨_, -, h⟩ := bind_eq_ok.mp h
    obtain ⟨_, -, h⟩ := bind_eq_ok.mp h
    obtain ⟨_, -, h⟩ := bind_eq_ok.mp h
    obtain ⟨clock, hclock, h⟩ := bind_eq_ok.mp h
    exact ⟨_, clock, (Except.ok.inj h).symm, hclock⟩
  · cases h

theorem quoteFeatures_available (hpy : py.KeepsSign) {quotes : List (Quote F)}
    {features : SourceFeatures F (QuoteData F)}
    (h : quoteFeatures py quotes symbol now policy = .ok features) (hok : features.status = .ok) :
    quoteFeatures py (quotes.filter (Available now ·.clock)) symbol now policy = .ok features := by
  unfold quoteFeatures at h ⊢
  cases hq : quotes.argmax (·.clock.ingestTimeNs) with
  | none =>
    rw [hq] at h
    obtain rfl := Except.ok.inj h
    cases hok
  | some q =>
    rw [hq] at h
    obtain ⟨data, clock, rfl, hclock⟩ := quoteData_observed h
    rw [argmax_filter hq (decide_eq_true (available_of_ok hpy hclock hok))]
    exact h

theorem bookFeatures_available (hpy : py.KeepsSign) {books : List (BookSnapshot F)}
    {features : SourceFeatures F (BookData F)}
    (h : bookFeatures py books symbol now policy = .ok features) (hok : features.status = .ok) :
    bookFeatures py (books.filter (Available now ·.clock)) symbol now policy = .ok features := by
  unfold bookFeatures at h ⊢
  cases hbook : books.argmax (·.clock.ingestTimeNs) with
  | none =>
    rw [hbook] at h
    obtain rfl := Except.ok.inj h
    cases hok
  | some book =>
    rw [hbook] at h
    obtain ⟨data, clock, rfl, hclock⟩ := bookData_observed h
    rw [argmax_filter hbook (decide_eq_true (available_of_ok hpy hclock hok))]
    exact h

/-! ## Trades -/

theorem tradeFeatures_observed {trades : List (TradePrint F)}
    {features : SourceFeatures F (TradeData F)}
    (h : tradeFeatures py trades symbol now policy = .ok features) (hok : features.status = .ok) :
    ∃ data clock latest, features = .observed data clock ∧ data.printCount = trades.length ∧
      latest ∈ (stableSortBy (fun t ↦ timeKey t.clock) trades).argmax (·.clock.ingestTimeNs) ∧
      clockFeatures py latest.clock now policy = .ok clock := by
  obtain ⟨_, -, h⟩ := bind_eq_ok.mp h
  split at h
  · obtain rfl := Except.ok.inj h
    cases hok
  · rename_i latest hlatest
    obtain ⟨clock, hclock, h⟩ := bind_eq_ok.mp h
    refine ⟨_, clock, latest, (Except.ok.inj h).symm, ?_, hlatest, hclock⟩
    exact (stableSortBy_perm _ trades).length_eq

/-- The trades of a fresh source have no part of the later ones just when none of them has
an event time past the decision. -/
theorem tradeFeatures_available_iff (hpy : py.KeepsSign) {trades : List (TradePrint F)}
    {features : SourceFeatures F (TradeData F)}
    (h : tradeFeatures py trades symbol now policy = .ok features) (hok : features.status = .ok) :
    tradeFeatures py (trades.filter (Available now ·.clock)) symbol now policy = .ok features ↔
      ∀ t ∈ trades, t.clock.eventTimeNs ≤ now := by
  obtain ⟨data, clock, latest, rfl, hcount, hlatest, hclock⟩ := tradeFeatures_observed h hok
  constructor
  · intro hsame t ht
    obtain ⟨_, _, _, heq, hcount', -, -⟩ := tradeFeatures_observed hsame hok
    cases heq
    have hall := length_filter_eq_length_iff.mp (hcount'.symm.trans hcount)
    exact (of_decide_eq_true (hall t ht)).1
  · intro hevents
    have hknown : (latest.clock).ingestTimeNs ≤ now := (available_of_ok hpy hclock hok).2
    rw [filter_eq_self.mpr]
    · exact h
    · intro t ht
      have hle := le_of_mem_argmax ((mem_stableSortBy _).mpr ht) hlatest
      exact decide_eq_true ⟨hevents t ht, hle.trans hknown⟩

/-! ## Macro points -/

def pointsOf (py : Builtins F) (points : List (MacroPoint F)) (instrument : String) :
    List (MacroPoint F) :=
  points.filter fun point ↦ py.upper point.instrument = instrument

def latestFirst (py : Builtins F) (points : List (MacroPoint F)) (instrument : String) :
    List (MacroPoint F) :=
  (stableSortBy (fun p ↦ timeKey p.clock) (pointsOf py points instrument)).reverse

omit [FloatOps F] in
theorem get?_foldl_addPoint (points : List (MacroPoint F))
    (grouped : Dict String (List (MacroPoint F))) (instrument : String) :
    (points.foldl (addPoint py) grouped).get? instrument =
      if pointsOf py points instrument = [] then grouped.get? instrument
      else some ((grouped.get? instrument).getD [] ++ pointsOf py points instrument) := by
  induction points generalizing grouped with
  | nil => rfl
  | cons point points ih =>
    rw [foldl_cons, ih, addPoint, Dict.get?_set]
    by_cases hkey : py.upper point.instrument = instrument
    · have hcons : pointsOf py (point :: points) instrument =
          point :: pointsOf py points instrument :=
        filter_cons_of_pos (decide_eq_true hkey)
      rw [if_pos hkey, hcons, if_neg (cons_ne_nil _ _), hkey]
      split
      · rename_i hnil
        rw [hnil]
      · rw [Option.getD_some, append_assoc]
        rfl
    · have hcons : pointsOf py (point :: points) instrument = pointsOf py points instrument :=
        filter_cons_of_neg (by simpa using hkey)
      rw [if_neg hkey, hcons]

omit [FloatOps F] in
theorem get?_group (py : Builtins F) (points : List (MacroPoint F)) (instrument : String) :
    (points.foldl (addPoint py) ∅).get? instrument =
      if pointsOf py points instrument = [] then none else some (pointsOf py points instrument) :=
  get?_foldl_addPoint points ∅ instrument

def MacroEntry (py : Builtins F) (points : List (MacroPoint F)) (now : Int)
    (policy : SourcePolicy F) (instrument : String)
    (entry : Option (SourceFeatures F (MacroData F))) : Prop :=
  match pointsOf py points instrument with
  | [] => entry = if instrument = "DXY" ∨ instrument = "VXY" then
      some (.missing "NO_PROVIDER_DATA") else none
  | values => ∃ features, macroData py values now policy = .ok features ∧ entry = some features

variable {points : List (MacroPoint F)}

theorem macroEntry_of_nil {instrument : String} {entry : Option (SourceFeatures F (MacroData F))}
    (h : pointsOf py points instrument = []) :
    MacroEntry py points now policy instrument entry ↔
      entry = if instrument = "DXY" ∨ instrument = "VXY" then
        some (.missing "NO_PROVIDER_DATA") else none := by
  unfold MacroEntry
  rw [h]

theorem macroEntry_of_ok {instrument : String} {entry : Option (SourceFeatures F (MacroData F))}
    {features : SourceFeatures F (MacroData F)}
    (h : macroData py (pointsOf py points instrument) now policy = .ok features) :
    MacroEntry py points now policy instrument entry ↔ entry = some features := by
  unfold MacroEntry
  split
  · rename_i hnil
    rw [hnil] at h
    cases h
  · constructor
    · rintro ⟨_, hfeatures, rfl⟩
      rw [Except.ok.inj (hfeatures.symm.trans h)]
    · intro hentry
      exact ⟨features, h, hentry⟩

theorem macroFeatures_entry {output : Dict String (SourceFeatures F (MacroData F))}
    (h : macroFeatures py points now policy = .ok output) :
    (∀ point ∈ points, checkPoint point = .ok ()) ∧
      ∀ instrument, MacroEntry py points now policy instrument (output.get? instrument) := by
  obtain ⟨grouped, hgrouped, h⟩ := bind_eq_ok.mp h
  obtain ⟨hcheck, rfl⟩ := foldlM_check_eq_ok.mp hgrouped
  obtain ⟨filled, hfilled, h⟩ := bind_eq_ok.mp h
  obtain rfl := Except.ok.inj h
  obtain ⟨hmem, hout⟩ := Dict.of_foldlM_set (Dict.nodup _) hfilled
  refine ⟨hcheck, fun instrument ↦ ?_⟩
  have hgroup := get?_group py points instrument
  rw [foldl_cons, foldl_cons, foldl_nil, Dict.get?_setdefault, Dict.get?_setdefault]
  unfold MacroEntry
  split
  · rename_i hnil
    rw [if_pos hnil] at hgroup
    rw [hout instrument (Dict.not_mem_keys hgroup), Dict.get?_empty, Option.getD_none]
    by_cases hdxy : "DXY" = instrument
    · simp [← hdxy]
    · by_cases hvxy : "VXY" = instrument
      · simp [← hvxy]
      · rw [if_neg hvxy, if_neg hdxy, if_neg]
        rintro (h | h)
        · exact hdxy h.symm
        · exact hvxy h.symm
  · rename_i hne
    rw [if_neg hne] at hgroup
    obtain ⟨features, hfeatures, hget⟩ := hmem _ (Dict.mem_entries.mpr hgroup)
    refine ⟨features, hfeatures, ?_⟩
    rw [hget, Option.getD_some, ite_self, Option.getD_some, ite_self]

theorem exists_macroFeatures (hcheck : ∀ point ∈ points, checkPoint point = .ok ())
    (h : ∀ instrument, pointsOf py points instrument ≠ [] → ∃ features,
      macroData py (pointsOf py points instrument) now policy = .ok features) :
    ∃ output, macroFeatures py points now policy = .ok output := by
  have hdata : ∀ entry ∈ (points.foldl (addPoint py) ∅).entries,
      ∃ features, macroData py entry.2 now policy = .ok features := by
    rintro ⟨instrument, values⟩ hentry
    have hgroup := (get?_group py points instrument).symm.trans (Dict.mem_entries.mp hentry)
    split at hgroup
    · cases hgroup
    · rename_i hne
      cases hgroup
      exact h instrument hne
  obtain ⟨filled, hfilled⟩ := Dict.exists_foldlM_set hdata ∅
  exact ⟨_, bind_eq_ok.mpr ⟨_, foldlM_check_eq_ok.mpr ⟨hcheck, rfl⟩,
    bind_eq_ok.mpr ⟨filled, hfilled, rfl⟩⟩⟩

omit [FloatOps F] in
theorem pointsOf_available (points : List (MacroPoint F)) (instrument : String) :
    pointsOf py (points.filter (Available now ·.clock)) instrument =
      (pointsOf py points instrument).filter (Available now ·.clock) := by
  unfold pointsOf
  rw [filter_filter, filter_filter]
  exact filter_congr fun _ _ ↦ Bool.and_comm _ _

/-- The features of an instrument whose latest point is fresh, and those of its points that
were available. -/
theorem macroData_available (hpy : py.KeepsSign) {values : List (MacroPoint F)}
    {features : SourceFeatures F (MacroData F)}
    (h : macroData py values now policy = .ok features) (hok : features.status = .ok) :
    ∃ latest earlier clock,
      (stableSortBy (fun p ↦ timeKey p.clock) values).reverse = latest :: earlier ∧
      features = .observed ⟨latest.value, returnSincePrevious latest earlier⟩ clock ∧
      macroData py (values.filter (Available now ·.clock)) now policy =
        .ok (.observed ⟨latest.value,
          returnSincePrevious latest (earlier.filter (Available now ·.clock))⟩ clock) := by
  unfold macroData at h
  split at h
  · cases h
  · rename_i latest earlier hsorted
    obtain ⟨clock, hclock, h⟩ := bind_eq_ok.mp h
    obtain rfl := Except.ok.inj h
    refine ⟨latest, earlier, clock, hsorted, rfl, ?_⟩
    unfold macroData
    rw [← filter_stableSortBy, ← filter_reverse, hsorted, filter_cons,
      if_pos (decide_eq_true (available_of_ok hpy hclock hok))]
    exact bind_eq_ok.mpr ⟨clock, hclock, rfl⟩

def ReturnKnown (now : Int) : List (MacroPoint F) → Prop
  | latest :: previous :: older =>
    Available now previous.clock ∨
      ∃ known, older.find? (Available now ·.clock) = some known ∧
        latest.value / known.value - 1 = latest.value / previous.value - 1
  | _ => True

theorem returnSincePrevious_eq_iff {latest : MacroPoint F} {earlier : List (MacroPoint F)} :
    returnSincePrevious latest (earlier.filter (Available now ·.clock)) =
        returnSincePrevious latest earlier ↔ ReturnKnown now (latest :: earlier) := by
  unfold returnSincePrevious
  rw [head?_filter]
  cases earlier with
  | nil => exact iff_of_true rfl trivial
  | cons previous older =>
    by_cases hprevious : Available now previous.clock
    · rw [find?_cons, decide_eq_true hprevious]
      exact iff_of_true rfl (.inl hprevious)
    · rw [find?_cons, decide_eq_false hprevious]
      refine Iff.trans ?_ (or_iff_right hprevious).symm
      exact Option.map_eq_some_iff

/-- The macro features of a fresh source have no part of the later points just when every
return is known. -/
theorem macroFeatures_available_iff (hpy : py.KeepsSign)
    {output : Dict String (SourceFeatures F (MacroData F))}
    (h : macroFeatures py points now policy = .ok output)
    (hok : ∀ features ∈ output.values, features.status = .ok) :
    (∃ output',
        macroFeatures py (points.filter (Available now ·.clock)) now policy = .ok output' ∧
          ∀ instrument, output'.get? instrument = output.get? instrument) ↔
      ∀ instrument, ReturnKnown now (latestFirst py points instrument) := by
  obtain ⟨hcheck, hentry⟩ := macroFeatures_entry h
  have hcases (instrument : String) : pointsOf py points instrument = [] ∨
      ∃ latest earlier clock, latestFirst py points instrument = latest :: earlier ∧
        output.get? instrument =
          some (.observed ⟨latest.value, returnSincePrevious latest earlier⟩ clock) ∧
        macroData py ((pointsOf py points instrument).filter (Available now ·.clock)) now policy =
          .ok (.observed ⟨latest.value,
            returnSincePrevious latest (earlier.filter (Available now ·.clock))⟩ clock) := by
    have hhere := hentry instrument
    unfold MacroEntry at hhere
    split at hhere
    · rename_i hnil
      exact .inl hnil
    · obtain ⟨features, hfeatures, hget⟩ := hhere
      obtain ⟨latest, earlier, clock, hlatest, rfl, havailable⟩ :=
        macroData_available hpy hfeatures (hok _ (Dict.mem_values.mpr ⟨instrument, hget⟩))
      exact .inr ⟨latest, earlier, clock, hlatest, hget, havailable⟩
  constructor
  · rintro ⟨output', h', hsame⟩ instrument
    rcases hcases instrument with hnil | ⟨latest, earlier, clock, hlatest, hget, hdata⟩
    · unfold latestFirst
      rw [hnil]
      trivial
    · have hentry' := (macroFeatures_entry h').2 instrument
      rw [← pointsOf_available] at hdata
      rw [macroEntry_of_ok hdata, hsame, hget, Option.some_inj] at hentry'
      injection hentry' with hvalue
      injection hvalue with _ hreturn
      rw [hlatest]
      exact returnSincePrevious_eq_iff.mp hreturn.symm
  · intro hknown
    have hdata (instrument : String)
        (hne : pointsOf py (points.filter (Available now ·.clock)) instrument ≠ []) :
        ∃ features, macroData py (pointsOf py (points.filter (Available now ·.clock)) instrument)
          now policy = .ok features := by
      rw [pointsOf_available] at hne ⊢
      rcases hcases instrument with hnil | ⟨_, _, _, _, _, hdata⟩
      · rw [hnil] at hne
        exact absurd rfl hne
      · exact ⟨_, hdata⟩
    obtain ⟨output', h'⟩ := exists_macroFeatures
      (fun point hpoint ↦ hcheck point (mem_filter.mp hpoint).1) hdata
    refine ⟨output', h', fun instrument ↦ ?_⟩
    have hentry' := (macroFeatures_entry h').2 instrument
    rcases hcases instrument with hnil | ⟨latest, earlier, clock, hlatest, hget, hdata⟩
    · have hhere := hentry instrument
      rw [macroEntry_of_nil hnil] at hhere
      rw [macroEntry_of_nil (by rw [pointsOf_available, hnil]; rfl)] at hentry'
      rw [hentry', hhere]
    · have hreturn := hknown instrument
      rw [hlatest, ← returnSincePrevious_eq_iff] at hreturn
      rw [← pointsOf_available] at hdata
      rw [macroEntry_of_ok hdata, hreturn] at hentry'
      rw [hentry', hget]

/-! ## A ready state -/

def Observations.availableAt (now : Int) (input : Observations F) : Observations F where
  quotes := input.quotes.filter (Available now ·.clock)
  books := input.books.filter (Available now ·.clock)
  trades := input.trades.filter (Available now ·.clock)
  macros := input.macros.filter (Available now ·.clock)

/-- Features are the same when they are as dictionaries, whatever the order of the keys. -/
structure Features.Same (features features' : Features F) : Prop where
  brokerQuote : features.brokerQuote = features'.brokerQuote
  futuresOrderBook : features.futuresOrderBook = features'.futuresOrderBook
  futuresTradeFlow : features.futuresTradeFlow = features'.futuresTradeFlow
  macros : ∀ instrument, features.macros.get? instrument = features'.macros.get? instrument

/-- No trade has an event time past the decision, and every return is known. -/
structure KnownBy (py : Builtins F) (now : Int) (input : Observations F) : Prop where
  trades : ∀ t ∈ input.trades, t.clock.eventTimeNs ≤ now
  returns : ∀ instrument, ReturnKnown now (latestFirst py input.macros instrument)

/-- The features are what the four kernels give. -/
structure ParallelMarketStateEngine.Reconstructs (engine : ParallelMarketStateEngine F)
    (py : Builtins F) (symbol : String) (now : Int) (input : Observations F)
    (features : Features F) : Prop where
  brokerQuote :
    quoteFeatures py input.quotes symbol now engine.quotePolicy = .ok features.brokerQuote
  futuresOrderBook :
    bookFeatures py input.books symbol now engine.bookPolicy = .ok features.futuresOrderBook
  futuresTradeFlow :
    tradeFeatures py input.trades symbol now engine.tradePolicy = .ok features.futuresTradeFlow
  macros : macroFeatures py input.macros now engine.macroPolicy = .ok features.macros

theorem reconstruct_eq_ok {engine : ParallelMarketStateEngine F} {input : Observations F}
    {state : State F} :
    engine.reconstruct py symbol now input = .ok state ↔
      symbol = "XAUUSD" ∧ ¬ now ≤ 0 ∧ ∃ features, engine.Reconstructs py symbol now input features ∧
        { instrument := symbol
          decisionTimeNs := now
          status := if features.ready then .readyForFusion else .partialOrStale
          features := features } = state := by
  constructor
  · intro h
    obtain ⟨_, hsymbol, h⟩ := bind_eq_ok.mp h
    obtain ⟨_, hnow, h⟩ := bind_eq_ok.mp h
    obtain ⟨brokerQuote, hquote, h⟩ := bind_eq_ok.mp h
    obtain ⟨futuresOrderBook, hbook, h⟩ := bind_eq_ok.mp h
    obtain ⟨futuresTradeFlow, htrade, h⟩ := bind_eq_ok.mp h
    obtain ⟨macroPoints, hmacros, h⟩ := bind_eq_ok.mp h
    refine ⟨require_eq_ok.mp hsymbol, require_eq_ok.mp hnow, ?_⟩
    exact ⟨⟨brokerQuote, futuresOrderBook, futuresTradeFlow, macroPoints⟩,
      ⟨hquote, hbook, htrade, hmacros⟩, Except.ok.inj h⟩
  · rintro ⟨hsymbol, hnow, features, hfeatures, rfl⟩
    refine bind_eq_ok.mpr ⟨(), require_eq_ok.mpr hsymbol, ?_⟩
    refine bind_eq_ok.mpr ⟨(), require_eq_ok.mpr hnow, ?_⟩
    refine bind_eq_ok.mpr ⟨_, hfeatures.brokerQuote, ?_⟩
    refine bind_eq_ok.mpr ⟨_, hfeatures.futuresOrderBook, ?_⟩
    refine bind_eq_ok.mpr ⟨_, hfeatures.futuresTradeFlow, ?_⟩
    exact bind_eq_ok.mpr ⟨_, hfeatures.macros, rfl⟩

omit [FloatOps F] in
theorem ready_iff {features : Features F} :
    features.ready = true ↔ features.brokerQuote.status = .ok ∧
      features.futuresOrderBook.status = .ok ∧ features.futuresTradeFlow.status = .ok ∧
        ∀ f ∈ features.macros.values, f.status = .ok := by
  unfold Features.ready
  simp only [all_append, all_cons, all_nil, all_map, Bool.and_true,
    Bool.and_eq_true, decide_eq_true_eq, all_eq_true, Function.comp_apply, and_assoc]

theorem of_ite_ready {b : Bool}
    (h : (if b then Readiness.readyForFusion else .partialOrStale) = .readyForFusion) :
    b = true := by
  cases b with
  | true => rfl
  | false => cases h

/-- The features of a ready state are those of the available records just when no trade is
from after the decision and every return is known. -/
theorem reconstruct_available_iff (py : Builtins F) (hpy : py.KeepsSign)
    (engine : ParallelMarketStateEngine F) (symbol : String) (now : Int) (input : Observations F)
    {state : State F} (h : engine.reconstruct py symbol now input = .ok state)
    (hready : state.status = .readyForFusion) :
    (∃ state', engine.reconstruct py symbol now (input.availableAt now) = .ok state' ∧
        state'.features.Same state.features) ↔ KnownBy py now input := by
  obtain ⟨hsymbol, hnow, features, hfeatures, rfl⟩ := reconstruct_eq_ok.mp h
  obtain ⟨hquoteOk, hbookOk, htradeOk, hmacroOk⟩ := ready_iff.mp (of_ite_ready hready)
  have htradeIff := tradeFeatures_available_iff hpy hfeatures.futuresTradeFlow htradeOk
  have hmacroIff := macroFeatures_available_iff hpy hfeatures.macros hmacroOk
  constructor
  · rintro ⟨state', h', hsame⟩
    obtain ⟨-, -, features', hfeatures', rfl⟩ := reconstruct_eq_ok.mp h'
    have htrade' := hfeatures'.futuresTradeFlow
    rw [show features'.futuresTradeFlow = features.futuresTradeFlow from hsame.futuresTradeFlow]
      at htrade'
    exact ⟨htradeIff.mp htrade', hmacroIff.mp ⟨features'.macros, hfeatures'.macros, hsame.macros⟩⟩
  · rintro ⟨htrades, hreturns⟩
    obtain ⟨macros', hmacros', hsame⟩ := hmacroIff.mpr hreturns
    have hfeatures' : engine.Reconstructs py symbol now (input.availableAt now)
        { features with macros := macros' } :=
      { brokerQuote := quoteFeatures_available hpy hfeatures.brokerQuote hquoteOk
        futuresOrderBook := bookFeatures_available hpy hfeatures.futuresOrderBook hbookOk
        futuresTradeFlow := htradeIff.mpr htrades
        macros := hmacros' }
    have h' := reconstruct_eq_ok.mpr ⟨hsymbol, hnow, _, hfeatures', rfl⟩
    exact ⟨_, h', ⟨rfl, rfl, rfl, hsame⟩⟩

end Available

/-! ## A trade from after the decision -/

section

/-- Exact numbers, and strings already in upper case. -/
def exactBuiltins : Builtins ℚ where
  upper := id
  sum := List.sum
  millis := fun ns ↦ some (ns / 1000000)

def exactEngine : ParallelMarketStateEngine ℚ where
  quotePolicy := ⟨500, 250, by decide +kernel, by decide +kernel⟩
  bookPolicy := ⟨500, 250, by decide +kernel, by decide +kernel⟩
  tradePolicy := ⟨1000, 250, by decide +kernel, by decide +kernel⟩
  macroPolicy := ⟨120000, 250, by decide +kernel, by decide +kernel⟩
  workers := 4
  workers_ok := by decide

/-- Two trades known at time 1000, the second of them dated after it. -/
def lateTrade : Observations ℚ where
  quotes := [⟨⟨"broker", 900, 901⟩, "XAUUSD", 100, 101, 1, 1⟩]
  books := [⟨⟨"COMEX", 900, 901⟩, "XAUUSD", [⟨100, 1⟩], [⟨101, 1⟩]⟩]
  trades := [⟨⟨"COMEX", 900, 950⟩, "XAUUSD", 100, 1, 1⟩, ⟨⟨"COMEX", 1001, 901⟩, "XAUUSD", 100, 1, 1⟩]
  macros := [⟨⟨"provider", 900, 901⟩, "DXY", 101⟩, ⟨⟨"provider", 900, 901⟩, "VXY", 15⟩]

def printCount : Features ℚ → Option Nat := fun features ↦
  match features.futuresTradeFlow with
  | .missing _ => none
  | .observed data _ => some data.printCount

/-- The state is ready and has counted the trade that is dated after the decision. -/
theorem late_trade_counted :
    (exactEngine.reconstruct exactBuiltins "XAUUSD" 1000 lateTrade).map
        (fun state ↦ (state.status, printCount state.features)) =
          .ok (.readyForFusion, some 2) ∧
      (exactEngine.reconstruct exactBuiltins "XAUUSD" 1000 (lateTrade.availableAt 1000)).map
        (fun state ↦ (state.status, printCount state.features)) =
          .ok (.readyForFusion, some 1) := by
  decide +kernel

theorem lateTrade_ready :
    ∃ state, exactEngine.reconstruct exactBuiltins "XAUUSD" 1000 lateTrade = .ok state ∧
      state.status = .readyForFusion := by
  have hready : (exactEngine.reconstruct exactBuiltins "XAUUSD" 1000 lateTrade).map (·.status) =
      .ok .readyForFusion := by decide +kernel
  cases h : exactEngine.reconstruct exactBuiltins "XAUUSD" 1000 lateTrade with
  | error e =>
    rw [h] at hready
    cases hready
  | ok state =>
    rw [h] at hready
    exact ⟨state, rfl, Except.ok.inj hready⟩

theorem exactBuiltins_keepsSign : exactBuiltins.KeepsSign := by
  rintro ns _ ⟨⟩
  rw [le_div_iff₀ (by decide +kernel), zero_mul, Int.cast_nonneg_iff]

theorem reconstruct_available_iff_late :
    ∃ state, exactEngine.reconstruct exactBuiltins "XAUUSD" 1000 lateTrade = .ok state ∧
      ((∃ state', exactEngine.reconstruct exactBuiltins "XAUUSD" 1000 (lateTrade.availableAt 1000) =
          .ok state' ∧ state'.features.Same state.features) ↔
        KnownBy exactBuiltins 1000 lateTrade) := by
  obtain ⟨state, h, hready⟩ := lateTrade_ready
  exact ⟨state, h, reconstruct_available_iff exactBuiltins exactBuiltins_keepsSign exactEngine
    "XAUUSD" 1000 lateTrade h hready⟩

end

end Qros.Orchestration.MarketState
