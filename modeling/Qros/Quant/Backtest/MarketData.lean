import Qros.Lib.Machine
import Qros.Quant.Market.Candle
import Qros.Quant.Market.TimeIndex

/-!
# Market data

`include/quant/backtest/market_data.h`, `src/backtest/market_data.cpp`: a series of
candles with an index of their time stamps, built when it is first asked for.

`load` clears the candles before it has checked the new ones, and a load that is
refused half way leaves the accepted candles in place without marking the index
as stale.  `marketData_safe_iff` says when that does no harm: only if the refused
series repeats the stored candles before the one that is refused.
-/

universe u

namespace Qros.Quant

open Qros.Lib List

/-- `MarketDataConfig`; the bounds are only read by `validate`. -/
structure MarketDataConfig where
  symbol : List Char
  timeframe : Timeframe
  start : Option TimePoint
  «end» : Option TimePoint
deriving DecidableEq

structure MarketData (F : Type u) where
  config : MarketDataConfig
  candles : List (Candle F)
  index : TimeIndex
  indexDirty : Bool

namespace MarketData

variable {F : Type u}

def new (cfg : MarketDataConfig) : MarketData F := ⟨cfg, [], .empty, true⟩

def rebuildIndexIfNeeded (md : MarketData F) : MarketData F :=
  if md.indexDirty then
    { md with index := .build (md.candles.map Candle.timestamp), indexDirty := false }
  else md

def findIndex (md : MarketData F) (tp : TimePoint) : Option Nat × MarketData F :=
  let md := md.rebuildIndexIfNeeded
  let (found, index) := md.index.find tp
  (found, { md with index := index })

theorem rebuildIndexIfNeeded_candles (md : MarketData F) :
    md.rebuildIndexIfNeeded.candles = md.candles := by
  unfold rebuildIndexIfNeeded
  split <;> rfl

variable [Zero F] [LE F] [LT F] [DecidableLE F] [DecidableLT F]

def loadLoop (i : Nat) (prev : TimePoint) : List (Candle F) → Result Unit × List (Candle F)
  | [] => (.ok (), [])
  | c :: cs =>
    if !c.isValid then
      (.error ⟨.invalidArgument, "MarketData::load: invalid candle at index " ++ toString i⟩, [])
    else if 0 < i ∧ c.timestamp ≤ prev then
      (.error ⟨.invalidArgument, "MarketData::load: timestamps must be strictly increasing; " ++
        "violation at index " ++ toString i⟩, [])
    else
      let (r, stored) := loadLoop (i + 1) c.timestamp cs
      (r, c :: stored)

def load (md : MarketData F) (symbol : List Char) (tf : Timeframe) (cs : List (Candle F)) :
    Result Unit × MarketData F :=
  let md := { md with config := ⟨symbol, tf, none, none⟩ }
  match loadLoop 0 0 cs with
  | (.error e, stored) => (.error e, { md with candles := stored })
  | (.ok _, stored) => (.ok (), { md with candles := stored, indexDirty := true })

def loadOhlcv (md : MarketData F) (symbol : List Char) (tf : Timeframe) (bars : List (OHLCV F)) :
    Result Unit × MarketData F :=
  md.load symbol tf (bars.map (Candle.ofOhlcv · tf))

def append (md : MarketData F) (candle : Candle F) : Result Unit × MarketData F :=
  if !candle.isValid then
    (.error ⟨.invalidArgument, "MarketData::append: invalid candle"⟩, md)
  else if md.candles ≠ [] ∧ candle.timestamp ≤ (md.candles.getLastD default).timestamp then
    (.error ⟨.invalidArgument, "MarketData::append: timestamp must be strictly increasing"⟩, md)
  else (.ok (), { md with candles := md.candles ++ [candle], indexDirty := true })

/-! ## What one call does -/

theorem loadLoop_spec (cs : List (Candle F)) {pre : List (Candle F)} (hpre : Series pre)
    (prev : TimePoint)
    (hprev : ∀ last, pre.getLast? = some last → last.timestamp = prev) :
    (Series (pre ++ cs) ∧ loadLoop pre.length prev cs = (.ok (), cs)) ∨
      ∃ e as c bs, cs = as ++ c :: bs ∧ Series (pre ++ as) ∧ ¬ Series (pre ++ as ++ [c]) ∧
        loadLoop pre.length prev cs = (.error e, as) := by
  induction cs generalizing pre prev with
  | nil =>
    left
    rw [append_nil]
    exact ⟨hpre, rfl⟩
  | cons c cs ih =>
    have hlast : pre ≠ [] → ∃ last, pre.getLast? = some last ∧ last.timestamp = prev := by
      intro hne
      exact ⟨pre.getLast hne, getLast?_eq_some_getLast hne,
        hprev _ (getLast?_eq_some_getLast hne)⟩
    rw [loadLoop]
    by_cases hvalid : c.isValid = true
    · rw [if_neg (by rw [hvalid]; decide)]
      by_cases hle : 0 < pre.length ∧ c.timestamp ≤ prev
      · rw [if_pos hle]
        refine .inr ⟨_, [], c, cs, rfl, by rwa [append_nil], fun h ↦ ?_, rfl⟩
        rw [append_nil] at h
        obtain ⟨last, hsome, hts⟩ := hlast (ne_nil_of_length_pos hle.1)
        have := ((series_concat_iff hpre).mp h).2 last hsome
        rw [hts] at this
        exact absurd hle.2 (not_le.mpr this)
      · rw [if_neg hle]
        have hc : Series (pre ++ [c]) := by
          refine (series_concat_iff hpre).mpr ⟨hvalid, fun last hsome ↦ ?_⟩
          rw [hprev last hsome]
          refine not_le.mp fun h ↦ hle ⟨?_, h⟩
          exact length_pos_of_mem (mem_of_getLast? hsome)
        have hstep := ih hc c.timestamp (by simp)
        rw [length_append, length_singleton] at hstep
        rcases hstep with ⟨hs, hl⟩ | ⟨e, as, d, bs, rfl, hs, hd, hl⟩
        · rw [hl]
          exact .inl ⟨by simpa using hs, rfl⟩
        · rw [hl]
          exact .inr ⟨e, c :: as, d, bs, rfl, by simpa using hs, by simpa using hd, rfl⟩
    · rw [if_pos (by simpa using hvalid)]
      refine .inr ⟨_, [], c, cs, rfl, by rwa [append_nil], fun h ↦ ?_, rfl⟩
      exact hvalid (h.valid c (by simp))

/-- `load` takes a series, and is otherwise left with the candles before the first it
refuses. -/
theorem load_cases (md : MarketData F) (symbol : List Char) (tf : Timeframe)
    (cs : List (Candle F)) :
    (Series cs ∧ md.load symbol tf cs =
      (.ok (), { md with config := ⟨symbol, tf, none, none⟩, candles := cs, indexDirty := true })) ∨
    ∃ e as c bs, cs = as ++ c :: bs ∧ Series as ∧ ¬ Series (as ++ [c]) ∧
      md.load symbol tf cs =
        (.error e, { md with config := ⟨symbol, tf, none, none⟩, candles := as }) := by
  rcases loadLoop_spec cs Series.nil 0 (by simp) with
    ⟨hs, hl⟩ | ⟨e, as, c, bs, hcs, hs, hc, hl⟩
  · refine .inl ⟨hs, ?_⟩
    rw [load, show loadLoop 0 0 cs = _ from hl]
  · refine .inr ⟨e, as, c, bs, hcs, hs, hc, ?_⟩
    rw [load, show loadLoop 0 0 cs = _ from hl]

variable {md : MarketData F}

theorem append_cases (h : Series md.candles) (candle : Candle F) :
    (Series (md.candles ++ [candle]) ∧
      md.append candle =
      (.ok (), { md with candles := md.candles ++ [candle], indexDirty := true })) ∨
    ∃ e, md.append candle = (.error e, md) := by
  have hlast : md.candles ≠ [] →
      md.candles.getLast? = some (md.candles.getLastD default) := by
    intro hne
    rw [getLast?_eq_some_getLast hne, getLastD_eq_getLast?,
      getLast?_eq_some_getLast hne, Option.getD_some]
  rw [append]
  by_cases hvalid : candle.isValid = true
  · rw [if_neg (by rw [hvalid]; decide)]
    by_cases hle : md.candles ≠ [] ∧ candle.timestamp ≤ (md.candles.getLastD default).timestamp
    · rw [if_pos hle]
      exact .inr ⟨_, rfl⟩
    · rw [if_neg hle]
      refine .inl ⟨(series_concat_iff h).mpr ⟨hvalid, fun last hsome ↦ ?_⟩, rfl⟩
      have hne : md.candles ≠ [] := ne_nil_of_mem (mem_of_getLast? hsome)
      have := Option.some.inj (hsome.symm.trans (hlast hne))
      rw [this]
      exact not_le.mp fun h ↦ hle ⟨hne, h⟩
  · rw [if_pos (by simpa using hvalid)]
    exact .inr ⟨_, rfl⟩

/-! ## Sequences of calls -/

inductive Call (F : Type u) where
  | load (symbol : List Char) (tf : Timeframe) (cs : List (Candle F))
  | loadOhlcv (symbol : List Char) (tf : Timeframe) (bars : List (OHLCV F))
  | append (candle : Candle F)
  | setConfig (cfg : MarketDataConfig)
  | findIndex (tp : TimePoint)

inductive Answer where
  | done (r : Result Unit)
  | found (i : Option Nat)

def step : Call F → MarketData F → Answer × MarketData F
  | .load symbol tf cs, md => ((md.load symbol tf cs).map .done id)
  | .loadOhlcv symbol tf bars, md => ((md.loadOhlcv symbol tf bars).map .done id)
  | .append candle, md => ((md.append candle).map .done id)
  | .setConfig cfg, md => (.done (.ok ()), { md with config := cfg })
  | .findIndex tp, md => ((md.findIndex tp).map .found id)

def machine (F : Type u) [Zero F] [LE F] [LT F] [DecidableLE F] [DecidableLT F]
    (cfg : MarketDataConfig) : Machine (MarketData F) (Call F) Answer where
  init := new cfg
  step := step

def Call.series : Call F → Option (List (Candle F))
  | .load _ _ cs => some cs
  | .loadOhlcv _ tf bars => some (bars.map (Candle.ofOhlcv · tf))
  | _ => none

/-- `find_index` gives `i` just when the candle at `i` has the time stamp. -/
def Coherent (md : MarketData F) : Prop :=
  ∀ tp i, (md.findIndex tp).1 = some i ↔ ∃ c, md.candles[i]? = some c ∧ c.timestamp = tp

/-- If the call is a `load` and is refused, the candles and the index stay as they were. -/
def FailsAtomically (md : MarketData F) (call : Call F) : Prop :=
  call.series.isSome → (∃ e, (step call md).1 = .done (.error e)) →
    (step call md).2.candles = md.candles ∧ (step call md).2.index = md.index ∧
      (step call md).2.indexDirty = md.indexDirty

/-- A series that is loaded is a good one, or it repeats the stored candles and then has
one that cannot follow them. -/
def GoodOrRepeats (md : MarketData F) (call : Call F) : Prop :=
  ∀ cs, call.series = some cs → Series cs ∨
    ∃ c rest, cs = md.candles ++ c :: rest ∧ ¬ Series (md.candles ++ [c])

theorem step_of_series {call : Call F} {cs : List (Candle F)} (h : call.series = some cs)
    (md : MarketData F) :
    ∃ symbol tf, step call md = ((md.load symbol tf cs).map .done id) := by
  cases call with
  | load symbol tf cs' =>
    cases h
    exact ⟨symbol, tf, rfl⟩
  | loadOhlcv symbol tf bars =>
    cases h
    exact ⟨symbol, tf, rfl⟩
  | append candle => cases h
  | setConfig cfg => cases h
  | findIndex tp => cases h

theorem step_series (h : Series md.candles) (call : Call F) :
    Series (step call md).2.candles := by
  cases hcs : call.series with
  | some cs =>
    obtain ⟨symbol, tf, hstep⟩ := step_of_series hcs md
    rw [hstep]
    rcases load_cases md symbol tf cs with ⟨hs, hl⟩ | ⟨e, as, c, bs, -, hs, -, hl⟩
    · rw [hl]
      exact hs
    · rw [hl]
      exact hs
  | none =>
    cases call with
    | load symbol tf cs => cases hcs
    | loadOhlcv symbol tf bars => cases hcs
    | append candle =>
      change Series (md.append candle).2.candles
      rcases append_cases h candle with ⟨hs, ha⟩ | ⟨e, ha⟩
      · rw [ha]
        exact hs
      · rw [ha]
        exact h
    | setConfig cfg => exact h
    | findIndex tp =>
      change Series md.rebuildIndexIfNeeded.candles
      rwa [rebuildIndexIfNeeded_candles]

theorem series_after (cfg : MarketDataConfig) (calls : List (Call F)) :
    Series ((machine F cfg).after calls).candles := by
  induction calls using reverseRecOn with
  | nil => exact Series.nil
  | append_singleton calls call ih =>
    rw [Machine.after_concat]
    exact step_series ih call

theorem failsAtomically_iff (h : Series md.candles) (call : Call F) :
    FailsAtomically md call ↔ GoodOrRepeats md call := by
  cases hcs : call.series with
  | none => simp [FailsAtomically, GoodOrRepeats, hcs]
  | some cs =>
    obtain ⟨symbol, tf, hstep⟩ := step_of_series hcs md
    simp only [FailsAtomically, GoodOrRepeats, hcs, hstep, Option.isSome_some, forall_const,
      Option.some.injEq, forall_eq']
    rcases load_cases md symbol tf cs with ⟨hs, hl⟩ | ⟨e, as, c, bs, rfl, hs, hc, hl⟩
    · rw [hl]
      exact iff_of_true (fun ⟨e, he⟩ ↦ by cases he) (.inl hs)
    · rw [hl]
      constructor
      · intro hatomic
        obtain ⟨hcandles, -⟩ := hatomic ⟨e, rfl⟩
        obtain rfl : as = md.candles := hcandles
        exact .inr ⟨c, bs, rfl, hc⟩
      · rintro (hgood | ⟨c', rest, heq, hc'⟩) -
        · rw [append_cons] at hgood
          exact absurd hgood.of_append hc
        · obtain rfl := Series.unique heq hs hc h hc'
          exact ⟨rfl, rfl, rfl⟩

/-- What the index is good for: unless it is marked as stale, it holds the time stamps of
the stored candles. -/
structure Indexed (md : MarketData F) : Prop where
  series : Series md.candles
  sorted : md.index.sorted = true
  entries : md.indexDirty = false →
    md.index.entries = (md.candles.map Candle.timestamp).zipIdx

theorem Indexed.increasing (h : Indexed md) :
    (md.candles.map Candle.timestamp).Pairwise (· < ·) :=
  pairwise_map.mpr h.series.increasing

theorem Indexed.rebuild (h : Indexed md) : Indexed md.rebuildIndexIfNeeded := by
  unfold rebuildIndexIfNeeded
  split
  · exact ⟨h.series, rfl, fun _ ↦ TimeIndex.build_entries h.increasing⟩
  · exact h

theorem Indexed.findIndex_eq (h : Indexed md) (tp : TimePoint) :
    md.findIndex tp = (md.rebuildIndexIfNeeded.index.lookup tp, md.rebuildIndexIfNeeded) := by
  simp only [findIndex, TimeIndex.find, h.rebuild.sorted, if_true]

theorem Indexed.coherent (h : Indexed md) : Coherent md := by
  intro tp i
  have hdirty : md.rebuildIndexIfNeeded.indexDirty = false := by
    unfold rebuildIndexIfNeeded
    split
    · rfl
    · exact Bool.not_eq_true _ ▸ ‹_›
  rw [h.findIndex_eq tp, TimeIndex.lookup_eq_some_iff (h.rebuild.entries hdirty) h.rebuild.increasing,
    rebuildIndexIfNeeded_candles, getElem?_map, Option.map_eq_some_iff]

theorem Indexed.step (h : Indexed md) {call : Call F} (hcall : GoodOrRepeats md call) :
    Indexed (step call md).2 := by
  cases hcs : call.series with
  | some cs =>
    obtain ⟨symbol, tf, hstep⟩ := step_of_series hcs md
    rcases load_cases md symbol tf cs with ⟨hs, hl⟩ | ⟨e, as, c, bs, -, hs, hc, hl⟩
    · rw [hstep, hl]
      exact ⟨hs, h.sorted, fun hfalse ↦ by cases hfalse⟩
    · have hatomic := (failsAtomically_iff h.series call).mpr hcall (by rw [hcs]; rfl)
      rw [hstep, hl] at hatomic ⊢
      obtain ⟨hcandles, hindex, hdirty⟩ := hatomic ⟨e, rfl⟩
      refine ⟨hs, h.sorted, fun hfalse ↦ ?_⟩
      exact (h.entries hfalse).trans
        (congrArg (fun cs ↦ (cs.map Candle.timestamp).zipIdx) hcandles.symm)
  | none =>
    cases call with
    | load symbol tf cs => cases hcs
    | loadOhlcv symbol tf bars => cases hcs
    | append candle =>
      change Indexed (md.append candle).2
      rcases append_cases h.series candle with ⟨hs, ha⟩ | ⟨e, ha⟩
      · rw [ha]
        exact ⟨hs, h.sorted, fun hfalse ↦ by cases hfalse⟩
      · rwa [ha]
    | setConfig cfg => exact ⟨h.series, h.sorted, h.entries⟩
    | findIndex tp =>
      change Indexed (md.findIndex tp).2
      rw [h.findIndex_eq tp]
      exact h.rebuild

/-- **The index and the candles agree, and refused loads change nothing, through every call
of a run** just when every load of it is of a good series, or of one that repeats the
stored candles before the first it cannot follow them with. -/
theorem marketData_safe_iff (cfg : MarketDataConfig) (calls : List (Call F)) :
    ((∀ pre, pre <+: calls → Coherent ((machine F cfg).after pre)) ∧
      Meets (fun pre call ↦ FailsAtomically ((machine F cfg).after pre) call) calls) ↔
      Meets (fun pre call ↦ GoodOrRepeats ((machine F cfg).after pre) call) calls := by
  have hatomic : Meets (fun pre call ↦ FailsAtomically ((machine F cfg).after pre) call) calls ↔
      Meets (fun pre call ↦ GoodOrRepeats ((machine F cfg).after pre) call) calls :=
    meets_congr fun pre call _ _ ↦ failsAtomically_iff (series_after cfg pre) call
  constructor
  · rintro ⟨-, hfails⟩
    exact hatomic.mp hfails
  · intro hgood
    refine ⟨fun pre hpre ↦ Indexed.coherent ?_, hatomic.mpr hgood⟩
    have hmeets : Meets (fun pre call ↦ GoodOrRepeats ((machine F cfg).after pre) call) pre :=
      fun pre' call hpre' ↦ hgood pre' call (hpre'.trans hpre)
    refine hmeets.induction (I := fun calls ↦ Indexed ((machine F cfg).after calls)) ?_ ?_
    · exact ⟨Series.nil, rfl, fun hfalse ↦ by cases hfalse⟩
    · intro calls call _ ih hcall
      rw [Machine.after_concat]
      exact ih.step hcall

section Sample

/-- A bar at `t` whose prices are all 1, but for its low. -/
private def flatBar (t : TimePoint) (low : ℚ) : Candle ℚ := ⟨t, 1, 1, low, 1, 0, 0, 0, .m1⟩

private def sampleConfig : MarketDataConfig := ⟨['X', 'A', 'U'], .m1, none, none⟩

private def sampleCalls : List (Call ℚ) :=
  [.load ['X', 'A', 'U'] .m1 [flatBar 1 1, flatBar 2 1], .findIndex 1]

private def refusedLoad : Call ℚ := .load ['X', 'A', 'U'] .m1 [flatBar 5 1, flatBar 6 2]

/-- A load that is refused at its second candle: the two candles that were there are gone,
and the index still finds the first of them. -/
theorem refused_load_spoils_index :
    ¬ FailsAtomically ((machine ℚ sampleConfig).after sampleCalls) refusedLoad ∧
      ¬ Coherent ((machine ℚ sampleConfig).after (sampleCalls ++ [refusedLoad])) := by
  constructor
  · intro h
    obtain ⟨hcandles, -⟩ := h (by decide) ⟨⟨.invalidArgument, _⟩, rfl⟩
    exact absurd hcandles (by decide +kernel)
  · intro h
    have hstale : (((machine ℚ sampleConfig).after (sampleCalls ++ [refusedLoad])).findIndex 1).1 =
        (TimeIndex.build [1, 2]).lookup 1 := rfl
    have hfound : (TimeIndex.build [1, 2]).lookup 1 = some 0 :=
      (TimeIndex.lookup_eq_some_iff (TimeIndex.build_entries (by decide)) (by decide)).mpr rfl
    obtain ⟨c, hc, ht⟩ := (h 1 0).mp (hstale.trans hfound)
    have : c = flatBar 5 1 := (Option.some.inj hc).symm
    subst this
    exact absurd ht (by decide)

end Sample

end MarketData

end Qros.Quant
