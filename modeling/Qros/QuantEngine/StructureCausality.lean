import Mathlib.Data.Rat.Floor
import Qros.QuantEngine.MarketStructure

/-!
# Market structure does not look ahead

The checks, the gaps and the average true range of a prefix are those of the whole series up
to there, and a turn of the loop reads the bars up to its own.  So the events that the detector
reports for a prefix are the events of the whole series before its end (`detect_take`).
-/

namespace Qros.QuantEngine.Technical

open Qros.Lib Qros.Lib.Online Qros.Python List

/-! ## Checks -/

section

variable {F : Type} [LinearOrder F] {high low close : List F}

theorem validateOhlc_eq_ok {u : Unit} : validateOhlc high low close = .ok u ↔
    (high.length = low.length ∧ low.length = close.length) ∧ close ≠ [] ∧
      (∀ bar ∈ high.zip low, ¬ bar.1 < bar.2) ∧
      ∀ bar ∈ (high.zip low).zip close, ¬ bar.1.1 < bar.2 ∧ ¬ bar.2 < bar.1.2 := by
  unfold validateOhlc
  simp only [bind_eq_ok, require_eq_ok, exists_const]

theorem validateOhlc_take {k : Nat} (h : validateOhlc high low close = .ok ()) (hk : 0 < k) :
    validateOhlc (high.take k) (low.take k) (close.take k) = .ok () := by
  obtain ⟨⟨hhigh, hlow⟩, hne, hbars, hclose⟩ := validateOhlc_eq_ok.mp h
  rw [validateOhlc_eq_ok, ← take_zip, ← take_zip]
  refine ⟨?_, ?_, fun bar hbar ↦ hbars bar (mem_of_mem_take hbar),
    fun bar hbar ↦ hclose bar (mem_of_mem_take hbar)⟩
  · simp only [length_take, hhigh, hlow, and_self]
  · rw [ne_eq, take_eq_nil_iff, not_or]
    exact ⟨hk.ne', hne⟩

variable {epochs : List Int}

theorem validateTimestamps_take {values : List Timestamp} {previous : Option Int}
    (h : validateTimestamps previous values = .ok epochs) (k : Nat) :
    validateTimestamps previous (values.take k) = .ok (epochs.take k) := by
  induction values generalizing previous epochs k with
  | nil =>
    cases h
    rw [take_nil, take_nil]
    rfl
  | cons value values ih =>
    unfold validateTimestamps at h
    obtain ⟨_, hutc, h⟩ := bind_eq_ok.mp h
    obtain ⟨_, hminute, h⟩ := bind_eq_ok.mp h
    obtain ⟨_, hincreasing, h⟩ := bind_eq_ok.mp h
    obtain ⟨later, hlater, h⟩ := bind_eq_ok.mp h
    cases h
    cases k with
    | zero => rfl
    | succ k =>
      rw [take_succ_cons, take_succ_cons]
      unfold validateTimestamps
      rw [hutc, hminute, hincreasing, ih hlater k]
      rfl

theorem length_of_validateTimestamps {values : List Timestamp} {previous : Option Int}
    (h : validateTimestamps previous values = .ok epochs) :
    epochs.length = values.length := by
  induction values generalizing previous epochs with
  | nil =>
    cases h
    rfl
  | cons value values ih =>
    unfold validateTimestamps at h
    obtain ⟨_, -, h⟩ := bind_eq_ok.mp h
    obtain ⟨_, -, h⟩ := bind_eq_ok.mp h
    obtain ⟨_, -, h⟩ := bind_eq_ok.mp h
    obtain ⟨later, hlater, h⟩ := bind_eq_ok.mp h
    cases h
    rw [length_cons, length_cons, ih hlater]

theorem gapsBefore_take {k : Nat} (hk : 0 < k) :
    (gapsBefore epochs).take k = gapsBefore (epochs.take k) := by
  obtain ⟨m, rfl⟩ := Nat.exists_eq_succ_of_ne_zero hk.ne'
  unfold gapsBefore
  rw [take_succ_cons, tail_take_eq_take_tail, Nat.succ_sub_one]
  refine congrArg (false :: ·) (ext_getElem? fun i ↦ ?_)
  simp only [getElem?_take, getElem?_zipWith]
  by_cases hi : i < m
  · rw [if_pos hi, if_pos (Nat.lt_succ_of_lt hi), if_pos hi]
  · rw [if_neg hi, if_neg hi]
    cases (if i < m.succ then epochs[i]? else none) with
    | none => rfl
    | some a => rfl

theorem validateUtcTimestamps_take {timestamps : Option (List Timestamp)} {n k : Nat}
    {gapBefore : List Bool} (h : validateUtcTimestamps timestamps n = .ok gapBefore) (hk : 0 < k) :
    validateUtcTimestamps (timestamps.map (List.take k)) (min k n) = .ok (gapBefore.take k) := by
  unfold validateUtcTimestamps at h ⊢
  obtain ⟨values, hvalues, h⟩ := bind_eq_ok.mp h
  obtain ⟨_, hlength, h⟩ := bind_eq_ok.mp h
  obtain ⟨epochs, hepochs, h⟩ := bind_eq_ok.mp h
  cases h
  rw [found_eq_ok] at hvalues
  rw [require_eq_ok] at hlength
  rw [hvalues, Option.map_some, bind_eq_ok]
  refine ⟨values.take k, rfl, bind_eq_ok.mpr ⟨(), ?_, bind_eq_ok.mpr ⟨epochs.take k, ?_, ?_⟩⟩⟩
  · rw [require_eq_ok, length_take, hlength]
  · exact validateTimestamps_take hepochs k
  · rw [gapsBefore_take hk]
    rfl

end

/-! ## Arrays -/

section

variable {F : Type} [Field F] [LinearOrder F]

omit [Field F] [LinearOrder F] in
theorem causal_previousClose : Causal (previousClose (F := F)) := by
  intro close k
  cases close with
  | nil =>
    rw [take_nil]
    exact take_nil
  | cons c close =>
    cases k with
    | zero => rfl
    | succ k =>
      unfold previousClose
      rw [take_succ_cons, take_succ_cons]
      refine congrArg (c :: ·) ?_
      rw [dropLast_eq_take, dropLast_eq_take, take_take, length_cons,
        length_cons, Nat.add_sub_cancel, Nat.add_sub_cancel, length_take,
        ← take_succ_cons, take_take]
      congr 1
      omega

theorem trueRange_take (high low close : List F) (k : Nat) :
    (trueRange high low close).take k = trueRange (high.take k) (low.take k) (close.take k) := by
  unfold trueRange
  rw [← map_take, take_zip, take_zip, causal_previousClose]

variable {high low close : List F}

theorem length_trueRange (hhigh : high.length = low.length) (hlow : low.length = close.length) :
    (trueRange high low close).length = close.length := by
  have hprevious : (previousClose close).length = close.length := by
    cases close with
    | nil => rfl
    | cons c close =>
      rw [previousClose, length_cons, length_dropLast, length_cons,
        Nat.add_sub_cancel]
  unfold trueRange
  rw [length_map, length_zip, length_zip, hhigh, hlow, hprevious, Nat.min_self,
    Nat.min_self]

theorem getElem?_atr {period : Nat} (hhigh : high.length = low.length)
    (hlow : low.length = close.length) (hperiod : 1 ≤ period) (i : Nat) :
    (atr high low close period)[i]? =
      if i < close.length then
        some (if i + 1 < period then none else
          let cumulative := List.scanl (· + ·) (0 : F) (trueRange high low close)
          some ((cumulative.getD (i + 1) 0 - cumulative.getD (i + 1 - period) 0) / (period : F)))
      else none := by
  have hlength : (List.scanl (· + ·) (0 : F) (trueRange high low close)).length =
      close.length + 1 := by
    rw [length_scanl, length_trueRange hhigh hlow]
  unfold atr
  dsimp only
  generalize List.scanl (· + ·) (0 : F) (trueRange high low close) = cumulative at hlength
  split
  · rename_i henough
    by_cases hi : i + 1 < period
    · rw [getElem?_append_left (by rw [length_replicate]; omega), if_pos (by omega),
        if_pos hi, getElem?_replicate_of_lt (by omega)]
    · rw [getElem?_append_right (by rw [length_replicate]; omega), if_neg hi,
        length_replicate, getElem?_zipWith, getElem?_drop, getElem?_take]
      have hindex : period + (i - (period - 1)) = i + 1 := by omega
      have hindex' : i - (period - 1) = i + 1 - period := by omega
      rw [hindex, hindex']
      by_cases hlt : i < close.length
      · have hcount : i + 1 - period < cumulative.length - period := by omega
        rw [if_pos hlt, if_pos hcount, getD_eq_getElem?_getD, getD_eq_getElem?_getD,
          getElem?_eq_getElem (show i + 1 < cumulative.length by omega),
          getElem?_eq_getElem (show i + 1 - period < cumulative.length by omega)]
        rfl
      · rw [if_neg hlt, getElem?_eq_none (by omega)]
  · rename_i hshort
    rw [getElem?_replicate]
    split
    · rw [if_pos (by omega)]
    · rfl

theorem atr_take {period : Nat} (hhigh : high.length = low.length)
    (hlow : low.length = close.length) (hperiod : 1 ≤ period) (k : Nat) :
    (atr high low close period).take k = atr (high.take k) (low.take k) (close.take k) period := by
  apply ext_getElem?
  intro i
  rw [getElem?_take, getElem?_atr hhigh hlow hperiod,
    getElem?_atr (by simp only [length_take, hhigh]) (by simp only [length_take, hlow])
      hperiod, ← trueRange_take, ← take_scanl, length_take]
  by_cases hi : i < k
  · rw [if_pos hi]
    by_cases hlt : i < close.length
    · dsimp only
      rw [if_pos hlt, if_pos (show i < min k close.length by omega),
        getD_take (show i + 1 < k + 1 by omega), getD_take (show i + 1 - period < k + 1 by omega)]
    · rw [if_neg hlt, if_neg (by omega)]
  · rw [if_neg hi, if_neg (by omega)]

end

/-! ## The loop -/

section

variable {F : Type} [Field F] [LinearOrder F]

/-- The first `k` entries of the arrays. -/
def Series.take (k : Nat) (s : Series F) : Series F where
  high := s.high.take k
  low := s.low.take k
  close := s.close.take k
  atr := s.atr.take k
  gapBefore := s.gapBefore.take k

variable {s : Series F} {values : List F} {index k : Nat}

theorem isConfirmedBreak_take (level : F) (direction : Direction) (config : MarketStructureConfig F)
    (atr : List (Option F)) (gapBefore : List Bool) (h : index < k) :
    isConfirmedBreak (values.take k) index level direction config (atr.take k) (gapBefore.take k) =
      isConfirmedBreak values index level direction config atr gapBefore := by
  unfold isConfirmedBreak
  dsimp only
  rw [slice_take (show index + 1 ≤ k from h), slice_take (show index + 1 ≤ k from h),
    slice_take (show index + 1 ≤ k from h)]

theorem levelBroken_take (active : Option (SwingPoint F)) (consumed : Bool) (direction : Direction)
    (config : MarketStructureConfig F) (h : index < k) :
    levelBroken active consumed (values.take k) index direction config (s.take k) =
      levelBroken active consumed values index direction config s := by
  cases active with
  | none => rfl
  | some point =>
    unfold levelBroken
    exact congrArg (!consumed && ·) (isConfirmedBreak_take _ _ _ _ _ h)

theorem confirmPivot_take (swingWindow : Nat) (st : Detection F) (h : index < k) :
    confirmPivot swingWindow (s.take k) index st = confirmPivot swingWindow s index st := by
  unfold confirmPivot Series.take
  dsimp only
  rw [slice_take (by omega), slice_take (by omega), slice_take (by omega), slice_take (by omega),
    slice_take (by omega), getD_take (by omega), getD_take (by omega)]

variable [FloorRing F] [FloatText F] [Hashlib]

theorem detectBreaks_take (d : StructureDefinition F) (st : Detection F) (h : index < k) :
    detectBreaks d (s.take k) index st = detectBreaks d s index st := by
  have hup : (if d.breakBasis = .wick then (s.take k).high else (s.take k).close) =
      (if d.breakBasis = .wick then s.high else s.close).take k := by
    split
    · rfl
    · rfl
  have hdown : (if d.breakBasis = .wick then (s.take k).low else (s.take k).close) =
      (if d.breakBasis = .wick then s.low else s.close).take k := by
    split
    · rfl
    · rfl
  have hbreak (kind : StructureKind) (direction : Direction) (point : SwingPoint F)
      (values : List F) : structureBreak kind direction point index (values.take k) d =
        structureBreak kind direction point index values d := by
    unfold structureBreak
    rw [getD_take h]
  unfold detectBreaks
  dsimp only
  rw [hup, hdown]
  simp only [levelBroken_take _ _ _ _ h, hbreak]

theorem detectBar_take (d : StructureDefinition F) (st : Detection F) (h : index < k) :
    detectBar d (s.take k) index st = detectBar d s index st := by
  unfold detectBar
  rw [detectBreaks_take d st h, confirmPivot_take _ _ h]

/-! ### Events -/

theorem detectBreaks_adds (d : StructureDefinition F) (s : Series F) (index : Nat)
    (st : Detection F) :
    (detectBreaks d s index st).swings = st.swings ∧
      Adds StructureBreak.breakIndex index st.breaks (detectBreaks d s index st).breaks ∧
      Adds id index st.ambiguous (detectBreaks d s index st).ambiguous := by
  unfold detectBreaks
  generalize (if d.breakBasis = .wick then s.high else s.close) = upValues
  generalize (if d.breakBasis = .wick then s.low else s.close) = downValues
  generalize levelBroken st.activeHigh st.highConsumed upValues index .bullish _ s = bullishBreak
  generalize levelBroken st.activeLow st.lowConsumed downValues index .bearish _ s = bearishBreak
  dsimp only
  split
  · exact ⟨rfl, .refl _ _, adds_concat rfl _⟩
  · split
    · exact ⟨rfl, adds_concat rfl _, .refl _ _⟩
    · exact ⟨rfl, adds_concat rfl _, .refl _ _⟩
    · exact ⟨rfl, .refl _ _, .refl _ _⟩

omit [FloorRing F] [FloatText F] [Hashlib] in
theorem confirmPivot_adds (swingWindow : Nat) (s : Series F) (index : Nat) (st : Detection F) :
    Adds SwingPoint.confirmedIndex index st.swings (confirmPivot swingWindow s index st).swings ∧
      (confirmPivot swingWindow s index st).breaks = st.breaks ∧
      (confirmPivot swingWindow s index st).ambiguous = st.ambiguous := by
  unfold confirmPivot
  split
  · exact ⟨.refl _ _, rfl, rfl⟩
  · dsimp only
    split
    · exact ⟨.refl _ _, rfl, rfl⟩
    · generalize (aboveMax (F := F) _ _ && aboveMax (F := F) _ _) = isSwingHigh
      generalize (belowMin (F := F) _ _ && belowMin (F := F) _ _) = isSwingLow
      cases isSwingHigh with
      | false =>
        cases isSwingLow with
        | false => exact ⟨.refl _ _, rfl, rfl⟩
        | true => exact ⟨adds_concat rfl _, rfl, rfl⟩
      | true =>
        cases isSwingLow with
        | false => exact ⟨adds_concat rfl _, rfl, rfl⟩
        | true =>
          have hpoint : Adds SwingPoint.confirmedIndex index st.swings (st.swings ++
              [⟨.swingHigh, index - swingWindow, index, s.high.getD (index - swingWindow) 0⟩]) :=
            adds_concat rfl _
          exact ⟨hpoint.trans (adds_concat rfl _), rfl, rfl⟩

theorem logs_swings (d : StructureDefinition F) (s : Series F) :
    Logs Detection.swings SwingPoint.confirmedIndex (detectBar d s) := by
  intro index st
  unfold detectBar
  rw [← (detectBreaks_adds d s index st).1]
  exact (confirmPivot_adds _ s index _).1

theorem logs_breaks (d : StructureDefinition F) (s : Series F) :
    Logs Detection.breaks StructureBreak.breakIndex (detectBar d s) := by
  intro index st
  unfold detectBar
  rw [(confirmPivot_adds _ s index _).2.1]
  exact (detectBreaks_adds d s index st).2.1

theorem logs_ambiguous (d : StructureDefinition F) (s : Series F) :
    Logs Detection.ambiguous id (detectBar d s) := by
  intro index st
  unfold detectBar
  rw [(confirmPivot_adds _ s index _).2.2]
  exact (detectBreaks_adds d s index st).2.2

end

theorem flatnonzero_take (flags : List Bool) (k : Nat) :
    flatnonzero (flags.take k) = (flatnonzero flags).filter (fun i ↦ decide (i < k)) := by
  have hfilter : ∀ n ≤ k, (List.range n).filter (fun i ↦ (flags.take k).getD i false) =
      (List.range n).filter fun i ↦ decide (i < k) && flags.getD i false := by
    intro n hn
    refine filter_congr fun i hi ↦ ?_
    have hik : i < k := Nat.lt_of_lt_of_le (mem_range.mp hi) hn
    rw [getD_take hik, decide_eq_true hik, Bool.true_and]
  unfold flatnonzero
  rw [filter_filter, length_take]
  rcases Nat.le_total flags.length k with hlength | hlength
  · rw [Nat.min_eq_right hlength, hfilter _ hlength]
  · obtain ⟨m, hm⟩ := Nat.exists_eq_add_of_le hlength
    have hlater : ((List.range m).map (k + ·)).filter
        (fun i ↦ decide (i < k) && flags.getD i false) = [] := by
      rw [filter_eq_nil_iff]
      intro i hi
      obtain ⟨j, -, rfl⟩ := mem_map.mp hi
      simp
    rw [Nat.min_eq_left hlength, hm, range_add, filter_append, hlater, append_nil,
      hfilter k (Nat.le_refl k)]

/-! ## The detector -/

section

variable {F : Type} [Field F] [LinearOrder F] [FloorRing F] [FloatText F] [Hashlib]

/-- **Market structure is causal.**  What the detector reports for the first `k` bars is what it
reports for the whole series before bar `k`; without bars it raises. -/
theorem detect_take {high low close : List F} {config : StructureConfig F}
    {timestamps : Option (List Timestamp)} {result : MarketStructureResult F}
    (h : detectMarketStructure high low close config timestamps = .ok result) (k : Nat) :
    (k = 0 → detectMarketStructure (high.take k) (low.take k) (close.take k) config
      (timestamps.map (List.take k)) = .error "OHLC input must contain at least one row") ∧
    (0 < k → ∃ trend, detectMarketStructure (high.take k) (low.take k) (close.take k) config
        (timestamps.map (List.take k)) = .ok {
      variantId := result.variantId
      definitionId := result.definitionId
      rows := min k result.rows
      swings := result.swings.filter fun swing ↦ decide (swing.confirmedIndex < k)
      breaks := result.breaks.filter fun b ↦ decide (b.breakIndex < k)
      ambiguousBreakIndices := result.ambiguousBreakIndices.filter fun i ↦ decide (i < k)
      gapIndices := result.gapIndices.filter fun i ↦ decide (i < k)
      finalTrend := trend }) := by
  unfold detectMarketStructure at h
  obtain ⟨_, hohlc, h⟩ := bind_eq_ok.mp h
  obtain ⟨gapBefore, htimes, h⟩ := bind_eq_ok.mp h
  cases h
  obtain ⟨⟨hhigh, hlow⟩, -⟩ := validateOhlc_eq_ok.mp hohlc
  constructor
  · rintro rfl
    rfl
  · intro hk
    let s : Series F := ⟨high, low, close, atr high low close config.resolved.atrPeriod, gapBefore⟩
    let st := loop (detectBar config.resolved (s.take k)) (min k close.length) .start
    refine ⟨if st.trend = 1 then .bullish else if st.trend = -1 then .bearish else .unknown, ?_⟩
    -- The loop over the prefix reads the whole series.
    have hloop : st = loop (detectBar config.resolved s) (min k close.length) .start :=
      loop_congr fun i hi st ↦ detectBar_take _ st (Nat.lt_of_lt_of_le hi (Nat.min_le_left _ _))
    have hbefore {ε : Type} {log : Detection F → List ε} {time : ε → Nat}
        (hlogs : Logs log time (detectBar config.resolved s)) (hstart : log .start = []) :
        log st = (log (loop (detectBar config.resolved s) close.length .start)).filter
          fun e ↦ decide (time e < k) := by
      rw [hloop, hlogs.log_loop_eq_filter hstart (Nat.min_le_right k close.length)]
      refine filter_congr fun e he ↦ decide_eq_decide.mpr ?_
      have hlt := hlogs.time_lt hstart close.length e he
      omega
    unfold detectMarketStructure
    rw [validateOhlc_take hohlc hk, length_take, validateUtcTimestamps_take htimes hk]
    have hatr : atr (high.take k) (low.take k) (close.take k) config.resolved.atrPeriod =
        (atr high low close config.resolved.atrPeriod).take k :=
      (atr_take hhigh hlow config.resolved.atrPeriod_ok k).symm
    dsimp only
    rw [hatr]
    change Except.ok _ = Except.ok _
    refine congrArg Except.ok ?_
    rw [MarketStructureResult.mk.injEq]
    refine ⟨rfl, rfl, rfl, hbefore (logs_swings _ s) rfl, hbefore (logs_breaks _ s) rfl,
      hbefore (logs_ambiguous _ s) rfl, flatnonzero_take gapBefore k, rfl⟩

end

/-! ## A series of minutes -/

namespace Sample

local instance : FloatText ℚ where
  kind _ := .finite
  repr x := (toString x).toList
  ofText _ := 0
  nan := 0
  posInf := 0
  negInf := 0

local instance : Hashlib where
  sha256 _ := ⟨"0", isHex_zero⟩

def high : List ℚ := [10, 11, 15, 12, 11, 13, 16]

def low : List ℚ := [8, 9, 12, 10, 9, 11, 14]

def close : List ℚ := [9, 10, 13, 11, 10, 12, 15]

theorem one_le_one : 1 ≤ 1 := le_rfl

def config : MarketStructureConfig ℚ where
  swingWindow := 1
  breakBasis := .wick
  confirmationBars := 1
  breakBufferAtr := 0
  atrPeriod := 2
  swingWindow_ok := one_le_one
  confirmationBars_ok := one_le_one
  breakBufferAtr_ok := by decide
  atrPeriod_ok := by decide

def minutes : List Timestamp := (List.range 7).map fun i ↦ ⟨true, 0, "UTC", 0, 0, 60 * i⟩

/-- The break of the last bar is not known before. -/
theorem break_not_known : ∃ result,
    detectMarketStructure high low close (.config config) (some minutes) = .ok result ∧
    result.breaks.map StructureBreak.breakIndex = [6] ∧
    ∃ trend, detectMarketStructure (high.take 6) (low.take 6) (close.take 6) (.config config)
        (some (minutes.take 6)) = .ok {
      variantId := result.variantId
      definitionId := result.definitionId
      rows := min 6 result.rows
      swings := result.swings.filter fun swing ↦ decide (swing.confirmedIndex < 6)
      breaks := result.breaks.filter fun b ↦ decide (b.breakIndex < 6)
      ambiguousBreakIndices := result.ambiguousBreakIndices.filter fun i ↦ decide (i < 6)
      gapIndices := result.gapIndices.filter fun i ↦ decide (i < 6)
      finalTrend := trend } := by
  have h : detectMarketStructure high low close (.config config) (some minutes) = .ok _ := rfl
  exact ⟨_, h, by decide +kernel, (detect_take h 6).2 (by decide)⟩

end Sample

end Qros.QuantEngine.Technical
