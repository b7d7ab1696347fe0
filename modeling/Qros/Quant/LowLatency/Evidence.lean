import Qros.Quant.LowLatency.TuringFilter

/-!
# The evidence behind a decision

The log-odds of a filter are the evidence of the sequence of ticks it is following: the
ticks at the end of the feed since the last one that broke the sequence off.  The first
`min_persistence - 1` of them are awaited without being weighed.
-/

set_option linter.unusedSectionVars false

universe u

namespace Qros.Quant.LowLatency

open Qros.Lib List

section Spec

variable {F : Type u}

def sinceReset (events : List (FeedEvent F)) : List (TuringFilterTick F) :=
  events.foldl (fun ticks event ↦
    match event with
    | .tick tick => ticks ++ [tick]
    | .reset => []) []

/-- The time stamp that the filter remembers. -/
def watermark (state : TuringFilterState F) : Option Int :=
  if state.hasTimestamp = true then some state.lastTimestampNs else none

variable [TuringMath F]

/-- The latest time stamp of the finite ticks. -/
def newest (ticks : List (TuringFilterTick F)) : Option Int :=
  ((ticks.filter finiteTick).map TuringFilterTick.timestampNs).max?

variable [Zero F] [One F] [Add F] [Sub F] [Mul F] [Div F] [Neg F] [LE F] [LT F]
  [DecidableLE F] [DecidableLT F] (config : TuringFilterConfig F) (bullishHypothesis : Bool)

/-- A tick that meets the structural constraints, chronology apart. -/
def StructurallyValid (tick : TuringFilterTick F) : Prop :=
  (structuralConstraints config .initial tick).structural = true

/-- The evidence of a tick of imbalance `d` after one of imbalance `previous`. -/
def evidenceOf (previous : Option F) (d : F) : F :=
  if (previous.all fun p ↦ decide (p ≤ d)) = true then
    evidenceDeciban config.eventProbabilityH config.eventProbabilityNotH
  else evidenceDeciban config.contradictionProbabilityH config.contradictionProbabilityNotH

/-- The evidence of ticks one after the other, from their imbalances. -/
def evidences : Option F → List F → List F
  | _, [] => []
  | previous, d :: ds => evidenceOf config previous d :: evidences (some d) ds

/-- The sum of the evidence that is weighed. -/
def logOdds (imbalances : List F) : F :=
  ((evidences config none imbalances).drop (config.minPersistence - 1)).foldl (· + ·) 0

/-- Ticks that can follow each other in a sequence, with their imbalances. -/
structure Sequence (ticks : List (TuringFilterTick F)) (imbalances : List F) : Prop where
  valid : ∀ tick ∈ ticks, StructurallyValid config tick
  anchored : ticks.map (directionalAnchor config bullishHypothesis) = imbalances.map some
  increasing : ticks.Pairwise (fun a b ↦ a.timestampNs < b.timestampNs)

structure Following (state : TuringFilterState F) (ticks : List (TuringFilterTick F))
    (imbalances : List F) : Prop where
  sequence : Sequence config bullishHypothesis ticks imbalances
  newest : ∀ tick ∈ ticks, ∃ m, watermark state = some m ∧ tick.timestampNs ≤ m
  previous : imbalances.getLast? =
    if state.hasPrevious = true then some state.lastDirectionalImbalance else none
  persistence : state.persistence = min imbalances.length config.minPersistence
  samples : state.samples = imbalances.length + 1 - config.minPersistence
  logOdds : state.logOddsDeciban = logOdds config imbalances

end Spec

/-! ## Evidence of one more tick -/

section

variable {F : Type u}

@[simp]
theorem sinceReset_tick (events : List (FeedEvent F)) (tick : TuringFilterTick F) :
    sinceReset (events ++ [.tick tick]) = sinceReset events ++ [tick] := by
  rw [sinceReset, foldl_append]
  rfl

@[simp]
theorem sinceReset_reset (events : List (FeedEvent F)) :
    sinceReset (events ++ [.reset]) = [] := by
  rw [sinceReset, foldl_append]
  rfl

theorem max?_concat (l : List Int) (a : Int) :
    (l ++ [a]).max? = some (l.max?.elim a (max · a)) := by
  cases l with
  | nil => rfl
  | cons b l =>
    rw [cons_append, max?_cons', foldl_append, max?_cons']
    rfl

variable [TuringMath F]

theorem newest_concat (ticks : List (TuringFilterTick F)) (tick : TuringFilterTick F) :
    newest (ticks ++ [tick]) =
      if finiteTick tick = true then
        some ((newest ticks).elim tick.timestampNs (max · tick.timestampNs))
      else newest ticks := by
  rw [newest, filter_append, map_append]
  split
  · next h => rw [filter_cons_of_pos h, filter_nil, map_singleton, max?_concat, newest]
  · next h => rw [filter_cons_of_neg h, filter_nil, map_nil, append_nil, newest]

variable [Zero F] [One F] [Add F] [Sub F] [Mul F] [Div F] [Neg F] [LE F] [LT F]
  [DecidableLE F] [DecidableLT F] {config : TuringFilterConfig F} {bullishHypothesis : Bool}

theorem length_evidences (previous : Option F) (ds : List F) :
    (evidences config previous ds).length = ds.length := by
  induction ds generalizing previous with
  | nil => rfl
  | cons d ds ih => rw [evidences, length_cons, ih, length_cons]

theorem evidences_concat (previous : Option F) (ds : List F) (d : F) :
    evidences config previous (ds ++ [d]) =
      evidences config previous ds ++ [evidenceOf config (ds.getLast?.or previous) d] := by
  induction ds generalizing previous with
  | nil => rfl
  | cons a ds ih =>
    rw [cons_append, evidences, evidences, ih, cons_append, getLast?_cons]
    congr 3
    cases ds.getLast? <;> rfl

theorem logOdds_concat {ds : List F} (h : config.minPersistence ≤ ds.length + 1) (d : F) :
    logOdds config (ds ++ [d]) = logOdds config ds + evidenceOf config ds.getLast? d := by
  rw [logOdds, evidences_concat, drop_append_of_le_length (by rw [length_evidences]; omega),
    foldl_append, Option.or_none]
  rfl

theorem logOdds_of_short {ds : List F} (h : ds.length < config.minPersistence) :
    logOdds config ds = 0 := by
  rw [logOdds, drop_of_length_le (by rw [length_evidences]; omega)]
  rfl

end

/-! ## What one tick does -/

section

variable {F : Type u} [Zero F] [One F] [Add F] [Sub F] [Mul F] [Div F] [Neg F] [LE F] [LT F]
  [DecidableLE F] [DecidableLT F] [TuringMath F] {config : TuringFilterConfig F}
  {bullishHypothesis : Bool} {state : TuringFilterState F}

theorem structural_iff (tick : TuringFilterTick F) :
    (structuralConstraints config state tick).structural = true ↔
      StructurallyValid config tick ∧ ∀ m, watermark state = some m → m < tick.timestampNs := by
  unfold StructurallyValid structuralConstraints TuringConstraints.structural watermark
  cases finiteTick tick with
  | false => simp [TuringConstraints.none]
  | true =>
    cases state.hasTimestamp with
    | false => simp [TuringFilterState.initial]
    | true => simp [TuringFilterState.initial]

theorem watermark_noteTimestamp (tick : TuringFilterTick F) :
    watermark (noteTimestamp (structuralConstraints config state tick) tick state) =
      if finiteTick tick = true then
        some ((watermark state).elim tick.timestampNs (max · tick.timestampNs))
      else watermark state := by
  unfold noteTimestamp structuralConstraints watermark
  cases finiteTick tick with
  | false => simp [TuringConstraints.none]
  | true =>
    cases hts : state.hasTimestamp with
    | false => simp
    | true =>
      by_cases hnew : state.lastTimestampNs < tick.timestampNs
      · simp [hnew, max_eq_right hnew.le]
      · simp [hnew, hts, max_eq_left (not_lt.mp hnew)]

theorem watermark_eq_some_iff {m : Int} :
    watermark state = some m ↔ state.hasTimestamp = true ∧ state.lastTimestampNs = m := by
  rw [watermark, Option.ite_none_right_eq_some, Option.some.injEq]

theorem beginSequence_watermark (state : TuringFilterState F) :
    watermark (beginSequence state) = watermark state := by
  unfold beginSequence watermark
  split <;> rfl

/-! ### The anchors -/

section

variable {ticks : List (TuringFilterTick F)} {ds : List F} {d : F} {tick : TuringFilterTick F}

theorem le_of_directionalAnchor (h : directionalAnchor config bullishHypothesis tick = some d) :
    config.minAbsImbalance ≤ d := by
  obtain ⟨-, h⟩ := Option.ite_none_left_eq_some.mp h
  obtain ⟨hd, h⟩ := Option.ite_none_right_eq_some.mp h
  rw [← Option.some.inj h]
  exact hd.2

theorem Sequence.le_last (h : Sequence config bullishHypothesis (ticks ++ [tick]) ds) :
    ∀ t ∈ ticks ++ [tick], t.timestampNs ≤ tick.timestampNs := by
  intro t ht
  rcases mem_append.mp ht with ht | ht
  · exact ((pairwise_append.mp h.increasing).2.2 t ht tick (mem_singleton_self _)).le
  · rw [mem_singleton.mp ht]

theorem Sequence.le_of_mem (h : Sequence config bullishHypothesis ticks ds) (hd : d ∈ ds) :
    config.minAbsImbalance ≤ d := by
  have hmem : some d ∈ ticks.map (directionalAnchor config bullishHypothesis) := by
    rw [h.anchored]
    exact mem_map_of_mem hd
  obtain ⟨tick, -, hanchor⟩ := mem_map.mp hmem
  exact le_of_directionalAnchor hanchor

theorem Sequence.length_eq (h : Sequence config bullishHypothesis ticks ds) :
    ticks.length = ds.length := by
  simpa using congrArg List.length h.anchored

theorem Sequence.concat (h : Sequence config bullishHypothesis ticks ds)
    (hvalid : StructurallyValid config tick)
    (hanchor : directionalAnchor config bullishHypothesis tick = some d)
    (hnew : ∀ t ∈ ticks, t.timestampNs < tick.timestampNs) :
    Sequence config bullishHypothesis (ticks ++ [tick]) (ds ++ [d]) := by
  refine ⟨fun t ht ↦ ?_, ?_, ?_⟩
  · rcases mem_append.mp ht with ht | ht
    · exact h.valid t ht
    · rwa [mem_singleton.mp ht]
  · rw [map_append, map_append, h.anchored, map_singleton, hanchor]
    rfl
  · refine pairwise_append.mpr ⟨h.increasing, pairwise_singleton _ _, fun a ha c hc ↦ ?_⟩
    rw [mem_singleton.mp hc]
    exact hnew a ha

theorem Following.persistenceAnchor (h : Following config bullishHypothesis state ticks ds)
    (hpos : 0 < config.minPersistence) (hd : config.minAbsImbalance ≤ d) :
    persistenceAnchor config state d = (decide (config.minPersistence ≤ ds.length + 1),
      min (ds.length + 1) config.minPersistence) := by
  have hprevious := h.previous
  have hcount : (LowLatency.persistenceAnchor config state d).2 =
      min (ds.length + 1) config.minPersistence := by
    unfold LowLatency.persistenceAnchor
    dsimp only
    cases hp : state.hasPrevious with
    | false =>
      rw [hp] at hprevious
      rw [if_pos rfl, getLast?_eq_none_iff.mp hprevious]
      simp only [length_nil]
      omega
    | true =>
      rw [hp] at hprevious
      have hlast := h.sequence.le_of_mem (mem_of_getLast? hprevious)
      rw [if_neg (by decide), if_pos ⟨hd, hlast⟩, h.persistence]
      split <;> omega
  refine Prod.ext ?_ hcount
  show decide (config.minPersistence ≤ (LowLatency.persistenceAnchor config state d).2) = _
  rw [hcount]
  refine decide_eq_decide.mpr ?_
  omega

theorem Sequence.following (h : Sequence config bullishHypothesis (ticks ++ [tick]) (ds ++ [d]))
    (hwatermark : watermark state = some tick.timestampNs) (hprevious : state.hasPrevious = true)
    (hlast : state.lastDirectionalImbalance = d)
    (hpersistence : state.persistence = min (ds.length + 1) config.minPersistence)
    (hsamples : state.samples = ds.length + 2 - config.minPersistence)
    (hlogOdds : state.logOddsDeciban = logOdds config (ds ++ [d])) :
    Following config bullishHypothesis state (ticks ++ [tick]) (ds ++ [d]) := by
  have hlength : (ds ++ [d]).length = ds.length + 1 := by
    rw [length_append, length_singleton]
  refine ⟨h, fun t ht ↦ ⟨_, hwatermark, h.le_last t ht⟩, ?_, ?_, ?_, hlogOdds⟩
  · rw [getLast?_concat, if_pos hprevious, hlast]
  · rw [hlength, hpersistence]
  · rw [hlength, hsamples]

end

/-! ### The evidence -/

section

variable {ticks : List (TuringFilterTick F)} {ds : List F} {d : F} {tick : TuringFilterTick F}

/-- A sequence that goes on: what is said of the state after the tick. -/
structure Decided (config : TuringFilterConfig F) (bullishHypothesis : Bool)
    (state : TuringFilterState F) (ticks : List (TuringFilterTick F)) (ds : List F) : Prop where
  following : Following config bullishHypothesis state ticks ds
  samples : state.samples ≤ config.maxSamples
  «continue» : state.lastDecision = .continue →
    config.lowerDeciban < state.logOddsDeciban ∧ state.logOddsDeciban < config.upperDeciban
  accept : state.lastDecision = .accept →
    config.minPersistence ≤ ds.length ∧ config.upperDeciban ≤ state.logOddsDeciban

theorem evidence_eq (hprevious : ds.getLast? =
      if state.hasPrevious = true then some state.lastDirectionalImbalance else none) :
    (if (!state.hasPrevious || decide (state.lastDirectionalImbalance ≤ d)) = true then
      evidenceDeciban config.eventProbabilityH config.eventProbabilityNotH
    else evidenceDeciban config.contradictionProbabilityH config.contradictionProbabilityNotH) =
      evidenceOf config ds.getLast? d := by
  rw [evidenceOf, hprevious]
  cases state.hasPrevious <;> rfl

theorem configValid_bounds (h : configValid config = true) :
    0 < config.minPersistence ∧ TuringMath.isfinite config.lowerDeciban = true ∧
      TuringMath.isfinite config.upperDeciban = true := by
  simp only [configValid, Bool.and_eq_true, decide_eq_true_eq] at h
  tauto

theorem weighEvidence_spec [LawfulTuringMath F] (hvalid : configValid config = true)
    (hsequence : Sequence config bullishHypothesis (ticks ++ [tick]) (ds ++ [d]))
    (hwatermark : watermark state = some tick.timestampNs)
    (hprevious : ds.getLast? =
      if state.hasPrevious = true then some state.lastDirectionalImbalance else none)
    (hpersistence : state.persistence = min (ds.length + 1) config.minPersistence)
    (hsamples : state.samples = ds.length + 1 - config.minPersistence)
    (hlogOdds : state.logOddsDeciban = logOdds config ds)
    (hheld : config.minPersistence ≤ ds.length + 1) :
    watermark (weighEvidence config tick d state).2 = some tick.timestampNs ∧
      ((weighEvidence config tick d state).2.lastDecision = .reject ∧
          (weighEvidence config tick d state).2.samples ≤ config.maxSamples ∨
        Decided config bullishHypothesis (weighEvidence config tick d state).2 (ticks ++ [tick])
          (ds ++ [d])) := by
  obtain ⟨hpos, hlower, hupper⟩ := configValid_bounds hvalid
  have hts : state.hasTimestamp = true := (watermark_eq_some_iff.mp hwatermark).1
  have hreject : watermark (rejectSequence state).2 = some tick.timestampNs ∧
      ((rejectSequence state).2.lastDecision = .reject ∧
          (rejectSequence state).2.samples ≤ config.maxSamples ∨
        Decided config bullishHypothesis (rejectSequence state).2 (ticks ++ [tick]) (ds ++ [d])) :=
    ⟨hwatermark, .inl ⟨rfl, Nat.zero_le _⟩⟩
  rw [weighEvidence]
  split
  · exact hreject
  next hcap =>
  have hroom : state.samples + 1 ≤ config.maxSamples := by omega
  dsimp only
  rw [evidence_eq hprevious]
  split
  · exact hreject
  split
  · exact hreject
  next hfinite =>
  have hfollowing (decision : TuringFilterDecision) : Following config bullishHypothesis
      { state with
        logOddsDeciban := state.logOddsDeciban + evidenceOf config ds.getLast? d
        samples := state.samples + 1
        lastTimestampNs := tick.timestampNs
        lastDirectionalImbalance := d
        hasPrevious := true
        lastDecision := decision } (ticks ++ [tick]) (ds ++ [d]) := by
    refine hsequence.following (if_pos hts) rfl rfl hpersistence ?_ ?_
    · show state.samples + 1 = _
      omega
    · rw [logOdds_concat hheld, ← hlogOdds]
  have hnext : TuringMath.isfinite (state.logOddsDeciban + evidenceOf config ds.getLast? d) = true := by
    simpa using hfinite
  split
  · next hup =>
    refine ⟨if_pos hts, .inr ⟨hfollowing .accept, hroom, nofun, fun _ ↦ ⟨?_, hup⟩⟩⟩
    rw [length_append, length_singleton]
    exact hheld
  next hup =>
  split
  · exact ⟨if_pos hts, .inl ⟨rfl, hroom⟩⟩
  next hlow =>
  refine ⟨if_pos hts, .inr ⟨hfollowing .continue, hroom, fun _ ↦ ⟨?_, ?_⟩, nofun⟩⟩
  · exact LawfulTuringMath.lt_of_not_le _ _ hlower hnext hlow
  · exact LawfulTuringMath.lt_of_not_le _ _ hnext hupper hup

end

theorem finiteTick_of_structurallyValid {tick : TuringFilterTick F}
    (h : StructurallyValid config tick) : finiteTick tick = true := by
  by_contra hne
  rw [StructurallyValid, structuralConstraints, if_pos (by simpa using hne)] at h
  cases h

theorem noteTimestamp_eq (structural : TuringConstraints) (tick : TuringFilterTick F)
    (state : TuringFilterState F) :
    noteTimestamp structural tick state =
      { state with
        lastTimestampNs := (noteTimestamp structural tick state).lastTimestampNs
        hasTimestamp := (noteTimestamp structural tick state).hasTimestamp } := by
  unfold noteTimestamp
  split <;> rfl

theorem Following.note {ticks : List (TuringFilterTick F)} {ds : List F} {d : F}
    {tick : TuringFilterTick F} {structural : TuringConstraints}
    (h : Following config bullishHypothesis state ticks ds) (mask : TuringConstraints)
    (hnote : watermark (noteTimestamp structural tick state) = some tick.timestampNs)
    (hsequence : Sequence config bullishHypothesis (ticks ++ [tick]) (ds ++ [d])) :
    Following config bullishHypothesis
      { noteTimestamp structural tick state with constraintMask := mask } ticks ds := by
  refine ⟨h.sequence, fun t ht ↦
    ⟨_, hnote, hsequence.le_last t (mem_append_left _ ht)⟩, ?_, ?_, ?_, ?_⟩ <;>
    rw [noteTimestamp_eq]
  · exact h.previous
  · exact h.persistence
  · exact h.samples
  · exact h.logOdds

theorem following_nil (hpos : 0 < config.minPersistence) (hprevious : state.hasPrevious = false)
    (hpersistence : state.persistence = 0) (hsamples : state.samples = 0)
    (hlogOdds : state.logOddsDeciban = 0) :
    Following config bullishHypothesis state [] [] := by
  refine ⟨⟨nofun, rfl, List.Pairwise.nil⟩, nofun, ?_, ?_, ?_, ?_⟩
  · rw [hprevious]
    rfl
  · rw [hpersistence]
    exact (Nat.zero_min _).symm
  · rw [hsamples, length_nil]
    omega
  · rw [hlogOdds]
    exact (show logOdds config [] = 0 from logOdds_of_short hpos).symm

theorem process_spec [LawfulTuringMath F] (hvalid : configValid config = true)
    {ticks : List (TuringFilterTick F)} {ds : List F}
    (h : Following config bullishHypothesis (beginSequence state) ticks ds)
    (tick : TuringFilterTick F) :
    watermark (process config bullishHypothesis tick state).2 =
        (if finiteTick tick = true then
          some ((watermark state).elim tick.timestampNs (max · tick.timestampNs))
        else watermark state) ∧
      ((process config bullishHypothesis tick state).2.lastDecision = .reject ∧
          (process config bullishHypothesis tick state).2.samples ≤ config.maxSamples ∨
        Decided config bullishHypothesis (process config bullishHypothesis tick state).2 [] [] ∨
        ∃ d, Decided config bullishHypothesis (process config bullishHypothesis tick state).2
          (ticks ++ [tick]) (ds ++ [d])) := by
  obtain ⟨hpos, -, -⟩ := configValid_bounds hvalid
  have hnote : watermark (noteTimestamp (structuralConstraints config (beginSequence state) tick) tick
      (beginSequence state)) = _ := watermark_noteTimestamp tick
  rw [beginSequence_watermark] at hnote
  have habort (s : TuringFilterState F) :
      Decided config bullishHypothesis (abortSequence s).2 [] [] :=
    ⟨following_nil hpos rfl rfl rfl rfl, Nat.zero_le _, nofun, nofun⟩
  rw [process]
  dsimp only
  rw [if_neg (by rw [hvalid]; decide)]
  split
  · exact ⟨hnote, .inr (.inl (habort _))⟩
  next hstructural =>
  obtain ⟨htick, hnew⟩ := structural_iff tick |>.mp (by simpa using hstructural)
  split
  · exact ⟨hnote, .inr (.inl (habort _))⟩
  next d hanchor =>
  -- The tick passes the structural and the directional anchor, and is newer than the sequence.
  have hsequence : Sequence config bullishHypothesis (ticks ++ [tick]) (ds ++ [d]) := by
    refine h.sequence.concat htick hanchor fun t ht ↦ ?_
    obtain ⟨m, hm, hle⟩ := h.newest t ht
    exact hle.trans_lt (hnew m hm)
  have hts : (if finiteTick tick = true then
      some ((watermark state).elim tick.timestampNs (max · tick.timestampNs))
      else watermark state) = some tick.timestampNs := by
    rw [if_pos (finiteTick_of_structurallyValid htick)]
    rw [beginSequence_watermark] at hnew
    cases hw : watermark state with
    | none => rfl
    | some m => exact congrArg some (max_eq_right (hnew m hw).le)
  rw [hts] at hnote ⊢
  have hfollowing := h.note (structuralConstraints config (beginSequence state) tick) hnote hsequence
  rw [show persistenceAnchor config _ d = _ from hfollowing.persistenceAnchor hpos
    (le_of_directionalAnchor hanchor)]
  dsimp only
  split
  · next hheld =>
    have hshort : ds.length + 1 < config.minPersistence := by simpa using hheld
    have hts := (watermark_eq_some_iff.mp hnote).1
    refine ⟨if_pos hts, .inr (.inr ⟨d, ⟨hsequence.following (if_pos hts) rfl rfl rfl ?_ ?_,
      Nat.zero_le _, nofun, nofun⟩⟩)⟩
    · show 0 = _
      omega
    · refine (logOdds_of_short ?_).symm
      rw [length_append, length_singleton]
      exact hshort
  · next hheld =>
    have hlong : config.minPersistence ≤ ds.length + 1 := by simpa using hheld
    refine And.imp_right (Or.imp_right fun hdecided ↦ .inr ⟨d, hdecided⟩) (weighEvidence_spec hvalid
      hsequence ?_ ?_ ?_ ?_ ?_ hlong)
    · exact hnote
    · exact hfollowing.previous
    · rfl
    · exact hfollowing.samples
    · exact hfollowing.logOdds

end

/-! ## Every run -/

section

variable {F : Type u} [Zero F] [One F] [Add F] [Sub F] [Mul F] [Div F] [Neg F] [LE F] [LT F]
  [DecidableLE F] [DecidableLT F] [TuringMath F] (config : TuringFilterConfig F)
  (bullishHypothesis : Bool)

structure Disciplined (events : List (FeedEvent F)) (state : TuringFilterState F) : Prop where
  /-- The watermark is the time stamp of the newest finite tick; a filter whose configuration is
  not valid has none. -/
  watermark : watermark state =
    if configValid config = true then newest (sinceReset events) else none
  /-- A tick that is not above the watermark is dropped, and the evidence with it. -/
  stale : ∀ (tick : TuringFilterTick F) (m : Int), LowLatency.watermark state = some m →
    tick.timestampNs ≤ m →
      let (decision, state') := process config bullishHypothesis tick state
      decision = .drop ∧ state'.logOddsDeciban = 0 ∧ state'.samples = 0 ∧
        LowLatency.watermark state' = some m
  samples : state.samples ≤ config.maxSamples
  /-- A filter that goes on has either seen nothing or stands between the thresholds. -/
  «continue» : state.lastDecision = .continue → state = .initial ∨
    config.lowerDeciban < state.logOddsDeciban ∧ state.logOddsDeciban < config.upperDeciban
  /-- A filter that accepts has just seen a sequence that is long and strong enough. -/
  accept : state.lastDecision = .accept → ∃ pre ticks imbalances,
    events = pre ++ ticks.map .tick ∧ Sequence config bullishHypothesis ticks imbalances ∧
      config.minPersistence ≤ ticks.length ∧ config.upperDeciban ≤ logOdds config imbalances

/-- The sequence a filter is following, as long as it has not rejected it. -/
def FollowsTail (events : List (FeedEvent F)) (state : TuringFilterState F) : Prop :=
  state.lastDecision ≠ .reject → ∃ pre ticks ds, events = pre ++ ticks.map .tick ∧
    Following config bullishHypothesis state ticks ds

variable {config bullishHypothesis}

variable {events : List (FeedEvent F)} {state : TuringFilterState F}

theorem FollowsTail.beginSequence (hpos : 0 < config.minPersistence)
    (h : FollowsTail config bullishHypothesis events state) :
    ∃ pre ticks ds, events = pre ++ ticks.map .tick ∧
      Following config bullishHypothesis (beginSequence state) ticks ds := by
  rw [LowLatency.beginSequence]
  split
  · exact ⟨events, [], [], (append_nil _).symm, following_nil hpos rfl rfl rfl rfl⟩
  · next hgoing => exact h fun hreject ↦ hgoing (.inr hreject)

theorem process_stale (hvalid : configValid config = true) {tick : TuringFilterTick F} {m : Int}
    (hm : watermark state = some m) (hle : tick.timestampNs ≤ m) :
    let (decision, state') := process config bullishHypothesis tick state
    decision = .drop ∧ state'.logOddsDeciban = 0 ∧ state'.samples = 0 ∧
      watermark state' = some m := by
  have hstale : (structuralConstraints config (beginSequence state) tick).structural = false := by
    by_contra hne
    have hnew := (structural_iff tick).mp (by simpa using hne)
    rw [beginSequence_watermark] at hnew
    exact absurd (hnew.2 m hm) hle.not_gt
  have hnote : watermark (noteTimestamp (structuralConstraints config (beginSequence state) tick) tick
      (beginSequence state)) = some m := by
    rw [watermark_noteTimestamp, beginSequence_watermark, hm]
    split
    · exact congrArg some (max_eq_left hle)
    · rfl
  rw [process]
  dsimp only
  rw [if_neg (by rw [hvalid]; decide), if_pos hstale]
  exact ⟨rfl, rfl, rfl, hnote⟩

theorem disciplined_of_forgotten (hwatermark : watermark state = none)
    (hnewest : configValid config = true → newest (sinceReset events) = none)
    (hsamples : state.samples = 0) (hstate : state = .initial ∨ state.lastDecision = .reject) :
    Disciplined config bullishHypothesis events state := by
  refine ⟨?_, ?_, ?_, ?_, ?_⟩
  · rw [hwatermark]
    split
    · exact (hnewest ‹_›).symm
    · rfl
  · intro tick m hm
    rw [hwatermark] at hm
    cases hm
  · rw [hsamples]
    exact Nat.zero_le _
  · intro hcontinue
    refine hstate.elim .inl fun hreject ↦ ?_
    rw [hreject] at hcontinue
    cases hcontinue
  · rcases hstate with rfl | hreject
    · nofun
    · rw [hreject]
      nofun

variable [LawfulTuringMath F]

theorem disciplined_tick (hvalid : configValid config = true)
    (h : Disciplined config bullishHypothesis events state)
    (hfollows : FollowsTail config bullishHypothesis events state) (tick : TuringFilterTick F) :
    Disciplined config bullishHypothesis (events ++ [.tick tick])
        (process config bullishHypothesis tick state).2 ∧
      FollowsTail config bullishHypothesis (events ++ [.tick tick])
        (process config bullishHypothesis tick state).2 := by
  obtain ⟨hpos, -, -⟩ := configValid_bounds hvalid
  obtain ⟨pre, ticks, ds, heq, hfollowing⟩ := hfollows.beginSequence hpos
  obtain ⟨hwatermark, hcases⟩ := process_spec hvalid hfollowing tick
  generalize (process config bullishHypothesis tick state).2 = state' at hwatermark hcases ⊢
  have hnewest : watermark state' =
      if configValid config = true then newest (sinceReset (events ++ [.tick tick])) else none := by
    rw [hwatermark, if_pos hvalid, sinceReset_tick, newest_concat, h.watermark, if_pos hvalid]
  have hdecided (pre : List (FeedEvent F)) (ticks : List (TuringFilterTick F)) (ds : List F)
      (heq : events ++ [.tick tick] = pre ++ ticks.map .tick)
      (hd : Decided config bullishHypothesis state' ticks ds) :
      Disciplined config bullishHypothesis (events ++ [.tick tick]) state' ∧
        FollowsTail config bullishHypothesis (events ++ [.tick tick]) state' := by
    refine ⟨⟨hnewest, fun t m hm ↦ process_stale hvalid hm, hd.samples,
      fun h ↦ .inr (hd.continue h), fun haccept ↦ ?_⟩, fun _ ↦ ⟨pre, ticks, ds, heq, hd.following⟩⟩
    obtain ⟨hlong, hstrong⟩ := hd.accept haccept
    refine ⟨pre, ticks, ds, heq, hd.following.sequence, ?_, ?_⟩
    · rwa [hd.following.sequence.length_eq]
    · rwa [← hd.following.logOdds]
  rcases hcases with ⟨hreject, hsamples⟩ | hd | ⟨d, hd⟩
  · refine ⟨⟨hnewest, fun t m hm ↦ process_stale hvalid hm, hsamples, ?_, ?_⟩,
      fun h ↦ absurd hreject h⟩
    · rw [hreject]
      nofun
    · rw [hreject]
      nofun
  · exact hdecided _ [] [] (append_nil _).symm hd
  · refine hdecided pre (ticks ++ [tick]) (ds ++ [d]) ?_ hd
    rw [heq, map_append, append_assoc]
    rfl

theorem disciplined_after (events : List (FeedEvent F)) :
    Disciplined config bullishHypothesis events ((filter config bullishHypothesis).after events) ∧
      (configValid config = true →
        FollowsTail config bullishHypothesis events
          ((filter config bullishHypothesis).after events)) := by
  have hfollows (hvalid : configValid config = true) (events : List (FeedEvent F)) :
      FollowsTail config bullishHypothesis events .initial := fun _ ↦
    ⟨events, [], [], (append_nil _).symm,
      following_nil (configValid_bounds hvalid).1 rfl rfl rfl rfl⟩
  induction events using reverseRecOn with
  | nil => exact ⟨disciplined_of_forgotten rfl (fun _ ↦ rfl) rfl (.inl rfl), fun h ↦ hfollows h []⟩
  | append_singleton events event ih =>
    rw [Machine.after_concat]
    cases event with
    | reset =>
      refine ⟨disciplined_of_forgotten rfl (fun _ ↦ ?_) rfl (.inl rfl), fun h ↦ hfollows h _⟩
      rw [sinceReset_reset]
      rfl
    | tick tick =>
      by_cases hvalid : configValid config = true
      · obtain ⟨hdisciplined, hf⟩ := ih
        obtain ⟨h₁, h₂⟩ := disciplined_tick hvalid hdisciplined (hf hvalid) tick
        exact ⟨h₁, fun _ ↦ h₂⟩
      · have hprocess : (process config bullishHypothesis tick
            ((filter config bullishHypothesis).after events)).2 =
            { (TuringFilterState.initial : TuringFilterState F) with lastDecision := .reject } := by
          rw [process]
          dsimp only
          rw [if_pos (by simpa using hvalid)]
        refine ⟨?_, fun h ↦ absurd h hvalid⟩
        show Disciplined _ _ _ (process config bullishHypothesis tick _).2
        rw [hprocess]
        exact disciplined_of_forgotten rfl (fun h ↦ absurd h hvalid) rfl (.inr rfl)

/-- **The evidence discipline** of every filter on every feed. -/
theorem filter_disciplined (config : TuringFilterConfig F) (bullishHypothesis : Bool)
    (events : List (FeedEvent F)) :
    Disciplined config bullishHypothesis events
      ((filter config bullishHypothesis).after events) :=
  (disciplined_after events).1

end

/-! ## A run -/

/-- The rationals, with the logarithms of `0.8` and `0.2`. -/
instance : TuringMath ℚ where
  isfinite _ := true
  log x := if x = 4 / 5 then -22314355131420976 / 10 ^ 17 else -16094379124341003 / 10 ^ 16
  decibansPerNat := 4342944819032518 / 10 ^ 15
  nan := 0

instance : LawfulTuringMath ℚ := ⟨fun _ _ _ _ h ↦ not_le.mp h⟩

/-- Two ticks in a row are required. -/
def pairConfig : TuringFilterConfig ℚ :=
  ⟨1, 10, 1, 1 / 5, 2, 8, 4 / 5, 1 / 5, 1 / 5, 4 / 5, -9, 12⟩

def steadyTick (ts : Int) : TuringFilterTick ℚ := ⟨ts, 100, 201 / 2, 8, 2, 2⟩

theorem filter_disciplined_sample :
    let events := [.tick (steadyTick 1), .tick (steadyTick 2), .tick (steadyTick 3)]
    Disciplined pairConfig true events ((filter pairConfig true).after events) :=
  filter_disciplined pairConfig true _

/-- A tick that is not newer takes the evidence back, and a filter that has seen nothing goes on
wherever its thresholds are. -/
theorem stale_tick_changes_evidence :
    (¬ ∀ (config : TuringFilterConfig ℚ) (bullishHypothesis : Bool) (events : List (FeedEvent ℚ))
        (tick : TuringFilterTick ℚ) (m : Int),
      let state := (filter config bullishHypothesis).after events
      watermark state = some m → tick.timestampNs ≤ m →
        (process config bullishHypothesis tick state).2.logOddsDeciban = state.logOddsDeciban ∧
          (process config bullishHypothesis tick state).2.samples = state.samples) ∧
      ¬ ∀ (config : TuringFilterConfig ℚ) (bullishHypothesis : Bool) (events : List (FeedEvent ℚ)),
        let state := (filter config bullishHypothesis).after events
        configValid config = true → state.lastDecision = .continue →
          config.lowerDeciban < state.logOddsDeciban ∧
            state.logOddsDeciban < config.upperDeciban := by
  constructor
  · intro h
    have hsame := (h pairConfig true [.tick (steadyTick 1), .tick (steadyTick 2)] (steadyTick 2) 2
      (by decide +kernel) (by decide +kernel)).2
    exact absurd hsame (by decide +kernel)
  · intro h
    have hbetween := (h { pairConfig with lowerDeciban := 1 } true [] (by decide +kernel) rfl).1
    exact absurd hbetween (by decide +kernel)

end Qros.Quant.LowLatency
