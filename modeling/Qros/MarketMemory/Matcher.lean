import Mathlib.Algebra.Order.Field.Basic
import Mathlib.Data.Prod.Lex
import Mathlib.Tactic.FieldSimp
import Qros.Lib.KeySort
import Qros.Lib.Numerals
import Qros.MarketMemory.Models

/-!
# Scenario matching

`market_memory/matcher.py` with `features.py` and `similarity.py`, for exact numbers.

The matcher is given weights for its features, but a scenario is scored by `compareSnapshots`,
which has its own (`compareSnapshots_eq`).
-/

namespace Qros.MarketMemory

open Qros.Lib Qros.Lib.KeySort Qros.Python List

variable {F : Type} [Field F] [LinearOrder F]

/-! ## Features -/

structure FeatureSet (F : Type) where
  asset : String
  timestamp : String
  timeframe : String
  body : F
  upperWick : F
  lowerWick : F
  rangePct : F
  bodyPct : F
  isBullish : Bool
  isBearish : Bool
  closePosition : F
  volumeRatio : F

def computeFeatures (snapshot : MarketSnapshot F) : FeatureSet F :=
  let priceRange := snapshot.high - snapshot.low
  let body := |snapshot.close - snapshot.open|
  { asset := snapshot.asset
    timestamp := String.ofList snapshot.timestamp.isoChars
    timeframe := snapshot.timeframe
    body
    upperWick := snapshot.high - max snapshot.open snapshot.close
    lowerWick := min snapshot.open snapshot.close - snapshot.low
    rangePct := if snapshot.close ≠ 0 then priceRange / snapshot.close * 100 else 0
    bodyPct := if priceRange > 0 then body / priceRange else 0
    isBullish := snapshot.close > snapshot.open
    isBearish := snapshot.close < snapshot.open
    closePosition := if priceRange > 0 then (snapshot.close - snapshot.low) / priceRange else 1 / 2
    volumeRatio := 1 }

/-! ## Similarity -/

def normalize (value minVal maxVal : F) : F :=
  if maxVal ≤ minVal then 1 / 2 else max 0 (min 1 ((value - minVal) / (maxVal - minVal)))

def compareSnapshots (a b : MarketSnapshot F) : F :=
  let fa := computeFeatures a
  let fb := computeFeatures b
  let rangeSim := 1 - normalize |fa.rangePct - fb.rangePct| 0 10
  let bodySim := 1 - |fa.bodyPct - fb.bodyPct|
  let trendSim := if fa.isBullish = fb.isBullish then 1 else 0
  let posSim := 1 - |fa.closePosition - fb.closePosition|
  let volSim := 1 - normalize |a.volatility - b.volatility| 0 5
  let score := 1 / 4 * rangeSim + 1 / 5 * bodySim + 1 / 4 * trendSim + 3 / 20 * posSim
    + 3 / 20 * volSim
  max 0 (min 1 score)

/-! ## The matcher -/

def featureNames : List String :=
  ["price_range", "body_ratio", "trend_direction", "close_position", "volatility", "volume"]

theorem featureNames_nodup : featureNames.Nodup := by decide

def defaultFeatureWeights : Dict String F :=
  ⟨[("price_range", 1 / 4), ("body_ratio", 3 / 20), ("trend_direction", 3 / 10),
    ("close_position", 1 / 10), ("volatility", 1 / 10), ("volume", 1 / 10)], featureNames_nodup⟩

structure MatchResult (F : Type) where
  scenarioId : String
  scenarioName : String
  overallScore : F
  featureScores : List (String × F)
  calculationMethod : String
  weightProfile : Dict String F

structure ScenarioMatcher (F : Type) [Field F] [LinearOrder F] where
  featureWeights : Dict String F
  valid : |featureWeights.values.sum - 1| ≤ 1 / 100

namespace ScenarioMatcher

/-- `__init__`. -/
def new (featureWeights : Option (Dict String F)) : Except String (ScenarioMatcher F) :=
  let weights := match featureWeights with
    | none => defaultFeatureWeights
    | some weights => if weights.entries = [] then defaultFeatureWeights else weights
  if h : |weights.values.sum - 1| ≤ 1 / 100 then .ok ⟨weights, h⟩
  else .error "Feature weights must sum to 1.0"

end ScenarioMatcher

/-- The snapshot that an id of a scenario stands for, unless it is the one that is matched. -/
def resolve (snapshot : MarketSnapshot F) (snapshotsIndex : Option (Dict String (MarketSnapshot F)))
    (sid : String) : Option (MarketSnapshot F) :=
  match snapshotsIndex with
  | none => none
  | some index => (index.get? sid).filter fun s ↦ s.id ≠ snapshot.id

def computeScenarioScore (snapshot : MarketSnapshot F) (scenario : HistoricalScenario F)
    (snapshotsIndex : Option (Dict String (MarketSnapshot F))) : F :=
  if scenario.snapshotIds = [] then 0
  else
    let snapshotScores := scenario.snapshotIds.filterMap fun sid ↦
      (resolve snapshot snapshotsIndex sid).map (compareSnapshots snapshot)
    if snapshotScores = [] then 0 else snapshotScores.sum / snapshotScores.length

/-- The scores of the features of two snapshots, as `_compute_feature_scores` has them. -/
def featureScores (a b : MarketSnapshot F) : List (String × F) :=
  let fa := computeFeatures a
  let fb := computeFeatures b
  [("price_range", 1 - min (|fa.rangePct - fb.rangePct| / 10) 1),
    ("body_ratio", 1 - |fa.bodyPct - fb.bodyPct|),
    ("trend_direction", if fa.isBullish = fb.isBullish then 1 else 0),
    ("close_position", 1 - |fa.closePosition - fb.closePosition|),
    ("volatility", 1 - min (|a.volatility - b.volatility| / 5) 1),
    ("volume", 1 - min (|a.volume - b.volume| / max (max a.volume b.volume) 1) 1)]

def computeFeatureScores (snapshot : MarketSnapshot F) (scenario : HistoricalScenario F)
    (snapshotsIndex : Option (Dict String (MarketSnapshot F))) : List (String × F) :=
  if scenario.snapshotIds = [] ∨ ((snapshotsIndex.map (·.entries)).getD []).length = 0 then
    [("no_data", 0)]
  else
    match (scenario.snapshotIds.filterMap (resolve snapshot snapshotsIndex)).head? with
    | none => []
    | some found => featureScores snapshot found

def sliceTo {α : Type} (xs : List α) (n : Int) : List α :=
  xs.take (if n < 0 then xs.length - n.natAbs else n.toNat)

namespace ScenarioMatcher

def matchScenario (m : ScenarioMatcher F) (snapshot : MarketSnapshot F)
    (scenarios : List (HistoricalScenario F))
    (snapshotsIndex : Option (Dict String (MarketSnapshot F))) (topN : Int) (minScore : F) :
    List (MatchResult F) :=
  let results := scenarios.filterMap fun scenario ↦
    let score := computeScenarioScore snapshot scenario snapshotsIndex
    if minScore ≤ score then
      some {
        scenarioId := scenario.id
        scenarioName := scenario.name
        overallScore := score
        featureScores := computeFeatureScores snapshot scenario snapshotsIndex
        calculationMethod := "WeightedFeatureComparison"
        weightProfile := m.featureWeights }
    else none
  sliceTo (stableSortBy (fun r ↦ toLex (-r.overallScore, r.scenarioId)) results) topN

end ScenarioMatcher

/-! ## The declared score -/

/-- The weight of a feature; one that is not named has none. -/
def weightOf (weights : Dict String F) (name : String) : F := (weights.get? name).getD 0

/-- What `get_weight_report` describes: the sum of the scores of the features by their weights. -/
def weightedScore (weights : Dict String F) (a b : MarketSnapshot F) : F :=
  ((featureScores a b).map fun p ↦ weightOf weights p.1 * p.2).sum

def foundSnapshots (snapshot : MarketSnapshot F)
    (snapshotsIndex : Option (Dict String (MarketSnapshot F))) (scenario : HistoricalScenario F) :
    List (MarketSnapshot F) :=
  scenario.snapshotIds.filterMap (resolve snapshot snapshotsIndex)

def meanScore {α : Type} (score : α → F) (found : List α) : F :=
  if found.length = 0 then 0 else (found.map score).sum / found.length

def declaredScore (weights : Dict String F) (snapshot : MarketSnapshot F)
    (snapshotsIndex : Option (Dict String (MarketSnapshot F))) (scenario : HistoricalScenario F) :
    F :=
  meanScore (weightedScore weights snapshot) (foundSnapshots snapshot snapshotsIndex scenario)

structure Ranks (score : HistoricalScenario F → F) (minScore : F)
    (scenarios ranking : List (HistoricalScenario F)) : Prop where
  perm : ranking.Perm (scenarios.filter fun s ↦ minScore ≤ score s)
  order : ranking.Pairwise fun s s' ↦ score s' < score s ∨ score s = score s' ∧ s.id < s'.id

structure ScoresAsDeclared (m : ScenarioMatcher F) (snapshot : MarketSnapshot F)
    (scenarios : List (HistoricalScenario F))
    (snapshotsIndex : Option (Dict String (MarketSnapshot F))) (topN : Int) (minScore : F) :
    Prop where
  scores : ∀ s ∈ scenarios, computeScenarioScore snapshot s snapshotsIndex =
    declaredScore m.featureWeights snapshot snapshotsIndex s
  ranking : ∃ ranking,
    Ranks (declaredScore m.featureWeights snapshot snapshotsIndex) minScore scenarios ranking ∧
    (m.matchScenario snapshot scenarios snapshotsIndex topN minScore).map
        (fun r ↦ (r.scenarioId, r.overallScore)) =
      (sliceTo ranking topN).map fun s ↦
        (s.id, declaredScore m.featureWeights snapshot snapshotsIndex s)
  unordered : ∀ scenarios', scenarios'.Perm scenarios →
    m.matchScenario snapshot scenarios' snapshotsIndex topN minScore =
      m.matchScenario snapshot scenarios snapshotsIndex topN minScore

/-! ## The score that is used -/

section

variable [IsStrictOrderedRing F]

/-- The weights that `compareSnapshots` has. -/
def similarityWeights : Dict String F :=
  ⟨[("price_range", 1 / 4), ("body_ratio", 1 / 5), ("trend_direction", 1 / 4),
    ("close_position", 3 / 20), ("volatility", 3 / 20), ("volume", 0)], featureNames_nodup⟩

theorem normalize_zero {x c : F} (hx : 0 ≤ x) (hc : 0 < c) : normalize x 0 c = min (x / c) 1 := by
  rw [normalize, if_neg (not_le.mpr hc), sub_zero, sub_zero, min_comm]
  exact max_eq_right (le_min (div_nonneg hx hc.le) zero_le_one)

theorem compareSnapshots_eq (a b : MarketSnapshot F) :
    compareSnapshots a b = max 0 (min 1 (weightedScore similarityWeights a b)) := by
  have hrange := normalize_zero (abs_nonneg
    ((computeFeatures a).rangePct - (computeFeatures b).rangePct)) (by norm_num : (0 : F) < 10)
  have hvol := normalize_zero (abs_nonneg (a.volatility - b.volatility)) (by norm_num : (0 : F) < 5)
  have hsum : weightedScore similarityWeights a b =
      1 / 4 * _ + (1 / 5 * _ + (1 / 4 * _ + (3 / 20 * _ + (3 / 20 * _ + (0 * _ + 0))))) := rfl
  unfold compareSnapshots
  dsimp only
  rw [hrange, hvol, hsum, zero_mul, add_zero, add_zero]
  simp only [add_assoc]

omit [IsStrictOrderedRing F] in
theorem computeScenarioScore_eq (snapshot : MarketSnapshot F) (scenario : HistoricalScenario F)
    (snapshotsIndex : Option (Dict String (MarketSnapshot F))) :
    computeScenarioScore snapshot scenario snapshotsIndex =
      meanScore (compareSnapshots snapshot) (foundSnapshots snapshot snapshotsIndex scenario) := by
  have hscores : (scenario.snapshotIds.filterMap fun sid ↦
      (resolve snapshot snapshotsIndex sid).map (compareSnapshots snapshot)) =
        (foundSnapshots snapshot snapshotsIndex scenario).map (compareSnapshots snapshot) :=
    map_filterMap.symm
  unfold computeScenarioScore meanScore
  rw [hscores]
  by_cases hids : scenario.snapshotIds = []
  · rw [if_pos hids, foundSnapshots, hids]
    rfl
  · rw [if_neg hids]
    simp only [map_eq_nil_iff, length_map, length_eq_zero_iff]

theorem meanScore_eq_iff {α : Type} {f g : α → F} {found : List α} :
    meanScore f found = meanScore g found ↔ (found.map f).sum = (found.map g).sum := by
  unfold meanScore
  by_cases hlength : found.length = 0
  · rw [length_eq_zero_iff.mp hlength]
    simp
  · rw [if_neg hlength, if_neg hlength]
    exact div_left_inj' (Nat.cast_ne_zero.mpr hlength)

end

/-! ## Ranking -/

section

omit [Field F] [LinearOrder F] in
theorem sliceTo_map {α β : Type} (f : α → β) (xs : List α) (n : Int) :
    sliceTo (xs.map f) n = (sliceTo xs n).map f := by
  rw [sliceTo, length_map, ← map_take, sliceTo]

variable (m : ScenarioMatcher F) (snapshot : MarketSnapshot F)
    (scenarios : List (HistoricalScenario F))
    (snapshotsIndex : Option (Dict String (MarketSnapshot F))) (topN : Int) (minScore : F)

def resultOf (s : HistoricalScenario F) : MatchResult F where
  scenarioId := s.id
  scenarioName := s.name
  overallScore := computeScenarioScore snapshot s snapshotsIndex
  featureScores := computeFeatureScores snapshot s snapshotsIndex
  calculationMethod := "WeightedFeatureComparison"
  weightProfile := m.featureWeights

/-- The scenarios whose score is high enough, as the results are sorted. -/
def sortedScenarios : List (HistoricalScenario F) :=
  stableSortBy (fun s ↦ toLex (-computeScenarioScore snapshot s snapshotsIndex, s.id))
    (scenarios.filter fun s ↦ minScore ≤ computeScenarioScore snapshot s snapshotsIndex)

theorem matchScenario_eq :
    m.matchScenario snapshot scenarios snapshotsIndex topN minScore =
      (sliceTo (sortedScenarios snapshot scenarios snapshotsIndex minScore) topN).map
        (resultOf m snapshot snapshotsIndex) := by
  have hresults : (scenarios.filterMap fun s ↦
      if minScore ≤ computeScenarioScore snapshot s snapshotsIndex then
        some (resultOf m snapshot snapshotsIndex s) else none) =
      (scenarios.filter fun s ↦ minScore ≤ computeScenarioScore snapshot s snapshotsIndex).map
        (resultOf m snapshot snapshotsIndex) := by
    rw [← filterMap_eq_map', filterMap_filter]
    simp only [decide_eq_true_eq]
  have hsort := stableSortBy_map
    (fun r : MatchResult F ↦ toLex (-r.overallScore, r.scenarioId))
    (resultOf m snapshot snapshotsIndex)
    (scenarios.filter fun s ↦ minScore ≤ computeScenarioScore snapshot s snapshotsIndex)
  rw [← sliceTo_map]
  refine Eq.trans ?_ (congrArg (fun results ↦ sliceTo results topN) hsort)
  exact congrArg (fun results ↦ sliceTo (stableSortBy _ results) topN) hresults

variable {scenarios} [IsStrictOrderedRing F]

theorem ranks_sortedScenarios (hids : (scenarios.map (·.id)).Nodup) :
    Ranks (fun s ↦ computeScenarioScore snapshot s snapshotsIndex) minScore scenarios
      (sortedScenarios snapshot scenarios snapshotsIndex minScore) where
  perm := stableSortBy_perm _ _
  order := by
    have hnodup : ((sortedScenarios snapshot scenarios snapshotsIndex minScore).map (·.id)).Nodup :=
      ((stableSortBy_perm _ _).map _).nodup_iff.mpr (hids.sublist (filter_sublist.map _))
    refine ((stableSortBy_sorted _ _).and (pairwise_map.mp hnodup)).imp fun {s s'} h ↦ ?_
    rcases Prod.Lex.le_iff.mp h.1 with hlt | ⟨heq, hle⟩
    · exact .inl (neg_lt_neg_iff.mp hlt)
    · exact .inr ⟨neg_inj.mp heq, lt_of_le_of_ne hle h.2⟩

omit [IsStrictOrderedRing F] in
theorem sortedScenarios_perm {scenarios' : List (HistoricalScenario F)}
    (hids : (scenarios.map (·.id)).Nodup) (h : scenarios'.Perm scenarios) :
    sortedScenarios snapshot scenarios' snapshotsIndex minScore =
      sortedScenarios snapshot scenarios snapshotsIndex minScore := by
  refine stableSortBy_eq_of_perm _ (h.filter _) fun s hs s' hs' hkey ↦ ?_
  have hid : s.id = s'.id := congrArg (fun k ↦ (ofLex k).2) hkey
  exact inj_on_of_nodup_map hids (h.mem_iff.mp (mem_filter.mp hs).1)
    (h.mem_iff.mp (mem_filter.mp hs').1) hid

/-- The weights give every listed scenario the sum of the similarities of what is found. -/
def SameSums (weights : Dict String F) (scenarios : List (HistoricalScenario F)) : Prop :=
  ∀ s ∈ scenarios,
    ((foundSnapshots snapshot snapshotsIndex s).map (weightedScore weights snapshot)).sum =
      ((foundSnapshots snapshot snapshotsIndex s).map fun b ↦
        max 0 (min 1 (weightedScore similarityWeights snapshot b))).sum

theorem computeScenarioScore_eq_iff (weights : Dict String F) (s : HistoricalScenario F) :
    computeScenarioScore snapshot s snapshotsIndex =
        declaredScore weights snapshot snapshotsIndex s ↔
      ((foundSnapshots snapshot snapshotsIndex s).map (weightedScore weights snapshot)).sum =
        ((foundSnapshots snapshot snapshotsIndex s).map fun b ↦
          max 0 (min 1 (weightedScore similarityWeights snapshot b))).sum := by
  have hcompare : compareSnapshots snapshot = fun b ↦
      max 0 (min 1 (weightedScore similarityWeights snapshot b)) :=
    funext (compareSnapshots_eq snapshot)
  rw [computeScenarioScore_eq, declaredScore, meanScore_eq_iff, hcompare, eq_comm]

theorem scoresAsDeclared_iff (hids : (scenarios.map (·.id)).Nodup) :
    ScoresAsDeclared m snapshot scenarios snapshotsIndex topN minScore ↔
      SameSums snapshot snapshotsIndex m.featureWeights scenarios := by
  constructor
  · intro h s hs
    exact (computeScenarioScore_eq_iff snapshot snapshotsIndex _ s).mp (h.scores s hs)
  · intro h
    have hscores : ∀ s ∈ scenarios, computeScenarioScore snapshot s snapshotsIndex =
        declaredScore m.featureWeights snapshot snapshotsIndex s := fun s hs ↦
      (computeScenarioScore_eq_iff snapshot snapshotsIndex _ s).mpr (h s hs)
    have hranks := ranks_sortedScenarios snapshot snapshotsIndex minScore hids
    have hmem : ∀ s ∈ sortedScenarios snapshot scenarios snapshotsIndex minScore, s ∈ scenarios :=
      fun s hs ↦ (mem_filter.mp (hranks.perm.mem_iff.mp hs)).1
    refine ⟨hscores, ⟨sortedScenarios snapshot scenarios snapshotsIndex minScore, ⟨?_, ?_⟩, ?_⟩,
      fun scenarios' hperm ↦ ?_⟩
    · refine hranks.perm.trans (List.Perm.of_eq (filter_congr fun s hs ↦ ?_))
      rw [hscores s hs]
    · refine hranks.order.imp_of_mem fun {s s'} hs hs' h ↦ ?_
      rwa [hscores s (hmem s hs), hscores s' (hmem s' hs')] at h
    · rw [matchScenario_eq, map_map]
      refine map_congr_left fun s hs ↦ ?_
      exact congrArg (Prod.mk s.id) (hscores s (hmem s (mem_of_mem_take hs)))
    · rw [matchScenario_eq, matchScenario_eq,
        sortedScenarios_perm snapshot snapshotsIndex minScore hids hperm]

end

/-! ## Profiles -/

section

variable [IsStrictOrderedRing F]

/-- Open and close lie between low and high. -/
def InRange (s : MarketSnapshot F) : Prop :=
  (s.low ≤ s.open ∧ s.open ≤ s.high) ∧ s.low ≤ s.close ∧ s.close ≤ s.high

theorem bodyPct_mem {s : MarketSnapshot F} (h : InRange s) :
    0 ≤ (computeFeatures s).bodyPct ∧ (computeFeatures s).bodyPct ≤ 1 := by
  obtain ⟨⟨hlo, hoh⟩, hlc, hch⟩ := h
  unfold computeFeatures
  dsimp only
  split
  · rename_i hpos
    refine ⟨div_nonneg (abs_nonneg _) (le_of_lt hpos), (div_le_one hpos).mpr (abs_le.mpr ⟨?_, ?_⟩)⟩
    · linarith
    · linarith
  · exact ⟨le_rfl, zero_le_one⟩

theorem closePosition_mem {s : MarketSnapshot F} (h : InRange s) :
    0 ≤ (computeFeatures s).closePosition ∧ (computeFeatures s).closePosition ≤ 1 := by
  obtain ⟨-, hlc, hch⟩ := h
  unfold computeFeatures
  dsimp only
  split
  · rename_i hpos
    refine ⟨div_nonneg (sub_nonneg.mpr hlc) (le_of_lt hpos), (div_le_one hpos).mpr ?_⟩
    linarith
  · norm_num

theorem one_sub_abs_mem {x y : F} (hx : 0 ≤ x ∧ x ≤ 1) (hy : 0 ≤ y ∧ y ≤ 1) :
    0 ≤ 1 - |x - y| ∧ 1 - |x - y| ≤ 1 := by
  refine ⟨sub_nonneg.mpr (abs_le.mpr ⟨?_, ?_⟩), sub_le_self 1 (abs_nonneg _)⟩
  · linarith
  · linarith

theorem one_sub_min_mem {x : F} (hx : 0 ≤ x) : 0 ≤ 1 - min x 1 ∧ 1 - min x 1 ≤ 1 :=
  ⟨sub_nonneg.mpr (min_le_right x 1), sub_le_self 1 (le_min hx zero_le_one)⟩

variable {a b : MarketSnapshot F}

theorem featureScores_mem (ha : InRange a) (hb : InRange b) :
    ∀ p ∈ featureScores a b, 0 ≤ p.2 ∧ p.2 ≤ 1 := by
  have hrange : 0 ≤ |(computeFeatures a).rangePct - (computeFeatures b).rangePct| / 10 := by
    positivity
  have hvol : 0 ≤ |a.volatility - b.volatility| / 5 := by positivity
  have hvolume : 0 ≤ |a.volume - b.volume| / max (max a.volume b.volume) 1 :=
    div_nonneg (abs_nonneg _) (le_trans zero_le_one (le_max_right _ _))
  intro p hp
  simp only [featureScores, mem_cons, not_mem_nil, or_false] at hp
  rcases hp with rfl | rfl | rfl | rfl | rfl | rfl
  · exact one_sub_min_mem hrange
  · exact one_sub_abs_mem (bodyPct_mem ha) (bodyPct_mem hb)
  · split <;> simp
  · exact one_sub_abs_mem (closePosition_mem ha) (closePosition_mem hb)
  · exact one_sub_min_mem hvol
  · exact one_sub_min_mem hvolume

omit [IsStrictOrderedRing F] in
theorem weightedScore_of {range body trend close vol volume : F}
    (h : featureScores a b =
      [("price_range", range), ("body_ratio", body), ("trend_direction", trend),
        ("close_position", close), ("volatility", vol), ("volume", volume)])
    (weights : Dict String F) :
    weightedScore weights a b = weightOf weights "price_range" * range +
      (weightOf weights "body_ratio" * body + (weightOf weights "trend_direction" * trend +
        (weightOf weights "close_position" * close + (weightOf weights "volatility" * vol +
          weightOf weights "volume" * volume)))) := by
  rw [weightedScore, h]
  simp only [map_cons, map_nil, sum_cons, sum_nil, add_zero]

theorem similarity_mem (ha : InRange a) (hb : InRange b) :
    max 0 (min 1 (weightedScore similarityWeights a b)) = weightedScore similarityWeights a b := by
  have hmem := featureScores_mem ha hb
  have hscores : ∃ range body trend close vol volume, featureScores a b =
      [("price_range", range), ("body_ratio", body), ("trend_direction", trend),
        ("close_position", close), ("volatility", vol), ("volume", volume)] :=
    ⟨_, _, _, _, _, _, rfl⟩
  obtain ⟨range, body, trend, close, vol, volume, heq⟩ := hscores
  rw [heq] at hmem
  simp only [forall_mem_cons] at hmem
  obtain ⟨hrange, hbody, htrend, hclose, hvol, -, -⟩ := hmem
  have hsum : weightedScore similarityWeights a b = 1 / 4 * range + (1 / 5 * body +
      (1 / 4 * trend + (3 / 20 * close + (3 / 20 * vol + 0 * volume)))) :=
    weightedScore_of heq similarityWeights
  rw [hsum, min_eq_right (by linarith), max_eq_right (by linarith)]

def HasSimilarityWeights (weights : Dict String F) : Prop :=
  ∀ name ∈ featureNames, weightOf weights name = weightOf similarityWeights name

omit [IsStrictOrderedRing F] in
theorem HasSimilarityWeights.weightedScore {weights : Dict String F}
    (h : HasSimilarityWeights weights) (a b : MarketSnapshot F) :
    weightedScore weights a b = weightedScore similarityWeights a b := by
  refine congrArg List.sum (map_congr_left fun p hp ↦ ?_)
  have hname : p.1 ∈ featureNames := mem_map_of_mem (f := Prod.fst) hp
  rw [h p.1 hname]

def bar (id : String) («open» high low close volatility volume : F) : MarketSnapshot F where
  id := id
  createdAt := ⟨0, Utc.epoch_ok⟩
  ontologyTags := []
  lifecycle := .new ⟨0, Utc.epoch_ok⟩
  asset := "XAUUSD"
  timestamp := ⟨⟨0, Utc.epoch_ok⟩, some 0⟩
  timeframe := "1d"
  «open» := «open»
  high := high
  low := low
  close := close
  volume := volume
  volatility := volatility
  trendState := ""
  marketRegime := ""
  indicators := ∅
  confidence := 0

omit [IsStrictOrderedRing F] in
theorem inRange_bar {id : String} {o h l c v w : F} (hopen : l ≤ o ∧ o ≤ h)
    (hclose : l ≤ c ∧ c ≤ h) : InRange (bar id o h l c v w) := ⟨hopen, hclose⟩

/-- Weights that give all bars in their ranges the similarity are those of the similarity: one pair
of bars for each feature. -/
theorem hasSimilarityWeights_of {weights : Dict String F}
    (h : ∀ b, InRange b → b.id = "b" →
      weightedScore weights (bar "a" 1 4 0 2 0 0) b =
        weightedScore similarityWeights (bar "a" 1 4 0 2 0 0) b) :
    HasSimilarityWeights weights := by
  have hbar : ∀ {o h l c v w : F}, l ≤ o ∧ o ≤ h → l ≤ c ∧ c ≤ h →
      InRange (bar "b" o h l c v w) := fun ho hc ↦ inRange_bar ho hc
  have hsame : featureScores (bar "a" 1 4 0 2 0 0 : MarketSnapshot F) (bar "b" 1 4 0 2 0 0) =
      [("price_range", 1), ("body_ratio", 1), ("trend_direction", 1), ("close_position", 1),
        ("volatility", 1), ("volume", 1)] := by
    norm_num [featureScores, computeFeatures, bar]
  have hvol : featureScores (bar "a" 1 4 0 2 0 0 : MarketSnapshot F) (bar "b" 1 4 0 2 5 0) =
      [("price_range", 1), ("body_ratio", 1), ("trend_direction", 1), ("close_position", 1),
        ("volatility", 0), ("volume", 1)] := by
    norm_num [featureScores, computeFeatures, bar]
  have hvolume : featureScores (bar "a" 1 4 0 2 0 0 : MarketSnapshot F) (bar "b" 1 4 0 2 0 1) =
      [("price_range", 1), ("body_ratio", 1), ("trend_direction", 1), ("close_position", 1),
        ("volatility", 1), ("volume", 0)] := by
    norm_num [featureScores, computeFeatures, bar]
  have htrend : featureScores (bar "a" 1 4 0 2 0 0 : MarketSnapshot F) (bar "b" 3 4 0 2 0 0) =
      [("price_range", 1), ("body_ratio", 1), ("trend_direction", 0), ("close_position", 1),
        ("volatility", 1), ("volume", 1)] := by
    norm_num [featureScores, computeFeatures, bar]
  have hbody : featureScores (bar "a" 1 4 0 2 0 0 : MarketSnapshot F) (bar "b" 0 4 0 2 0 0) =
      [("price_range", 1), ("body_ratio", 3 / 4), ("trend_direction", 1), ("close_position", 1),
        ("volatility", 1), ("volume", 1)] := by
    norm_num [featureScores, computeFeatures, bar]
  have hrange : featureScores (bar "a" 1 4 0 2 0 0 : MarketSnapshot F) (bar "b" 5 8 4 6 0 0) =
      [("price_range", 0), ("body_ratio", 1), ("trend_direction", 1), ("close_position", 1),
        ("volatility", 1), ("volume", 1)] := by
    norm_num [featureScores, computeFeatures, bar]
  -- The equations that the pairs give.
  have esame := h (bar "b" 1 4 0 2 0 0) (hbar (by norm_num) (by norm_num)) rfl
  have evol := h (bar "b" 1 4 0 2 5 0) (hbar (by norm_num) (by norm_num)) rfl
  have evolume := h (bar "b" 1 4 0 2 0 1) (hbar (by norm_num) (by norm_num)) rfl
  have etrend := h (bar "b" 3 4 0 2 0 0) (hbar (by norm_num) (by norm_num)) rfl
  have ebody := h (bar "b" 0 4 0 2 0 0) (hbar (by norm_num) (by norm_num)) rfl
  have erange := h (bar "b" 5 8 4 6 0 0) (hbar (by norm_num) (by norm_num)) rfl
  rw [weightedScore_of hsame, weightedScore_of hsame] at esame
  rw [weightedScore_of hvol, weightedScore_of hvol] at evol
  rw [weightedScore_of hvolume, weightedScore_of hvolume] at evolume
  rw [weightedScore_of htrend, weightedScore_of htrend] at etrend
  rw [weightedScore_of hbody, weightedScore_of hbody] at ebody
  rw [weightedScore_of hrange, weightedScore_of hrange] at erange
  intro name hname
  simp only [featureNames, mem_cons, not_mem_nil, or_false] at hname
  rcases hname with rfl | rfl | rfl | rfl | rfl | rfl
  · linarith
  · linarith
  · linarith
  · linarith
  · linarith
  · linarith

def single (k : String) (s : MarketSnapshot F) : Dict String (MarketSnapshot F) :=
  ⟨[(k, s)], nodup_singleton k⟩

def scenarioOf (sid : String) : HistoricalScenario F where
  id := "s"
  createdAt := ⟨0, Utc.epoch_ok⟩
  ontologyTags := []
  lifecycle := .new ⟨0, Utc.epoch_ok⟩
  name := "s"
  description := ""
  startTime := none
  endTime := none
  snapshotIds := [sid]
  regimeId := ""
  macroId := ""
  outcome := ""
  priceOutcome := 0
  volatilityOutcome := 0
  maxFavorableMovement := 0
  maxAdverseMovement := 0
  tags := []
  datasetSource := ""
  similarityScore := 0

/-- **The matcher scores by its weights** just when they give every listed scenario the sum of the
similarities; for bars in their ranges they always do just when they are those of the
similarity. -/
theorem matchScenario_asDeclared_iff (m : ScenarioMatcher F) :
    (∀ (snapshot : MarketSnapshot F) (scenarios : List (HistoricalScenario F))
        (snapshotsIndex : Option (Dict String (MarketSnapshot F))) (topN : Int) (minScore : F),
      (scenarios.map (·.id)).Nodup →
        (ScoresAsDeclared m snapshot scenarios snapshotsIndex topN minScore ↔
          SameSums snapshot snapshotsIndex m.featureWeights scenarios)) ∧
    ((∀ (snapshot : MarketSnapshot F) (scenarios : List (HistoricalScenario F))
        (snapshotsIndex : Option (Dict String (MarketSnapshot F))) (topN : Int) (minScore : F),
      (scenarios.map (·.id)).Nodup → InRange snapshot →
        (∀ index ∈ snapshotsIndex, ∀ s ∈ index.values, InRange s) →
        ScoresAsDeclared m snapshot scenarios snapshotsIndex topN minScore) ↔
      HasSimilarityWeights m.featureWeights) := by
  refine ⟨fun snapshot scenarios snapshotsIndex topN minScore hids ↦
    scoresAsDeclared_iff m snapshot snapshotsIndex topN minScore hids, fun h ↦ ?_, fun h ↦ ?_⟩
  · refine hasSimilarityWeights_of fun b hb hid ↦ ?_
    have hsnapshot : InRange (bar "a" 1 4 0 2 0 0 : MarketSnapshot F) :=
      inRange_bar (by norm_num) (by norm_num)
    have hids : ([(scenarioOf "b" : HistoricalScenario F)].map (·.id)).Nodup :=
      nodup_singleton _
    have hscores := h (bar "a" 1 4 0 2 0 0) [scenarioOf "b"] (some (single "b" b)) 1 0 hids
      hsnapshot (by
        rintro index ⟨⟩ s hs
        rwa [mem_singleton.mp hs])
    have hsums := (scoresAsDeclared_iff m _ _ _ _ hids).mp hscores
      (scenarioOf "b") (mem_singleton_self _)
    have hresolve : resolve (bar "a" 1 4 0 2 0 0) (some (single "b" b)) "b" = some b := by
      have hne : b.id ≠ "a" := by
        rw [hid]
        decide
      have hfilter : resolve (bar "a" 1 4 0 2 0 0) (some (single "b" b)) "b" =
          (some b).filter fun s ↦ s.id ≠ "a" := rfl
      rw [hfilter, Option.filter_some, if_pos (decide_eq_true hne)]
    have hfound : foundSnapshots (bar "a" 1 4 0 2 0 0) (some (single "b" b)) (scenarioOf "b") =
        [b] := filterMap_cons_some hresolve
    rw [hfound, map_singleton, map_singleton, sum_singleton, sum_singleton,
      similarity_mem hsnapshot hb] at hsums
    exact hsums
  · intro snapshot scenarios snapshotsIndex topN minScore hids hsnapshot hindex
    refine (scoresAsDeclared_iff m snapshot snapshotsIndex topN minScore hids).mpr fun s _ ↦ ?_
    refine congrArg List.sum (map_congr_left fun b hb ↦ ?_)
    have hrange : InRange b := by
      obtain ⟨sid, -, hresolve⟩ := mem_filterMap.mp hb
      cases snapshotsIndex with
      | none => cases hresolve
      | some index =>
        obtain ⟨hget, -⟩ := Option.filter_eq_some_iff.mp hresolve
        exact hindex index rfl b (Dict.mem_values.mpr ⟨sid, hget⟩)
    rw [h.weightedScore, similarity_mem hsnapshot hrange]

end

/-! ### Bars with the default weights -/

theorem default_valid : |(defaultFeatureWeights : Dict String ℚ).values.sum - 1| ≤ 1 / 100 := by
  decide +kernel

/-- Bars that differ in the trend only score less by the default weights. -/
theorem trend_not_asDeclared :
    ∃ m : ScenarioMatcher ℚ, ScenarioMatcher.new none = .ok m ∧
      ¬ ScoresAsDeclared m (bar "a" 1 4 0 2 0 0) [scenarioOf "b"]
        (some (single "b" (bar "b" 3 4 0 2 0 0))) 5 0 := by
  refine ⟨⟨defaultFeatureWeights, default_valid⟩, dif_pos default_valid, fun h ↦ ?_⟩
  have hscore := h.scores (scenarioOf "b") (mem_singleton_self _)
  revert hscore
  decide +kernel

/-- Bars of one shape score alike by all weights. -/
theorem shape_asDeclared :
    ∃ m : ScenarioMatcher ℚ, ScenarioMatcher.new none = .ok m ∧
      ScoresAsDeclared m (bar "a" 1 4 0 2 0 0) [scenarioOf "b"]
        (some (single "b" (bar "b" 1 4 0 2 0 0))) 5 0 := by
  refine ⟨⟨defaultFeatureWeights, default_valid⟩, dif_pos default_valid, ?_⟩
  have hids : ([(scenarioOf "b" : HistoricalScenario ℚ)].map (·.id)).Nodup := nodup_singleton _
  refine ((matchScenario_asDeclared_iff _).1 _ _ _ _ _ hids).mpr fun s hs ↦ ?_
  obtain rfl := mem_singleton.mp hs
  decide +kernel

end Qros.MarketMemory
