import Mathlib.Data.Prod.Lex
import Qros.Lib.WorkPool
import Qros.Quant.Strategy.Run
import Qros.Quant.Research.ParameterSpace

/-!
# The optimizer

`src/research/optimizer.cpp`: a sweep over a parameter space by threads that share a cursor, and the
ranking of its results.

The signal generator and the config provider are functions, as the header asks for: deterministic,
and without state that the threads share.  A schedule is the order in which the threads move.
-/

universe u

/-!
## Which combinations are evaluated

`combo_indices` of `src/research/optimizer.cpp`.
-/

namespace Qros.Quant.Research

inductive SearchType where
  | grid
  | random
  | seeded
deriving DecidableEq

inductive OptimizationMetric where
  | netProfit
  | sharpe
  | sortino
  | calmar
  | maxDrawdown
  | profitFactor
  | winRate
  | expectancy
  | recoveryFactor
  | tradeCount
  | stability
deriving DecidableEq

structure OptimizerConfig where
  searchType : SearchType
  seed : UInt64
  randomSamples : Nat
  rankMetric : OptimizationMetric
  maxParallelism : Nat
  topN : Nat
deriving DecidableEq

/-- The default member initializers. -/
def OptimizerConfig.defaults : OptimizerConfig where
  searchType := .grid
  seed := 42
  randomSamples := 1000
  rankMetric := .netProfit
  maxParallelism := 0
  topN := 0

/-- What is taken from `<random>`: two numbers of the `random_device`, and the numbers that a
`uniform_int_distribution` from 0 to `max` draws from a generator with a seed. -/
structure RandomSource where
  device : UInt32 × UInt32
  uniform : UInt64 → (max : Nat) → Nat → Fin (max + 1)

/-! ## Sampling -/

structure Sample (total : Nat) where
  seen : Finset Nat
  idx : List Nat
  seen_eq : seen = idx.toFinset
  nodup : idx.Nodup
  lt_total : ∀ i ∈ idx, i < total

namespace Sample

variable {total : Nat}

theorem not_mem_nil_of_lt : ∀ i ∈ ([] : List Nat), i < total := fun _ h ↦ absurd h List.not_mem_nil

def empty (total : Nat) : Sample total := ⟨∅, [], rfl, .nil, not_mem_nil_of_lt⟩

section Insert

variable {s : Sample total} {v : Fin total}

theorem insert_seen_eq : insert v.val s.seen = (s.idx ++ [v.val]).toFinset := by
  ext i
  rw [s.seen_eq]
  simp

theorem nodup_concat (h : v.val ∉ s.seen) : (s.idx ++ [v.val]).Nodup := by
  rw [s.seen_eq, List.mem_toFinset] at h
  exact List.nodup_append_comm.mp (List.nodup_cons.mpr ⟨h, s.nodup⟩)

theorem lt_total_concat : ∀ i ∈ s.idx ++ [v.val], i < total := by
  intro i hi
  rcases List.mem_append.mp hi with hi | hi
  · exact s.lt_total i hi
  · rw [List.mem_singleton.mp hi]
    exact v.isLt

end Insert

/-- `if (seen.insert(v).second) idx.push_back(v)`. -/
def insert (s : Sample total) (v : Fin total) : Sample total :=
  if h : v.val ∈ s.seen then s
  else ⟨Insert.insert v.val s.seen, s.idx ++ [v.val], insert_seen_eq, nodup_concat h, lt_total_concat⟩

/-- The first loop; `left` tries are left, and the next one is number `k`. -/
def drawLoop (want : Nat) (draw : Nat → Fin total) : (left k : Nat) → Sample total → Sample total
  | 0, _, s => s
  | left + 1, k, s =>
    if s.seen.card < want then drawLoop want draw left (k + 1) (s.insert (draw k)) else s

/-- The second loop, over the numbers that are left. -/
def fillLoop (want : Nat) : List (Fin total) → Sample total → Sample total
  | [], s => s
  | i :: rest, s => if s.idx.length < want then fillLoop want rest (s.insert i) else s

/-- Both loops. -/
def draw (want : Nat) (draw : Nat → Fin total) : Sample total :=
  let maxTries := (want * 8 + 1024) % 2 ^ 64
  fillLoop want (List.finRange total) (drawLoop want draw maxTries 0 (empty total))

theorem card_seen (s : Sample total) : s.seen.card = s.idx.length := by
  rw [s.seen_eq, List.toFinset_card_of_nodup s.nodup]

theorem subset_insert (s : Sample total) (v : Fin total) : s.seen ⊆ (s.insert v).seen := by
  unfold insert
  split
  · exact Finset.Subset.refl _
  · exact Finset.subset_insert _ _

theorem mem_insert (s : Sample total) (v : Fin total) : v.val ∈ (s.insert v).seen := by
  unfold insert
  split
  · assumption
  · exact Finset.mem_insert_self _ _

theorem length_insert_le (s : Sample total) (v : Fin total) :
    (s.insert v).idx.length ≤ s.idx.length + 1 := by
  unfold insert
  split
  · exact Nat.le_succ _
  · rw [List.length_append]
    rfl

variable {want : Nat}

theorem length_drawLoop_le {draw : Nat → Fin total} {left k : Nat} {s : Sample total}
    (h : s.idx.length ≤ want) : (drawLoop want draw left k s).idx.length ≤ want := by
  induction left generalizing k s with
  | zero => exact h
  | succ left ih =>
    unfold drawLoop
    split
    · rename_i hlt
      rw [card_seen] at hlt
      exact ih ((length_insert_le s _).trans hlt)
    · exact h

theorem fillLoop_spec (rest : List (Fin total)) {s : Sample total} (h : s.idx.length ≤ want) :
    s.seen ⊆ (fillLoop want rest s).seen ∧ (fillLoop want rest s).idx.length ≤ want ∧
      ((fillLoop want rest s).idx.length = want ∨
        ∀ i ∈ rest, i.val ∈ (fillLoop want rest s).seen) := by
  induction rest generalizing s with
  | nil => exact ⟨Finset.Subset.refl _, h, .inr fun _ hi ↦ absurd hi List.not_mem_nil⟩
  | cons i rest ih =>
    unfold fillLoop
    split
    · rename_i hlt
      obtain ⟨hsub, hle, hdone⟩ := ih ((length_insert_le s i).trans hlt)
      refine ⟨(subset_insert s i).trans hsub, hle, hdone.imp_right fun hall ↦ ?_⟩
      rw [List.forall_mem_cons]
      exact ⟨hsub (mem_insert s i), hall⟩
    · rename_i hge
      exact ⟨Finset.Subset.refl _, h, .inl (le_antisymm h (Nat.le_of_not_lt hge))⟩

theorem length_draw (h : want < total) (numbers : Nat → Fin total) :
    (draw want numbers).idx.length = want := by
  have hdrawn : (drawLoop want numbers ((want * 8 + 1024) % 2 ^ 64) 0 (empty total)).idx.length ≤
      want := length_drawLoop_le (Nat.zero_le want)
  obtain ⟨-, hle, hdone⟩ := fillLoop_spec (List.finRange total) hdrawn
  refine hdone.resolve_right fun hall ↦ ?_
  have hcard : (Finset.range total).card ≤ (draw want numbers).seen.card := by
    refine Finset.card_le_card fun i hi ↦ ?_
    exact hall ⟨i, Finset.mem_range.mp hi⟩ (List.mem_finRange _)
  rw [Finset.card_range, card_seen] at hcard
  exact absurd (hcard.trans hle) (Nat.not_le.mpr h)

end Sample

/-! ## The indices -/

/-- `seed ^= (seed == 0 ? 1 : 0)`, for the numbers of the `random_device`. -/
def deviceSeed (device : UInt32 × UInt32) : UInt64 :=
  let seed := (device.1.toUInt64 <<< 32) ^^^ device.2.toUInt64
  seed ^^^ (if seed = 0 then 1 else 0)

theorem sub_one_add_one_of_lt {want total : Nat} (h : want < total) : total - 1 + 1 = total :=
  Nat.sub_add_cancel (Nat.one_le_of_lt h)

/-- `combo_indices`: the indices and the seed that was used. -/
def comboIndices (source : RandomSource) (cfg : OptimizerConfig) (total : Nat) : List Nat × UInt64 :=
  if cfg.searchType = .grid then (List.range total, 0)
  else
    let seed := if cfg.searchType = .random then deviceSeed source.device else cfg.seed
    let want := min cfg.randomSamples total
    if h : want < total then
      let dist := fun k ↦ (source.uniform seed (total - 1) k).cast (sub_one_add_one_of_lt h)
      ((Sample.draw want dist).idx, seed)
    else (List.range total, seed)

/-- The number of combinations that a search asks for. -/
def OptimizerConfig.requested (cfg : OptimizerConfig) (total : Nat) : Nat :=
  match cfg.searchType with
  | .grid => total
  | .random | .seeded => min cfg.randomSamples total

/-- For every stream of random numbers, the indices are different and below `total`, and there are
as many as the search asks for. -/
theorem comboIndices_spec (source : RandomSource) (cfg : OptimizerConfig) (total : Nat) :
    (comboIndices source cfg total).1.Nodup ∧
      (∀ i ∈ (comboIndices source cfg total).1, i < total) ∧
        (comboIndices source cfg total).1.length = cfg.requested total := by
  have hrange : ∀ i ∈ List.range total, i < total := fun i ↦ List.mem_range.mp
  unfold comboIndices
  split
  · rename_i hgrid
    rw [OptimizerConfig.requested, hgrid]
    exact ⟨List.nodup_range, hrange, List.length_range⟩
  · rename_i hgrid
    have hrequested : cfg.requested total = min cfg.randomSamples total := by
      unfold OptimizerConfig.requested
      split
      · contradiction
      · rfl
      · rfl
    dsimp only
    rw [hrequested]
    split
    · rename_i hlt
      exact ⟨Sample.nodup _, Sample.lt_total _, Sample.length_draw hlt _⟩
    · rename_i hge
      refine ⟨List.nodup_range, hrange, ?_⟩
      rw [List.length_range]
      exact le_antisymm (Nat.le_of_not_lt hge) (min_le_right _ _)

end Qros.Quant.Research

namespace Qros.Quant.Research

open Qros.Lib Qros.Quant.Strategy

variable {F : Type u} [Zero F] [One F] [NatCast F] [Add F] [Sub F] [Mul F] [Div F] [Neg F]
  [LT F] [LE F] [DecidableLT F] [DecidableLE F]

/-! ## Metrics -/

structure OptimizationMetrics (F : Type u) where
  netProfit : F
  sharpe : F
  sortino : F
  calmar : F
  maxDrawdown : F
  maxDrawdownPct : F
  profitFactor : F
  winRate : F
  expectancy : F
  recoveryFactor : F
  stability : F
  totalReturnPct : F
  annualizedReturn : F
  tradeCount : Nat
deriving DecidableEq

structure FitSums (F : Type u) where
  sumX : F
  sumY : F
  sumXx : F
  sumXy : F

/-- One round of the first loop, for the point `y` at index `i`. -/
def FitSums.add (s : FitSums F) (point : F × Nat) : FitSums F :=
  let x : F := (point.2 : F)
  ⟨s.sumX + x, s.sumY + point.1, s.sumXx + x * x, s.sumXy + x * point.1⟩

def fitEps : F := decimal 1 9

def stabilityScore [CMath F] (equity : List F) : F :=
  if equity.length < 2 then 0
  else
    let n : F := (equity.length : F)
    let s := equity.zipIdx.foldl FitSums.add ⟨0, 0, 0, 0⟩
    let denom := n * s.sumXx - s.sumX * s.sumX
    let slope := if fitEps < fabs denom then (n * s.sumXy - s.sumX * s.sumY) / denom else 0
    let intercept := if fitEps < fabs denom then (s.sumY - slope * s.sumX) / n else 0
    let meanY := s.sumY / n
    let ssRes := equity.zipIdx.foldl
      (fun acc p ↦
        let d := p.1 - (intercept + slope * (p.2 : F))
        acc + d * d) 0
    let ssTot := equity.foldl (fun acc y ↦ acc + (y - meanY) * (y - meanY)) 0
    if ssTot ≤ fitEps then 100
    else stdMax 0 (stdMin 1 (1 - ssRes / ssTot)) * 100

def computeOptimizationMetrics [CMath F] (s : StrategyStats F) (eq : List F) :
    OptimizationMetrics F where
  netProfit := s.netProfit
  sharpe := s.sharpe
  sortino := s.sortino
  calmar := s.calmar
  maxDrawdown := s.maxDrawdown
  maxDrawdownPct := s.maxDrawdownPct
  profitFactor := s.profitFactor
  winRate := s.winRate
  expectancy := s.expectancy
  recoveryFactor := s.recoveryFactor
  stability := stabilityScore eq
  totalReturnPct := s.totalReturnPct
  annualizedReturn := s.annualizedReturn
  tradeCount := s.totalTrades

def rankDirection (metric : OptimizationMetric) : Int := if metric = .maxDrawdown then -1 else 1

def rankValue (m : OptimizationMetrics F) : OptimizationMetric → F
  | .netProfit => m.netProfit
  | .sharpe => m.sharpe
  | .sortino => m.sortino
  | .calmar => m.calmar
  | .maxDrawdown => m.maxDrawdown
  | .profitFactor => m.profitFactor
  | .winRate => m.winRate
  | .expectancy => m.expectancy
  | .recoveryFactor => m.recoveryFactor
  | .tradeCount => (m.tradeCount : F)
  | .stability => m.stability

/-! ## Records -/

structure EvalRecord (F : Type u) where
  comboIndex : Nat
  params : ParamSet F
  stats : StrategyStats F
  metrics : OptimizationMetrics F
  signalsProcessed : Nat
  finalEquity : F
  ok : Bool
  error : String
deriving DecidableEq

def noStats : StrategyStats F :=
  ⟨0, 0, 0, 0, 0, 0, 0, 0, 0, 0, 0, 0, 0, 0, 0, 0, 0, 0, 0, 0, 0, 0, 0, 0, 0, 0, 0, 0⟩

def noSimulation : SimulationResult F where
  stats := noStats
  equityCurve := []
  drawdownCurve := []
  trades := []
  monthlyReturns := []
  yearlyReturns := []
  barsProcessed := 0
  signalsProcessed := 0
  signalsOpened := 0
  signalsIgnored := 0
  initialEquity := 0
  finalEquity := 0

def EvalRecord.defaults : EvalRecord F where
  comboIndex := 0
  params := ParamSet.empty
  stats := noStats
  metrics := ⟨0, 0, 0, 0, 0, 0, 0, 0, 0, 0, 0, 0, 0, 0⟩
  signalsProcessed := 0
  finalEquity := 0
  ok := false
  error := ""

structure StrategyEvaluation (F : Type u) where
  comboIndex : Nat
  params : ParamSet F
  stats : StrategyStats F
  metrics : OptimizationMetrics F
  simulation : SimulationResult F
  signalsProcessed : Nat
  finalEquity : F
deriving DecidableEq

structure RankedStrategy (F : Type u) where
  evaluation : StrategyEvaluation F
  rank : Nat
  rankValue : F
deriving DecidableEq

structure OptimizationResult (F : Type u) where
  ranked : List (RankedStrategy F)
  requested : Nat
  evaluated : Nat
  failed : Nat
  searchType : SearchType
  seed : UInt64
  rankMetric : OptimizationMetric
  parameterNames : List String
deriving DecidableEq

/-! ## The sweep -/

def OptimizerConfig.threads (cfg : OptimizerConfig) (hardware size : Nat) : Nat :=
  let wanted := if cfg.maxParallelism = 0 then (if hardware = 0 then 1 else hardware)
    else cfg.maxParallelism
  max 1 (min wanted size)

theorem OptimizerConfig.threads_pos (cfg : OptimizerConfig) (hardware size : Nat) :
    0 < cfg.threads hardware size :=
  Nat.lt_of_lt_of_le Nat.one_pos (le_max_left _ _)

structure Optimizer (F : Type u) where
  baseConfig : StrategyConfig F
  config : OptimizerConfig

/-- The arguments of `optimize`. -/
structure Sweep (F : Type u) where
  bars : List (OHLCV F)
  space : ParameterSpace F
  generate : List (OHLCV F) → ParamSet F → List (StrategySignal F)
  /-- `none` for a null provider. -/
  provide : Option (ParamSet F → StrategyConfig F)

def kernelError (e : Strategy.Error) : Error where
  code := match e.code with
    | .insufficientData => .insufficientData
    | .invalidArgument => .invalidArgument
    | .outOfBounds => .outOfBounds
  message := e.message

def validateBars (bars : List (OHLCV F)) : Option Error :=
  if bars.isEmpty then some ⟨.insufficientData, "research requires at least one bar"⟩
  else ((List.range bars.length).findSome? (barError bars)).map kernelError

namespace Optimizer

variable (opt : Optimizer F) (sweep : Sweep F)

def configFor (params : ParamSet F) : StrategyConfig F :=
  match sweep.provide with
  | some provide => provide params
  | none => opt.baseConfig

section Evaluate

variable [CMath F] [IntCast F] [BEq F]

/-- `kernel.run` on the signals of a combination. -/
def simulation (params : ParamSet F) : Except Strategy.Error (SimulationResult F) :=
  run (opt.configFor sweep params) sweep.bars (sweep.generate sweep.bars params)

/-- The body of `evaluate_one` for the combination of its slot. -/
def evaluateIndex (combo : Nat) (rec : EvalRecord F) : EvalRecord F :=
  let params := sweep.space.combo combo
  match opt.simulation sweep params with
  | .error e => { rec with comboIndex := combo, params := params, error := e.message }
  | .ok sim =>
    { rec with
      comboIndex := combo
      params := params
      stats := sim.stats
      metrics := computeOptimizationMetrics sim.stats sim.equityCurve
      signalsProcessed := sim.signalsProcessed
      finalEquity := sim.finalEquity
      ok := true }

def evaluateOne (indices : List Nat) (slot : Nat) (rec : EvalRecord F) : EvalRecord F :=
  opt.evaluateIndex sweep (indices.getD slot 0) rec

def evaluateCombo (params : ParamSet F) : Result (StrategyEvaluation F) :=
  match validateBars sweep.bars with
  | some e => .error e
  | none =>
    match opt.simulation sweep params with
    | .error e => .error (kernelError e)
    | .ok sim => .ok {
        comboIndex := 0
        params := params
        stats := sim.stats
        metrics := computeOptimizationMetrics sim.stats sim.equityCurve
        simulation := sim
        signalsProcessed := sim.signalsProcessed
        finalEquity := sim.finalEquity }

/-! ### The ranking -/

def recordAt (records : List (EvalRecord F)) (i : Nat) : EvalRecord F :=
  records.getD i EvalRecord.defaults

/-- The comparison that `optimize` sorts with. -/
def ranksBefore (metric : OptimizationMetric) (a b : EvalRecord F) : Bool :=
  let va := rankValue a.metrics metric
  let vb := rankValue b.metrics metric
  if va != vb then
    if 0 < rankDirection metric then decide (vb < va) else decide (va < vb)
  else decide (a.comboIndex < b.comboIndex)

/-- `order`: the slots of the records that are `ok`, in a stable sort. -/
def order (metric : OptimizationMetric) (records : List (EvalRecord F)) : List Nat :=
  ((List.range records.length).filter fun i ↦ (recordAt records i).ok).insertionSort
    fun a b ↦ ranksBefore metric (recordAt records b) (recordAt records a) = false

def rankedStrategy (rec : EvalRecord F) (rank : Nat) : RankedStrategy F where
  evaluation := match opt.evaluateCombo sweep rec.params with
    | .ok full => { full with comboIndex := rec.comboIndex }
    | .error _ => {
        comboIndex := rec.comboIndex
        params := rec.params
        stats := rec.stats
        metrics := rec.metrics
        simulation := noSimulation
        signalsProcessed := rec.signalsProcessed
        finalEquity := rec.finalEquity }
  rank := rank
  rankValue := Research.rankValue rec.metrics opt.config.rankMetric

/-- What `optimize` makes of the records after the threads are joined. -/
def summarize (seed : UInt64) (records : List (EvalRecord F)) : OptimizationResult F :=
  let order := order opt.config.rankMetric records
  let retain := if opt.config.topN = 0 then order.length else min opt.config.topN order.length
  { ranked := (order.take retain).mapIdx fun k i ↦
      opt.rankedStrategy sweep (recordAt records i) (k + 1)
    requested := records.length
    evaluated := order.length
    failed := records.length - order.length
    searchType := opt.config.searchType
    seed := seed
    rankMetric := opt.config.rankMetric
    parameterNames := sweep.space.names }

/-! ### The threads -/

variable (source : RandomSource) (hardware : Nat) (schedule : List Nat)

/-- What `optimize` does before it starts threads: the indices and the seed. -/
def plan : Result (List Nat × UInt64) :=
  match validateBars sweep.bars with
  | some e => .error e
  | none =>
    let total := sweep.space.comboCount
    if sweep.space.names.isEmpty then .error ⟨.invalidArgument, "parameter space is empty"⟩
    else if total = 0 then
      .error ⟨.invalidArgument, "parameter space has zero combinations (empty parameter grid)"⟩
    else if total = sizeMax then
      .error ⟨.numericOverflow, "parameter space combination count overflows size_t"⟩
    else .ok (comboIndices source opt.config total)

/-- The threads at work on the records. -/
def pool (indices : List Nat) : Machine (Pool (EvalRecord F)) Nat (Option Nat) :=
  Pool.machine (opt.evaluateOne sweep indices)
    (List.replicate indices.length EvalRecord.defaults) (opt.config.threads hardware indices.length)

/-- `optimize`, after the threads have moved as `schedule` says; `none` while some are at work. -/
def optimize : Option (Result (OptimizationResult F)) :=
  match opt.plan sweep source with
  | .error e => some (.error e)
  | .ok (indices, seed) =>
    if indices.isEmpty then
      some (.ok {
        ranked := []
        requested := 0
        evaluated := 0
        failed := 0
        searchType := opt.config.searchType
        seed := seed
        rankMetric := opt.config.rankMetric
        parameterNames := sweep.space.names })
    else
      let s := (opt.pool sweep hardware indices).after schedule
      if s.Finished then some (.ok (opt.summarize sweep seed s.cells)) else none

/-! ### What does not depend on the threads -/

/-- The indices of the sweep. -/
def planned : List Nat :=
  match opt.plan sweep source with
  | .error _ => []
  | .ok (indices, _) => indices

/-- The result when the indices are evaluated one after the other. -/
def inOrder : Result (OptimizationResult F) :=
  match opt.plan sweep source with
  | .error e => .error e
  | .ok (indices, seed) => .ok (opt.summarize sweep seed
      (indices.map fun combo ↦ opt.evaluateIndex sweep combo EvalRecord.defaults))

/-- The indices that the threads have evaluated. -/
def evaluated : List Nat :=
  let indices := opt.planned sweep source
  (Pool.evaluated (opt.evaluateOne sweep indices)
    (List.replicate indices.length EvalRecord.defaults) (opt.config.threads hardware indices.length)
      schedule).map fun slot ↦ indices.getD slot 0

/-- The moves of threads that had not finished. -/
def moves : Nat :=
  let indices := opt.planned sweep source
  Pool.moves (opt.evaluateOne sweep indices)
    (List.replicate indices.length EvalRecord.defaults) (opt.config.threads hardware indices.length) schedule

def withParallelism (maxParallelism : Nat) : Optimizer F where
  baseConfig := opt.baseConfig
  config := { opt.config with maxParallelism := maxParallelism }

variable {opt sweep source hardware schedule}

omit [One F] [NatCast F] [Add F] [Sub F] [Mul F] [Div F] [Neg F] [LT F] [DecidableLT F] [CMath F]
  [IntCast F] [BEq F] in
theorem nodup_planned : (opt.planned sweep source).Nodup := by
  unfold planned
  cases hplan : opt.plan sweep source with
  | error e => exact .nil
  | ok found =>
    unfold plan at hplan
    split at hplan
    · cases hplan
    · dsimp only at hplan
      split_ifs at hplan
      cases hplan
      exact (comboIndices_spec _ _ _).1

theorem mapIdx_evaluateOne (indices : List Nat) :
    (List.replicate indices.length (EvalRecord.defaults (F := F))).mapIdx
        (opt.evaluateOne sweep indices) =
      indices.map fun combo ↦ opt.evaluateIndex sweep combo EvalRecord.defaults := by
  refine List.ext_getElem (by simp) fun i hi hi' ↦ ?_
  have hlt : i < indices.length := by simpa using hi'
  rw [List.getElem_mapIdx, List.getElem_replicate, List.getElem_map, evaluateOne,
    List.getD_eq_getElem _ _ hlt]

theorem map_getD_range (indices : List Nat) :
    (List.range indices.length).map (fun slot ↦ indices.getD slot 0) = indices := by
  refine List.ext_getElem (by simp) fun i hi hi' ↦ ?_
  rw [List.getElem_map, List.getElem_range, List.getD_eq_getElem _ _ hi']

theorem evaluated_of_planned_eq_nil (h : opt.planned sweep source = []) :
    opt.evaluated sweep source hardware schedule = [] := by
  unfold evaluated
  rw [h]
  exact congrArg (List.map _) (Pool.evaluated_nil schedule)

/-- For every schedule, some thread is at work, or the result is the one of the evaluation in order
and every index was evaluated once. -/
theorem optimize_cases :
    opt.optimize sweep source hardware schedule = none ∧
        opt.moves sweep source hardware schedule <
          2 * (opt.planned sweep source).length +
            opt.config.threads hardware (opt.planned sweep source).length ∨
      opt.optimize sweep source hardware schedule = some (opt.inOrder sweep source) ∧
        (opt.evaluated sweep source hardware schedule).Perm (opt.planned sweep source) := by
  cases hplan : opt.plan sweep source with
  | error e =>
    have hplanned : opt.planned sweep source = [] := by rw [planned, hplan]
    refine .inr ⟨?_, ?_⟩
    · rw [optimize, inOrder, hplan]
    · rw [evaluated_of_planned_eq_nil hplanned, hplanned]
  | ok found =>
    obtain ⟨indices, seed⟩ := found
    have hplanned : opt.planned sweep source = indices := by rw [planned, hplan]
    by_cases hempty : indices = []
    · subst hempty
      refine .inr ⟨?_, ?_⟩
      · rw [optimize, inOrder, hplan]
        simp [summarize, order]
      · rw [evaluated_of_planned_eq_nil hplanned, hplanned]
    · have hpos := opt.config.threads_pos hardware indices.length
      have hinv := Pool.inv_after (opt.evaluateOne sweep indices)
        (List.replicate indices.length EvalRecord.defaults)
        (opt.config.threads hardware indices.length) schedule
      have hmoves : Pool.moves (opt.evaluateOne sweep indices)
          (List.replicate indices.length EvalRecord.defaults) _ schedule < _ ↔ _ :=
        Pool.moves_lt_iff hpos schedule
      rw [List.length_replicate] at hmoves
      rw [optimize, hplan, hplanned]
      simp only [List.isEmpty_iff, hempty, if_false]
      by_cases hfinished : ((opt.pool sweep hardware indices).after schedule).Finished
      · obtain ⟨hdone, hcells⟩ := hinv.results hpos hfinished
        rw [if_pos hfinished]
        refine .inr ⟨?_, ?_⟩
        · rw [mapIdx_evaluateOne] at hcells
          rw [inOrder, hplan]
          exact congrArg (fun cells ↦ some (Except.ok (opt.summarize sweep seed cells))) hcells
        · rw [evaluated, hplanned]
          rw [List.length_replicate] at hdone
          have hmap := hdone.map fun slot ↦ indices.getD slot 0
          rwa [map_getD_range] at hmap
      · rw [if_neg hfinished]
        refine .inl ⟨rfl, ?_⟩
        rw [moves, hplanned]
        exact hmoves.mpr hfinished

/-- **Sampling and scheduling.**  The indices of a search are different and as many as it asks for,
whatever the random numbers are.  For every number of threads and every order in which they move,
the threads evaluate each index once, and `optimize` returns what the evaluation in order returns,
at the latest when every thread has made its moves. -/
theorem sampled_and_scheduled :
    (∀ (source : RandomSource) (cfg : OptimizerConfig) (total : Nat),
      (comboIndices source cfg total).1.Nodup ∧
        (∀ i ∈ (comboIndices source cfg total).1, i < total) ∧
        (comboIndices source cfg total).1.length =
          if cfg.searchType = .grid then total else min cfg.randomSamples total) ∧
    ∀ (opt : Optimizer F) (sweep : Sweep F) (source : RandomSource),
      (opt.planned sweep source).Nodup ∧
      ∀ (maxParallelism hardware : Nat) (schedule : List Nat),
        let o := opt.withParallelism maxParallelism
        o.optimize sweep source hardware schedule = none ∧
            o.moves sweep source hardware schedule <
              2 * (opt.planned sweep source).length +
                o.config.threads hardware (opt.planned sweep source).length ∨
          o.optimize sweep source hardware schedule = some (opt.inOrder sweep source) ∧
            (o.evaluated sweep source hardware schedule).Perm (opt.planned sweep source) := by
  refine ⟨fun source cfg total ↦ ?_, fun opt sweep source ↦ ⟨nodup_planned, ?_⟩⟩
  · obtain ⟨hnodup, hlt, hlength⟩ := comboIndices_spec source cfg total
    refine ⟨hnodup, hlt, hlength.trans ?_⟩
    unfold OptimizerConfig.requested
    cases cfg.searchType <;> rfl
  · intro maxParallelism hardware schedule
    exact optimize_cases

end Evaluate

/-! ## The ranking in exact arithmetic -/

section

variable {K : Type u} [Field K] [LinearOrder K] [IsStrictOrderedRing K]
  (metric : OptimizationMetric)

/-- The smaller one ranks first: the metric in its direction, then the index. -/
def rankKey (rec : EvalRecord K) : K ×ₗ Nat :=
  let v := rankValue rec.metrics metric
  toLex (if 0 < rankDirection metric then -v else v, rec.comboIndex)

/-- The records of `order`, best first. -/
def ranking (records : List (EvalRecord K)) : List (EvalRecord K) :=
  (order metric records).map (recordAt records)

theorem ranksBefore_iff {a b : EvalRecord K} :
    ranksBefore metric a b = true ↔ rankKey metric a < rankKey metric b := by
  unfold ranksBefore rankKey
  rw [Prod.Lex.toLex_lt_toLex]
  by_cases hv : rankValue a.metrics metric = rankValue b.metrics metric
  · simp [hv]
  · split_ifs
    · simp [hv]
    · simp [hv]

theorem pairwise_order (records : List (EvalRecord K)) : (order metric records).Pairwise fun i j ↦
    rankKey metric (recordAt records i) ≤ rankKey metric (recordAt records j) := by
  have hle (i j : Nat) : ranksBefore metric (recordAt records j) (recordAt records i) = false ↔
      rankKey metric (recordAt records i) ≤ rankKey metric (recordAt records j) := by
    rw [← Bool.not_eq_true, ranksBefore_iff, not_lt]
  unfold order
  simp only [hle]
  have : Std.Total fun i j ↦
      rankKey metric (recordAt records i) ≤ rankKey metric (recordAt records j) :=
    ⟨fun i j ↦ le_total _ _⟩
  have : IsTrans Nat fun i j ↦
      rankKey metric (recordAt records i) ≤ rankKey metric (recordAt records j) :=
    ⟨fun _ _ _ ↦ le_trans⟩
  exact List.pairwise_insertionSort _ _

omit [IsStrictOrderedRing K] in
theorem ranking_perm (records : List (EvalRecord K)) :
    (ranking metric records).Perm (records.filter EvalRecord.ok) := by
  have hall : (List.range records.length).map (recordAt records) = records := by
    refine List.ext_getElem (by simp) fun i hi hi' ↦ ?_
    rw [List.getElem_map, List.getElem_range, recordAt, List.getD_eq_getElem _ _ hi']
  have hsort := (List.perm_insertionSort
    (fun i j ↦ ranksBefore metric (recordAt records j) (recordAt records i) = false)
    ((List.range records.length).filter fun i ↦ (recordAt records i).ok)).map (recordAt records)
  have hfilter := List.filter_map (p := EvalRecord.ok) (f := recordAt records)
    (l := List.range records.length)
  rw [hall] at hfilter
  exact hsort.trans (List.Perm.of_eq hfilter.symm)

/-- **The ranking does not depend on the order of the records**, ties included. -/
theorem ranking_eq_of_perm {records records' : List (EvalRecord K)} (h : records.Perm records')
    (hindex : (records.map EvalRecord.comboIndex).Nodup) :
    ranking metric records = ranking metric records' := by
  have hperm : (ranking metric records).Perm (ranking metric records') :=
    ((ranking_perm metric records).trans (h.filter _)).trans (ranking_perm metric records').symm
  have hsorted (records : List (EvalRecord K)) :
      (ranking metric records).Pairwise fun a b ↦ rankKey metric a ≤ rankKey metric b :=
    List.pairwise_map.mpr (pairwise_order metric records)
  refine hperm.eq_of_pairwise ?_ (hsorted records) (hsorted records')
  intro a b ha hb hab hba
  have hmem {a : EvalRecord K} (ha : a ∈ ranking metric records) : a ∈ records :=
    (List.mem_filter.mp ((ranking_perm metric records).mem_iff.mp ha)).1
  -- Records with one key have one index.
  have hkey := congrArg (fun k ↦ (ofLex k).2) (le_antisymm hab hba)
  exact List.inj_on_of_nodup_map hindex (hmem ha) (hmem (hperm.mem_iff.mpr hb)) hkey

end

/-- A grid search does not look at the number of samples. -/
theorem grid_not_sampled :
    ¬ ∀ (source : RandomSource) (cfg : OptimizerConfig) (total : Nat),
      (comboIndices source cfg total).1.length = min cfg.randomSamples total := by
  intro h
  have hlength := h ⟨(0, 0), fun _ _ _ ↦ 0⟩ { OptimizerConfig.defaults with randomSamples := 1 } 2
  exact absurd hlength (by decide)

end Optimizer

end Qros.Quant.Research
