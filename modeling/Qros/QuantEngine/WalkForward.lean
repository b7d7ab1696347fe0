import Mathlib.Data.List.Sort
import Mathlib.Data.String.Basic
import Qros.Lib.Checks
import Qros.Python.Float

/-!
# Walk-forward validation

`WalkForwardSplitter` and `WalkForwardValidator` of `quant_engine/validation/`, with their
metrics.  Labels are floats, which `float` leaves as they are; `sum` is a parameter.

The splitter makes at most `defaultMaxFolds` folds.
-/

namespace Qros.QuantEngine.WalkForward

open Qros.Lib Qros.Python List

/-! ## The splitter -/

def defaultMaxFolds : Nat := 10000

/-- All ends are inclusive. -/
structure Fold where
  foldId : Int
  trainStart : Int
  trainEnd : Int
  validationStart : Int
  validationEnd : Int

namespace Fold

def trainRange (f : Fold) : Int × Int := (f.trainStart, f.trainEnd)

def validationRange (f : Fold) : Int × Int := (f.validationStart, f.validationEnd)

def trainSize (f : Fold) : Int := f.trainEnd - f.trainStart + 1

def validationSize (f : Fold) : Int := f.validationEnd - f.validationStart + 1

end Fold

/-- A splitter, with what its constructor checks. -/
structure WalkForwardSplitter where
  trainSize : Int
  validationSize : Int
  stepSize : Int
  trainSize_pos : 0 < trainSize
  validationSize_pos : 0 < validationSize
  stepSize_pos : 0 < stepSize

namespace WalkForwardSplitter

def init (trainSize validationSize stepSize : Int) : Except String WalkForwardSplitter :=
  if ht : 0 < trainSize then
    if hv : 0 < validationSize then
      if hs : 0 < stepSize then
        .ok ⟨trainSize, validationSize, stepSize, ht, hv, hs⟩
      else .error "step_size must be a positive integer"
    else .error "validation_size must be a positive integer"
  else .error "train_size must be a positive integer"

variable (s : WalkForwardSplitter)

/-- The fold of one pass of the loop. -/
def fold (k : Nat) : Fold where
  foldId := k + 1
  trainStart := k * s.stepSize
  trainEnd := s.trainSize + k * s.stepSize - 1
  validationStart := s.trainSize + k * s.stepSize
  validationEnd := s.trainSize + k * s.stepSize + s.validationSize - 1

/-- The loop, with the passes that are left. -/
def foldsFrom (datasetLength : Int) : Nat → Nat → List Fold
  | 0, _ => []
  | n + 1, k =>
    if (s.fold k).validationEnd ≥ datasetLength then []
    else s.fold k :: foldsFrom datasetLength n (k + 1)

def split (datasetLength : Int) : Except String (List Fold) := do
  require (¬ datasetLength < 0) "dataset_length must be a non-negative integer"
  require (¬ datasetLength < s.trainSize + s.validationSize)
    ("dataset too small: need at least train_size + validation_size samples " ++
      "to form a single fold")
  let folds := s.foldsFrom datasetLength defaultMaxFolds 0
  require (folds.isEmpty = false) "no folds could be constructed"
  return folds

end WalkForwardSplitter

/-! ## Metrics -/

section

variable {F : Type} [FloatOps F] (sum : List F → F) (yTrue yPred : List F)

/-- `0.0` unless there is a prediction for every label, and a label. -/
def scored (score : F) : F :=
  if yTrue = [] ∨ yTrue.length ≠ yPred.length then 0 else score

/-- The fraction of the pairs that match. -/
def matching (matches_ : F → F → Bool) : F :=
  scored yTrue yPred (sum ((yTrue.zip yPred).filterMap fun (t, p) ↦
    if matches_ t p = true then some 1 else none) / (yTrue.length : F))

def hitRate (picked hit : F → F → Bool) : F :=
  let (hits, misses) := (yTrue.zip yPred).foldl (fun (hits, misses) (t, p) ↦
    if picked t p = true then
      if hit t p = true then (hits + 1, misses) else (hits, misses + 1)
    else (hits, misses)) ((0, 0) : F × F)
  scored yTrue yPred (if (hits + misses == 0) = true then 0 else hits / (hits + misses))

/-- The mean over the pairs. -/
def meanOf (error_ : F → F → F) : F :=
  scored yTrue yPred
    (sum ((yTrue.zip yPred).map fun (t, p) ↦ error_ t p) / (yTrue.length : F))

def accuracy : F := matching sum yTrue yPred fun t p ↦ t == p

/-- The positive class is `1.0`. -/
def precision : F := hitRate yTrue yPred (fun _ p ↦ p == 1) fun t _ ↦ t == 1

def recallScore : F := hitRate yTrue yPred (fun t _ ↦ t == 1) fun _ p ↦ p == 1

def f1Score : F :=
  let p := precision yTrue yPred
  let r := recallScore yTrue yPred
  if (p + r == 0) = true then 0 else ((2 : Nat) : F) * (p * r) / (p + r)

def meanError : F := meanOf sum yTrue yPred fun t p ↦ p - t

def mae : F := meanOf sum yTrue yPred fun t p ↦ Python.abs (p - t)

def sign (v : F) : F := if 0 < v then 1 else if v < 0 then -1 else 0

def directionalAccuracy : F := matching sum yTrue yPred fun t p ↦ sign t == sign p

def computeMetrics : List (String × F) :=
  [("accuracy", accuracy sum yTrue yPred),
    ("precision", precision yTrue yPred),
    ("recall", recallScore yTrue yPred),
    ("f1_score", f1Score yTrue yPred),
    ("mean_error", meanError sum yTrue yPred),
    ("mae", mae sum yTrue yPred),
    ("directional_accuracy", directionalAccuracy sum yTrue yPred)]

end

/-! ## The validator -/

structure ResearchDataset (F : Type) where
  labels : List F
  sampleCount : Int
  labelName : String
  version : String

structure FoldResult (F : Type) where
  foldId : Int
  trainRange : Int × Int
  validationRange : Int × Int
  metrics : List (String × F)
  sampleCount : Nat

structure ValidationMetadata where
  validationVersion : String
  stepSize : Int
  labelName : String
  datasetVersion : String
  sampleCount : Int

structure ValidationResult (F : Type) where
  trainSize : Int
  validationSize : Int
  testSize : Int
  foldCount : Nat
  foldResults : List (FoldResult F)
  metrics : List (String × F)
  metadata : ValidationMetadata

def validationVersion : String := "1.0.0"

/-- A validator, with what its constructor checks. -/
structure WalkForwardValidator where
  splitter : WalkForwardSplitter
  testSize : Option Int
  testSize_nonneg : ∀ size ∈ testSize, 0 ≤ size

def WalkForwardValidator.init (trainSize validationSize stepSize testSize : Option Int) :
    Except String WalkForwardValidator := do
  let trainSize ← found trainSize "train_size is required"
  let validationSize ← found validationSize "validation_size is required"
  let stepSize ← found stepSize "step_size is required"
  let splitter ← WalkForwardSplitter.init trainSize validationSize stepSize
  if h : ∀ size ∈ testSize, 0 ≤ size then .ok ⟨splitter, testSize, h⟩
  else .error "test_size must be a non-negative integer"

/-- The checks of one fold, which keep the start and the end of the last window. -/
def checkFold (length : Int) (prev : Int × Int) (fold : Fold) : Except String (Int × Int) := do
  require (¬ (fold.trainSize ≤ 0 ∨ fold.validationSize ≤ 0)) "empty fold detected"
  require (¬ fold.validationStart ≤ prev.1) "folds are not strictly chronological"
  require (fold.validationStart = prev.2 + 1) "overlapping or gapped forbidden window detected"
  require (¬ fold.trainEnd > fold.validationStart) "training data appears after validation"
  require (¬ fold.validationEnd ≥ length) "fold references future timestamps"
  return (fold.validationStart, fold.validationEnd)

def checkFoldLeakage (folds : List Fold) (length : Int) : Except String Unit := do
  let first ← found folds.head? "empty folds detected"
  let last ← folds.foldlM (checkFold length) (-1, first.validationStart - 1)
  require (¬ last.2 ≥ length - 1) "no test data remains after final fold"

section Validate

variable {F : Type}

def slice (labels : List F) (start stop : Int) : List F :=
  (labels.drop start.toNat).take (stop + 1 - start).toNat

/-- The labels of a fold and what is predicted of them: the last label that was trained on. -/
def foldPredictions (labels : List F) (fold : Fold) : Except String (List F × List F) := do
  let base ← found (slice labels fold.trainStart fold.trainEnd).getLast? "empty training window"
  let yTrue := slice labels fold.validationStart fold.validationEnd
  return (yTrue, List.replicate yTrue.length base)

variable [FloatOps F] (sum : List F → F)

def aggregate (foldResults : List (FoldResult F)) : List (String × F) :=
  match foldResults with
  | [] => []
  | first :: _ =>
    ((first.metrics.map Prod.fst).insertionSort (· ≤ ·)).map fun name ↦
      let values := foldResults.filterMap fun fr ↦ fr.metrics.lookup name
      (name, sum values / (values.length : F))

def evaluateFold (labels : List F) (fold : Fold) : Except String (FoldResult F) := do
  let (yTrue, yPred) ← foldPredictions labels fold
  return {
    foldId := fold.foldId
    trainRange := fold.trainRange
    validationRange := fold.validationRange
    metrics := computeMetrics sum yTrue yPred
    sampleCount := yTrue.length }

def WalkForwardValidator.validate (v : WalkForwardValidator) (dataset : ResearchDataset F) :
    Except String (ValidationResult F) := do
  require (¬ dataset.sampleCount < v.splitter.trainSize + v.splitter.validationSize)
    "dataset too small for the requested window sizes"
  let folds ← v.splitter.split dataset.sampleCount
  checkFoldLeakage folds dataset.sampleCount
  let foldResults ← folds.mapM (evaluateFold sum dataset.labels)
  let last ← found folds.getLast? "empty folds detected"
  return {
    trainSize := v.splitter.trainSize
    validationSize := v.splitter.validationSize
    testSize := v.testSize.getD (Max.max 0 (dataset.sampleCount - last.validationEnd - 1))
    foldCount := foldResults.length
    foldResults := foldResults
    metrics := aggregate sum foldResults
    metadata := {
      validationVersion := validationVersion
      stepSize := v.splitter.stepSize
      labelName := dataset.labelName
      datasetVersion := dataset.version
      sampleCount := dataset.sampleCount } }

end Validate

/-! ## The folds -/

namespace WalkForwardSplitter

variable {s : WalkForwardSplitter} {datasetLength : Int} {n k : Nat} {folds : List Fold}

variable (s datasetLength) in
/-- The validation window of fold `k` is within the data. -/
def Fits (k : Nat) : Prop :=
  s.trainSize + k * s.stepSize + s.validationSize - 1 < datasetLength

instance decidableFits (s : WalkForwardSplitter) (datasetLength : Int) (k : Nat) :
    Decidable (s.Fits datasetLength k) :=
  inferInstanceAs (Decidable (_ < _))

theorem fits_iff : s.Fits datasetLength k ↔ ¬ (s.fold k).validationEnd ≥ datasetLength :=
  not_le.symm

theorem Fits.mono {j : Nat} (h : s.Fits datasetLength k) (hjk : j ≤ k) :
    s.Fits datasetLength j := by
  have hstep : (j : Int) * s.stepSize ≤ k * s.stepSize :=
    Int.mul_le_mul_of_nonneg_right (by omega) s.stepSize_pos.le
  unfold Fits at *
  omega

theorem foldsFrom_eq : s.foldsFrom datasetLength n k =
    ((List.range' k n).filter fun k ↦ decide (s.Fits datasetLength k)).map s.fold := by
  induction n generalizing k with
  | zero => rfl
  | succ n ih =>
    rw [foldsFrom, range'_succ]
    by_cases hfits : s.Fits datasetLength k
    · rw [if_neg (fits_iff.mp hfits), filter_cons,
        if_pos (decide_eq_true hfits), map_cons, ih]
    · rw [if_pos (not_not.mp (fits_iff.not.mp hfits)), filter_cons,
        if_neg (by simpa using hfits)]
      symm
      rw [map_eq_nil_iff, filter_eq_nil_iff]
      intro j hj
      rw [decide_eq_true_iff]
      exact fun h ↦ hfits (h.mono (by rw [mem_range'_1] at hj; omega))

theorem fits_zero : s.Fits datasetLength 0 ↔ ¬ datasetLength < s.trainSize + s.validationSize := by
  unfold Fits
  omega

theorem split_eq_ok : s.split datasetLength = .ok folds ↔ s.Fits datasetLength 0 ∧
    folds = ((List.range defaultMaxFolds).filter fun k ↦
      decide (s.Fits datasetLength k)).map s.fold := by
  have hrange : s.foldsFrom datasetLength defaultMaxFolds 0 =
      ((List.range defaultMaxFolds).filter fun k ↦ decide (s.Fits datasetLength k)).map s.fold := by
    rw [foldsFrom_eq, range_eq_range']
  unfold split
  simp only [bind_eq_ok, require_eq_ok, ← fits_zero]
  constructor
  · rintro ⟨-, -, -, hfits, -, -, hfolds⟩
    exact ⟨hfits, by rw [← Except.ok.inj hfolds, hrange]⟩
  · rintro ⟨hfits, hfolds⟩
    have ht := s.trainSize_pos
    have hv := s.validationSize_pos
    refine ⟨⟨⟩, ?_, ⟨⟩, hfits, ⟨⟩, ?_, by rw [hrange, hfolds]; rfl⟩
    · unfold Fits at hfits
      omega
    · rw [hrange, isEmpty_eq_false_iff, Ne, map_eq_nil_iff,
        filter_eq_nil_iff]
      intro hnone
      exact hnone 0 (mem_range.mpr (by decide)) (decide_eq_true hfits)

theorem mem_split {fold : Fold} (h : s.split datasetLength = .ok folds) (hfold : fold ∈ folds) :
    ∃ k, s.Fits datasetLength k ∧ fold = s.fold k := by
  rw [(split_eq_ok.mp h).2] at hfold
  obtain ⟨k, hk, rfl⟩ := mem_map.mp hfold
  exact ⟨k, of_decide_eq_true (mem_filter.mp hk).2, rfl⟩

end WalkForwardSplitter

/-! ## The windows -/

def interval (a b : Int) : List Int := (List.range (b + 1 - a).toNat).map fun (i : Nat) ↦ a + (i : Int)

theorem interval_append {a m b : Int} (h : a ≤ m + 1) (h' : m ≤ b) :
    interval a m ++ interval (m + 1) b = interval a b := by
  have hsum : (b + 1 - a).toNat = (m + 1 - a).toNat + (b + 1 - (m + 1)).toNat := by omega
  rw [interval, interval, interval, hsum, range_add, map_append, map_map]
  refine congrArg (_ ++ ·) (map_congr_left fun i _ ↦ ?_)
  simp only [Function.comp_apply, Nat.cast_add]
  omega

theorem interval_of_lt {a b : Int} (h : b < a) : interval a b = [] := by
  have hnone : (b + 1 - a).toNat = 0 := by omega
  rw [interval, hnone]
  rfl

section Leakage

variable {length : Int} {fold first : Fold} {folds : List Fold} {prev next : Int × Int}

theorem checkFold_eq_ok (h : checkFold length prev fold = .ok next) :
    fold.validationStart = prev.2 + 1 ∧ fold.validationStart ≤ fold.validationEnd ∧
      next.2 = fold.validationEnd := by
  unfold checkFold at h
  simp only [bind_eq_ok, require_eq_ok] at h
  obtain ⟨-, hsize, -, -, -, hstart, -, -, -, -, hnext⟩ := h
  obtain rfl := Except.ok.inj hnext
  unfold Fold.validationSize at hsize
  exact ⟨hstart, by omega, rfl⟩

/-- **The run of the checks.**  Windows that pass tile what follows the last one. -/
theorem foldlM_checkFold (h : folds.foldlM (checkFold length) prev = .ok next) :
    folds.flatMap (fun f ↦ interval f.validationStart f.validationEnd) =
        interval (prev.2 + 1) next.2 ∧ prev.2 ≤ next.2 ∧
      ∀ f ∈ folds, f.validationEnd ≤ next.2 := by
  induction folds generalizing prev with
  | nil =>
    obtain rfl := Except.ok.inj h
    refine ⟨?_, le_refl _, fun f hf ↦ absurd hf not_mem_nil⟩
    rw [interval_of_lt (by omega)]
    rfl
  | cons f folds ih =>
    rw [foldlM_cons, bind_eq_ok] at h
    obtain ⟨mid, hmid, h⟩ := h
    obtain ⟨hstart, hsize, hend⟩ := checkFold_eq_ok hmid
    obtain ⟨htile, hle, hbefore⟩ := ih h
    refine ⟨?_, by omega, forall_mem_cons.mpr ⟨by omega, hbefore⟩⟩
    rw [flatMap_cons, htile, ← hstart, hend]
    exact interval_append (by omega) (by omega)

theorem checkFoldLeakage_ok (h : checkFoldLeakage folds length = .ok ()) :
    ∃ start stop, folds.flatMap (fun f ↦ interval f.validationStart f.validationEnd) =
        interval start stop ∧ stop + 1 < length ∧ ∀ f ∈ folds, f.validationEnd ≤ stop := by
  unfold checkFoldLeakage at h
  simp only [bind_eq_ok, require_eq_ok] at h
  obtain ⟨first, -, last, hlast, hrest⟩ := h
  obtain ⟨htile, -, hbefore⟩ := foldlM_checkFold hlast
  exact ⟨_, _, htile, by omega, hbefore⟩

end Leakage

/-! ## Predictions -/

section

variable {F : Type} {labels labels' : List F} {start stop : Int} {n : Nat}

theorem slice_take (h : (stop + 1).toNat ≤ n) (hstart : 0 ≤ start) :
    slice (labels.take n) start stop = slice labels start stop := by
  unfold slice
  rw [drop_take, take_take]
  congr 1
  omega

theorem length_slice (h : labels'.length = labels.length) :
    (slice labels' start stop).length = (slice labels start stop).length := by
  unfold slice
  rw [length_take, length_take, length_drop, length_drop, h]

theorem foldPredictions_congr {fold : Fold} (hstart : 0 ≤ fold.trainStart)
    (hend : fold.trainEnd < fold.validationStart) (hlength : labels'.length = labels.length)
    (h : labels'.take fold.validationStart.toNat = labels.take fold.validationStart.toNat) :
    (foldPredictions labels' fold).map Prod.snd = (foldPredictions labels fold).map Prod.snd := by
  have hbefore : (fold.trainEnd + 1).toNat ≤ fold.validationStart.toNat := by omega
  have htrain : slice labels' fold.trainStart fold.trainEnd =
      slice labels fold.trainStart fold.trainEnd := by
    rw [← slice_take hbefore hstart, h, slice_take hbefore hstart]
  unfold foldPredictions
  rw [htrain]
  cases (slice labels fold.trainStart fold.trainEnd).getLast? with
  | none => rfl
  | some base =>
    change Except.ok (List.replicate (slice labels' _ _).length base) =
      Except.ok (List.replicate (slice labels _ _).length base)
    rw [length_slice hlength]

end

/-! ## Coverage and leakage -/

section

variable {F : Type} [FloatOps F]

theorem validate_eq_ok {sum : List F → F} {v : WalkForwardValidator} {dataset : ResearchDataset F}
    {result : ValidationResult F} (h : v.validate sum dataset = .ok result) :
    ∃ folds, v.splitter.split dataset.sampleCount = .ok folds ∧
      checkFoldLeakage folds dataset.sampleCount = .ok () ∧
      folds.mapM (evaluateFold sum dataset.labels) = .ok result.foldResults := by
  unfold WalkForwardValidator.validate at h
  simp only [bind_eq_ok] at h
  obtain ⟨-, -, folds, hsplit, ⟨⟩, hcheck, foldResults, hresults, last, -, hresult⟩ := h
  obtain rfl := Except.ok.inj hresult
  exact ⟨folds, hsplit, hcheck, hresults⟩

theorem map_validationRange {sum : List F → F} {labels : List F} {folds : List Fold}
    {results : List (FoldResult F)} (h : folds.mapM (evaluateFold sum labels) = .ok results) :
    results.map FoldResult.validationRange = folds.map Fold.validationRange := by
  have hall := forall₂_of_mapM h
  clear h
  induction hall with
  | nil => rfl
  | cons hfold _ ih =>
    obtain ⟨predictions, -, hresult⟩ := bind_eq_ok.mp hfold
    obtain rfl := Except.ok.inj hresult
    rw [map_cons, map_cons, ih]

theorem fold_bounds (s : WalkForwardSplitter) (k : Nat) :
    0 ≤ (s.fold k).trainStart ∧ (s.fold k).trainEnd < (s.fold k).validationStart := by
  constructor
  · exact Int.mul_nonneg (by omega) s.stepSize_pos.le
  · exact Int.sub_lt_self _ Int.one_pos

/-- **Coverage and leakage.**  The folds are the first ones that are within the data.  Where the
validator accepts, the windows tile an interval that ends before the last sample, and what is
predicted in a fold does not change with the labels from its validation start on. -/
theorem walk_forward (sum : List F → F) :
    (∀ (s : WalkForwardSplitter) datasetLength folds, s.split datasetLength = .ok folds ↔
      s.Fits datasetLength 0 ∧ folds = ((List.range defaultMaxFolds).filter fun k ↦
        decide (s.Fits datasetLength k)).map s.fold) ∧
    ∀ (v : WalkForwardValidator) (dataset : ResearchDataset F) result,
      v.validate sum dataset = .ok result →
      ∃ folds, v.splitter.split dataset.sampleCount = .ok folds ∧
        result.foldResults.map FoldResult.validationRange = folds.map Fold.validationRange ∧
        (∃ start stop, folds.flatMap (fun f ↦ interval f.validationStart f.validationEnd) =
          interval start stop ∧ stop + 1 < dataset.sampleCount ∧
          ∀ f ∈ folds, f.validationEnd ≤ stop) ∧
        ∀ f ∈ folds, ∀ labels' : List F, labels'.length = dataset.labels.length →
          labels'.take f.validationStart.toNat = dataset.labels.take f.validationStart.toNat →
          (foldPredictions labels' f).map Prod.snd =
            (foldPredictions dataset.labels f).map Prod.snd := by
  refine ⟨fun s datasetLength folds ↦ WalkForwardSplitter.split_eq_ok, ?_⟩
  intro v dataset result h
  obtain ⟨folds, hsplit, hcheck, hresults⟩ := validate_eq_ok h
  refine ⟨folds, hsplit, map_validationRange hresults, checkFoldLeakage_ok hcheck, ?_⟩
  intro f hf labels' hlength htake
  obtain ⟨k, -, rfl⟩ := WalkForwardSplitter.mem_split hsplit hf
  obtain ⟨hstart, hend⟩ := fold_bounds v.splitter k
  exact foldPredictions_congr hstart hend hlength htake

end

/-- Windows of one sample, one after the other. -/
def unitSplitter : WalkForwardSplitter := ⟨1, 1, 1, Int.one_pos, Int.one_pos, Int.one_pos⟩

/-- The fold that comes after the last pass is within the data, and not there. -/
theorem fold_left_out : unitSplitter.Fits 10002 10000 ∧
    ∃ folds, unitSplitter.split 10002 = .ok folds ∧ unitSplitter.fold 10000 ∉ folds := by
  refine ⟨by decide, _, WalkForwardSplitter.split_eq_ok.mpr ⟨by decide, rfl⟩, ?_⟩
  intro hmem
  obtain ⟨k, hk, hfold⟩ := mem_map.mp hmem
  have hid : (k : Int) + 1 = 10001 := congrArg Fold.foldId hfold
  have hlt := mem_range.mp (mem_filter.mp hk).1
  unfold defaultMaxFolds at hlt
  omega

end Qros.QuantEngine.WalkForward
