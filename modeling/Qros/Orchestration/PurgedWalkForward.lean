import Qros.Lib.Chunks
import Qros.Orchestration.CombinatorialCV

/-!
# Purged walk-forward validation

`purged_walk_forward_evaluate` of `researchos/orchestration/purged_walk_forward.py`.  Times are
compared as texts.  The model that is fitted is a parameter.
-/

namespace Qros.Orchestration

open Qros.Lib Qros.Python List

structure WalkForwardConfig (F : Type) where
  nSplits : Int
  minTrainRows : Int
  l2 : F

structure FoldRows (R : Type) where
  candidateTrain : List (Event R)
  train : List (Event R)
  test : List (Event R)
  validationStart : String

structure WalkForwardFold (M : Type) where
  fold : Nat
  status : String
  trainN : Nat
  testN : Nat
  purgedN : Nat
  validationStart : String
  validationEnd : Option String
  holdoutMetrics : Option M
  trainPrevalenceBaselineMetrics : Option M

structure WalkForwardReport (M : Type) where
  status : String
  nEvents : Nat
  validFolds : Nat
  folds : List (WalkForwardFold M)

section Evaluate

variable {R F M : Type}

/-- `row["timestamp"]`, which has been checked to be a string. -/
def Event.stamp (row : Event R) : String := row.timestamp.getD ""

/-- `row["label_end_timestamp"]`, which has been checked to be a string. -/
def Event.labelEnd (row : Event R) : String := row.labelEndTimestamp.getD ""

/-- The rows of a test fold, `nSplits` of which end the list. -/
def testSize (rows : List (Event R)) (cfg : WalkForwardConfig F) : Nat :=
  rows.length / (cfg.nSplits.toNat + 1)

def initialTrainSize (rows : List (Event R)) (cfg : WalkForwardConfig F) : Nat :=
  rows.length - testSize rows cfg * cfg.nSplits.toNat

def testStartIndex (rows : List (Event R)) (cfg : WalkForwardConfig F) (foldIndex : Nat) : Nat :=
  initialTrainSize rows cfg + foldIndex * testSize rows cfg

def foldRows (rows : List (Event R)) (cfg : WalkForwardConfig F) (foldIndex : Nat) : FoldRows R :=
  let test := (rows.drop (testStartIndex rows cfg foldIndex)).take (testSize rows cfg)
  let validationStart := (test.head?.map Event.stamp).getD ""
  let candidateTrain := rows.take (testStartIndex rows cfg foldIndex)
  { candidateTrain := candidateTrain
    train := candidateTrain.filter fun row ↦ decide (row.labelEnd < validationStart)
    test := test
    validationStart := validationStart }

def EnoughRows (rows : List (Event R)) (cfg : WalkForwardConfig F) : Prop :=
  rows ≠ [] ∧ 1 ≤ testSize rows cfg ∧ cfg.minTrainRows ≤ initialTrainSize rows cfg

instance decidableEnoughRows (rows : List (Event R)) (cfg : WalkForwardConfig F) :
    Decidable (EnoughRows rows cfg) :=
  inferInstanceAs (Decidable (_ ∧ _))

def walkForwardFolds (rows : List (Event R)) (cfg : WalkForwardConfig F) : List (FoldRows R) :=
  if EnoughRows rows cfg then (List.range cfg.nSplits.toNat).map (foldRows rows cfg) else []

variable [LT F] [DecidableLT F] [Zero F] [IsFinite F]
  (fit : List (Event R) → List (Event R) → F → Except String (Fit M))

def evaluateFold (cfg : WalkForwardConfig F) (foldIndex : Nat) (fold : FoldRows R) :
    Except String (WalkForwardFold M) := do
  let report : WalkForwardFold M :=
    { fold := foldIndex + 1
      status := "INSUFFICIENT_TRAIN_AFTER_PURGE"
      trainN := fold.train.length
      testN := fold.test.length
      purgedN := fold.candidateTrain.length - fold.train.length
      validationStart := fold.validationStart
      validationEnd := none
      holdoutMetrics := none
      trainPrevalenceBaselineMetrics := none }
  if (fold.train.length : Int) < cfg.minTrainRows then return report
  let result ← fit fold.train fold.test cfg.l2
  let status ← found result.status "status"
  return { report with
    status := status
    validationEnd := fold.test.getLast?.map Event.stamp
    holdoutMetrics := result.holdoutMetrics
    trainPrevalenceBaselineMetrics := result.holdoutTrainPrevalenceBaselineMetrics }

def purgedWalkForwardEvaluate (rows : List (Event R)) (cfg : WalkForwardConfig F) :
    Except String (WalkForwardReport M) := do
  require (2 ≤ cfg.nSplits ∧ 20 ≤ cfg.minTrainRows ∧ isfinite cfg.l2 = true ∧ ¬ cfg.l2 < 0)
    "n_splits >= 2, min_train_rows >= 20, and finite l2 >= 0 required"
  require (∀ row ∈ rows, row.timestamp.isSome = true ∧ row.labelEndTimestamp.isSome = true)
    "every row requires ISO timestamp and label_end_timestamp strings"
  require (rows.IsChain fun row later ↦ row.stamp < later.stamp)
    ("event timestamps must be strictly increasing and unique; " ++
      "refusing to reorder source rows")
  if ¬ EnoughRows rows cfg then
    return { status := "INSUFFICIENT_DATA", nEvents := rows.length, validFolds := 0, folds := [] }
  let folds ← (walkForwardFolds rows cfg).zipIdx.mapM fun (fold, foldIndex) ↦
    evaluateFold fit cfg foldIndex fold
  let valid := folds.filter fun fold ↦
    decide (fold.status = "FITTED_TRAIN_EVALUATED_HOLDOUT") && fold.holdoutMetrics.isSome
  return {
    status := if valid = [] then "INSUFFICIENT_VALID_FOLDS" else "COMPLETED"
    nEvents := rows.length
    validFolds := valid.length
    folds := folds }

end Evaluate

/-! ## Folds -/

section

variable {R F M : Type} {rows : List (Event R)} {cfg : WalkForwardConfig F} {k : Nat}

theorem initialTrainSize_add (rows : List (Event R)) (cfg : WalkForwardConfig F) :
    initialTrainSize rows cfg + cfg.nSplits.toNat * testSize rows cfg = rows.length := by
  have hle : testSize rows cfg * cfg.nSplits.toNat ≤ rows.length :=
    (Nat.mul_le_mul_left _ (Nat.le_succ _)).trans (Nat.div_mul_le_self _ _)
  rw [initialTrainSize, Nat.mul_comm cfg.nSplits.toNat]
  exact Nat.sub_add_cancel hle

theorem flatten_tests (rows : List (Event R)) (cfg : WalkForwardConfig F) :
    ((List.range cfg.nSplits.toNat).map fun k ↦ (foldRows rows cfg k).test).flatten =
      rows.drop (initialTrainSize rows cfg) := by
  have hchunk : (fun k ↦ (foldRows rows cfg k).test) =
      chunk (testSize rows cfg) (rows.drop (initialTrainSize rows cfg)) := by
    funext k
    rw [chunk, drop_drop]
    rfl
  rw [hchunk, flatten_map_chunk]
  refine take_of_length_le ?_
  have := initialTrainSize_add rows cfg
  rw [length_drop]
  omega

theorem testStartIndex_lt (h : EnoughRows rows cfg) (hk : k < cfg.nSplits.toNat) :
    testStartIndex rows cfg k < rows.length := by
  have hsum := initialTrainSize_add rows cfg
  have hsize := h.2.1
  have hmul : (k + 1) * testSize rows cfg ≤ cfg.nSplits.toNat * testSize rows cfg :=
    Nat.mul_le_mul_right _ hk
  rw [Nat.succ_mul] at hmul
  unfold testStartIndex
  omega

theorem head?_test (h : EnoughRows rows cfg) (k : Nat) :
    (foldRows rows cfg k).test.head? = rows[testStartIndex rows cfg k]? := by
  have hsize := h.2.1
  rw [foldRows, head?_take, if_neg (by omega), head?_drop]

theorem mem_test {row : Event R} : row ∈ (foldRows rows cfg k).test ↔
    ∃ j < testSize rows cfg, rows[testStartIndex rows cfg k + j]? = some row := by
  rw [foldRows, mem_iff_getElem?]
  refine exists_congr fun j ↦ ?_
  rw [List.getElem?_take, getElem?_drop]
  split
  · simp [*]
  · simp [*]

theorem mem_train (h : EnoughRows rows cfg) {first : Event R}
    (hfirst : rows[testStartIndex rows cfg k]? = some first) {row : Event R} :
    row ∈ (foldRows rows cfg k).train ↔
      (∃ i < testStartIndex rows cfg k, rows[i]? = some row) ∧ row.labelEnd < first.stamp := by
  have hstart : (foldRows rows cfg k).validationStart = first.stamp := by
    change (((foldRows rows cfg k).test.head?).map Event.stamp).getD "" = first.stamp
    rw [head?_test h, hfirst]
    rfl
  change row ∈ (rows.take (testStartIndex rows cfg k)).filter
    (fun row ↦ decide (row.labelEnd < (foldRows rows cfg k).validationStart)) ↔ _
  rw [mem_filter, decide_eq_true_iff, hstart, mem_iff_getElem?]
  refine and_congr_left fun _ ↦ exists_congr fun i ↦ ?_
  rw [List.getElem?_take]
  split
  · simp [*]
  · simp [*]

theorem mem_walkForwardFolds {fold : FoldRows R} : fold ∈ walkForwardFolds rows cfg ↔
    EnoughRows rows cfg ∧ ∃ k < cfg.nSplits.toNat, foldRows rows cfg k = fold := by
  unfold walkForwardFolds
  split
  · simp [*]
  · simp [*]

/-! ## Training on what has ended -/

variable (fromisoformat : String → Option Datetime)

/-- The first text names an instant before that of the second. -/
def Earlier (a b : Option String) : Prop :=
  ∃ x ∈ instantOf fromisoformat a, ∃ y ∈ instantOf fromisoformat b, x < y

/-- The rows of the training start before those of the test, and their labels have ended before it
begins. -/
structure TrainedEarlier (fold : FoldRows R) : Prop where
  labels : ∀ row ∈ fold.train, ∀ first ∈ fold.test.head?,
    Earlier fromisoformat row.labelEndTimestamp first.timestamp
  rows : ∀ row ∈ fold.train, ∀ row' ∈ fold.test,
    Earlier fromisoformat row.timestamp row'.timestamp

/-- **Validation that walks forward**: every fold is trained on earlier rows, in time and in the
list, and the tests are consecutive blocks of the list up to its end. -/
structure WalksForward (rows : List (Event R)) (cfg : WalkForwardConfig F) : Prop where
  trained : ∀ fold ∈ walkForwardFolds rows cfg, TrainedEarlier fromisoformat fold
  before : ∀ fold ∈ walkForwardFolds rows cfg, ∃ start,
    fold.train.Sublist (rows.take start) ∧ fold.test <+: rows.drop start
  blocks : walkForwardFolds rows cfg ≠ [] → ∃ start,
    ((walkForwardFolds rows cfg).map FoldRows.test).flatten = rows.drop start
  nonempty : ∀ fold ∈ walkForwardFolds rows cfg, fold.test ≠ []

/-- Texts stand in the order of time where that is relied on: if the end of a label sorts before
the timestamp of the first row of a later fold, it is before it in time, and the row starts before
the rows of the fold. -/
def TextsAgree (rows : List (Event R)) (cfg : WalkForwardConfig F) : Prop :=
  EnoughRows rows cfg → ∀ k < cfg.nSplits.toNat,
    ∀ first, rows[testStartIndex rows cfg k]? = some first →
      ∀ i < testStartIndex rows cfg k, ∀ row, rows[i]? = some row → row.labelEnd < first.stamp →
        Earlier fromisoformat row.labelEndTimestamp first.timestamp ∧
        ∀ j < testSize rows cfg, ∀ row', rows[testStartIndex rows cfg k + j]? = some row' →
          Earlier fromisoformat row.timestamp row'.timestamp

variable {fromisoformat}

theorem trainedEarlier_foldRows_iff (h : EnoughRows rows cfg) {first : Event R}
    (hfirst : rows[testStartIndex rows cfg k]? = some first) :
    TrainedEarlier fromisoformat (foldRows rows cfg k) ↔
      ∀ i < testStartIndex rows cfg k, ∀ row, rows[i]? = some row → row.labelEnd < first.stamp →
        Earlier fromisoformat row.labelEndTimestamp first.timestamp ∧
        ∀ j < testSize rows cfg, ∀ row', rows[testStartIndex rows cfg k + j]? = some row' →
          Earlier fromisoformat row.timestamp row'.timestamp := by
  have hhead : ∀ row, row ∈ (foldRows rows cfg k).test.head? ↔ first = row := by
    intro row
    rw [head?_test h, hfirst, Option.mem_some_iff]
  constructor
  · intro htrained i hi row hrow hlt
    have hmem := (mem_train h hfirst).mpr ⟨⟨i, hi, hrow⟩, hlt⟩
    refine ⟨htrained.labels row hmem first ((hhead first).mpr rfl), fun j hj row' hrow' ↦ ?_⟩
    exact htrained.rows row hmem row' (mem_test.mpr ⟨j, hj, hrow'⟩)
  · intro hagree
    refine ⟨fun row hrow first' hfirst' ↦ ?_, fun row hrow row' hrow' ↦ ?_⟩
    · obtain rfl := (hhead first').mp hfirst'
      obtain ⟨⟨i, hi, hat⟩, hlt⟩ := (mem_train h hfirst).mp hrow
      exact (hagree i hi row hat hlt).1
    · obtain ⟨⟨i, hi, hat⟩, hlt⟩ := (mem_train h hfirst).mp hrow
      obtain ⟨j, hj, hat'⟩ := mem_test.mp hrow'
      exact (hagree i hi row hat hlt).2 j hj row' hat'

theorem trained_iff_textsAgree : (∀ fold ∈ walkForwardFolds rows cfg,
    TrainedEarlier fromisoformat fold) ↔ TextsAgree fromisoformat rows cfg := by
  constructor
  · intro htrained h k hk first hfirst
    refine (trainedEarlier_foldRows_iff h hfirst).mp (htrained _ ?_)
    exact mem_walkForwardFolds.mpr ⟨h, k, hk, rfl⟩
  · intro hagree fold hfold
    obtain ⟨h, k, hk, rfl⟩ := mem_walkForwardFolds.mp hfold
    have hfirst := getElem?_eq_getElem (testStartIndex_lt h hk)
    exact (trainedEarlier_foldRows_iff h hfirst).mpr (hagree h k hk _ hfirst)

theorem walksForward_iff :
    WalksForward fromisoformat rows cfg ↔ TextsAgree fromisoformat rows cfg := by
  refine ⟨fun h ↦ trained_iff_textsAgree.mp h.trained, fun hagree ↦ ?_⟩
  refine ⟨trained_iff_textsAgree.mpr hagree, ?_, ?_, ?_⟩
  · intro fold hfold
    obtain ⟨-, k, -, rfl⟩ := mem_walkForwardFolds.mp hfold
    exact ⟨testStartIndex rows cfg k, filter_sublist, take_prefix _ _⟩
  · intro hne
    refine ⟨initialTrainSize rows cfg, ?_⟩
    have henough : EnoughRows rows cfg := by
      by_contra hfew
      exact hne (if_neg hfew)
    rw [walkForwardFolds, if_pos henough, map_map]
    exact flatten_tests rows cfg
  · intro fold hfold hnil
    obtain ⟨h, k, hk, rfl⟩ := mem_walkForwardFolds.mp hfold
    have hhead := head?_test h k
    rw [hnil, getElem?_eq_getElem (testStartIndex_lt h hk)] at hhead
    cases hhead

/-- Rows whose texts are in order of time: any end of a label against any timestamp, and the
timestamps among themselves. -/
theorem textsAgree_of_ordered (hchain : rows.IsChain fun row later ↦ row.stamp < later.stamp)
    (hend : ∀ row ∈ rows, ∀ row' ∈ rows, row.labelEnd < row'.stamp →
      Earlier fromisoformat row.labelEndTimestamp row'.timestamp)
    (hstart : ∀ row ∈ rows, ∀ row' ∈ rows, row.stamp < row'.stamp →
      Earlier fromisoformat row.timestamp row'.timestamp) :
    TextsAgree fromisoformat rows cfg := by
  intro _ k _ first hfirst i hi row hrow hlt
  refine ⟨hend _ (mem_of_getElem? hrow) _ (mem_of_getElem? hfirst) hlt, ?_⟩
  intro j _ row' hrow'
  refine hstart _ (mem_of_getElem? hrow) _ (mem_of_getElem? hrow') ?_
  have : IsTrans (Event R) fun row later ↦ row.stamp < later.stamp :=
    ⟨fun _ _ _ ↦ String.lt_trans⟩
  obtain ⟨hi', rfl⟩ := List.getElem?_eq_some_iff.mp hrow
  obtain ⟨hj', rfl⟩ := List.getElem?_eq_some_iff.mp hrow'
  exact pairwise_iff_getElem.mp hchain.pairwise i _ hi' hj' (by omega)

/-! ## The evaluation -/

structure Reports (fold : FoldRows R) (report : WalkForwardFold M) : Prop where
  train : report.trainN = fold.train.length
  test : report.testN = fold.test.length
  purged : report.purgedN = fold.candidateTrain.length - fold.train.length
  start : report.validationStart = fold.validationStart

variable {fit : List (Event R) → List (Event R) → F → Except String (Fit M)}

theorem reports_of_evaluateFold {fold : FoldRows R} {report : WalkForwardFold M}
    (h : evaluateFold fit cfg k fold = .ok report) : Reports fold report := by
  unfold evaluateFold at h
  dsimp only at h
  split at h
  · obtain rfl := Except.ok.inj h
    exact ⟨rfl, rfl, rfl, rfl⟩
  · obtain ⟨result, -, h⟩ := bind_eq_ok.mp h
    obtain ⟨status, -, h⟩ := bind_eq_ok.mp h
    obtain rfl := Except.ok.inj h
    exact ⟨rfl, rfl, rfl, rfl⟩

variable [LT F] [DecidableLT F] [Zero F] [IsFinite F] {report : WalkForwardReport M}

theorem reports_folds (h : purgedWalkForwardEvaluate fit rows cfg = .ok report) :
    List.Forall₂ Reports (walkForwardFolds rows cfg) report.folds := by
  unfold purgedWalkForwardEvaluate at h
  obtain ⟨_, -, h⟩ := bind_eq_ok.mp h
  obtain ⟨_, -, h⟩ := bind_eq_ok.mp h
  obtain ⟨_, -, h⟩ := bind_eq_ok.mp h
  by_cases henough : EnoughRows rows cfg
  · rw [if_neg (not_not.mpr henough)] at h
    obtain ⟨folds, hfolds, h⟩ := bind_eq_ok.mp h
    obtain rfl := Except.ok.inj h
    have hall := (forall₂_of_mapM hfolds).imp fun pair fold hfold ↦
      (reports_of_evaluateFold hfold : Reports pair.1 fold)
    have hmap := forall₂_map_left_iff.mpr hall
    rwa [zipIdx_map_fst] at hmap
  · rw [if_pos henough] at h
    obtain rfl := Except.ok.inj h
    rw [walkForwardFolds, if_neg henough]
    exact .nil

theorem exists_report
    (hcfg : 2 ≤ cfg.nSplits ∧ 20 ≤ cfg.minTrainRows ∧ isfinite cfg.l2 = true ∧ ¬ cfg.l2 < 0)
    (hsome : ∀ row ∈ rows, row.timestamp.isSome = true ∧ row.labelEndTimestamp.isSome = true)
    (hchain : rows.IsChain fun row later ↦ row.stamp < later.stamp)
    (hfit : ∀ train test, ∃ result status, fit train test cfg.l2 = .ok result ∧
      result.status = some status) :
    ∃ report, purgedWalkForwardEvaluate fit rows cfg = .ok report := by
  have hfold (k : Nat) (fold : FoldRows R) : ∃ report, evaluateFold fit cfg k fold = .ok report := by
    unfold evaluateFold
    dsimp only
    split
    · exact ⟨_, rfl⟩
    · obtain ⟨result, status, hresult, hstatus⟩ := hfit fold.train fold.test
      exact ⟨_, bind_eq_ok.mpr ⟨result, hresult, bind_eq_ok.mpr
        ⟨status, found_eq_ok.mpr hstatus, rfl⟩⟩⟩
  unfold purgedWalkForwardEvaluate
  simp only [require, if_pos hcfg, if_pos hsome, if_pos hchain]
  by_cases henough : EnoughRows rows cfg
  · have hmap : ∃ folds, ((walkForwardFolds rows cfg).zipIdx.mapM fun (fold, foldIndex) ↦
        evaluateFold fit cfg foldIndex fold) = .ok folds := by
      obtain ⟨folds, hfolds, -⟩ := exists_mapM_eq_ok fun (pair : FoldRows R × Nat) _ ↦
        hfold pair.2 pair.1
      exact ⟨folds, hfolds⟩
    obtain ⟨folds, hfolds⟩ := hmap
    rw [if_neg (not_not.mpr henough)]
    exact ⟨_, bind_eq_ok.mpr ⟨(), rfl, bind_eq_ok.mpr ⟨(), rfl, bind_eq_ok.mpr ⟨(), rfl,
      bind_eq_ok.mpr ⟨folds, hfolds, rfl⟩⟩⟩⟩⟩
  · rw [if_pos henough]
    exact ⟨_, rfl⟩

/-- **When the validation walks forward.**  The folds of an accepted list are those reported, and
every one is trained on earlier rows just when the texts compared stand in the order of time. -/
theorem purgedWalkForward_iff (h : purgedWalkForwardEvaluate fit rows cfg = .ok report) :
    List.Forall₂ Reports (walkForwardFolds rows cfg) report.folds ∧
      (WalksForward fromisoformat rows cfg ↔ TextsAgree fromisoformat rows cfg) :=
  ⟨reports_folds h, walksForward_iff⟩

end

/-! ## Two notations -/

/-- The minute `i` after eleven, in UTC. -/
def stampChars (i : Nat) : List Char := "2024-01-01T11:".toList ++ padded 2 i ++ ":00Z".toList

/-- Half a minute later, but for the first row: that is half past ten in New York. -/
def endChars (i : Nat) : List Char :=
  if i = 0 then "2024-01-01T10:30:00-05:00".toList
  else "2024-01-01T11:".toList ++ padded 2 i ++ ":30Z".toList

def mixedRow (i : Nat) : Event Unit where
  timestamp := some (String.ofList (stampChars i))
  labelEndTimestamp := some (String.ofList (endChars i))
  eventId := none
  features := ()

def mixedRows : List (Event Unit) := (List.range 39).map mixedRow

def mixedConfig : WalkForwardConfig ℚ := ⟨19, 20, 1⟩

/-- A model that is always fitted. -/
def fitted : List (Event Unit) → List (Event Unit) → ℚ → Except String (Fit Unit) :=
  fun _ _ _ ↦ .ok ⟨some "FITTED_TRAIN_EVALUATED_HOLDOUT", some (), some ()⟩

theorem getElem?_mixedRows {i : Nat} (hi : i < 39) : mixedRows[i]? = some (mixedRow i) := by
  simp [mixedRows, hi]

theorem enoughRows_mixed : EnoughRows mixedRows mixedConfig := by decide +kernel

theorem testStartIndex_mixed : testStartIndex mixedRows mixedConfig 0 = 20 := by decide +kernel

theorem stamp_mixedRow (i : Nat) : (mixedRow i).stamp.toList = stampChars i := String.toList_ofList

theorem labelEnd_mixedRow (i : Nat) : (mixedRow i).labelEnd.toList = endChars i :=
  String.toList_ofList

theorem exists_mixedReport :
    ∃ report, purgedWalkForwardEvaluate fitted mixedRows mixedConfig = .ok report := by
  refine exists_report (by decide +kernel) ?_ ?_ fun _ _ ↦ ⟨_, _, rfl, rfl⟩
  · intro row hrow
    obtain ⟨i, -, rfl⟩ := mem_map.mp hrow
    exact ⟨rfl, rfl⟩
  · have hlt : ∀ i < 38, stampChars i < stampChars (i + 1) := by decide +kernel
    rw [mixedRows, isChain_map, isChain_iff_getElem]
    intro i hi
    rw [length_range] at hi
    rw [getElem_range, getElem_range, String.lt_iff, stamp_mixedRow, stamp_mixedRow]
    exact hlt i (by omega)

theorem instantOf_ofList (cs : List Char) :
    instantOf Datetime.ofIsoExtended (some (String.ofList cs)) =
      (Datetime.ofIsoChars (cs.flatMap fun c ↦ if c = 'Z' then "+00:00".toList else [c])).map
        Datetime.instant := by
  simp only [instantOf, Option.bind_some, replaceZ, Datetime.ofIsoExtended, String.toList_ofList]

/-- The label of the first row ends before twenty past eleven as a text and four hours later in
time. -/
theorem mixedRow_late : (mixedRow 0).labelEnd < (mixedRow 20).stamp ∧
    ¬ Earlier Datetime.ofIsoExtended (mixedRow 0).labelEndTimestamp (mixedRow 20).timestamp := by
  have hend : instantOf Datetime.ofIsoExtended (mixedRow 0).labelEndTimestamp =
      some 1704123000000000 := (instantOf_ofList _).trans (by decide +kernel)
  have hstart : instantOf Datetime.ofIsoExtended (mixedRow 20).timestamp =
      some 1704108000000000 := (instantOf_ofList _).trans (by decide +kernel)
  constructor
  · rw [String.lt_iff, labelEnd_mixedRow, stamp_mixedRow]
    decide +kernel
  · rintro ⟨x, hx, y, hy, hlt⟩
    rw [hend, Option.mem_some_iff] at hx
    rw [hstart, Option.mem_some_iff] at hy
    omega

theorem not_textsAgree_mixed : ¬ TextsAgree Datetime.ofIsoExtended mixedRows mixedConfig := by
  intro h
  have hagree := h enoughRows_mixed 0 (by decide) (mixedRow 20)
  rw [testStartIndex_mixed] at hagree
  exact mixedRow_late.2 (hagree (getElem?_mixedRows (by decide)) 0 (by decide) (mixedRow 0)
    (getElem?_mixedRows (by decide)) mixedRow_late.1).1

/-- A list is accepted with timestamps that all are valid, and trained on labels that have not
ended. -/
theorem mixed_notations_leak :
    (∀ row ∈ mixedRows, (instantOf Datetime.ofIsoExtended row.timestamp).isSome = true ∧
      (instantOf Datetime.ofIsoExtended row.labelEndTimestamp).isSome = true) ∧
    (∃ report, purgedWalkForwardEvaluate fitted mixedRows mixedConfig = .ok report) ∧
    ¬ WalksForward Datetime.ofIsoExtended mixedRows mixedConfig := by
  refine ⟨fun row hrow ↦ ?_, exists_mixedReport, walksForward_iff.not.mpr not_textsAgree_mixed⟩
  obtain ⟨i, hi, rfl⟩ := mem_map.mp hrow
  have hvalid : ∀ i < 39,
      (Datetime.ofIsoChars ((stampChars i).flatMap fun c ↦
        if c = 'Z' then "+00:00".toList else [c])).isSome = true ∧
      (Datetime.ofIsoChars ((endChars i).flatMap fun c ↦
        if c = 'Z' then "+00:00".toList else [c])).isSome = true := by
    decide +kernel
  change (instantOf _ (some (String.ofList _))).isSome = true ∧
    (instantOf _ (some (String.ofList _))).isSome = true
  rw [instantOf_ofList, instantOf_ofList, Option.isSome_map, Option.isSome_map]
  exact hvalid i (mem_range.mp hi)

theorem purgedWalkForward_iff_sample : ∃ report,
    purgedWalkForwardEvaluate fitted mixedRows mixedConfig = .ok report ∧
    List.Forall₂ Reports (walkForwardFolds mixedRows mixedConfig) report.folds ∧
    ¬ WalksForward Datetime.ofIsoExtended mixedRows mixedConfig := by
  obtain ⟨report, h⟩ := exists_mixedReport
  obtain ⟨hreports, hiff⟩ := purgedWalkForward_iff h
  exact ⟨report, h, hreports, fun hwalks ↦ not_textsAgree_mixed (hiff.mp hwalks)⟩

end Qros.Orchestration
