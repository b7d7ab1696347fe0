import Mathlib.Data.Int.ConditionallyCompleteOrder
import Mathlib.Data.List.MinMax
import Mathlib.Data.Prod.Lex
import Qros.Lib.Checks
import Qros.Lib.Intervals
import Qros.Lib.KeySort
import Qros.Python.Datetime
import Qros.Python.Float

/-!
# Combinatorial purged cross-validation

`combinatorial_purged_cv_evaluate` of `researchos/orchestration/combinatorial_purged_cv.py`.
`datetime.fromisoformat` and the model that is fitted are parameters.
-/

namespace Qros.Orchestration

open Qros.Lib Qros.Lib.KeySort Qros.Python List

/-- What the evaluation raises. -/
inductive CVError where
  | valueError (message : String)
  | overflowError (message : String)
deriving DecidableEq

structure Event (R : Type) where
  timestamp : Option String
  labelEndTimestamp : Option String
  eventId : Option String
  features : R

structure CVConfig (F : Type) where
  nGroups : Int
  nTestGroups : Int
  /-- In microseconds. -/
  embargo : Int
  minTrainRows : Int
  l2 : F

/-- What `fit_evaluate_logistic` returns of its report. -/
structure Fit (M : Type) where
  status : Option String
  holdoutMetrics : Option M
  holdoutTrainPrevalenceBaselineMetrics : Option M

def combinations {α : Type} : Nat → List α → List (List α)
  | 0, _ => [[]]
  | _ + 1, [] => []
  | r + 1, a :: as => (combinations r as).map (a :: ·) ++ combinations (r + 1) as

def cvGroups (n nGroups : Nat) : List (List Nat) :=
  (List.range nGroups).map fun group ↦
    List.range' (group * n / nGroups) ((group + 1) * n / nGroups - group * n / nGroups)

structure Membership where
  purged : List Nat
  embargoed : List Nat
  train : List Nat
  purgeReasons : List (Nat × List Nat)
  embargoReasons : List (Nat × List Nat)

def Membership.empty : Membership := ⟨[], [], [], [], []⟩

structure Split (M : Type) where
  split : Nat
  testGroupIds : List Nat
  testIndices : List Nat
  testEventIds : List String
  candidateTrainN : Nat
  trainIndices : List Nat
  trainEventIds : List String
  purgedIndices : List Nat
  purgedEventIds : List String
  purgeReasons : List (Nat × List Nat)
  embargoIndices : List Nat
  embargoEventIds : List String
  embargoReasons : List (Nat × List Nat)
  testStart : Datetime
  testEnd : Datetime
  status : String
  metrics : Option M
  baselineMetrics : Option M

structure CVReport (M : Type) where
  status : String
  nEvents : Nat
  splits : List (Split M)

section Evaluate

variable {R F M : Type} [LT F] [DecidableLT F] [Zero F] [IsFinite F]

/-! ## Rows -/

def replaceZ (value : String) : String :=
  String.ofList (value.toList.flatMap fun c ↦ if c = 'Z' then "+00:00".toList else [c])

variable (fromisoformat : String → Option Datetime)

def parseTime (value : Option String) (field : String) (rowIndex : Nat) :
    Except CVError Datetime := do
  let text ← found value
    (.valueError ("row " ++ toString rowIndex ++ ": " ++ field ++ " must be an ISO-8601 string"))
  found (fromisoformat (replaceZ text))
    (.valueError ("row " ++ toString rowIndex ++ ": invalid ISO-8601 " ++ field))

def timeId (row : Event R) (index : Nat) : String := row.eventId.getD (toString index)

/-! ## One split -/

def timeAt (ts : List Datetime) (i : Nat) : Datetime := ts.getD i ⟨⟨0, Utc.epoch_ok⟩, none⟩

def maxBy {K : Type} [LinearOrder K] (key : Datetime → K) (ts : List Datetime) : Option Datetime :=
  ts.argmax key

/-- The first of the latest times. -/
def latest (ts : List Datetime) : Datetime :=
  (maxBy Datetime.instant ts).getD ⟨⟨0, Utc.epoch_ok⟩, none⟩

section Split

variable (starts ends : List Datetime) (embargo : Int)

/-- The groups that end before `start` and whose embargo lasts until then. -/
def embargoedBy (start : Datetime) : List (Nat × Datetime) → Except CVError (List Nat)
  | [] => .ok []
  | (groupId, blockEnd) :: blocks =>
    if blockEnd.instant < start.instant then do
      let limit ← found (blockEnd.add embargo) (.overflowError "date value out of range")
      let rest ← embargoedBy start blocks
      return if start.instant ≤ limit.instant then groupId :: rest else rest
    else embargoedBy start blocks

/-- The test rows that meet a row: all of them are tested if the merged intervals have one that
does. -/
def overlapsOf (testIndices : List Nat) (merged : List (Int × Int)) (index : Nat) : List Nat :=
  if Intervals.meetsAny merged ((timeAt starts index).instant, (timeAt ends index).instant) = true
  then testIndices.filter fun t ↦
    decide ((timeAt starts index).instant ≤ (timeAt ends t).instant ∧
      (timeAt starts t).instant ≤ (timeAt ends index).instant)
  else []

/-- The loop over the candidates. -/
def assign (testIndices : List Nat) (merged : List (Int × Int)) (testBlocks : List (Nat × Datetime))
    (m : Membership) (index : Nat) : Except CVError Membership := do
  let overlaps := overlapsOf starts ends testIndices merged index
  if overlaps ≠ [] then
    return { m with
      purged := m.purged ++ [index], purgeReasons := m.purgeReasons ++ [(index, overlaps)] }
  let groups ← embargoedBy embargo (timeAt starts index) testBlocks
  if groups ≠ [] then
    return { m with
      embargoed := m.embargoed ++ [index], embargoReasons := m.embargoReasons ++ [(index, groups)] }
  return { m with train := m.train ++ [index] }

def testIndicesOf (groups : List (List Nat)) (testGroupIds : List Nat) : List Nat :=
  stableSortBy id (testGroupIds.flatMap fun groupId ↦ groups.getD groupId [])

def mergedIntervals (testIndices : List Nat) : List (Int × Int) :=
  Intervals.merge (stableSortBy toLex
    (testIndices.map fun i ↦ ((timeAt starts i).instant, (timeAt ends i).instant)))

def testBlocksOf (groups : List (List Nat)) (testGroupIds : List Nat) : List (Nat × Datetime) :=
  testGroupIds.map fun groupId ↦ (groupId, latest ((groups.getD groupId []).map (timeAt ends)))

variable (fit : List (Event R) → List (Event R) → F → Except CVError (Fit M))

def evaluateSplit (rows : List (Event R)) (cfg : CVConfig F) (groups : List (List Nat))
    (splitNumber : Nat) (testGroupIds : List Nat) : Except CVError (Split M) := do
  let testIndices := testIndicesOf groups testGroupIds
  let candidateTrain := (List.range rows.length).filter fun i ↦ decide (i ∉ testIndices)
  let m ← candidateTrain.foldlM
    (assign starts ends cfg.embargo testIndices (mergedIntervals starts ends testIndices)
      (testBlocksOf ends groups testGroupIds)) Membership.empty
  let rowsAt := fun (indices : List Nat) ↦ indices.filterMap fun i ↦ rows[i]?
  let ids := fun (indices : List Nat) ↦ indices.filterMap fun i ↦ rows[i]?.map (timeId · i)
  let split : Split M :=
    { split := splitNumber
      testGroupIds := testGroupIds
      testIndices := testIndices
      testEventIds := ids testIndices
      candidateTrainN := candidateTrain.length
      trainIndices := m.train
      trainEventIds := ids m.train
      purgedIndices := m.purged
      purgedEventIds := ids m.purged
      purgeReasons := m.purgeReasons
      embargoIndices := m.embargoed
      embargoEventIds := ids m.embargoed
      embargoReasons := m.embargoReasons
      testStart := timeAt starts (testIndices.getD 0 0)
      testEnd := latest (testIndices.map (timeAt ends))
      status := "INSUFFICIENT_TRAIN_AFTER_PURGE_EMBARGO"
      metrics := none
      baselineMetrics := none }
  if (m.train.length : Int) < cfg.minTrainRows then return split
  let result ← fit (rowsAt m.train) (rowsAt testIndices) cfg.l2
  return { split with
    status := result.status.getD "UNKNOWN"
    metrics := result.holdoutMetrics
    baselineMetrics := result.holdoutTrainPrevalenceBaselineMetrics }

end Split

/-! ## The evaluation -/

def checkConfig (cfg : CVConfig F) : Except CVError Unit := do
  require (3 ≤ cfg.nGroups) (.valueError "n_groups must be an integer >= 3")
  require (1 ≤ cfg.nTestGroups ∧ cfg.nTestGroups < cfg.nGroups)
    (.valueError "n_test_groups must be between 1 and n_groups-1")
  require (0 ≤ cfg.embargo) (.valueError "embargo must be a nonnegative timedelta")
  require (20 ≤ cfg.minTrainRows) (.valueError "min_train_rows must be an integer >= 20")
  require (isfinite cfg.l2 = true ∧ ¬ cfg.l2 < 0) (.valueError "l2 must be finite and >= 0")

def checkRows (rows : List (Event R)) (starts ends : List Datetime) (cfg : CVConfig F) :
    Except CVError Unit := do
  require (((starts ++ ends).map fun t ↦ t.offset.isSome).dedup.length ≤ 1)
    (.valueError "timestamps must use a consistent timezone convention")
  require (starts.IsChain fun s t ↦ s.instant < t.instant)
    (.valueError "event timestamps must be strictly increasing and unique; refusing to reorder")
  require (∀ i ∈ List.range rows.length, (timeAt starts i).instant ≤ (timeAt ends i).instant)
    (.valueError "label_end_timestamp must be >= timestamp")
  require (rows.zipIdx.map fun (row, i) ↦ timeId row i).Nodup
    (.valueError "event_id values must be unique when supplied")
  require (min cfg.nGroups rows.length = cfg.nGroups)
    (.valueError "n_groups cannot exceed event count")

variable (fit : List (Event R) → List (Event R) → F → Except CVError (Fit M))

def combinatorialPurgedCvEvaluate (rows : List (Event R)) (cfg : CVConfig F) :
    Except CVError (CVReport M) := do
  if rows = [] then return { status := "INSUFFICIENT_DATA", nEvents := 0, splits := [] }
  checkConfig cfg
  let starts ← rows.zipIdx.mapM fun (row, i) ↦
    parseTime fromisoformat row.timestamp "timestamp" i
  let ends ← rows.zipIdx.mapM fun (row, i) ↦
    parseTime fromisoformat row.labelEndTimestamp "label_end_timestamp" i
  checkRows rows starts ends cfg
  let groups := cvGroups rows.length cfg.nGroups.toNat
  let splitCombinations := combinations cfg.nTestGroups.toNat (List.range cfg.nGroups.toNat)
  let splits ← (splitCombinations.zipIdx 1).mapM fun (testGroupIds, splitNumber) ↦
    evaluateSplit starts ends fit rows cfg groups splitNumber testGroupIds
  let valid := splits.filter fun s ↦ s.metrics.isSome
  return {
    status := if valid = [] then "INSUFFICIENT_VALID_SPLITS" else "COMPLETED"
    nEvents := rows.length
    splits := splits }

end Evaluate

/-! ## Groups -/

section

variable {n k : Nat}

theorem flatten_take_cvGroups (n k m : Nat) :
    ((List.range m).map fun group ↦
      List.range' (group * n / k) ((group + 1) * n / k - group * n / k)).flatten =
      List.range (m * n / k) := by
  induction m with
  | zero => simp
  | succ m ih =>
    have hle : m * n / k ≤ (m + 1) * n / k :=
      Nat.div_le_div_right (Nat.mul_le_mul_right n (Nat.le_succ m))
    rw [range_succ, map_append, flatten_append, ih, map_singleton,
      flatten_singleton, range_eq_range', range_eq_range']
    have happend := @range'_append_1 0 (m * n / k) ((m + 1) * n / k - m * n / k)
    rwa [Nat.zero_add, Nat.add_sub_cancel' hle] at happend

theorem flatten_cvGroups (hk : 0 < k) : (cvGroups n k).flatten = List.range n := by
  rw [cvGroups, flatten_take_cvGroups, Nat.mul_div_cancel_left n hk]

theorem cvGroup_length_pos (hk : 0 < k) (hn : k ≤ n) (group : Nat) :
    0 < (group + 1) * n / k - group * n / k := by
  have hstep : group * n / k + 1 ≤ (group + 1) * n / k := by
    rw [← Nat.add_div_right _ hk, Nat.succ_mul]
    exact Nat.div_le_div_right (Nat.add_le_add_left hn _)
  omega

structure CutsRange (n : Nat) (groups : List (List Nat)) : Prop where
  flatten : groups.flatten = List.range n
  block : ∀ group ∈ groups, ∃ start length, 0 < length ∧ group = List.range' start length

theorem cutsRange_cvGroups (hk : 0 < k) (hn : k ≤ n) : CutsRange n (cvGroups n k) where
  flatten := flatten_cvGroups hk
  block := by
    intro group hgroup
    obtain ⟨g, -, rfl⟩ := mem_map.mp hgroup
    exact ⟨_, _, cvGroup_length_pos hk hn g, rfl⟩

theorem sublist_of_mem_combinations {α : Type} {r : Nat} {as c : List α}
    (h : c ∈ combinations r as) : c.Sublist as := by
  induction as generalizing r c with
  | nil =>
    cases r with
    | zero =>
      rw [mem_singleton.mp h]
    | succ r => cases h
  | cons a as ih =>
    cases r with
    | zero =>
      rw [mem_singleton.mp h]
      exact nil_sublist _
    | succ r =>
      rcases mem_append.mp h with h | h
      · obtain ⟨c', hc', rfl⟩ := mem_map.mp h
        exact (ih hc').cons_cons a
      · exact (ih h).cons a

variable {groups : List (List Nat)} {ids : List Nat} {i : Nat}

theorem mem_testIndicesOf : i ∈ testIndicesOf groups ids ↔
    ∃ g ∈ ids, ∃ group, groups[g]? = some group ∧ i ∈ group := by
  rw [testIndicesOf, mem_stableSortBy, mem_flatMap]
  refine exists_congr fun g ↦ and_congr_right fun _ ↦ ?_
  rw [getD_eq_getElem?_getD]
  cases groups[g]? with
  | none => simp
  | some group => simp

theorem flatMap_range_groups (groups : List (List Nat)) :
    ((List.range groups.length).flatMap fun g ↦ groups.getD g []) = groups.flatten := by
  have hmap : (List.range groups.length).map (fun g ↦ groups.getD g []) = groups := by
    refine ext_getElem ?_ fun g hg hg' ↦ ?_
    · rw [length_map, length_range]
    · rw [getElem_map, getElem_range, getD_eq_getElem?_getD,
        getElem?_eq_getElem hg', Option.getD_some]
  rw [flatMap_def, hmap]

theorem testIndicesOf_rows (h : CutsRange n groups)
    (hids : ids.Sublist (List.range groups.length)) :
    (testIndicesOf groups ids).Nodup ∧ ∀ i ∈ testIndicesOf groups ids, i < n := by
  have hsub : (ids.flatMap fun g ↦ groups.getD g []).Sublist (List.range n) := by
    rw [← h.flatten, ← flatMap_range_groups]
    exact hids.flatMap _
  constructor
  · exact (stableSortBy_perm id _).nodup_iff.mpr (hsub.nodup nodup_range)
  · intro i hi
    exact mem_range.mp (hsub.subset ((mem_stableSortBy id).mp hi))

end

/-! ## One candidate -/

section

variable (starts ends : List Datetime)

/-- From the start of a row to the end of its label. -/
def rowInterval (i : Nat) : Int × Int := ((timeAt starts i).instant, (timeAt ends i).instant)

def MeetsTest (testIndices : List Nat) (i : Nat) : Prop :=
  ∃ t ∈ testIndices, Intervals.Meets (rowInterval starts ends i) (rowInterval starts ends t)

variable {starts ends} {embargo : Int} {testIndices : List Nat} {i : Nat}

theorem meetsAny_mergedIntervals
    (hproper : ∀ j ∈ i :: testIndices, (timeAt starts j).instant ≤ (timeAt ends j).instant) :
    Intervals.meetsAny (mergedIntervals starts ends testIndices) (rowInterval starts ends i) =
    true ↔
      MeetsTest starts ends testIndices i := by
  have hsorted := stableSortBy_sorted toLex (testIndices.map (rowInterval starts ends))
  have hmem {x : Int × Int} : x ∈ stableSortBy toLex (testIndices.map (rowInterval starts ends)) ↔
      ∃ t ∈ testIndices, rowInterval starts ends t = x := by
    rw [mem_stableSortBy, mem_map]
  have h := Intervals.meetsAny_merge_iff (x := rowInterval starts ends i)
    (hsorted.imp fun hle ↦ Prod.Lex.monotone_fst _ _ hle)
    (fun x hx ↦ by
      obtain ⟨t, ht, rfl⟩ := hmem.mp hx
      exact hproper t (mem_cons_of_mem _ ht))
    (hproper i mem_cons_self)
  refine h.trans ⟨?_, ?_⟩
  · rintro ⟨x, hx, hmeets⟩
    obtain ⟨t, ht, rfl⟩ := hmem.mp hx
    exact ⟨t, ht, hmeets⟩
  · rintro ⟨t, ht, hmeets⟩
    exact ⟨_, hmem.mpr ⟨t, ht, rfl⟩, hmeets⟩

theorem overlapsOf_ne_nil_iff
    (hproper : ∀ j ∈ i :: testIndices, (timeAt starts j).instant ≤ (timeAt ends j).instant) :
    overlapsOf starts ends testIndices (mergedIntervals starts ends testIndices) i ≠ [] ↔
      MeetsTest starts ends testIndices i := by
  have hany := meetsAny_mergedIntervals hproper
  unfold overlapsOf
  constructor
  · intro hne
    by_contra hfree
    exact hne (if_neg fun h ↦ hfree (hany.mp h))
  · intro hmeets hnil
    have hpos := hnil.symm.trans (if_pos (hany.mpr hmeets))
    obtain ⟨t, ht, hle⟩ := hmeets
    exact filter_eq_nil_iff.mp hpos.symm t ht (decide_eq_true hle)

/-- A block that has ended within the embargo before `start`. -/
def Embargoes (embargo : Int) (start : Datetime) (block : Nat × Datetime) : Prop :=
  block.2.instant < start.instant ∧ start.instant ≤ block.2.instant + embargo

theorem not_embargoes_of_nil {start : Datetime} {blocks : List (Nat × Datetime)}
    (h : embargoedBy embargo start blocks = .ok []) :
    ∀ block ∈ blocks, ¬ Embargoes embargo start block := by
  induction blocks with
  | nil => exact fun _ hblock ↦ (by cases hblock)
  | cons block blocks ih =>
    unfold embargoedBy at h
    by_cases hlt : block.2.instant < start.instant
    · rw [if_pos hlt] at h
      obtain ⟨limit, hlimit, h⟩ := bind_eq_ok.mp h
      obtain ⟨rest, hrest, h⟩ := bind_eq_ok.mp h
      have heq := Except.ok.inj h
      rw [ite_eq_iff] at heq
      obtain ⟨-, hnil⟩ | ⟨hlate, rfl⟩ := heq
      · cases hnil
      · refine forall_mem_cons.mpr ⟨fun hemb ↦ hlate ?_, ih hrest⟩
        rw [Datetime.instant_add (found_eq_ok.mp hlimit)]
        exact hemb.2
    · rw [if_neg hlt] at h
      exact forall_mem_cons.mpr ⟨fun hemb ↦ hlt hemb.1, ih h⟩

/-- What the loop over the candidates has found. -/
structure Assigned (starts ends : List Datetime) (embargo : Int) (testIndices : List Nat)
    (testBlocks : List (Nat × Datetime)) (done : List Nat) (m : Membership) : Prop where
  perm : (m.train ++ m.purged ++ m.embargoed).Perm done
  purged : ∀ i ∈ m.purged, MeetsTest starts ends testIndices i
  kept : ∀ i ∈ m.train ++ m.embargoed, ¬ MeetsTest starts ends testIndices i
  train : ∀ i ∈ m.train, ∀ block ∈ testBlocks, ¬ Embargoes embargo (timeAt starts i) block

variable {testBlocks : List (Nat × Datetime)} {done : List Nat} {m m' : Membership}

theorem Assigned.empty :
    Assigned starts ends embargo testIndices testBlocks [] Membership.empty where
  perm := .nil
  purged := fun _ h ↦ (by cases h)
  kept := fun _ h ↦ (by cases h)
  train := fun _ h ↦ (by cases h)

theorem assign_cases
    (hproper : ∀ j ∈ i :: testIndices, (timeAt starts j).instant ≤ (timeAt ends j).instant)
    (h : assign starts ends embargo testIndices (mergedIntervals starts ends testIndices) testBlocks
      m i = .ok m') :
    (MeetsTest starts ends testIndices i ∧ m'.purged = m.purged ++ [i] ∧
      m'.embargoed = m.embargoed ∧ m'.train = m.train) ∨
    (¬ MeetsTest starts ends testIndices i ∧ m'.purged = m.purged ∧
      m'.embargoed = m.embargoed ++ [i] ∧ m'.train = m.train) ∨
    (¬ MeetsTest starts ends testIndices i ∧
      (∀ block ∈ testBlocks, ¬ Embargoes embargo (timeAt starts i) block) ∧
      m'.purged = m.purged ∧ m'.embargoed = m.embargoed ∧ m'.train = m.train ++ [i]) := by
  have hoverlaps := overlapsOf_ne_nil_iff hproper
  unfold assign at h
  by_cases hmeets : MeetsTest starts ends testIndices i
  · rw [if_pos (hoverlaps.mpr hmeets)] at h
    obtain rfl := Except.ok.inj h
    exact .inl ⟨hmeets, rfl, rfl, rfl⟩
  · rw [if_neg (hoverlaps.not.mpr hmeets)] at h
    obtain ⟨groups, hgroups, h⟩ := bind_eq_ok.mp h
    by_cases hnone : groups = []
    · subst hnone
      obtain rfl := Except.ok.inj h
      exact .inr (.inr ⟨hmeets, not_embargoes_of_nil hgroups, rfl, rfl, rfl⟩)
    · rw [if_pos hnone] at h
      obtain rfl := Except.ok.inj h
      exact .inr (.inl ⟨hmeets, rfl, rfl, rfl⟩)

theorem Assigned.step (ha : Assigned starts ends embargo testIndices testBlocks done m)
    (hproper : ∀ j ∈ i :: testIndices, (timeAt starts j).instant ≤ (timeAt ends j).instant)
    (h : assign starts ends embargo testIndices (mergedIntervals starts ends testIndices) testBlocks
      m i = .ok m') : Assigned starts ends embargo testIndices testBlocks (done ++ [i]) m' := by
  have hperm := ha.perm.append_right [i]
  rcases assign_cases hproper h with ⟨hmeets, hp, he, ht⟩ | ⟨hfree, hp, he, ht⟩ |
    ⟨hfree, hnone, hp, he, ht⟩
  · refine ⟨?_, ?_, ?_, ?_⟩
    · rw [hp, he, ht, ← append_assoc, append_assoc]
      refine List.Perm.trans ?_ hperm
      rw [append_assoc (m.train ++ m.purged)]
      exact perm_append_comm.append_left _
    · rw [hp]
      exact forall_mem_append.mpr ⟨ha.purged, forall_mem_singleton.mpr hmeets⟩
    · rw [he, ht]
      exact ha.kept
    · rw [ht]
      exact ha.train
  · refine ⟨?_, ?_, ?_, ?_⟩
    · rw [hp, he, ht, ← append_assoc]
      exact hperm
    · rw [hp]
      exact ha.purged
    · rw [he, ht, ← append_assoc]
      exact forall_mem_append.mpr ⟨ha.kept, forall_mem_singleton.mpr hfree⟩
    · rw [ht]
      exact ha.train
  · refine ⟨?_, ?_, ?_, ?_⟩
    · rw [hp, he, ht]
      refine List.Perm.trans ?_ hperm
      simp only [append_assoc]
      refine List.Perm.append_left _ ?_
      rw [← append_assoc m.purged]
      exact perm_append_comm
    · rw [hp]
      exact ha.purged
    · rw [he, ht]
      intro j hj
      rcases mem_append.mp hj with hj | hj
      · rcases mem_append.mp hj with hj | hj
        · exact ha.kept j (mem_append_left _ hj)
        · rw [mem_singleton.mp hj]
          exact hfree
      · exact ha.kept j (mem_append_right _ hj)
    · rw [ht]
      exact forall_mem_append.mpr ⟨ha.train, forall_mem_singleton.mpr hnone⟩

theorem Assigned.foldlM {candidates : List Nat}
    (ha : Assigned starts ends embargo testIndices testBlocks done m)
    (hproper : ∀ j ∈ candidates ++ testIndices, (timeAt starts j).instant ≤ (timeAt ends j).instant)
    (h : candidates.foldlM (assign starts ends embargo testIndices
      (mergedIntervals starts ends testIndices) testBlocks) m = .ok m') :
    Assigned starts ends embargo testIndices testBlocks (done ++ candidates) m' := by
  induction candidates generalizing done m with
  | nil =>
    obtain rfl := Except.ok.inj h
    rwa [append_nil]
  | cons i candidates ih =>
    rw [foldlM_cons] at h
    obtain ⟨m₁, h₁, h⟩ := bind_eq_ok.mp h
    have hstep := ha.step (fun j hj ↦ hproper j ?_) h₁
    · have hrest := ih hstep (fun j hj ↦ hproper j (mem_cons_of_mem _ hj)) h
      rwa [append_assoc, singleton_append] at hrest
    · rcases mem_cons.mp hj with rfl | hj
      · exact mem_cons_self
      · exact mem_append_right _ hj

end

/-! ## Splits -/

section

variable (fromisoformat : String → Option Datetime) {R F M : Type}

/-- The instant that a text names. -/
def instantOf (value : Option String) : Option Int :=
  (value.bind fun text ↦ fromisoformat (replaceZ text)).map Datetime.instant

def startAt (rows : List (Event R)) (i : Nat) : Option Int :=
  rows[i]?.bind fun row ↦ instantOf fromisoformat row.timestamp

def endAt (rows : List (Event R)) (i : Nat) : Option Int :=
  rows[i]?.bind fun row ↦ instantOf fromisoformat row.labelEndTimestamp

/-- The instants from the timestamp of a row to the end of its label, both included. -/
def labelInterval (rows : List (Event R)) (i : Nat) : Set Int :=
  {x | ∃ s ∈ startAt fromisoformat rows i, ∃ e ∈ endAt fromisoformat rows i, s ≤ x ∧ x ≤ e}

/-- **A split that leaks nothing**: the rows are trained on, tested, purged or embargoed, each in
one way; purged are those whose interval meets that of a test row; and no row is trained on that
starts after the end of a test group and within the embargo of it. -/
structure LeakFree (rows : List (Event R)) (cfg : CVConfig F) (split : Split M) : Prop where
  test : ∀ i, i ∈ split.testIndices ↔ ∃ g ∈ split.testGroupIds,
    ∃ group, (cvGroups rows.length cfg.nGroups.toNat)[g]? = some group ∧ i ∈ group
  partition : (split.trainIndices ++ split.testIndices ++ split.purgedIndices ++
    split.embargoIndices).Perm (List.range rows.length)
  purged : ∀ i < rows.length, i ∈ split.purgedIndices ↔ i ∉ split.testIndices ∧
    ∃ t ∈ split.testIndices,
      (labelInterval fromisoformat rows i ∩ labelInterval fromisoformat rows t).Nonempty
  embargo : ∀ i ∈ split.trainIndices, ∀ s ∈ startAt fromisoformat rows i,
    ∀ g ∈ split.testGroupIds, ∀ group, (cvGroups rows.length cfg.nGroups.toNat)[g]? = some group →
      ∀ e, IsGreatest {x | ∃ j ∈ group, endAt fromisoformat rows j = some x} e →
        ¬ (e < s ∧ s ≤ e + cfg.embargo)

variable {fromisoformat} {rows : List (Event R)} {starts ends : List Datetime}

/-- The times that were read are those the rows name, and no label ends before its row. -/
structure Reads (fromisoformat : String → Option Datetime) (rows : List (Event R))
    (starts ends : List Datetime) : Prop where
  start : ∀ i < rows.length, startAt fromisoformat rows i = some (timeAt starts i).instant
  stop : ∀ i < rows.length, endAt fromisoformat rows i = some (timeAt ends i).instant
  proper : ∀ i < rows.length, (timeAt starts i).instant ≤ (timeAt ends i).instant

theorem times_of_mapM {value : Event R → Option String} {field : String} {ts : List Datetime}
    (h : rows.zipIdx.mapM (fun (row, i) ↦ parseTime fromisoformat (value row) field i) = .ok ts) :
    ∀ i < rows.length, (rows[i]?.bind fun row ↦ instantOf fromisoformat (value row)) =
      some (timeAt ts i).instant := by
  intro i hi
  have hall := forall₂_of_mapM h
  have hlength := hall.length_eq
  rw [length_zipIdx] at hlength
  have hi' : i < ts.length := hlength ▸ hi
  have hat := hall.get ((length_zipIdx (l := rows) (i := 0)).symm ▸ hi) hi'
  simp only [get_eq_getElem, getElem_zipIdx] at hat
  unfold parseTime at hat
  obtain ⟨text, htext, hat⟩ := bind_eq_ok.mp hat
  have htime := found_eq_ok.mp hat
  rw [getElem?_eq_getElem hi, Option.bind_some, instantOf, found_eq_ok.mp htext,
    Option.bind_some, htime, Option.map_some, timeAt, getD_eq_getElem?_getD,
    getElem?_eq_getElem hi', Option.getD_some]

namespace Reads

variable (hr : Reads fromisoformat rows starts ends)
include hr

theorem labelInterval_eq {i : Nat} (hi : i < rows.length) : labelInterval fromisoformat rows i =
    Set.Icc (timeAt starts i).instant (timeAt ends i).instant := by
  ext x
  constructor
  · rintro ⟨s, hs, e, he, hsx, hxe⟩
    rw [hr.start i hi] at hs
    rw [hr.stop i hi] at he
    obtain rfl := Option.mem_some_iff.mp hs
    obtain rfl := Option.mem_some_iff.mp he
    exact ⟨hsx, hxe⟩
  · rintro ⟨hsx, hxe⟩
    exact ⟨_, hr.start i hi, _, hr.stop i hi, hsx, hxe⟩

theorem meetsTest_iff {testIndices : List Nat} {i : Nat} (hi : i < rows.length)
    (htest : ∀ t ∈ testIndices, t < rows.length) : MeetsTest starts ends testIndices i ↔
      ∃ t ∈ testIndices,
        (labelInterval fromisoformat rows i ∩ labelInterval fromisoformat rows t).Nonempty := by
  refine exists_congr fun t ↦ and_congr_right fun ht ↦ ?_
  rw [hr.labelInterval_eq hi, hr.labelInterval_eq (htest t ht)]
  exact Intervals.meets_iff_inter_nonempty (hr.proper i hi) (hr.proper t (htest t ht))

end Reads

theorem isGreatest_latest {ts : List Datetime} (hne : ts ≠ []) :
    IsGreatest {x | ∃ t ∈ ts, t.instant = x} (latest ts).instant := by
  cases hmax : maxBy Datetime.instant ts with
  | none => exact absurd (argmax_eq_none.mp hmax) hne
  | some t =>
    rw [latest, hmax, Option.getD_some]
    refine ⟨⟨t, argmax_mem hmax, rfl⟩, ?_⟩
    rintro x ⟨u, hu, rfl⟩
    exact le_of_mem_argmax hu hmax

variable {cfg : CVConfig F} {fit : List (Event R) → List (Event R) → F → Except CVError (Fit M)}

theorem evaluateSplit_cases {groups : List (List Nat)} {number : Nat} {ids : List Nat}
    {split : Split M} (h : evaluateSplit starts ends fit rows cfg groups number ids = .ok split) :
    ∃ m, (((List.range rows.length).filter fun i ↦
        decide (i ∉ testIndicesOf groups ids)).foldlM
      (assign starts ends cfg.embargo (testIndicesOf groups ids)
        (mergedIntervals starts ends (testIndicesOf groups ids)) (testBlocksOf ends groups ids))
      Membership.empty = .ok m) ∧
    split.testGroupIds = ids ∧ split.testIndices = testIndicesOf groups ids ∧
    split.trainIndices = m.train ∧ split.purgedIndices = m.purged ∧
    split.embargoIndices = m.embargoed := by
  unfold evaluateSplit at h
  obtain ⟨m, hm, h⟩ := bind_eq_ok.mp h
  refine ⟨m, hm, ?_⟩
  dsimp only at h
  split at h
  · obtain rfl := Except.ok.inj h
    exact ⟨rfl, rfl, rfl, rfl, rfl⟩
  · obtain ⟨result, -, h⟩ := bind_eq_ok.mp h
    obtain rfl := Except.ok.inj h
    exact ⟨rfl, rfl, rfl, rfl, rfl⟩

theorem perm_range_of_rest {n : Nat} {train test purged embargoed : List Nat} (hnodup : test.Nodup)
    (htest : ∀ i ∈ test, i < n) (hrest : (train ++ purged ++ embargoed).Perm
      ((List.range n).filter fun i ↦ decide (i ∉ test))) :
    (train ++ test ++ purged ++ embargoed).Perm (List.range n) := by
  have hin : test.Perm ((List.range n).filter fun i ↦ decide (i ∈ test)) := by
    refine (perm_ext_iff_of_nodup hnodup (nodup_range.filter _)).mpr fun i ↦ ?_
    rw [mem_filter, mem_range, decide_eq_true_iff]
    exact ⟨fun hi ↦ ⟨htest i hi, hi⟩, fun hi ↦ hi.2⟩
  have hfront : (train ++ test ++ purged ++ embargoed).Perm
      (test ++ (train ++ purged ++ embargoed)) := by
    simp only [← append_assoc]
    exact (perm_append_comm.append_right purged).append_right embargoed
  refine hfront.trans ((hin.append hrest).trans ?_)
  simpa only [decide_not] using filter_append_perm (fun i ↦ decide (i ∈ test)) (List.range n)

theorem leakFree_of_evaluateSplit (hr : Reads fromisoformat rows starts ends)
    (hk : 0 < cfg.nGroups.toNat) (hn : cfg.nGroups.toNat ≤ rows.length) {number : Nat}
    {ids : List Nat} (hids : ids.Sublist (List.range cfg.nGroups.toNat)) {split : Split M}
    (h : evaluateSplit starts ends fit rows cfg
      (cvGroups rows.length cfg.nGroups.toNat) number ids =
      .ok split) : LeakFree fromisoformat rows cfg split := by
  have hcuts := cutsRange_cvGroups hk hn
  have hlength : (cvGroups rows.length cfg.nGroups.toNat).length = cfg.nGroups.toNat := by
    rw [cvGroups, length_map, length_range]
  obtain ⟨hnodup, htest⟩ := testIndicesOf_rows hcuts (hlength.symm ▸ hids)
  obtain ⟨m, hm, hgroups, htests, htrain, hpurged, hembargo⟩ := evaluateSplit_cases h
  have hproper : ∀ j ∈ ((List.range rows.length).filter fun i ↦
      decide (i ∉ testIndicesOf (cvGroups rows.length cfg.nGroups.toNat) ids)) ++
      testIndicesOf (cvGroups rows.length cfg.nGroups.toNat) ids,
      (timeAt starts j).instant ≤ (timeAt ends j).instant := by
    intro j hj
    rcases mem_append.mp hj with hj | hj
    · exact hr.proper j (mem_range.mp (mem_filter.mp hj).1)
    · exact hr.proper j (htest j hj)
  have ha := Assigned.empty.foldlM hproper hm
  rw [nil_append] at ha
  have hmem {i : Nat} : i ∈ m.train ++ m.purged ++ m.embargoed ↔ i < rows.length ∧
      i ∉ testIndicesOf (cvGroups rows.length cfg.nGroups.toNat) ids := by
    rw [ha.perm.mem_iff, mem_filter, mem_range, decide_eq_true_iff]
  refine ⟨?_, ?_, ?_, ?_⟩
  · intro i
    rw [htests, hgroups, mem_testIndicesOf]
  · rw [htrain, htests, hpurged, hembargo]
    exact perm_range_of_rest hnodup htest ha.perm
  · intro i hi
    rw [hpurged, htests, ← hr.meetsTest_iff hi htest]
    constructor
    · intro hmem'
      exact ⟨(hmem.mp (mem_append_left _ (mem_append_right _ hmem'))).2, ha.purged i hmem'⟩
    · rintro ⟨hnot, hmeets⟩
      rcases mem_append.mp (hmem.mpr ⟨hi, hnot⟩) with hin | hin
      · rcases mem_append.mp hin with hin | hin
        · exact absurd hmeets (ha.kept i (mem_append_left _ hin))
        · exact hin
      · exact absurd hmeets (ha.kept i (mem_append_right _ hin))
  · intro i hi s hs g hg group hgroup e he
    rw [htrain] at hi
    rw [hgroups] at hg
    have hrows := (hmem.mp (mem_append_left _ (mem_append_left _ hi))).1
    rw [hr.start i hrows] at hs
    obtain rfl := Option.mem_some_iff.mp hs
    obtain ⟨start, length, hpos, heq⟩ := hcuts.block group (mem_of_getElem? hgroup)
    have hne : group.map (timeAt ends) ≠ [] := by
      rw [ne_eq, map_eq_nil_iff, heq, range'_eq_nil_iff]
      omega
    have hlatest : IsGreatest {x | ∃ j ∈ group, endAt fromisoformat rows j = some x}
        (latest (group.map (timeAt ends))).instant := by
      convert isGreatest_latest hne using 1
      ext x
      have hstop {j : Nat} (hj : j ∈ group) :
          endAt fromisoformat rows j = some (timeAt ends j).instant := by
        have hflat := mem_flatten.mpr ⟨group, mem_of_getElem? hgroup, hj⟩
        rw [hcuts.flatten, mem_range] at hflat
        exact hr.stop j hflat
      constructor
      · rintro ⟨j, hj, hx⟩
        rw [hstop hj] at hx
        exact ⟨_, mem_map_of_mem hj, Option.some.inj hx⟩
      · rintro ⟨t, ht, rfl⟩
        obtain ⟨j, hj, rfl⟩ := mem_map.mp ht
        exact ⟨j, hj, hstop hj⟩
    obtain rfl := he.unique hlatest
    refine ha.train i hi (g, latest (group.map (timeAt ends))) ?_
    refine mem_map.mpr ⟨g, hg, ?_⟩
    rw [getD_eq_getElem?_getD, hgroup, Option.getD_some]

variable [LT F] [DecidableLT F] [Zero F] [IsFinite F] {report : CVReport M}

theorem combinatorialPurgedCvEvaluate_cases
    (h : combinatorialPurgedCvEvaluate fromisoformat fit rows cfg = .ok report) :
    (rows = [] ∧ report.splits = []) ∨
    (rows ≠ [] ∧ 0 < cfg.nGroups.toNat ∧ cfg.nGroups.toNat ≤ rows.length ∧
      ∃ starts ends, Reads fromisoformat rows starts ends ∧
        ((combinations cfg.nTestGroups.toNat (List.range cfg.nGroups.toNat)).zipIdx 1).mapM
          (fun (testGroupIds, splitNumber) ↦ evaluateSplit starts ends fit rows cfg
            (cvGroups rows.length cfg.nGroups.toNat) splitNumber testGroupIds) =
          .ok report.splits) := by
  unfold combinatorialPurgedCvEvaluate at h
  by_cases hnil : rows = []
  · rw [if_pos hnil] at h
    obtain rfl := Except.ok.inj h
    exact .inl ⟨hnil, rfl⟩
  · rw [if_neg hnil] at h
    refine .inr ⟨hnil, ?_⟩
    obtain ⟨_, hcfg, h⟩ := bind_eq_ok.mp h
    obtain ⟨starts, hstarts, h⟩ := bind_eq_ok.mp h
    obtain ⟨ends, hends, h⟩ := bind_eq_ok.mp h
    obtain ⟨_, hrows, h⟩ := bind_eq_ok.mp h
    obtain ⟨splits, hsplits, h⟩ := bind_eq_ok.mp h
    obtain rfl := Except.ok.inj h
    obtain ⟨_, hgroups, -⟩ := bind_eq_ok.mp hcfg
    have hgroups := require_eq_ok.mp hgroups
    obtain ⟨_, -, hrows⟩ := bind_eq_ok.mp hrows
    obtain ⟨_, -, hrows⟩ := bind_eq_ok.mp hrows
    obtain ⟨_, hproper, hrows⟩ := bind_eq_ok.mp hrows
    obtain ⟨_, -, hmin⟩ := bind_eq_ok.mp hrows
    have hmin := require_eq_ok.mp hmin
    refine ⟨by omega, by omega, starts, ends, ⟨?_, ?_, ?_⟩, hsplits⟩
    · exact times_of_mapM hstarts
    · exact times_of_mapM hends
    · exact fun i hi ↦ require_eq_ok.mp hproper i (mem_range.mpr hi)

/-- **No leak.**  Whatever rows are accepted, the groups cut them into blocks, there is a split for
every combination of test groups, and every split leaks nothing. -/
theorem combinatorialPurgedCv_leaksNothing
    (h : combinatorialPurgedCvEvaluate fromisoformat fit rows cfg = .ok report) :
    (rows ≠ [] → (cvGroups rows.length cfg.nGroups.toNat).length = cfg.nGroups.toNat ∧
      CutsRange rows.length (cvGroups rows.length cfg.nGroups.toNat) ∧
      report.splits.map (·.testGroupIds) =
        combinations cfg.nTestGroups.toNat (List.range cfg.nGroups.toNat)) ∧
    ∀ split ∈ report.splits, LeakFree fromisoformat rows cfg split := by
  rcases combinatorialPurgedCvEvaluate_cases h with ⟨hnil, hsplits⟩ |
    ⟨hne, hk, hn, starts, ends, hr, hsplits⟩
  · rw [hsplits]
    exact ⟨fun hne ↦ absurd hnil hne, fun _ hsplit ↦ (by cases hsplit)⟩
  · have hall := forall₂_of_mapM hsplits
    refine ⟨fun _ ↦ ⟨?_, cutsRange_cvGroups hk hn, ?_⟩, ?_⟩
    · rw [cvGroups, length_map, length_range]
    · have hids : List.Forall₂ (· = ·)
          (((combinations cfg.nTestGroups.toNat (List.range cfg.nGroups.toNat)).zipIdx 1).map Prod.fst)
          (report.splits.map (·.testGroupIds)) := by
        rw [forall₂_map_left_iff, forall₂_map_right_iff]
        refine hall.imp fun _ _ hsplit ↦ ?_
        obtain ⟨_, _, hids, _⟩ := evaluateSplit_cases hsplit
        exact hids.symm
      rw [forall₂_eq_eq_eq, zipIdx_map_fst] at hids
      exact hids.symm
    · intro split hsplit
      obtain ⟨pair, hpair, hevaluate⟩ := exists_of_mem_mapM hsplits split hsplit
      exact leakFree_of_evaluateSplit hr hk hn
        (sublist_of_mem_combinations (fst_mem_of_mem_zipIdx hpair)) hevaluate

end

/-! ## A sample -/

/-- The first days of 2024. -/
def sampleDate (text : String) : Option Datetime :=
  match text.toList with
  | ['2', '0', '2', '4', '-', '0', '1', '-', '0', d] =>
    if d.isDigit = true ∧ d ≠ '0' then
      Datetime.add ⟨⟨1704067200000000, by decide⟩, none⟩ ((d.toNat - 49 : Int) * 86400000000)
    else none
  | _ => none

/-- Four rows, of which the second meets the third and the third meets the fourth. -/
def sampleRows : List (Event Unit) :=
  [⟨some "2024-01-01", some "2024-01-02", none, ()⟩, ⟨some "2024-01-03", some "2024-01-06", none, ()⟩,
    ⟨some "2024-01-05", some "2024-01-08", none, ()⟩, ⟨some "2024-01-07", some "2024-01-09", none, ()⟩]

/-- Three groups, one of them tested, and an embargo of a day. -/
def sampleConfig : CVConfig ℚ := ⟨3, 1, 86400000000, 20, 1⟩

def sampleReport : Except CVError (CVReport Unit) :=
  combinatorialPurgedCvEvaluate sampleDate (fun _ _ _ ↦ .ok ⟨none, none, none⟩) sampleRows
    sampleConfig

theorem combinatorialPurgedCv_leaksNothing_sample :
    sampleReport.map (fun report ↦ report.splits.map fun (s : Split Unit) ↦
        (s.trainIndices, s.purgedIndices, s.embargoIndices)) =
      .ok [([2, 3], [], [1]), ([0], [2], [3]), ([0], [1], [])] ∧
    ∀ report, sampleReport = .ok report →
      ∀ split ∈ report.splits, LeakFree sampleDate sampleRows sampleConfig split :=
  ⟨by decide +kernel, fun _ h ↦ (combinatorialPurgedCv_leaksNothing h).2⟩

end Qros.Orchestration
