import Mathlib.Algebra.Order.Field.Basic
import Mathlib.Data.List.ReduceOption
import Mathlib.Tactic.NormNum
import Qros.Lib.Numerals
import Qros.Lib.StepUp

/-!
# The statistics of the vectorised backtester

`_bh` and `_bootstrap_daily_blocks` of `researchos/orchestration/vectorized_backtest.py`, for
exact numbers.  An entry of an array that is not finite is `none`.
-/

namespace Qros.Orchestration

open Qros.Lib List

/-! ## Arrays -/

section

variable {α : Type}

def flatnonzero (flags : List Bool) : List Nat :=
  (List.range flags.length).filter fun i ↦ flags.getD i false

/-- `xs[ids] = ys`, where `y i` is the value for position `i`. -/
def assignAt (ids : List Nat) (y : Nat → α) (xs : List α) : List α :=
  ids.foldl (fun xs i ↦ xs.set i (y i)) xs

/-- The number at position `i`, for positions with a finite number. -/
def finiteAt [Zero α] (xs : List (Option α)) (i : Nat) : α := (xs.getD i none).getD 0

theorem mem_flatnonzero {flags : List Bool} {i : Nat} :
    i ∈ flatnonzero flags ↔ flags[i]? = some true := by
  rw [flatnonzero, mem_filter, mem_range, getD_eq_getElem?_getD]
  constructor
  · rintro ⟨hi, h⟩
    rw [getElem?_eq_getElem hi] at h ⊢
    exact congrArg some h
  · intro h
    refine ⟨(List.getElem?_eq_some_iff.mp h).1, ?_⟩
    rw [h]
    rfl

theorem le_last_flatnonzero {flags : List Bool} {last i : Nat}
    (hlast : (flatnonzero flags).getLast? = some last) (hi : i ∈ flatnonzero flags) : i ≤ last := by
  have hsorted : (flatnonzero flags).Pairwise (· < ·) := pairwise_lt_range.filter _
  obtain ⟨init, hinit⟩ := getLast?_eq_some_iff.mp hlast
  rw [hinit, pairwise_append] at hsorted
  rw [hinit, mem_append, mem_singleton] at hi
  rcases hi with hi | rfl
  · exact (hsorted.2.2 i hi last (mem_singleton_self _)).le
  · exact le_rfl

theorem getElem?_assignAt (ids : List Nat) (y : Nat → α) (xs : List α) (j : Nat) :
    (assignAt ids y xs)[j]? = if j ∈ ids ∧ j < xs.length then some (y j) else xs[j]? := by
  induction ids generalizing xs with
  | nil => simp [assignAt]
  | cons i ids ih =>
    rw [assignAt, foldl_cons]
    refine (ih (xs.set i (y i))).trans ?_
    rw [length_set, getElem?_set]
    by_cases hij : i = j
    · subst hij
      by_cases hlt : i < xs.length
      · simp [hlt]
      · simp [hlt]
    · simp [hij, Ne.symm hij]

end

/-! ## Benjamini and Hochberg -/

section

variable {F : Type} [Field F] [LinearOrder F]

/-- What `np.argsort` promises: positions that put the array in order.  Equal entries may come
in any order. -/
structure IsArgsort (argsort : List F → List Nat) : Prop where
  perm : ∀ xs, (argsort xs).Perm (List.range xs.length)
  sorted : ∀ xs, ((argsort xs).map fun j ↦ xs.getD j 0).Pairwise (· ≤ ·)

variable (argsort : List F → List Nat)

def bh (p : List (Option F)) (q : F) : List Bool × Option F :=
  let ids := flatnonzero (p.map Option.isSome)
  let passed := List.replicate p.length false
  if ids.length = 0 then (passed, none)
  else
    let order := (argsort (ids.map (finiteAt p))).map fun j ↦ ids.getD j 0
    let hits := flatnonzero
      ((order.zipIdx 1).map fun e ↦ decide (finiteAt p e.1 ≤ q * e.2 / order.length))
    match hits.getLast? with
    | none => (passed, none)
    | some hit =>
      let cutoff := finiteAt p (order.getD hit 0)
      (assignAt ids (fun i ↦ decide (finiteAt p i ≤ cutoff)) passed, some cutoff)

/-- `passed` rejects exactly `k` entries, all of them numbers, and these are the smallest ones. -/
structure RejectsSmallest (p : List (Option F)) (k : Nat) (passed : List Bool) : Prop where
  length_eq : passed.length = p.length
  count : passed.count true = k
  finite : ∀ i : Nat, passed[i]? = some true → ∃ x, p[i]? = some (some x)
  smallest : ∀ (i j : Nat) (x y : F), passed[i]? = some true → p[i]? = some (some x) →
    passed[j]? = some false → p[j]? = some (some y) → x < y

omit [LinearOrder F] in
theorem map_finiteAt_flatnonzero (p : List (Option F)) :
    (flatnonzero (p.map Option.isSome)).map (finiteAt p) = p.reduceOption := by
  have hfilter : ∀ (l : List Nat) (f : Nat → Option F),
      (l.filter fun i ↦ (f i).isSome).map (fun i ↦ (f i).getD 0) = (l.map f).reduceOption := by
    intro l f
    induction l with
    | nil => rfl
    | cons i l ih => cases hf : f i <;> simp [hf, ih, reduceOption_cons_of_none,
        reduceOption_cons_of_some]
  have hflags : flatnonzero (p.map Option.isSome) =
      (List.range p.length).filter fun i ↦ (p.getD i none).isSome := by
    rw [flatnonzero, length_map]
    refine filter_congr fun i _ ↦ ?_
    rw [getD_eq_getElem?_getD, getD_eq_getElem?_getD, getElem?_map]
    cases p[i]? <;> rfl
  have hp : (List.range p.length).map (fun i ↦ p.getD i none) = p := by
    refine ext_getElem (by simp) fun i _ hi ↦ ?_
    simp [hi]
  rw [hflags]
  refine (hfilter _ _).trans ?_
  rw [hp]

theorem assignAt_cutoff (p : List (Option F)) (cutoff : F) :
    assignAt (flatnonzero (p.map Option.isSome)) (fun i ↦ decide (finiteAt p i ≤ cutoff))
        (List.replicate p.length false) =
      p.map fun x ↦ x.elim false fun x ↦ decide (x ≤ cutoff) := by
  refine ext_getElem? fun i ↦ ?_
  simp only [getElem?_assignAt, mem_flatnonzero, getElem?_map, length_replicate,
    getElem?_replicate]
  rcases Nat.lt_or_ge i p.length with hi | hi
  · rw [getElem?_eq_getElem hi]
    cases hx : p[i] with
    | none => simp [hi]
    | some x => simp [hi, finiteAt, hx]
  · simp [Nat.not_lt.mpr hi]

omit [Field F] in
theorem rejectsSmallest_cutoff (p : List (Option F)) (cutoff : F) :
    RejectsSmallest p (p.reduceOption.countP fun x ↦ decide (x ≤ cutoff))
      (p.map fun x ↦ x.elim false fun x ↦ decide (x ≤ cutoff)) := by
  refine ⟨length_map _, ?_, fun i hi ↦ ?_, fun i j x y hi hx hj hy ↦ ?_⟩
  · induction p with
    | nil => rfl
    | cons x p ih =>
      cases x with
      | none => simpa [reduceOption_cons_of_none] using ih
      | some x =>
        rw [map_cons, count_cons, ih, reduceOption_cons_of_some,
          countP_cons]
        simp
  · rw [getElem?_map] at hi
    obtain ⟨x, hx, hpass⟩ := Option.map_eq_some_iff.mp hi
    cases x with
    | none => cases hpass
    | some x => exact ⟨x, hx⟩
  · rw [getElem?_map, hx] at hi
    rw [getElem?_map, hy] at hj
    have hle : x ≤ cutoff := by simpa using hi
    have hlt : cutoff < y := by simpa using hj
    exact hle.trans_lt hlt

omit [Field F] in
theorem rejectsSmallest_none (p : List (Option F)) :
    RejectsSmallest p 0 (List.replicate p.length false) := by
  refine ⟨length_replicate, count_eq_zero.mpr ?_, fun i hi ↦ ?_, fun i _ _ _ hi ↦ ?_⟩
  · intro h
    cases eq_of_mem_replicate h
  · cases eq_of_mem_replicate (mem_of_getElem? hi)
  · cases eq_of_mem_replicate (mem_of_getElem? hi)

theorem map_finiteAt_order {argsort : List F → List Nat} (h : IsArgsort argsort)
    (p : List (Option F)) :
    ((argsort p.reduceOption).map fun j ↦ (flatnonzero (p.map Option.isSome)).getD j 0).map
        (finiteAt p) =
      increasing p.reduceOption := by
  have hvalues : ((argsort p.reduceOption).map fun j ↦
      (flatnonzero (p.map Option.isSome)).getD j 0).map (finiteAt p) =
        (argsort p.reduceOption).map fun j ↦ p.reduceOption.getD j 0 := by
    rw [map_map]
    refine map_congr_left fun j hj ↦ ?_
    have hlt : j < p.reduceOption.length := mem_range.mp ((h.perm _).mem_iff.mp hj)
    rw [← map_finiteAt_flatnonzero, length_map] at hlt
    rw [← map_finiteAt_flatnonzero]
    simp [hlt]
  have hrange : (List.range p.reduceOption.length).map (fun j ↦ p.reduceOption.getD j 0) =
      p.reduceOption := by
    refine ext_getElem (by simp) fun i _ hi ↦ ?_
    simp [hi]
  rw [hvalues]
  refine eq_increasing (((h.perm _).map _).trans ?_) (h.sorted _)
  rw [hrange]

variable [IsStrictOrderedRing F]

theorem threshold_mono {q : F} (hq : 0 ≤ q) (m : Nat) {j k : Nat} (h : j ≤ k) :
    q * j / m ≤ q * k / m :=
  div_le_div_of_nonneg_right (mul_le_mul_of_nonneg_left (Nat.cast_le.mpr h) hq) (Nat.cast_nonneg m)

omit [IsStrictOrderedRing F] in
theorem mem_hits_iff (p : List (Option F)) (q : F) (order : List Nat) {i : Nat} :
    i ∈ flatnonzero
        ((order.zipIdx 1).map fun e ↦ decide (finiteAt p e.1 ≤ q * e.2 / order.length)) ↔
      ∃ hi : i < (order.map (finiteAt p)).length,
        (order.map (finiteAt p))[i] ≤ q * (i + 1 : ℕ) / order.length := by
  rw [mem_flatnonzero, getElem?_map, getElem?_zipIdx, Nat.add_comm 1 i]
  constructor
  · intro h
    obtain ⟨e, he, hle⟩ := Option.map_eq_some_iff.mp h
    obtain ⟨n, hn, rfl⟩ := Option.map_eq_some_iff.mp he
    obtain ⟨hi, rfl⟩ := List.getElem?_eq_some_iff.mp hn
    exact ⟨by simpa using hi, by simpa using hle⟩
  · rintro ⟨hi, hle⟩
    rw [length_map] at hi
    rw [getElem?_eq_getElem hi]
    simpa using hle

/-- `_bh` rejects the `k` smallest of the numbers for the largest `k` at which the `k`-th
smallest is at most `q * k / m`, `m` being how many numbers there are.  Below zero there are no
p-values. -/
theorem bh_stepUp {argsort : List F → List Nat} (h : IsArgsort argsort) (p : List (Option F))
    (q : F) (hp : q < 0 → ∀ x, some x ∈ p → 0 ≤ x) :
    ∃ k, IsStepUp (fun k ↦ q * k / p.reduceOption.length) p.reduceOption k ∧
      RejectsSmallest p k (bh argsort p q).1 := by
  have horder := map_finiteAt_order h p
  have hids := map_finiteAt_flatnonzero p
  unfold bh
  dsimp only
  rw [hids]
  generalize hord : (argsort p.reduceOption).map
    (fun j ↦ (flatnonzero (p.map Option.isSome)).getD j 0) = order at horder ⊢
  have hlen : order.length = p.reduceOption.length := by
    rw [← length_map (finiteAt p), horder]
    exact (increasing_perm _).length_eq
  have hmem := fun i ↦ mem_hits_iff p q order (i := i)
  rw [horder] at hmem
  split_ifs with hzero
  · have hnil : p.reduceOption = [] := by
      rw [← hids, eq_nil_of_length_eq_zero hzero, map_nil]
    refine ⟨0, isStepUp_zero fun j hj ↦ ?_, rejectsSmallest_none p⟩
    rw [(increasing_perm _).length_eq, hnil] at hj
    exact absurd hj (Nat.not_lt_zero j)
  · cases hlast : (flatnonzero ((order.zipIdx 1).map fun e ↦
      decide (finiteAt p e.1 ≤ q * e.2 / order.length))).getLast? with
    | none =>
      refine ⟨0, isStepUp_zero fun j hj hle ↦ ?_, rejectsSmallest_none p⟩
      have hhit := (hmem j).mpr ⟨hj, by rw [hlen]; exact hle⟩
      rw [getLast?_eq_none_iff.mp hlast] at hhit
      exact absurd hhit not_mem_nil
    | some hit =>
      obtain ⟨hi, hwithin⟩ := (hmem hit).mp (mem_of_getLast? hlast)
      rw [hlen] at hwithin
      have hafter : ∀ j (hj : j < (increasing p.reduceOption).length), hit < j →
          ¬ (increasing p.reduceOption)[j] ≤ q * (j + 1 : ℕ) / p.reduceOption.length := by
        intro j hj hlt hle
        exact absurd (le_last_flatnonzero hlast ((hmem j).mpr ⟨hj, by rw [hlen]; exact hle⟩))
          (not_le.mpr hlt)
      have hcutoff : finiteAt p (order.getD hit 0) = (increasing p.reduceOption)[hit] := by
        have hi' : hit < order.length := by
          rwa [hlen, ← (increasing_perm p.reduceOption).length_eq]
        simp [← horder, hi']
      have hq : 0 ≤ q := by
        by_contra hneg
        rw [not_le] at hneg
        have hmember : some (increasing p.reduceOption)[hit] ∈ p :=
          reduceOption_mem_iff.mp ((increasing_perm _).mem_iff.mp (getElem_mem hi))
        have hpos : (0 : F) < p.reduceOption.length := by
          rw [← (increasing_perm p.reduceOption).length_eq]
          exact Nat.cast_pos.mpr (Nat.zero_lt_of_lt hi)
        have hthreshold : q * (hit + 1 : ℕ) / p.reduceOption.length < 0 :=
          div_neg_of_neg_of_pos (mul_neg_of_neg_of_pos hneg (Nat.cast_pos.mpr hit.succ_pos)) hpos
        exact absurd (hp hneg _ hmember) (not_le.mpr (hwithin.trans_lt hthreshold))
      refine ⟨hit + 1, isStepUp_last hi hwithin hafter, ?_⟩
      dsimp only
      rw [assignAt_cutoff, hcutoff]
      have hcount := countP_le_last (pairwise_increasing p.reduceOption)
        (t := fun k ↦ q * k / p.reduceOption.length) hi hwithin hafter
        fun j hle _ ↦ threshold_mono hq _ (Nat.succ_le_succ hle)
      rw [(increasing_perm p.reduceOption).countP_eq] at hcount
      rw [← hcount]
      exact rejectsSmallest_cutoff p _

end


/-! ## The block bootstrap -/

section

/-- What numpy and the division of two integers raise here. -/
inductive ArrayError where
  | indexError
  | zeroDivisionError
deriving DecidableEq

/-- What `_bootstrap_daily_blocks` returns. -/
structure Bootstrap (F : Type) where
  observed : F
  lower : Option F
  upper : Option F
  pPositive : F
  pNegative : F
deriving DecidableEq

def unique (xs : List ℤ) : List ℤ := xs.dedup.mergeSort fun a b ↦ decide (a ≤ b)

/-- `np.searchsorted` of one value in an array that is sorted. -/
def searchsorted (xs : List ℤ) (x : ℤ) : Nat := (xs.takeWhile fun a ↦ decide (a < x)).length

variable {F : Type} [Field F] [LinearOrder F]

def addAt (xs : List F) (entries : List (Nat × F)) : Except ArrayError (List F) :=
  entries.foldlM (fun xs e ↦
    if e.1 < xs.length then .ok (xs.modify e.1 (· + e.2)) else .error .indexError) xs

/-- `np.r_[0.0, np.cumsum(np.concatenate((daily, daily)))]`. -/
def prefixTwice (daily : List F) : List F := (daily ++ daily).scanl (· + ·) 0

def blockTotal (daily : List F) (len start : Nat) : F :=
  (prefixTwice daily).getD (start + len) 0 - (prefixTwice daily).getD start 0

/-- The total of one replicate: whole blocks, and the rest of the days from the last start. -/
def sampledTotal (daily : List F) (block : Nat) (starts : List Nat) : F :=
  let remainder := daily.length - block * (starts.length - 1)
  (starts.dropLast.map (blockTotal daily block)).sum +
    blockTotal daily remainder (starts.getLastD 0)

/-- The block of `len` days from `start` on, going around the end. -/
def circularBlock (daily : List F) (len start : Nat) : List F :=
  (List.range len).map fun k ↦ daily.getD ((start + k) % daily.length) 0

/-- The total of one replicate of the naive bootstrap: blocks one after another, cut off at the
number of days. -/
def circularTotal (daily : List F) (block : Nat) (starts : List Nat) : F :=
  ((starts.flatMap (circularBlock daily block)).take daily.length).sum

def replicates (total : List F → Nat → List Nat → F) (sums counts : List F) (observed : F)
    (block : Nat) (starts : List (List Nat)) : List (F × F × F) :=
  let centered := List.zipWith (fun s c ↦ s - observed * c) sums counts
  starts.map fun row ↦ (total sums block row, total counts block row, total centered block row)

/-- `_bootstrap_daily_blocks` with `total` for the total of one replicate.  `timestamps` counts
in a unit of which a day has `perDay`, and `trades` pairs `signal_indices` with `values`. -/
def bootstrapWith (total : List F → Nat → List Nat → F) (perDay : Nat)
    (integers : Nat → Nat → Nat → List (List Nat))
    (nanquantile : List (Option F) → F → Option F) (trades : List (Nat × F))
    (timestamps : List ℤ) (holdStart reps blockDays : Nat) : Except ArrayError (Bootstrap F) := do
  let values := trades.map Prod.snd
  let days := unique ((timestamps.drop holdStart).map (· / perDay))
  if days.length < max 20 blockDays ∨ values.length = 0 then
    let observed := if values.length ≠ 0 then values.sum / values.length else 0
    return ⟨observed, none, none, 1, 1⟩
  let ids ← trades.mapM fun e ↦ match timestamps[e.1]? with
    | some t => .ok (searchsorted days (t / perDay))
    | none => .error .indexError
  let sums ← addAt (List.replicate days.length 0) (ids.zip values)
  let counts ← addAt (List.replicate days.length 0) (ids.map fun i ↦ (i, 1))
  let observed := values.sum / values.length
  let block := min blockDays days.length
  if block = 0 then .error .zeroDivisionError
  let blocks := (days.length + block - 1) / block
  let starts := integers days.length reps blocks
  let sampled := replicates total sums counts observed block starts
  let valid := sampled.filter fun r ↦ decide (0 < r.2.1)
  let means := sampled.map fun r ↦ if 0 < r.2.1 then some (r.1 / r.2.1) else none
  let nullMeans := valid.map fun r ↦ r.2.2 / r.2.1
  return {
    observed
    lower := nanquantile means ((25 : ℕ) / (1000 : ℕ))
    upper := nanquantile means ((975 : ℕ) / (1000 : ℕ))
    pPositive := (1 + (nullMeans.countP fun x ↦ decide (observed ≤ x) : ℕ)) / (1 + valid.length)
    pNegative := (1 + (nullMeans.countP fun x ↦ decide (x ≤ observed) : ℕ)) / (1 + valid.length) }

def bootstrapDailyBlocks : (perDay : Nat) → (integers : Nat → Nat → Nat → List (List Nat)) →
    (nanquantile : List (Option F) → F → Option F) → (trades : List (Nat × F)) →
    (timestamps : List ℤ) → (holdStart reps blockDays : Nat) →
      Except ArrayError (Bootstrap F) :=
  bootstrapWith sampledTotal

/-- The circular block bootstrap that writes its blocks out. -/
def naiveBootstrap : (perDay : Nat) → (integers : Nat → Nat → Nat → List (List Nat)) →
    (nanquantile : List (Option F) → F → Option F) → (trades : List (Nat × F)) →
    (timestamps : List ℤ) → (holdStart reps blockDays : Nat) →
      Except ArrayError (Bootstrap F) :=
  bootstrapWith circularTotal

/-- What `rng.integers(0, high, size=(rows, columns))` promises for `0 < high`. -/
structure DrawsBelow (integers : Nat → Nat → Nat → List (List Nat)) : Prop where
  length_row : ∀ high rows columns, ∀ row ∈ integers high rows columns, row.length = columns
  lt_high : ∀ high rows columns, 0 < high →
    ∀ row ∈ integers high rows columns, ∀ s ∈ row, s < high

omit [LinearOrder F] in
theorem getD_prefixTwice {daily : List F} {i : Nat} (h : i ≤ (daily ++ daily).length) :
    (prefixTwice daily).getD i 0 = ((daily ++ daily).take i).sum := by
  rw [prefixTwice, getD_eq_getElem?_getD, getElem?_scanl, if_pos h, Option.getD_some]
  exact (sum_eq_foldl).symm

omit [LinearOrder F] in
theorem getElem?_twice (daily : List F) {start k : Nat} (hs : start < daily.length)
    (hk : k < daily.length) :
    (daily ++ daily)[start + k]? = some (daily.getD ((start + k) % daily.length) 0) := by
  rcases Nat.lt_or_ge (start + k) daily.length with h | h
  · rw [getElem?_append_left h, Nat.mod_eq_of_lt h, getElem?_eq_getElem h]
    simp [h]
  · have hlt : start + k - daily.length < daily.length := by omega
    rw [getElem?_append_right h, Nat.mod_eq_sub_mod h, Nat.mod_eq_of_lt hlt,
      getElem?_eq_getElem hlt]
    simp [hlt]

omit [LinearOrder F] in
theorem take_drop_twice (daily : List F) {len start : Nat} (hs : start < daily.length)
    (hlen : len ≤ daily.length) :
    ((daily ++ daily).drop start).take len = circularBlock daily len start := by
  refine ext_getElem? fun k ↦ ?_
  rw [circularBlock, getElem?_map, List.getElem?_take, getElem?_drop]
  by_cases hk : k < len
  · rw [if_pos hk, getElem?_twice daily hs (hk.trans_le hlen), getElem?_range hk]
    rfl
  · rw [if_neg hk, getElem?_eq_none (by simpa using Nat.not_lt.mp hk)]
    rfl

omit [LinearOrder F] in
theorem blockTotal_eq (daily : List F) {len start : Nat} (hs : start < daily.length)
    (hlen : len ≤ daily.length) :
    blockTotal daily len start = (circularBlock daily len start).sum := by
  have hend : start + len ≤ (daily ++ daily).length := by
    rw [length_append]
    omega
  rw [blockTotal, getD_prefixTwice hend, getD_prefixTwice (Nat.le_of_add_right_le hend),
    take_add, sum_append, add_sub_cancel_left, take_drop_twice daily hs hlen]

omit [LinearOrder F] in
@[simp] theorem length_circularBlock (daily : List F) (len start : Nat) :
    (circularBlock daily len start).length = len := by
  simp [circularBlock]

omit [LinearOrder F] in
theorem take_circularBlock (daily : List F) {len block : Nat} (h : len ≤ block) (start : Nat) :
    (circularBlock daily block start).take len = circularBlock daily len start := by
  rw [circularBlock, ← map_take, take_range, Nat.min_eq_left h, circularBlock]

omit [LinearOrder F] in
theorem length_flatMap_circularBlock (daily : List F) (block : Nat) (starts : List Nat) :
    (starts.flatMap (circularBlock daily block)).length = block * starts.length := by
  induction starts with
  | nil => rfl
  | cons s starts ih => simp [ih, Nat.mul_succ, Nat.add_comm]

theorem remainder_le {n block blocks : Nat} (hblock : 0 < block) (hn : 0 < n)
    (hblocks : blocks = (n + block - 1) / block) :
    0 < blocks ∧ block * (blocks - 1) ≤ n ∧ n - block * (blocks - 1) ≤ block := by
  have hdiv := Nat.div_add_mod (n + block - 1) block
  have hmod := Nat.mod_lt (n + block - 1) hblock
  rw [← hblocks] at hdiv
  have hpos : 0 < blocks := by
    rcases Nat.eq_zero_or_pos blocks with rfl | h
    · omega
    · exact h
  obtain ⟨k, rfl⟩ := Nat.exists_eq_succ_of_ne_zero hpos.ne'
  rw [Nat.mul_succ] at hdiv
  refine ⟨hpos, ?_, ?_⟩ <;> rw [Nat.succ_sub_one] <;> omega

omit [LinearOrder F] in
theorem sampledTotal_eq (daily : List F) {block : Nat} {starts : List Nat} (hblock : 0 < block)
    (hle : block ≤ daily.length)
    (hblocks : starts.length = (daily.length + block - 1) / block)
    (hstarts : ∀ s ∈ starts, s < daily.length) :
    sampledTotal daily block starts = circularTotal daily block starts := by
  obtain ⟨hpos, hfull, hrest⟩ := remainder_le hblock (hblock.trans_le hle) hblocks
  obtain ⟨full, tail, rfl⟩ :=
    (eq_nil_or_concat' starts).resolve_left (ne_nil_of_length_pos hpos)
  rw [length_append, length_singleton, Nat.add_sub_cancel] at hfull hrest
  have htail : tail < daily.length := hstarts tail (by simp)
  have hblocksum : (full.map (blockTotal daily block)).sum =
      (full.flatMap (circularBlock daily block)).sum := by
    rw [flatMap_def, sum_flatten, map_map]
    refine congrArg List.sum (map_congr_left fun s hs ↦ ?_)
    exact blockTotal_eq daily (hstarts s (mem_append_left _ hs)) hle
  have hlen := length_flatMap_circularBlock daily block full
  have htake : ((full ++ [tail]).flatMap (circularBlock daily block)).take daily.length =
      full.flatMap (circularBlock daily block) ++
        circularBlock daily (daily.length - block * full.length) tail := by
    rw [flatMap_append, flatMap_singleton, take_append, hlen,
      take_circularBlock daily hrest, take_of_length_le (hlen.trans_le hfull)]
  rw [sampledTotal, circularTotal, htake, sum_append, dropLast_concat, hblocksum,
    getLastD_concat, length_append, length_singleton, Nat.add_sub_cancel,
    blockTotal_eq daily htail (Nat.sub_le _ _)]

omit [LinearOrder F] in
theorem length_addAt {xs ys : List F} {entries : List (Nat × F)}
    (h : addAt xs entries = .ok ys) : ys.length = xs.length := by
  induction entries generalizing xs with
  | nil =>
    cases h
    rfl
  | cons e entries ih =>
    rw [addAt, foldlM_cons] at h
    split_ifs at h
    · exact (ih h).trans (length_modify _ _ _)
    · cases h

/-- The bootstrap with prefix sums is the naive one: it returns the same for every input, and
every total that it forms is that of the blocks written out. -/
theorem bootstrapDailyBlocks_naive {integers : Nat → Nat → Nat → List (List Nat)}
    (h : DrawsBelow integers) :
    (∀ (perDay : Nat) (nanquantile : List (Option F) → F → Option F) (trades : List (Nat × F))
      (timestamps : List ℤ) (holdStart reps blockDays : Nat),
      bootstrapDailyBlocks perDay integers nanquantile trades timestamps holdStart reps blockDays =
        naiveBootstrap perDay integers nanquantile trades timestamps holdStart reps blockDays) ∧
    ∀ (daily : List F) (block reps : Nat), 0 < block → block ≤ daily.length →
      ∀ starts ∈ integers daily.length reps ((daily.length + block - 1) / block),
        sampledTotal daily block starts =
          ((starts.flatMap (circularBlock daily block)).take daily.length).sum := by
  have htotal : ∀ (daily : List F) (block reps : Nat), 0 < block → block ≤ daily.length →
      ∀ starts ∈ integers daily.length reps ((daily.length + block - 1) / block),
        sampledTotal daily block starts = circularTotal daily block starts := by
    intro daily block reps hblock hle starts hmem
    exact sampledTotal_eq daily hblock hle (h.length_row _ _ _ starts hmem)
      (h.lt_high _ _ _ (hblock.trans_le hle) starts hmem)
  refine ⟨fun perDay nanquantile trades timestamps holdStart reps blockDays ↦ ?_, htotal⟩
  unfold bootstrapDailyBlocks naiveBootstrap bootstrapWith
  dsimp only
  generalize unique ((timestamps.drop holdStart).map (· / (perDay : ℤ))) = days
  by_cases hfew : days.length < max 20 blockDays ∨ (trades.map Prod.snd).length = 0
  · rw [if_pos hfew, if_pos hfew]
  rw [if_neg hfew, if_neg hfew]
  have hreplicates : ∀ {sums counts : List F} {sumEntries countEntries : List (Nat × F)},
      min blockDays days.length ≠ 0 →
      addAt (List.replicate days.length 0) sumEntries = .ok sums →
      addAt (List.replicate days.length 0) countEntries = .ok counts → ∀ observed : F,
        let block := min blockDays days.length
        let starts := integers days.length reps ((days.length + block - 1) / block)
        replicates sampledTotal sums counts observed block starts =
          replicates circularTotal sums counts observed block starts := by
    intro sums counts _ _ hblock hsums hcounts observed block starts
    have hs := (length_addAt hsums).trans (length_replicate ..)
    have hc := (length_addAt hcounts).trans (length_replicate ..)
    have hrow : ∀ daily : List F, daily.length = days.length → ∀ row ∈ starts,
        sampledTotal daily block row = circularTotal daily block row := by
      intro daily hdaily row hmem
      refine htotal daily block reps (Nat.pos_of_ne_zero hblock) ?_ row ?_
      · rw [hdaily]
        exact Nat.min_le_right _ _
      · rwa [hdaily]
    refine map_congr_left fun row hmem ↦ ?_
    rw [hrow sums hs row hmem, hrow counts hc row hmem, hrow _ ?_ row hmem]
    rw [length_zipWith, hs, hc, Nat.min_self]
  refine bind_congr (m := Except ArrayError) fun ids ↦ ?_
  cases hsums : addAt (List.replicate days.length (0 : F)) (ids.zip (trades.map Prod.snd)) with
  | error e => rfl
  | ok sums =>
    cases hcounts : addAt (List.replicate days.length (0 : F)) (ids.map fun i ↦ (i, 1)) with
    | error e => rfl
    | ok counts =>
      dsimp only [bind, Except.bind]
      split_ifs with hblock
      · rfl
      · rw [hreplicates hblock hsums hcounts]

end

def stableArgsort (xs : List ℚ) : List Nat :=
  (List.range xs.length).mergeSort fun i j ↦ decide (xs.getD i 0 ≤ xs.getD j 0)

theorem isArgsort_stable : IsArgsort stableArgsort := by
  refine ⟨fun xs ↦ mergeSort_perm _ _, fun xs ↦ pairwise_map.mpr ?_⟩
  refine (pairwise_mergeSort (fun a b c hab hbc ↦ ?_) (fun a b ↦ ?_) _).imp of_decide_eq_true
  · exact decide_eq_true ((of_decide_eq_true hab).trans (of_decide_eq_true hbc))
  · simpa using le_total (xs.getD a 0) (xs.getD b 0)

theorem bh_stepUp_sample :
    let p : List (Option ℚ) := [some (3 / 100), none, some (1 / 100), some (3 / 100), some (1 / 2)]
    ∃ k, IsStepUp (fun k ↦ 1 / 20 * (k : ℚ) / p.reduceOption.length) p.reduceOption k ∧
      RejectsSmallest p k (bh stableArgsort p (1 / 20)).1 :=
  bh_stepUp isArgsort_stable _ (1 / 20) fun h ↦ absurd h (by norm_num)

/-- Draws that go around the days. -/
def turningStarts (high rows columns : Nat) : List (List Nat) :=
  (List.range rows).map fun r ↦ (List.range columns).map fun c ↦ (r + c) % high

theorem drawsBelow_turning : DrawsBelow turningStarts := by
  refine ⟨fun high rows columns row hrow ↦ ?_, fun high rows columns hhigh row hrow s hs ↦ ?_⟩
  · obtain ⟨r, -, rfl⟩ := mem_map.mp hrow
    rw [length_map, length_range]
  · obtain ⟨r, -, rfl⟩ := mem_map.mp hrow
    obtain ⟨c, -, rfl⟩ := mem_map.mp hs
    exact Nat.mod_lt _ hhigh

theorem bootstrapDailyBlocks_naive_sample :
    sampledTotal [(1 : ℚ), 2, 4] 2 [2, 0] =
      (([2, 0].flatMap (circularBlock [(1 : ℚ), 2, 4] 2)).take 3).sum :=
  (bootstrapDailyBlocks_naive drawsBelow_turning).2 [1, 2, 4] 2 3 (by decide) (by decide) [2, 0]
    (by decide)

end Qros.Orchestration
