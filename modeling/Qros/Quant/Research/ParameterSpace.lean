import Mathlib.Algebra.Order.Archimedean.Basic
import Mathlib.Data.Fintype.EquivFin
import Qros.Lib.MixedRadix
import Qros.Quant.Arith

/-!
# Parameter spaces

`include/quant/research/parameter_space.h`, `src/research/parameter_space.cpp`: ranges of values
for named parameters, and the numbering of their combinations.

The loop of `add_range` takes fuel, and returns when some fuel is enough.
-/

universe u

namespace Qros.Quant.Research

open Qros.Lib List

/-- `std::numeric_limits<size_t>::max()`. -/
def sizeMax : Nat := 2 ^ 64 - 1

structure ParamSet (F : Type u) where
  names : List String
  values : List F
deriving DecidableEq

structure ParameterSpace (F : Type u) where
  names : List String
  grids : List (List F)
  length_eq : names.length = grids.length
deriving DecidableEq

variable {F : Type u}

namespace ParamSet

def empty : ParamSet F := ⟨[], []⟩

def find (p : ParamSet F) (name : String) : Nat := p.names.idxOf name

def set (p : ParamSet F) (name : String) (value : F) : ParamSet F :=
  let i := p.find name
  if i < p.names.length then { p with values := p.values.set i value }
  else ⟨p.names ++ [name], p.values ++ [value]⟩

theorem set_of_not_mem {p : ParamSet F} {name : String} (h : name ∉ p.names) (value : F) :
    p.set name value = ⟨p.names ++ [name], p.values ++ [value]⟩ :=
  if_neg fun hlt ↦ h (idxOf_lt_length_iff.mp hlt)

end ParamSet

namespace ParameterSpace

def empty : ParameterSpace F := ⟨[], [], rfl⟩

def addGrid (space : ParameterSpace F) (name : String) (values : List F) : ParameterSpace F where
  names := space.names ++ [name]
  grids := space.grids ++ [values]
  length_eq := by rw [length_append, length_append, space.length_eq]; rfl

/-! ## Combinations -/

section

def comboCountFrom : Nat → List (List F) → Nat
  | total, [] => total
  | total, g :: grids =>
    if g.isEmpty then 0
    else if total > sizeMax / g.length then sizeMax
    else comboCountFrom (total * g.length) grids

def comboCount (space : ParameterSpace F) : Nat := comboCountFrom 1 space.grids

variable [Zero F]

def comboFrom : List String → List (List F) → Nat → ParamSet F → ParamSet F
  | name :: names, grid :: grids, rem, out =>
    if grid.isEmpty then ParamSet.empty
    else
      let digit := if grid.length > 1 then rem % grid.length else 0
      let rem := if grid.length > 1 then rem / grid.length else rem
      comboFrom names grids rem (out.set name (grid.getD digit 0))
  | _, _, _, out => out

def combo (space : ParameterSpace F) (index : Nat) : ParamSet F :=
  if index ≥ space.comboCount then ParamSet.empty
  else comboFrom space.names space.grids index ParamSet.empty

omit [Zero F] in
/-- The cartesian product of the value lists. -/
def product (space : ParameterSpace F) : Set (ParamSet F) :=
  { p | p.names = space.names ∧ IsChoice p.values space.grids }

omit [Zero F] in
theorem comboCountFrom_eq {grids : List (List F)} (hne : ∀ g ∈ grids, g ≠ []) {total : Nat}
    (h : total * choiceCount grids ≤ sizeMax) :
    comboCountFrom total grids = total * choiceCount grids := by
  induction grids generalizing total with
  | nil => exact (Nat.mul_one total).symm
  | cons g grids ih =>
    have hg := hne g mem_cons_self
    have hpos : 0 < g.length := length_pos_of_ne_nil hg
    have hrest := choiceCount_pos fun l hl ↦ hne l (mem_cons_of_mem g hl)
    rw [choiceCount_cons, ← Nat.mul_assoc] at h ⊢
    have hle : total ≤ sizeMax / g.length :=
      (Nat.le_div_iff_mul_le hpos).mpr ((Nat.le_mul_of_pos_right _ hrest).trans h)
    rw [comboCountFrom, if_neg (by simpa using hg), if_neg (Nat.not_lt.mpr hle)]
    exact ih (fun l hl ↦ hne l (mem_cons_of_mem g hl)) h

theorem comboFrom_eq {names : List String} {grids : List (List F)}
    (hlen : names.length = grids.length) (hne : ∀ g ∈ grids, g ≠ []) {out : ParamSet F}
    (hnodup : (out.names ++ names).Nodup) (rem : Nat) :
    comboFrom names grids rem out =
      ⟨out.names ++ names, out.values ++ choices 0 grids rem⟩ := by
  induction grids generalizing names out rem with
  | nil =>
    rw [length_eq_zero_iff.mp hlen, comboFrom, choices, append_nil, append_nil]
    exact fun _ _ _ _ h ↦ by cases h
  | cons grid grids ih =>
    obtain ⟨name, names, rfl⟩ := exists_cons_of_length_eq_add_one hlen
    have hgrid := hne grid mem_cons_self
    have hfresh : name ∉ out.names := fun hmem ↦
      disjoint_of_nodup_append hnodup hmem mem_cons_self
    have hdigit : (if grid.length > 1 then rem % grid.length else 0) = rem % grid.length := by
      split_ifs with hlt
      · rfl
      · have hone : grid.length = 1 := by
          have := length_pos_of_ne_nil hgrid
          omega
        rw [hone, Nat.mod_one]
    have hrem : (if grid.length > 1 then rem / grid.length else rem) = rem / grid.length := by
      split_ifs with hlt
      · rfl
      · have hone : grid.length = 1 := by
          have := length_pos_of_ne_nil hgrid
          omega
        rw [hone, Nat.div_one]
    rw [comboFrom, if_neg (by simpa using hgrid)]
    dsimp only
    rw [hdigit, hrem, ParamSet.set_of_not_mem hfresh,
      ih (Nat.succ.inj hlen) (fun g hg ↦ hne g (mem_cons_of_mem _ hg)) (by
        simpa using hnodup), choices]
    simp

/-- Every combination has an index below `combo_count`, and every index gives a combination.
The indices number the combinations one to one just when no value list has a value twice. -/
theorem combo_bijOn_iff (space : ParameterSpace F) (hnames : space.names.Nodup)
    (hne : ∀ g ∈ space.grids, g ≠ []) (hsize : choiceCount space.grids ≤ sizeMax) :
    space.comboCount = choiceCount space.grids ∧
      Set.MapsTo space.combo (Set.Iio space.comboCount) space.product ∧
      Set.SurjOn space.combo (Set.Iio space.comboCount) space.product ∧
      (Set.BijOn space.combo (Set.Iio space.comboCount) space.product ↔
        ∀ g ∈ space.grids, g.Nodup) := by
  have hcount : space.comboCount = choiceCount space.grids := by
    rw [comboCount, comboCountFrom_eq hne (by rwa [Nat.one_mul]), Nat.one_mul]
  have hcombo : ∀ n ∈ Set.Iio space.comboCount,
      space.combo n = ⟨space.names, choices 0 space.grids n⟩ := by
    intro n hn
    rw [combo, if_neg (Nat.not_le.mpr hn),
      comboFrom_eq space.length_eq hne (by simpa [ParamSet.empty] using hnames)]
    rfl
  have hmaps : Set.MapsTo space.combo (Set.Iio space.comboCount) space.product := by
    intro n hn
    rw [hcombo n hn]
    exact ⟨rfl, isChoice_choices hne n⟩
  have hsurj : Set.SurjOn space.combo (Set.Iio space.comboCount) space.product := by
    rintro ⟨names, values⟩ ⟨rfl, hvalues⟩
    obtain ⟨n, hn, rfl⟩ := exists_choices_eq (d := 0) hvalues
    rw [← hcount] at hn
    exact ⟨n, hn, hcombo n hn⟩
  have hinj : Set.InjOn space.combo (Set.Iio space.comboCount) ↔
      Set.InjOn (choices 0 space.grids) (Set.Iio (choiceCount space.grids)) := by
    rw [← hcount]
    constructor
    · intro h m hm n hn heq
      exact h hm hn (by rw [hcombo m hm, hcombo n hn, heq])
    · intro h m hm n hn heq
      rw [hcombo m hm, hcombo n hn] at heq
      exact h hm hn (ParamSet.mk.inj heq).2
  refine ⟨hcount, hmaps, hsurj, fun h ↦ ?_, fun h ↦ ⟨hmaps, hinj.mpr (choices_injOn h), hsurj⟩⟩
  exact nodup_of_choices_injOn hne (hinj.mp h.injOn)

end

/-- Two parameters, the second with one value. -/
def periodAndStop : ParameterSpace ℚ := (empty.addGrid "period" [5, 10, 20]).addGrid "stop" [2]

theorem combo_bijOn_iff_sample :
    periodAndStop.comboCount = 3 ∧
      Set.SurjOn periodAndStop.combo (Set.Iio periodAndStop.comboCount) periodAndStop.product := by
  obtain ⟨hcount, -, hsurj, -⟩ := combo_bijOn_iff periodAndStop (by decide) (by decide) (by decide)
  exact ⟨hcount, hsurj⟩

/-- Two indices of a list with a value twice. -/
theorem combo_repeats :
    ¬ Set.InjOn ((empty : ParameterSpace ℚ).addGrid "stop" [2, 2]).combo
      (Set.Iio ((empty : ParameterSpace ℚ).addGrid "stop" [2, 2]).comboCount) := by
  intro h
  have hsame := @h 0 (show 0 < _ by decide) 1 (show 1 < _ by decide) (by decide)
  exact absurd hsame Nat.zero_ne_one

/-! ## Ranges -/

section

variable [LE F] {next : F → F} {hi v : F}

section Fuel

variable [DecidableLE F]

def rangeLoop (next : F → F) (hi : F) : Nat → F → Option (List F)
  | 0, _ => none
  | fuel + 1, v => if v ≤ hi then (rangeLoop next hi fuel (next v)).map (v :: ·) else some []

theorem rangeLoop_eq {k fuel : Nat} (hin : ∀ j < k, next^[j] v ≤ hi) (hout : ¬ next^[k] v ≤ hi)
    (hfuel : k < fuel) :
    rangeLoop next hi fuel v = some ((List.range k).map fun j ↦ next^[j] v) := by
  induction k generalizing v fuel with
  | zero =>
    obtain ⟨fuel, rfl⟩ := Nat.exists_eq_succ_of_ne_zero (Nat.ne_zero_of_lt hfuel)
    exact if_neg hout
  | succ k ih =>
    obtain ⟨fuel, rfl⟩ := Nat.exists_eq_succ_of_ne_zero (Nat.ne_zero_of_lt hfuel)
    have hrest := ih (v := next v) (fun j hj ↦ hin (j + 1) (Nat.succ_lt_succ hj)) hout
      (Nat.lt_of_succ_lt_succ hfuel)
    rw [rangeLoop, if_pos (show v ≤ hi from hin 0 k.succ_pos), hrest, range_succ_eq_map,
      map_cons, map_map]
    rfl

theorem rangeLoop_eq_none (hin : ∀ j, next^[j] v ≤ hi) (fuel : Nat) :
    rangeLoop next hi fuel v = none := by
  induction fuel generalizing v with
  | zero => rfl
  | succ fuel ih =>
    have hrest := ih (v := next v) fun j ↦ hin (j + 1)
    rw [rangeLoop, if_pos (show v ≤ hi from hin 0), hrest]
    rfl

end Fuel

/-- What holds of comparisons of `double`, `NaN` included. -/
class DoubleOrder (F : Type u) [LE F] [LT F] : Prop where
  lt_irrefl : ∀ a : F, ¬ a < a
  lt_trans : ∀ {a b c : F}, a < b → b < c → a < c
  le_of_lt : ∀ {a b : F}, a < b → a ≤ b

variable [LT F]

/-- From `v` on, every value up to `hi` that the loop reaches is less than the next one. -/
def Grows (next : F → F) (hi v : F) : Prop :=
  ∀ k, (∀ j ≤ k, next^[j] v ≤ hi) → next^[k] v < next^[k + 1] v

variable [DoubleOrder F]

theorem Grows.lt (h : Grows next hi v) {k : Nat} (hin : ∀ j < k, next^[j] v ≤ hi) {i j : Nat}
    (hij : i < j) (hj : j ≤ k) : next^[i] v < next^[j] v := by
  induction j with
  | zero => exact absurd hij (Nat.not_lt_zero i)
  | succ j ih =>
    have hlast := h j fun m hm ↦ hin m (hm.trans_lt hj)
    rcases Nat.lt_succ_iff_lt_or_eq.mp hij with hlt | rfl
    · exact DoubleOrder.lt_trans (ih hlt (Nat.le_of_succ_le hj)) hlast
    · exact hlast

end

section Ranges

variable [Zero F] [One F] [NatCast F] [Add F] [Mul F] [Div F] [LE F] [LT F] [DecidableLE F]
  [DecidableLT F] [CMath F]

def rangeEps : F := (1 : ℕ) / (1000000000 : ℕ)

def rangeEnd (max : F) : F := max + rangeEps * stdMax 1 (fabs max)

def rangeNext (step : F) (logScale : Bool) (v : F) : F := if logScale then v * step else v + step

def addRange (space : ParameterSpace F) (name : String) (min max step : F) (logScale : Bool)
    (fuel : Nat) : Option (ParameterSpace F) :=
  if step ≤ 0 ∨ max < min then some (space.addGrid name [])
  else if logScale = true ∧ step ≤ 1 then some (space.addGrid name [])
  else (rangeLoop (rangeNext step logScale) (rangeEnd max) fuel min).map (space.addGrid name)

end Ranges

/-! ### Exact arithmetic -/

section

variable [Field F] [LinearOrder F] [IsStrictOrderedRing F] [CMath F]
  {min max step : F} {logScale : Bool}

theorem le_rangeEnd (max : F) : max ≤ rangeEnd max := by
  rw [rangeEnd, stdMax_eq_max]
  refine le_add_of_nonneg_right (mul_nonneg ?_ (zero_le_one.trans (le_max_left _ _)))
  exact div_nonneg (Nat.cast_nonneg _) (Nat.cast_nonneg _)

/-- In exact arithmetic the loop passes every bound, unless it multiplies and does not start
above zero. -/
theorem addRange_returns_iff [Archimedean F] (space : ParameterSpace F) (name : String)
    (hstep : ¬ (step ≤ 0 ∨ max < min)) (hlog : ¬ (logScale = true ∧ step ≤ 1)) :
    (∃ fuel, (addRange space name min max step logScale fuel).isSome) ↔
      (logScale = true → 0 < min) := by
  obtain ⟨hpos, hle⟩ := not_or.mp hstep
  have hend : min ≤ rangeEnd max := (not_lt.mp hle).trans (le_rangeEnd max)
  have hadd : ∀ fuel, addRange space name min max step logScale fuel =
      (rangeLoop (rangeNext step logScale) (rangeEnd max) fuel min).map (space.addGrid name) :=
    fun fuel ↦ by rw [addRange, if_neg hstep, if_neg hlog]
  have hpasses : (∃ k, rangeEnd max < (rangeNext step logScale)^[k] min) →
      ∃ fuel, (addRange space name min max step logScale fuel).isSome := by
    intro hex
    classical
    refine ⟨Nat.find hex + 1, ?_⟩
    rw [hadd, rangeLoop_eq (k := Nat.find hex) (fun j hj ↦ not_lt.mp (Nat.find_min hex hj))
      (not_le.mpr (Nat.find_spec hex)) (Nat.lt_succ_self _)]
    rfl
  cases logScale with
  | false =>
    refine iff_of_true (hpasses ?_) fun h ↦ (by cases h)
    obtain ⟨k, hk⟩ := exists_lt_nsmul (not_le.mp hpos) (rangeEnd max - min)
    refine ⟨k, ?_⟩
    have hiter : (rangeNext step false)^[k] min = min + k • step :=
      congrFun (add_right_iterate step k) min
    rw [hiter]
    exact sub_lt_iff_lt_add'.mp hk
  | true =>
    have hone : 1 < step := not_le.mp fun h ↦ hlog ⟨rfl, h⟩
    have hiter : ∀ k, (rangeNext step true)^[k] min = min * step ^ k :=
      fun k ↦ congrFun (mul_right_iterate step k) min
    constructor
    · rintro ⟨fuel, hfuel⟩ -
      by_contra hmin
      have hnone : rangeLoop (rangeNext step true) (rangeEnd max) fuel min = none :=
        rangeLoop_eq_none (fun j ↦ by
          rw [hiter]
          exact (mul_le_of_one_le_right (not_lt.mp hmin) (one_le_pow₀ hone.le)).trans hend) fuel
      rw [hadd, hnone] at hfuel
      cases hfuel
    · intro hmin
      obtain ⟨k, hk⟩ := pow_unbounded_of_one_lt (rangeEnd max / min) hone
      refine hpasses ⟨k, ?_⟩
      rw [hiter]
      exact (div_lt_iff₀' (hmin rfl)).mp hk

end

/-- The whole numbers up to 30 and an infinity, with saturating operations. -/
structure Coarse where
  code : Fin 32
deriving DecidableEq

namespace Coarse

def ofNat (n : Nat) : Coarse := ⟨⟨min n 31, Nat.lt_succ_of_le (Nat.min_le_right n 31)⟩⟩

instance coarseZero : Zero Coarse := ⟨ofNat 0⟩
instance coarseOne : One Coarse := ⟨ofNat 1⟩
instance coarseNatCast : NatCast Coarse := ⟨ofNat⟩
instance coarseAdd : Add Coarse := ⟨fun a b ↦ ofNat (a.code + b.code)⟩
instance coarseMul : Mul Coarse := ⟨fun a b ↦ ofNat (a.code * b.code)⟩
instance coarseDiv : Div Coarse := ⟨fun a b ↦ ofNat (a.code / b.code)⟩
instance coarseLE : LE Coarse := ⟨fun a b ↦ a.code ≤ b.code⟩
instance coarseLT : LT Coarse := ⟨fun a b ↦ a.code < b.code⟩
instance coarseDecidableLE : DecidableLE Coarse :=
  fun a b ↦ inferInstanceAs (Decidable (a.code ≤ b.code))
instance coarseDecidableLT : DecidableLT Coarse :=
  fun a b ↦ inferInstanceAs (Decidable (a.code < b.code))
instance coarseCMath : CMath Coarse := ⟨id, fun a ↦ ofNat a.code.val.sqrt,
  fun a b ↦ ofNat (a.code ^ b.code.val), ofNat 31⟩
instance coarseOrder : DoubleOrder Coarse := ⟨fun a ↦ lt_irrefl a.code,
  fun hab hbc ↦ Nat.lt_trans hab hbc, fun hab ↦ Nat.le_of_lt hab⟩
instance coarseFinite : Finite Coarse := Finite.of_injective code fun a b h ↦ by
  cases a
  cases b
  exact congrArg mk h

end Coarse

end ParameterSpace

end Qros.Quant.Research
