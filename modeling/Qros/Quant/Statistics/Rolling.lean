import Mathlib.Algebra.Order.BigOperators.Group.List
import Qros.Lib.Rolling
import Qros.Quant.Arith

/-!
# Rolling statistics

`src/statistics/rolling.cpp`.  The fast functions keep the sums of a window while it slides; the
reference computes the mean of each window and then its squared deviations.  In exact arithmetic
the sums are those of the window (`sums_eq`), so the two agree wherever the clamp of the fast
functions does not set the value to zero (`rolling_eq_twoPass`).
-/

universe u

namespace Qros.Quant.RollingWindow

open Qros.Lib List

variable {F : Type u}

section Source

variable [Zero F] [NatCast F] [IntCast F] [Add F] [Sub F] [Mul F] [Div F] [LT F] [LE F]
  [DecidableLT F] [DecidableLE F] [CMath F]

structure Sums (F : Type u) where
  sum : F
  sumSq : F

def Sums.zero : Sums F := ⟨0, 0⟩

def Sums.add (s : Sums F) (x : F) : Sums F := ⟨s.sum + x, s.sumSq + x * x⟩

def Sums.drop (s : Sums F) (x : F) : Sums F := ⟨s.sum - x, s.sumSq - x * x⟩

def epsilon : F := ((1 : Nat) : F) / ((4503599627370496 : Nat) : F)

def checkWindow (data : List F) (window : Nat) : Result Unit :=
  if window = 0 then .error ⟨.invalidArgument, "window must be > 0"⟩
  else if data.length < window then
    .error ⟨.insufficientData, "window size exceeds data length"⟩
  else .ok ()

def check (data : List F) (window : Nat) (ddof : Int) : Result Unit := do
  checkWindow data window
  if ddof < 0 ∨ window ≤ ddof.toNat then
    throw ⟨.invalidArgument, "ddof must be in [0, window)"⟩

def varOf (win denom s s2 : F) : F :=
  let numerator := s2 - s * s / win
  let scale := s2 + s * s / win
  if 0 < scale ∧ numerator ≤ epsilon * ((8 : Nat) : F) * scale then 0
  else
    let var := numerator / denom
    if 0 < var then var else 0

def volOf (win denom s s2 : F) : F :=
  let numerator := s2 - s * s / win
  let scale := s2 + s * s / win
  if 0 < scale ∧ numerator ≤ epsilon * ((8 : Nat) : F) * scale then 0
  else
    let var := numerator / denom
    if 0 < var then CMath.sqrt var else 0

/-- The loop of `variance` and `volatility`. -/
def rollingOf (of : F → F → F → F → F) (data : List F) (window : Nat) (ddof : Int) :
    Result (List F) :=
  match check data window ddof with
  | .error e => .error e
  | .ok () =>
    let win : F := window
    let denom := win - ddof
    .ok ((slide Sums.add Sums.drop Sums.zero window data).map fun s ↦ of win denom s.sum s.sumSq)

def volatility (data : List F) (window : Nat) (ddof : Int) : Result (List F) :=
  rollingOf volOf data window ddof

def variance (data : List F) (window : Nat) (ddof : Int) : Result (List F) :=
  rollingOf varOf data window ddof

/-- `mean` of one window of the reference. -/
def meanOf (win : F) (xs : List F) : F := xs.foldl (· + ·) 0 / win

/-- `acc` of one window of the reference. -/
def devOf (win : F) (xs : List F) : F :=
  let mean := meanOf win xs
  xs.foldl (fun acc x ↦ let d := x - mean; acc + d * d) 0

/-- `var` of one window of the reference. -/
def twoPassVariance (win denom : F) (xs : List F) : F := devOf win xs / denom

/-- The value the reference writes for one window. -/
def twoPassVolatility (win denom : F) (xs : List F) : F :=
  let var := twoPassVariance win denom xs
  if 0 < var then CMath.sqrt var else 0

def volatilityReference (data : List F) (window : Nat) (ddof : Int) : Result (List F) :=
  match check data window ddof with
  | .error e => .error e
  | .ok () =>
    let win : F := window
    let denom := win - ddof
    .ok ((windows window data).map (twoPassVolatility win denom))

end Source

/-! ## Checks -/

section

variable {data : List F} {window : Nat} {ddof : Int}

theorem checkWindow_eq_ok (hw : 0 < window) (hn : window ≤ data.length) :
    checkWindow data window = .ok () := by
  rw [checkWindow, if_neg (Nat.ne_of_gt hw), if_neg (Nat.not_lt.mpr hn)]

theorem check_eq_ok (hw : 0 < window) (hn : window ≤ data.length) (h0 : 0 ≤ ddof)
    (hd : ddof < window) : check data window ddof = .ok () := by
  have hnot : ¬ (ddof < 0 ∨ window ≤ ddof.toNat) := by omega
  unfold check
  rw [checkWindow_eq_ok hw hn, if_neg hnot]
  rfl

theorem length_of_mem_windows {xs : List F} (hn : window ≤ data.length)
    (hx : xs ∈ windows window data) : xs.length = window := by
  obtain ⟨i, hi, rfl⟩ := mem_map.mp hx
  have hi := mem_range.mp hi
  rw [length_window]
  omega

end

/-! ## Exact arithmetic -/

section

variable [Field F] {data : List F} {window : Nat} {ddof : Int}

theorem foldl_add_eq (xs : List F) (s : F) : xs.foldl (· + ·) s = s + xs.sum := by
  induction xs generalizing s with
  | nil => exact (add_zero s).symm
  | cons x xs ih => rw [foldl_cons, ih, sum_cons, add_assoc]

theorem foldl_sums_eq (xs : List F) (s : Sums F) :
    xs.foldl Sums.add s = ⟨s.sum + xs.sum, s.sumSq + (xs.map fun x ↦ x * x).sum⟩ := by
  induction xs generalizing s with
  | nil => simp
  | cons x xs ih =>
    rw [foldl_cons, ih, map_cons, sum_cons, sum_cons, ← add_assoc,
      ← add_assoc]
    rfl

theorem drops_sums : Drops Sums.add Sums.drop (Sums.zero : Sums F) := by
  intro a xs
  rw [foldl_sums_eq, foldl_sums_eq, map_cons, sum_cons, sum_cons]
  simp only [Sums.drop, Sums.zero, Sums.mk.injEq]
  constructor <;> ring

theorem sums_eq (hw : 0 < window) (hn : window ≤ data.length) :
    slide Sums.add Sums.drop Sums.zero window data =
      (windows window data).map fun xs ↦ ⟨xs.sum, (xs.map fun x ↦ x * x).sum⟩ := by
  rw [slide_eq_map_windows drops_sums hw hn]
  refine map_congr_left fun xs _ ↦ ?_
  rw [foldl_sums_eq]
  simp only [Sums.zero, zero_add]

theorem devOf_eq_sum (win : F) (xs : List F) : devOf win xs =
    (xs.map fun x ↦ (x - xs.sum / win) * (x - xs.sum / win)).sum := by
  have hfold : ∀ (m s : F), xs.foldl (fun acc x ↦ acc + (x - m) * (x - m)) s =
      s + (xs.map fun x ↦ (x - m) * (x - m)).sum := by
    intro m
    induction xs with
    | nil => exact fun s ↦ (add_zero s).symm
    | cons x xs ih =>
      intro s
      rw [foldl_cons, ih, map_cons, sum_cons, add_assoc]
  rw [devOf, meanOf, foldl_add_eq, zero_add]
  exact (hfold _ 0).trans (zero_add _)

end

section Order

variable [Field F] [LinearOrder F] [IsStrictOrderedRing F] {data : List F} {window : Nat}
  {ddof : Int}

/-- The scale the clamp compares with: the sum of the squares and the squared sum over the size. -/
def scaleOf (win : F) (xs : List F) : F := (xs.map fun x ↦ x * x).sum + xs.sum * xs.sum / win

theorem devOf_eq_sub {xs : List F} (hx : 0 < xs.length) :
    devOf (xs.length : F) xs = (xs.map fun x ↦ x * x).sum - xs.sum * xs.sum / xs.length := by
  rw [devOf_eq_sum]
  exact sum_sq_dev_eq xs (Nat.cast_ne_zero.mpr (Nat.ne_of_gt hx))

theorem devOf_nonneg (win : F) (xs : List F) : 0 ≤ devOf win xs := by
  rw [devOf_eq_sum]
  refine sum_nonneg fun y hy ↦ ?_
  obtain ⟨x, -, rfl⟩ := mem_map.mp hy
  exact mul_self_nonneg _

theorem scaleOf_nonneg {win : F} (hwin : 0 ≤ win) (xs : List F) : 0 ≤ scaleOf win xs := by
  refine add_nonneg (sum_nonneg fun y hy ↦ ?_) (div_nonneg (mul_self_nonneg _) hwin)
  obtain ⟨x, -, rfl⟩ := mem_map.mp hy
  exact mul_self_nonneg x

theorem epsilon_pos : (0 : F) < epsilon := by
  unfold epsilon
  positivity

/-- The window is one whose squared deviations the clamp keeps. -/
def Kept (win : F) (xs : List F) : Prop := epsilon * ((8 : Nat) : F) * scaleOf win xs < devOf win xs

instance (win : F) (xs : List F) : Decidable (Kept win xs) := inferInstanceAs (Decidable (_ < _))

variable {win denom : F} {xs : List F}

theorem devOf_pos_of_kept (hwin : 0 ≤ win) (h : Kept win xs) : 0 < devOf win xs :=
  lt_of_le_of_lt (mul_nonneg (mul_nonneg (le_of_lt epsilon_pos) (Nat.cast_nonneg _))
    (scaleOf_nonneg hwin xs)) h

theorem devOf_le_scaleOf (hx : 0 < xs.length) :
    devOf (xs.length : F) xs ≤ scaleOf (xs.length : F) xs := by
  rw [devOf_eq_sub hx, scaleOf]
  have hsq : 0 ≤ xs.sum * xs.sum / (xs.length : F) :=
    div_nonneg (mul_self_nonneg _) (Nat.cast_nonneg _)
  exact (sub_le_self _ hsq).trans (le_add_of_nonneg_right hsq)

theorem ite_clamp {β : Type*} (hx : 0 < xs.length) (hdenom : 0 < denom) (f : F → β) (zero : β) :
    (if 0 < scaleOf (xs.length : F) xs ∧ devOf (xs.length : F) xs ≤
        epsilon * ((8 : Nat) : F) * scaleOf (xs.length : F) xs then zero
      else if 0 < devOf (xs.length : F) xs / denom then f (devOf (xs.length : F) xs / denom)
        else zero) =
      if Kept (xs.length : F) xs then f (devOf (xs.length : F) xs / denom) else zero := by
  by_cases hkept : Kept (xs.length : F) xs
  · rw [if_neg fun h ↦ absurd hkept (not_lt.mpr h.2), if_pos hkept,
      if_pos (div_pos (devOf_pos_of_kept (Nat.cast_nonneg _) hkept) hdenom)]
  · rw [if_neg hkept]
    split
    · rfl
    · rename_i hclamp
      have hscale : scaleOf (xs.length : F) xs ≤ 0 :=
        not_lt.mp fun hpos ↦ hclamp ⟨hpos, not_lt.mp hkept⟩
      have hdev : devOf (xs.length : F) xs = 0 :=
        le_antisymm ((devOf_le_scaleOf hx).trans hscale) (devOf_nonneg _ xs)
      rw [hdev, zero_div, if_neg (lt_irrefl 0)]

theorem varOf_eq (hx : 0 < xs.length) (hdenom : 0 < denom) :
    varOf (xs.length : F) denom xs.sum (xs.map fun x ↦ x * x).sum =
      if Kept (xs.length : F) xs then twoPassVariance (xs.length : F) denom xs else 0 := by
  unfold varOf
  rw [← devOf_eq_sub hx]
  exact ite_clamp hx hdenom id 0

theorem volOf_eq [CMath F] (hx : 0 < xs.length) (hdenom : 0 < denom) :
    volOf (xs.length : F) denom xs.sum (xs.map fun x ↦ x * x).sum =
      if Kept (xs.length : F) xs then twoPassVolatility (xs.length : F) denom xs else 0 := by
  unfold volOf
  rw [← devOf_eq_sub hx]
  refine (ite_clamp hx hdenom CMath.sqrt 0).trans (if_ctx_congr Iff.rfl (fun hkept ↦ ?_) fun _ ↦ rfl)
  exact (if_pos (div_pos (devOf_pos_of_kept (Nat.cast_nonneg _) hkept) hdenom)).symm

/-! ## The fast functions and the two passes -/

omit [IsStrictOrderedRing F] in
theorem ite_kept_eq {value : F} (hx : devOf win xs = 0 → value = 0)
    (h : devOf win xs = 0 ∨ Kept win xs) : (if Kept win xs then value else 0) = value := by
  split
  · rfl
  · rename_i hkept
    exact (hx (h.resolve_right hkept)).symm

omit [IsStrictOrderedRing F] in
theorem twoPassVolatility_eq_zero [CMath F] (h : devOf win xs = 0) :
    twoPassVolatility win denom xs = 0 := by
  unfold twoPassVolatility twoPassVariance
  rw [h, zero_div]
  exact if_neg (lt_irrefl 0)

theorem denom_pos (hd : ddof < window) : (0 : F) < (window : F) - (ddof : F) := by
  rw [sub_pos, ← Int.cast_natCast]
  exact Int.cast_lt.mpr hd

theorem rollingOf_eq {of : F → F → F → F → F} {twoPass : F → F → List F → F} (hw : 0 < window)
    (hn : window ≤ data.length) (h0 : 0 ≤ ddof) (hd : ddof < window)
    (hof : ∀ (xs : List F) (denom : F), 0 < xs.length → 0 < denom →
      of (xs.length : F) denom xs.sum (xs.map fun x ↦ x * x).sum =
        if Kept (xs.length : F) xs then twoPass (xs.length : F) denom xs else 0) :
    rollingOf of data window ddof = .ok ((windows window data).map fun xs ↦
      if Kept (window : F) xs then twoPass window (window - ddof) xs else 0) := by
  rw [rollingOf, check_eq_ok hw hn h0 hd]
  refine congrArg Except.ok ?_
  rw [sums_eq hw hn, map_map]
  refine map_congr_left fun xs hxs ↦ ?_
  have hlen := length_of_mem_windows hn hxs
  have hxs := hof xs ((window : F) - ddof) (hlen ▸ hw) (denom_pos hd)
  rw [hlen] at hxs
  exact hxs

variable [CMath F]

/-- The rolling functions are the two-pass values of every window. -/
def EqualsTwoPass (data : List F) (window : Nat) (ddof : Int) : Prop :=
  variance data window ddof =
      .ok ((windows window data).map (twoPassVariance window ((window : F) - ddof))) ∧
    volatility data window ddof = volatilityReference data window ddof

/-- **The rolling functions are the two-pass values wherever the clamp keeps them.**  At every
position the squared deviations of the window are zero, or above the clamp and the values are equal,
or the clamp makes both values zero. -/
theorem rolling_eq_twoPass (data : List F) (window : Nat) (ddof : Int) (hw : 0 < window)
    (hn : window ≤ data.length) (h0 : 0 ≤ ddof) (hd : ddof < window) :
    ∃ vs us rs, variance data window ddof = .ok vs ∧ volatility data window ddof = .ok us ∧
      volatilityReference data window ddof = .ok rs ∧
      vs.length = data.length + 1 - window ∧ us.length = vs.length ∧ rs.length = vs.length ∧
      ∀ i < vs.length,
        ((devOf (window : F) (Lib.window window data i) = 0 ∨
            epsilon * ((8 : Nat) : F) * scaleOf (window : F) (Lib.window window data i) <
              devOf (window : F) (Lib.window window data i)) →
          vs[i]? = some (twoPassVariance (window : F) ((window : F) - (ddof : F))
            (Lib.window window data i)) ∧
            us[i]? = rs[i]?) ∧
        (devOf (window : F) (Lib.window window data i) ≤
            epsilon * ((8 : Nat) : F) * scaleOf (window : F) (Lib.window window data i) →
          vs[i]? = some 0 ∧ us[i]? = some 0) := by
  have hreference : volatilityReference data window ddof =
      .ok ((windows window data).map (twoPassVolatility window ((window : F) - ddof))) := by
    rw [volatilityReference, check_eq_ok hw hn h0 hd]
  refine ⟨_, _, _, rollingOf_eq hw hn h0 hd fun xs denom hx hdenom ↦ varOf_eq hx hdenom,
    rollingOf_eq hw hn h0 hd fun xs denom hx hdenom ↦ volOf_eq hx hdenom, hreference, ?_, ?_, ?_, ?_⟩
  · rw [length_map, length_windows]
  · rw [length_map, length_map]
  · rw [length_map, length_map]
  · intro i hi
    rw [length_map, length_windows] at hi
    simp only [getElem?_map, getElem?_windows, if_pos hi, Option.map_some, Option.some.injEq]
    constructor
    · intro h
      exact ⟨ite_kept_eq (fun hzero ↦ by rw [twoPassVariance, hzero, zero_div]) h,
        ite_kept_eq twoPassVolatility_eq_zero h⟩
    · intro h
      exact ⟨if_neg (not_lt.mpr h), if_neg (not_lt.mpr h)⟩

end Order

/-! ## Runs -/

/-- Windows without a spread and with one. -/
theorem rolling_sample :
    variance ([2, 2, 4] : List ℚ) 2 1 = .ok [0, 2] ∧
      ∃ vs us rs, variance ([2, 2, 4] : List ℚ) 2 1 = .ok vs ∧
        volatility ([2, 2, 4] : List ℚ) 2 1 = .ok us ∧
        volatilityReference ([2, 2, 4] : List ℚ) 2 1 = .ok rs ∧ vs.length = 2 :=
  ⟨by decide +kernel, by
    obtain ⟨vs, us, rs, hv, hu, hr, hlen, -⟩ :=
      rolling_eq_twoPass ([2, 2, 4] : List ℚ) 2 1 (by decide) (by decide) (by decide) (by decide)
    exact ⟨vs, us, rs, hv, hu, hr, hlen⟩⟩

/-- Two large numbers that differ by one have a variance of one half, which the clamp takes. -/
theorem rolling_clamped : ¬ EqualsTwoPass ([100000000, 100000001] : List ℚ) 2 1 := by
  rintro ⟨h, -⟩
  exact absurd h (by decide +kernel)

end Qros.Quant.RollingWindow
