import Qros.QuantEngine.LinearSolve

/-!
# Regressions

The functions of `quant_engine/econometrics/core.py` that solve normal equations: `adf_test`,
`fit_var` and `engle_granger_cointegration`, for exact numbers.  Square root, logarithm and `pi`
are parameters.
-/

namespace Qros.QuantEngine.Econometrics

open Qros.Lib Matrix

structure MathFunctions (F : Type) where
  sqrt : F → F
  log : F → F
  pi : F

inductive StationarityResult where
  | stationary
  | nonStationary
  | insufficientData
deriving DecidableEq

structure StationarityTestResult (F : Type) where
  statistic : F
  criticalValues : List (String × F)
  pValue : F
  isStationary : Bool
  testName : String
  conclusion : StationarityResult

inductive ModelFamily where
  | ar
  | ma
  | arma
  | arima
  | sarima
  | var
  | garch
  | egarch
  | tgarch
deriving DecidableEq

structure FittedModel (F : Type) where
  family : ModelFamily
  coefficients : List (String × F)
  residuals : List F
  logLikelihood : F
  aic : F
  bic : F
  metadata : List (String × Nat)

structure CointegrationTestResult (F : Type) where
  alpha : F
  beta : F
  adfStatistic : F
  pValue : F
  isCointegrated : Bool
  residuals : List F

variable {F : Type} [Field F] [LinearOrder F] {m k : Nat}

/-- `_solve_linear` of the normal equations, as the three functions call it. -/
def normalCoefficients (X : Matrix (Fin m) (Fin k) F) (y : Fin m → F) : Fin k → F :=
  solveLinear (Xᵀ * X) (Xᵀ *ᵥ y)

def mean (values : List F) : F := if values.length = 0 then 0 else values.sum / values.length

/-- `_var`. -/
def sampleVariance (values : List F) : F :=
  if values.length < 2 then 0
  else (values.map fun v ↦ (v - mean values) ^ 2).sum / ((values.length - 1 : Nat) : F)

/-! ## `adf_test` -/

/-- The number of lagged differences. -/
def adfLags (values : List F) (maxLag : Int) : Nat :=
  (max 0 (min maxLag (((values.length : Int) - 3) / 5))).toNat

/-- The rows of `adf_test`, for `t` from `1 + p` on. -/
def adfDesign (values : List F) (p : Nat) : Matrix (Fin (values.length - (1 + p))) (Fin (p + 2)) F :=
  fun i j ↦
    let t := i.val + (1 + p)
    if j.val = 0 then 1
    else if j.val = 1 then values.getD (t - 1) 0
    else values.getD (t - (j.val - 1)) 0 - values.getD (t - (j.val - 1) - 1) 0

def adfResponse (values : List F) (p : Nat) : Fin (values.length - (1 + p)) → F := fun i ↦
  let t := i.val + (1 + p)
  values.getD t 0 - values.getD (t - 1) 0

def adfCoefficients (values : List F) (maxLag : Int) : Fin (adfLags values maxLag + 2) → F :=
  normalCoefficients (adfDesign values (adfLags values maxLag))
    (adfResponse values (adfLags values maxLag))

def insufficientAdf : StationarityTestResult F where
  statistic := 0
  criticalValues := []
  pValue := 0
  isStationary := false
  testName := "ADF"
  conclusion := .insufficientData

def adfTest (math : MathFunctions F) (values : List F) (maxLag : Int) : StationarityTestResult F :=
  if values.length < 10 then insufficientAdf
  else
    let p := adfLags values maxLag
    let nObs := values.length - (1 + p)
    if nObs < 3 then insufficientAdf
    else
      let X := adfDesign values p
      let Y := adfResponse values p
      let coefs := adfCoefficients values maxLag
      let gamma := coefs 1
      let residuals := fun i ↦ Y i - ∑ j, X i j * coefs j
      let df := max 1 (nObs - (p + 2))
      let residVar := max (tolerance F) ((∑ i, residuals i ^ 2) / (df : F))
      let inverse := matInv (Xᵀ * X)
      let seGamma := math.sqrt (max (tolerance F) (residVar * inverse 1 1))
      let stat := if seGamma ≠ 0 then gamma / seGamma else 0
      let isStationary := decide (stat < -(286 / 100))
      { statistic := stat
        criticalValues := [("1%", -(343 / 100)), ("5%", -(286 / 100)), ("10%", -(257 / 100))]
        pValue := 0
        isStationary
        testName := "ADF"
        conclusion := if isStationary = true then .stationary else .nonStationary }

/-! ## `fit_var` -/

def entry (series : List (List F)) (v t : Nat) : F := (series.getD v []).getD t 0

/-- The rows of `fit_var`: a one, and the `k` series at each of the lags. -/
def varDesign (series : List (List F)) (nObs p : Nat) :
    Matrix (Fin (nObs - p)) (Fin (1 + p * series.length)) F := fun i j ↦
  if j.val = 0 then 1
  else
    let lag := (j.val - 1) / series.length + 1
    entry series ((j.val - 1) % series.length) (i.val + p - lag)

def varResponse (series : List (List F)) (nObs p v : Nat) : Fin (nObs - p) → F := fun i ↦
  entry series v (i.val + p)

def varCoefficients (series : List (List F)) (nObs p v : Nat) : Fin (1 + p * series.length) → F :=
  normalCoefficients (varDesign series nObs p) (varResponse series nObs p v)

/-- The names of the coefficients of equation `v`, in the order of the columns. -/
def varNames (kVars p v : Nat) : List String :=
  s!"var_{v}_const" :: (List.range p).flatMap fun l ↦ (List.range kVars).map fun target ↦
    s!"var_{v}_eq_var_{target}_lag_{l + 1}"

def emptyVar (metadata : List (String × Nat)) : FittedModel F where
  family := .var
  coefficients := []
  residuals := []
  logLikelihood := 0
  aic := 0
  bic := 0
  metadata := metadata

def fitVar (math : MathFunctions F) (series : List (List F)) (p : Nat) :
    Except String (FittedModel F) :=
  if series = [] then .ok (emptyVar [])
  else
    let kVars := series.length
    let nObs := (series.headD []).length
    if series.any (fun s ↦ s.length ≠ nObs) = true then
      .error "All series in multivariate_series must have equal length"
    else if nObs < p + 2 then .ok (emptyVar [("k_vars", kVars), ("p_order", p)])
    else
      let X := varDesign series nObs p
      let coeffs := (List.range kVars).flatMap fun v ↦
        (varNames kVars p v).zip (List.ofFn (varCoefficients series nObs p v))
      let residuals := (List.range kVars).flatMap fun v ↦
        List.ofFn fun i ↦
          varResponse series nObs p v i - ∑ j, X i j * varCoefficients series nObs p v j
      let resVar := if residuals = [] then 1 else sampleVariance residuals
      let logLik :=
        if 0 < resVar then -(1 / 2) * nObs * kVars * (math.log (2 * math.pi * resVar) + 1) else 0
      let numParams := kVars * (1 + kVars * p)
      .ok {
        family := .var
        coefficients := coeffs
        residuals
        logLikelihood := logLik
        aic := 2 * (numParams : F) - 2 * logLik
        bic := (numParams : F) * math.log (nObs : F) - 2 * logLik
        metadata := [("k_vars", kVars), ("p_order", p)] }

/-! ## `engle_granger_cointegration` -/

def lineDesign (x : List F) : Matrix (Fin x.length) (Fin 2) F := fun i j ↦
  if j = 0 then 1 else x.get i

def lineResponse (y x : List F) : Fin x.length → F := fun i ↦ y.getD i 0

def lineCoefficients (y x : List F) : Fin 2 → F :=
  normalCoefficients (lineDesign x) (lineResponse y x)

def engleGrangerCointegration (math : MathFunctions F) (y x : List F) (maxLag : Int) :
    Except String (CointegrationTestResult F) :=
  if y.length ≠ x.length then .error "y and x must have equal length"
  else if y.length < 10 then .ok ⟨0, 0, 0, 0, false, []⟩
  else
    let coefs := lineCoefficients y x
    let alpha := coefs 0
    let beta := coefs 1
    let residuals := List.ofFn fun i ↦ lineResponse y x i - (alpha + beta * x.get i)
    let adf := adfTest math residuals maxLag
    let varY := sampleVariance y
    let varRes := sampleVariance residuals
    .ok {
      alpha
      beta
      adfStatistic := adf.statistic
      pValue := adf.pValue
      isCointegrated := adf.isStationary || decide (adf.statistic < -(257 / 100)) ||
        (decide (0 < varY) && decide (varRes / varY < 5 / 100))
      residuals }

/-! ## Exactness -/

section

variable [IsStrictOrderedRing F]

/-- The coefficients are those of least squares just when no pivot of the normal equations is below
the tolerance, or they are all zero. -/
theorem normalCoefficients_iff (X : Matrix (Fin m) (Fin k) F) (y : Fin m → F) :
    MinimizesError X y (normalCoefficients X y) ↔
      Xᵀ *ᵥ y = 0 ∨ PivotsLarge (List.finRange k) (Xᵀ * X) := by
  rw [minimizesError_iff, normalCoefficients]
  exact solveLinear_iff _ _

variable (F) in
/-- **The solvers are exact** just when no pivot is below the tolerance. -/
theorem solvers_exact_iff :
    (∀ (n : Nat) (A : Matrix (Fin n) (Fin n) F) (b : Fin n → F),
      A *ᵥ solveLinear A b = b ↔ b = 0 ∨ PivotsLarge (List.finRange n) A) ∧
    (∀ (n : Nat) (A : Matrix (Fin n) (Fin n) F), IsUnit A.det →
      (matInv A = A⁻¹ ↔ PivotsLarge (List.finRange n) A)) ∧
    (∀ (values : List F) (maxLag : Int),
      let X := adfDesign values (adfLags values maxLag)
      let y := adfResponse values (adfLags values maxLag)
      MinimizesError X y (adfCoefficients values maxLag) ↔
        Xᵀ *ᵥ y = 0 ∨ PivotsLarge (List.finRange _) (Xᵀ * X)) ∧
    (∀ (series : List (List F)) (nObs p v : Nat),
      let X := varDesign series nObs p
      let y := varResponse series nObs p v
      MinimizesError X y (varCoefficients series nObs p v) ↔
        Xᵀ *ᵥ y = 0 ∨ PivotsLarge (List.finRange _) (Xᵀ * X)) ∧
    (∀ y x : List F,
      let X := lineDesign x
      MinimizesError X (lineResponse y x) (lineCoefficients y x) ↔
        Xᵀ *ᵥ lineResponse y x = 0 ∨ PivotsLarge (List.finRange _) (Xᵀ * X)) :=
  ⟨fun _ A b ↦ solveLinear_iff A b, fun _ _ hA ↦ matInv_iff hA,
    fun _ _ ↦ normalCoefficients_iff _ _, fun _ _ _ _ ↦ normalCoefficients_iff _ _,
    fun _ _ ↦ normalCoefficients_iff _ _⟩

end

/-! ### One equation -/

/-- A small equation is given up: zero is no solution. -/
theorem small_equation_unsolved :
    let a : ℚ := 1 / 10000000000000
    IsUnit (!![a] : Matrix (Fin 1) (Fin 1) ℚ).det ∧ !![a] *ᵥ solveLinear !![a] ![a] ≠ ![a] := by
  refine ⟨?_, by decide +kernel⟩
  rw [Matrix.det_fin_one_of, isUnit_iff_ne_zero]
  norm_num

/-- Two is inverted. -/
theorem two_inverted : matInv (!![2] : Matrix (Fin 1) (Fin 1) ℚ) = !![2]⁻¹ := by
  refine ((solvers_exact_iff ℚ).2.1 1 !![2] ?_).mpr ⟨?_, trivial⟩
  · rw [Matrix.det_fin_one_of, isUnit_iff_ne_zero]
    norm_num
  · decide +kernel

end Qros.QuantEngine.Econometrics
