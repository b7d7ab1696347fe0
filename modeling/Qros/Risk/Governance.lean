import Qros.Python.Float
import Qros.Python.Builtins

/-!
# Pre-trade risk

`evaluate_pretrade_risk` of `researchos/risk/governance.py` with the account state and
the limits that it checks.  `with_audit_hash` writes the decision as JSON without `nan`
and infinities, and raises if it holds one; the digest itself is left out.
-/

namespace Qros.Risk

open Qros.Lib Qros.Python

inductive StrategyRiskState where
  | research | validated | riskReview | paperEligible | deploymentEligible | active | suspended | retired
deriving DecidableEq

namespace StrategyRiskState

def value : StrategyRiskState → String
  | research => "RESEARCH"
  | validated => "VALIDATED"
  | riskReview => "RISK_REVIEW"
  | paperEligible => "PAPER_ELIGIBLE"
  | deploymentEligible => "DEPLOYMENT_ELIGIBLE"
  | active => "ACTIVE"
  | suspended => "SUSPENDED"
  | retired => "RETIRED"

def all : List StrategyRiskState :=
  [research, validated, riskReview, paperEligible, deploymentEligible, active, suspended, retired]

def Allowed (s : StrategyRiskState) : Prop := s ∈ [riskReview, paperEligible, deploymentEligible, active]

instance (s : StrategyRiskState) : Decidable s.Allowed := inferInstanceAs (Decidable (_ ∈ _))

end StrategyRiskState

inductive RiskViolationCode where
  | researchInvalid | strategyStateBlocked | killSwitchActive | dailyLossLimit | maxDrawdown
  | maxStrategyLoss | maxTradeRisk | maxPortfolioOpenRisk | maxGrossExposure
  | maxSingleInstrumentExposure | proposedNotionalRequired | riskEquityMismatch
deriving DecidableEq

def RiskViolationCode.value : RiskViolationCode → String
  | researchInvalid => "RESEARCH_INVALID"
  | strategyStateBlocked => "STRATEGY_STATE_BLOCKED"
  | killSwitchActive => "KILL_SWITCH_ACTIVE"
  | dailyLossLimit => "DAILY_LOSS_LIMIT"
  | maxDrawdown => "MAX_DRAWDOWN"
  | maxStrategyLoss => "MAX_STRATEGY_LOSS"
  | maxTradeRisk => "MAX_TRADE_RISK"
  | maxPortfolioOpenRisk => "MAX_PORTFOLIO_OPEN_RISK"
  | maxGrossExposure => "MAX_GROSS_EXPOSURE"
  | maxSingleInstrumentExposure => "MAX_SINGLE_INSTRUMENT_EXPOSURE"
  | proposedNotionalRequired => "PROPOSED_NOTIONAL_REQUIRED"
  | riskEquityMismatch => "RISK_EQUITY_MISMATCH"

section Governance

variable (F : Type)

structure RiskCalculation where
  riskAmount : F
  finalRiskFraction : F

structure RiskLimits where
  maxDailyLossFraction : F
  maxDrawdownFraction : F
  maxStrategyLossFraction : F
  maxTradeLossFraction : F
  targetTradeRiskFraction : F
  maxPortfolioOpenRiskFraction : F
  maxGrossExposureFraction : F
  maxSingleInstrumentExposureFraction : F

structure RiskAccountState where
  dayStartEquity : F
  currentEquity : F
  highWaterMark : F
  strategyReferenceEquity : F
  strategyPnl : F
  openRiskAmount : F
  grossExposure : F
  singleInstrumentExposure : F
  killSwitchActive : Bool
  killSwitchReason : Option String

structure RiskViolation where
  code : RiskViolationCode
  observed : Option F := none
  limit : Option F := none
  detail : Option String := none
deriving DecidableEq

inductive Status where
  | pass | blocked
deriving DecidableEq

structure RiskDecision where
  status : Status
  strategyState : StrategyRiskState
  researchValid : Bool
  dailyLossFraction : F
  drawdownFraction : F
  strategyLossFraction : F
  proposedTradeRiskFraction : F
  projectedOpenRiskFraction : Option F
  projectedGrossExposureFraction : Option F
  projectedSingleInstrumentExposureFraction : Option F
  violations : List (RiskViolation F)
  warnings : List String
deriving DecidableEq

inductive StateArg where
  | state (s : StrategyRiskState)
  | text (s : String)

/-- The arguments of `evaluate_pretrade_risk`. -/
structure Query where
  risk : RiskCalculation F
  account : RiskAccountState F
  limits : RiskLimits F
  proposedNotional : Option F
  strategyState : StateArg
  researchValid : Bool

def coerceStrategyState (upper : String → String) : StateArg → Except String StrategyRiskState
  | .state s => .ok s
  | .text t =>
    found (StrategyRiskState.all.find? fun s ↦ decide (s.value = upper (strip t)))
      ("unsupported strategy risk state: '" ++ t ++ "'")

variable {F} [FloatOps F] [OfScientific F]

def riskTolerance : F := 1e-12

def nearLimitUtilization : F := 0.80

def RiskLimits.default : RiskLimits F where
  maxDailyLossFraction := 0.02
  maxDrawdownFraction := 0.06
  maxStrategyLossFraction := 0.03
  maxTradeLossFraction := 0.005
  targetTradeRiskFraction := 0.0025
  maxPortfolioOpenRiskFraction := 0.01
  maxGrossExposureFraction := 3.0
  maxSingleInstrumentExposureFraction := 1.5

def checkFraction (name : String) (value : F) : Except String Unit :=
  require (isfinite value = true ∧ 0 < value ∧ value ≤ 1) (name ++ " must be finite and in (0, 1]")

def checkPositive (name : String) (value : F) : Except String Unit :=
  require (isfinite value = true ∧ ¬ value ≤ 0) (name ++ " must be finite and positive")

def checkNonNegative (name : String) (value : F) : Except String Unit :=
  require (isfinite value = true ∧ ¬ value < 0) (name ++ " must be finite and non-negative")

def RiskLimits.validate (limits : RiskLimits F) : Except String Unit := do
  checkFraction "max_daily_loss_fraction" limits.maxDailyLossFraction
  checkFraction "max_drawdown_fraction" limits.maxDrawdownFraction
  checkFraction "max_strategy_loss_fraction" limits.maxStrategyLossFraction
  checkFraction "max_trade_loss_fraction" limits.maxTradeLossFraction
  checkFraction "target_trade_risk_fraction" limits.targetTradeRiskFraction
  checkFraction "max_portfolio_open_risk_fraction" limits.maxPortfolioOpenRiskFraction
  require (¬ limits.maxTradeLossFraction < limits.targetTradeRiskFraction)
    "target_trade_risk_fraction must not exceed max_trade_loss_fraction"
  checkPositive "max_gross_exposure_fraction" limits.maxGrossExposureFraction
  checkPositive "max_single_instrument_exposure_fraction" limits.maxSingleInstrumentExposureFraction

namespace RiskAccountState

def validate (account : RiskAccountState F) : Except String Unit := do
  checkPositive "day_start_equity" account.dayStartEquity
  checkPositive "current_equity" account.currentEquity
  checkPositive "high_water_mark" account.highWaterMark
  checkPositive "strategy_reference_equity" account.strategyReferenceEquity
  checkNonNegative "open_risk_amount" account.openRiskAmount
  checkNonNegative "gross_exposure" account.grossExposure
  checkNonNegative "single_instrument_exposure" account.singleInstrumentExposure
  require (¬ (account.killSwitchActive = true ∧
      ((account.killSwitchReason.getD "").isEmpty ∨ (strip (account.killSwitchReason.getD "")).isEmpty)))
    "kill_switch_reason is required when kill_switch_active is True"

def dailyLossFraction (account : RiskAccountState F) : F :=
  max 0 ((account.dayStartEquity - account.currentEquity) / account.dayStartEquity)

def drawdownFraction (account : RiskAccountState F) : F :=
  max 0 ((account.highWaterMark - account.currentEquity) / account.highWaterMark)

def strategyLossFraction (account : RiskAccountState F) : F :=
  max 0 (-account.strategyPnl / account.strategyReferenceEquity)

end RiskAccountState

def nearLimitWarning (name : String) (observed limit : F) : Option String :=
  if limit ≤ 0 ∨ ¬ observed < limit then none
  else if nearLimitUtilization * limit ≤ observed then some (name ++ ": utilization >= 80%")
  else none

/-- A hard check fails. -/
def Reached (observed limit : F) : Prop := limit ≤ observed + riskTolerance

instance (observed limit : F) : Decidable (Reached observed limit) :=
  inferInstanceAs (Decidable (_ ≤ _))

namespace Query

variable (q : Query F)

def proposedRiskFraction : F := q.risk.riskAmount / q.account.currentEquity

/-- The notional, if it is positive or `nan`. -/
def notional : Option F := q.proposedNotional.filter fun n ↦ decide (¬ n ≤ 0)

def projectedOpenRisk : Option F :=
  q.notional.map fun _ ↦ (q.account.openRiskAmount + q.risk.riskAmount) / q.account.currentEquity

def projectedGross : Option F :=
  q.notional.map fun n ↦ (q.account.grossExposure + n) / q.account.currentEquity

def projectedSingle : Option F :=
  q.notional.map fun n ↦ (q.account.singleInstrumentExposure + n) / q.account.currentEquity

def expectedRiskAmount : F := q.account.currentEquity * q.risk.finalRiskFraction

/-- The risk amount is not that of the fraction. -/
def Mismatch : Prop :=
  riskTolerance * max q.account.currentEquity 1 < abs (q.risk.riskAmount - q.expectedRiskAmount)

instance : Decidable q.Mismatch := inferInstanceAs (Decidable (_ < _))

def hardChecks : List (RiskViolationCode × Option F × F) := [
  (.dailyLossLimit, some q.account.dailyLossFraction, q.limits.maxDailyLossFraction),
  (.maxDrawdown, some q.account.drawdownFraction, q.limits.maxDrawdownFraction),
  (.maxStrategyLoss, some q.account.strategyLossFraction, q.limits.maxStrategyLossFraction),
  (.maxTradeRisk, some q.proposedRiskFraction, q.limits.maxTradeLossFraction),
  (.maxPortfolioOpenRisk, q.projectedOpenRisk, q.limits.maxPortfolioOpenRiskFraction),
  (.maxGrossExposure, q.projectedGross, q.limits.maxGrossExposureFraction),
  (.maxSingleInstrumentExposure, q.projectedSingle, q.limits.maxSingleInstrumentExposureFraction)]

def hardViolation (check : RiskViolationCode × Option F × F) : Option (RiskViolation F) :=
  match check with
  | (code, some observed, limit) =>
    if Reached observed limit then some { code := code, observed := observed, limit := limit } else none
  | (_, none, _) => none

def hardWarning (check : RiskViolationCode × Option F × F) : Option String :=
  match check with
  | (code, some observed, limit) => nearLimitWarning code.value observed limit
  | (_, none, _) => none

/-- The violations, in the order of the checks. -/
def violations (state : StrategyRiskState) : List (RiskViolation F) :=
  (if q.researchValid then [] else [{ code := .researchInvalid }]) ++
  (if state.Allowed then [] else
    [{ code := .strategyStateBlocked, detail := some ("state=" ++ state.value) }]) ++
  (if q.account.killSwitchActive then
    [{ code := .killSwitchActive, detail := q.account.killSwitchReason }] else []) ++
  (if q.notional.isSome then [] else [{ code := .proposedNotionalRequired }]) ++
  (if q.Mismatch then
    [{ code := .riskEquityMismatch, observed := q.risk.riskAmount, limit := q.expectedRiskAmount }]
    else []) ++
  q.hardChecks.filterMap hardViolation

/-- The decision, before it is hashed. -/
def decision (state : StrategyRiskState) : RiskDecision F where
  status := if (q.violations state).isEmpty then .pass else .blocked
  strategyState := state
  researchValid := q.researchValid
  dailyLossFraction := q.account.dailyLossFraction
  drawdownFraction := q.account.drawdownFraction
  strategyLossFraction := q.account.strategyLossFraction
  proposedTradeRiskFraction := q.proposedRiskFraction
  projectedOpenRiskFraction := q.projectedOpenRisk
  projectedGrossExposureFraction := q.projectedGross
  projectedSingleInstrumentExposureFraction := q.projectedSingle
  violations := q.violations state
  warnings := q.hardChecks.filterMap hardWarning

end Query

/-- The floats of the payload that is hashed. -/
def RiskDecision.floats (d : RiskDecision F) : List F :=
  [d.dailyLossFraction, d.drawdownFraction, d.strategyLossFraction, d.proposedTradeRiskFraction] ++
  d.projectedOpenRiskFraction.toList ++ d.projectedGrossExposureFraction.toList ++
  d.projectedSingleInstrumentExposureFraction.toList ++
  d.violations.flatMap fun v ↦ v.observed.toList ++ v.limit.toList

/-- `with_audit_hash`, of which the digest is left out. -/
def RiskDecision.withAuditHash (d : RiskDecision F) : Except String (RiskDecision F) :=
  if ∀ x ∈ d.floats, isfinite x = true then .ok d
  else .error "Out of range float values are not JSON compliant"

def evaluatePretradeRisk (upper : String → String) (q : Query F) : Except String (RiskDecision F) := do
  q.account.validate
  q.limits.validate
  require (isfinite q.risk.riskAmount = true) "risk_amount must be finite"
  require (isfinite q.risk.finalRiskFraction = true) "final_risk_fraction must be finite"
  let state ← coerceStrategyState upper q.strategyState
  (q.decision state).withAuditHash

end Governance

end Qros.Risk
