import Mathlib.Tactic.Linarith
import Qros.Risk.Governance

/-!
# The gate of pre-trade risk

A query passes just when it is `Clear`.  A `nan` among the numbers of the decision makes
the evaluation raise, except that of `strategy_pnl`: `max(0.0, nan)` is `0.0`, so the
strategy loss of an unknown profit is none.  Nor is a negative risk amount rejected.

Raising a loss, a risk or an exposure raises each rounded fraction, except that of
`(reference - equity) / reference`, whose rounding errors may lower it
(`pretrade_risk_iff`); in exact arithmetic they do not (`blocked_of_raises`).
-/

namespace Qros.Risk

set_option linter.unusedSectionVars false

open Qros.Lib Qros.Python

/-- What is used of the tolerance. -/
class LawfulTolerance (F : Type) [FloatOps F] [OfScientific F] : Prop where
  isfinite : isfinite (riskTolerance : F) = true
  nonneg : 0 ≤ (riskTolerance : F)

section Gate

variable {F : Type} [FloatOps F] [OfScientific F] (upper : String → String)

/-! ## What an evaluation says -/

structure Query.Evaluated (q : Query F) (state : StrategyRiskState) (d : RiskDecision F) : Prop where
  account : q.account.validate = .ok ()
  limits : q.limits.validate = .ok ()
  riskAmount : isfinite q.risk.riskAmount = true
  coerced : coerceStrategyState upper q.strategyState = .ok state
  decision : d = q.decision state
  floats : ∀ x ∈ (q.decision state).floats, isfinite x = true

variable {d : RiskDecision F} {q : Query F} {state : StrategyRiskState}

theorem evaluated_of_eq_ok (h : evaluatePretradeRisk upper q = .ok d) :
    ∃ state, q.Evaluated upper state d := by
  obtain ⟨_, haccount, h⟩ := bind_eq_ok.mp h
  obtain ⟨_, hlimits, h⟩ := bind_eq_ok.mp h
  obtain ⟨_, hamount, h⟩ := bind_eq_ok.mp h
  obtain ⟨_, -, h⟩ := bind_eq_ok.mp h
  obtain ⟨state, hstate, h⟩ := bind_eq_ok.mp h
  unfold RiskDecision.withAuditHash at h
  split at h
  · rename_i hfloats
    exact ⟨state, haccount, hlimits, require_eq_ok.mp hamount, hstate, (Except.ok.inj h).symm, hfloats⟩
  · cases h

/-- What the checks of an account say. -/
structure RiskAccountState.Valid (account : RiskAccountState F) : Prop where
  dayStartEquity : isfinite account.dayStartEquity = true ∧ ¬ account.dayStartEquity ≤ 0
  currentEquity : isfinite account.currentEquity = true ∧ ¬ account.currentEquity ≤ 0
  highWaterMark : isfinite account.highWaterMark = true ∧ ¬ account.highWaterMark ≤ 0
  strategyReferenceEquity :
    isfinite account.strategyReferenceEquity = true ∧ ¬ account.strategyReferenceEquity ≤ 0
  openRiskAmount : isfinite account.openRiskAmount = true
  grossExposure : isfinite account.grossExposure = true
  singleInstrumentExposure : isfinite account.singleInstrumentExposure = true

theorem RiskAccountState.valid_of_eq_ok {account : RiskAccountState F}
    (h : account.validate = .ok ()) : account.Valid := by
  obtain ⟨_, h₁, h⟩ := bind_eq_ok.mp h
  obtain ⟨_, h₂, h⟩ := bind_eq_ok.mp h
  obtain ⟨_, h₃, h⟩ := bind_eq_ok.mp h
  obtain ⟨_, h₄, h⟩ := bind_eq_ok.mp h
  obtain ⟨_, h₅, h⟩ := bind_eq_ok.mp h
  obtain ⟨_, h₆, h⟩ := bind_eq_ok.mp h
  obtain ⟨_, h₇, -⟩ := bind_eq_ok.mp h
  exact ⟨require_eq_ok.mp h₁, require_eq_ok.mp h₂, require_eq_ok.mp h₃, require_eq_ok.mp h₄,
    (require_eq_ok.mp h₅).1, (require_eq_ok.mp h₆).1, (require_eq_ok.mp h₇).1⟩

/-- The limits of the hard checks are finite. -/
structure RiskLimits.Valid (limits : RiskLimits F) : Prop where
  maxDailyLossFraction : isfinite limits.maxDailyLossFraction = true
  maxDrawdownFraction : isfinite limits.maxDrawdownFraction = true
  maxStrategyLossFraction : isfinite limits.maxStrategyLossFraction = true
  maxTradeLossFraction : isfinite limits.maxTradeLossFraction = true
  maxPortfolioOpenRiskFraction : isfinite limits.maxPortfolioOpenRiskFraction = true
  maxGrossExposureFraction : isfinite limits.maxGrossExposureFraction = true
  maxSingleInstrumentExposureFraction : isfinite limits.maxSingleInstrumentExposureFraction = true

theorem RiskLimits.valid_of_eq_ok {limits : RiskLimits F} (h : limits.validate = .ok ()) :
    limits.Valid := by
  obtain ⟨_, h₁, h⟩ := bind_eq_ok.mp h
  obtain ⟨_, h₂, h⟩ := bind_eq_ok.mp h
  obtain ⟨_, h₃, h⟩ := bind_eq_ok.mp h
  obtain ⟨_, h₄, h⟩ := bind_eq_ok.mp h
  obtain ⟨_, -, h⟩ := bind_eq_ok.mp h
  obtain ⟨_, h₅, h⟩ := bind_eq_ok.mp h
  obtain ⟨_, -, h⟩ := bind_eq_ok.mp h
  obtain ⟨_, h₆, h₇⟩ := bind_eq_ok.mp h
  exact ⟨(require_eq_ok.mp h₁).1, (require_eq_ok.mp h₂).1, (require_eq_ok.mp h₃).1,
    (require_eq_ok.mp h₄).1, (require_eq_ok.mp h₅).1, (require_eq_ok.mp h₆).1,
    (require_eq_ok.mp h₇).1⟩

/-! ## Queries that pass -/

/-- No check blocks. -/
structure Query.Clear (q : Query F) : Prop where
  researchValid : q.researchValid = true
  state : ∃ state, coerceStrategyState upper q.strategyState = .ok state ∧ state.Allowed
  killSwitch : q.account.killSwitchActive = false
  notional : q.notional.isSome = true
  mismatch : ¬ q.Mismatch
  dailyLoss : ¬ Reached q.account.dailyLossFraction q.limits.maxDailyLossFraction
  drawdown : ¬ Reached q.account.drawdownFraction q.limits.maxDrawdownFraction
  strategyLoss : ¬ Reached q.account.strategyLossFraction q.limits.maxStrategyLossFraction
  tradeRisk : ¬ Reached q.proposedRiskFraction q.limits.maxTradeLossFraction
  openRisk : ∀ x ∈ q.projectedOpenRisk, ¬ Reached x q.limits.maxPortfolioOpenRiskFraction
  gross : ∀ x ∈ q.projectedGross, ¬ Reached x q.limits.maxGrossExposureFraction
  single : ∀ x ∈ q.projectedSingle, ¬ Reached x q.limits.maxSingleInstrumentExposureFraction

theorem hardViolation_eq_none {code : RiskViolationCode} {observed : Option F} {limit : F} :
    Query.hardViolation (code, observed, limit) = none ↔ ∀ x ∈ observed, ¬ Reached x limit := by
  cases observed with
  | none => exact iff_of_true rfl nofun
  | some x =>
    unfold Query.hardViolation
    simp

theorem unless_eq_nil {α : Type} {p : Prop} [Decidable p] {a : α} :
    (if p then [] else [a]) = [] ↔ p := by
  split
  · rename_i hp
    exact iff_of_true rfl hp
  · rename_i hp
    exact iff_of_false (List.cons_ne_nil _ _) hp

theorem when_eq_nil {α : Type} {p : Prop} [Decidable p] {a : α} :
    (if p then [a] else []) = [] ↔ ¬ p := by
  split
  · rename_i hp
    exact iff_of_false (List.cons_ne_nil _ _) (not_not_intro hp)
  · rename_i hp
    exact iff_of_true rfl hp

theorem violations_eq_nil (hstate : coerceStrategyState upper q.strategyState = .ok state) :
    q.violations state = [] ↔ q.Clear upper := by
  unfold Query.violations
  simp only [List.append_eq_nil_iff, unless_eq_nil, when_eq_nil, List.filterMap_eq_nil_iff,
    Query.hardChecks, List.forall_mem_cons, hardViolation_eq_none, Option.mem_some_iff, forall_eq']
  constructor
  · rintro ⟨⟨⟨⟨⟨hresearch, hallowed⟩, hkill⟩, hnotional⟩, hmismatch⟩, hdaily, hdrawdown, hstrategy,
      htrade, hopen, hgross, hsingle, -⟩
    exact ⟨hresearch, ⟨state, hstate, hallowed⟩, Bool.eq_false_iff.mpr hkill, hnotional, hmismatch,
      hdaily, hdrawdown, hstrategy, htrade, hopen, hgross, hsingle⟩
  · rintro ⟨hresearch, ⟨state', hstate', hallowed⟩, hkill, hnotional, hmismatch, hdaily, hdrawdown,
      hstrategy, htrade, hopen, hgross, hsingle⟩
    obtain rfl : state = state' := Except.ok.inj (hstate.symm.trans hstate')
    exact ⟨⟨⟨⟨⟨hresearch, hallowed⟩, Bool.eq_false_iff.mp hkill⟩, hnotional⟩, hmismatch⟩, hdaily,
      hdrawdown, hstrategy, htrade, hopen, hgross, hsingle, by simp⟩

theorem pass_iff (h : q.Evaluated upper state d) : d.status = .pass ↔ q.Clear upper := by
  rw [← violations_eq_nil upper h.coerced, h.decision]
  show (if (q.violations state).isEmpty then Status.pass else .blocked) = .pass ↔ _
  rw [← List.isEmpty_iff]
  split
  · rename_i hempty
    exact iff_of_true rfl hempty
  · rename_i hempty
    exact iff_of_false nofun hempty

theorem blocked_iff (h : q.Evaluated upper state d) : d.status = .blocked ↔ ¬ q.Clear upper := by
  rw [← pass_iff upper h]
  cases d.status with
  | pass => exact iff_of_false nofun (not_not_intro rfl)
  | blocked => exact iff_of_true rfl nofun

/-! ## What a pass says -/

/-- The numbers that a pass ought to vouch for. -/
structure Query.FailsClosed (q : Query F) : Prop where
  strategyPnl : IsNumber q.account.strategyPnl
  notional : ∃ n, q.proposedNotional = some n ∧ IsNumber n
  riskAmount : 0 ≤ q.risk.riskAmount
  dailyLoss : q.account.dailyLossFraction < q.limits.maxDailyLossFraction
  drawdown : q.account.drawdownFraction < q.limits.maxDrawdownFraction
  strategyLoss : q.account.strategyLossFraction < q.limits.maxStrategyLossFraction
  tradeRisk : q.proposedRiskFraction < q.limits.maxTradeLossFraction
  openRisk : ∃ x, q.projectedOpenRisk = some x ∧ x < q.limits.maxPortfolioOpenRiskFraction
  gross : ∃ x, q.projectedGross = some x ∧ x < q.limits.maxGrossExposureFraction
  single : ∃ x, q.projectedSingle = some x ∧ x < q.limits.maxSingleInstrumentExposureFraction

variable [LawfulFloat F] [LawfulTolerance F]

open LawfulFloat

theorem lt_of_not_reached {observed limit : F} (hobserved : isfinite observed = true)
    (hlimit : isfinite limit = true) (h : ¬ Reached observed limit) : observed < limit := by
  have hle : observed ≤ observed + riskTolerance :=
    le_add_of_nonneg LawfulTolerance.isfinite LawfulTolerance.nonneg (isNumber_of_isfinite hobserved)
  exact lt_of_le_of_lt hle (lt_of_not_le (right_of_le hle) (isNumber_of_isfinite hlimit) h)

theorem Reached.mono {observed observed' limit : F} (hle : observed ≤ observed')
    (hobserved' : isfinite observed' = true) (hobserved : isfinite observed = true)
    (h : Reached observed limit) : Reached observed' limit := by
  have hnumber := isNumber_of_isfinite (LawfulTolerance.isfinite (F := F))
  exact le_trans h (add_le_add_right (isNumber_add hobserved hnumber)
    (isNumber_add hobserved' hnumber) hle)

structure Query.Finite (q : Query F) : Prop where
  dailyLoss : isfinite q.account.dailyLossFraction = true
  drawdown : isfinite q.account.drawdownFraction = true
  strategyLoss : isfinite q.account.strategyLossFraction = true
  tradeRisk : isfinite q.proposedRiskFraction = true
  openRisk : ∀ x ∈ q.projectedOpenRisk, isfinite x = true
  gross : ∀ x ∈ q.projectedGross, isfinite x = true
  single : ∀ x ∈ q.projectedSingle, isfinite x = true

theorem Query.Evaluated.finite (h : q.Evaluated upper state d) : q.Finite := by
  have hfloats := h.floats
  unfold RiskDecision.floats at hfloats
  simp only [List.forall_mem_append, List.forall_mem_cons] at hfloats
  obtain ⟨⟨⟨⟨⟨hdaily, hdrawdown, hstrategy, htrade, -⟩, hopen⟩, hgross⟩, hsingle⟩, -⟩ := hfloats
  exact ⟨hdaily, hdrawdown, hstrategy, htrade, fun x hx ↦ hopen x (Option.mem_toList.mpr hx),
    fun x hx ↦ hgross x (Option.mem_toList.mpr hx), fun x hx ↦ hsingle x (Option.mem_toList.mpr hx)⟩

theorem notional_of_isSome (h : q.notional.isSome = true) :
    ∃ n, q.notional = some n ∧ q.proposedNotional = some n ∧ ¬ n ≤ 0 := by
  obtain ⟨n, hn⟩ := Option.isSome_iff_exists.mp h
  obtain ⟨hproposed, hpositive⟩ := Option.filter_eq_some_iff.mp hn
  exact ⟨n, hn, hproposed, of_decide_eq_true hpositive⟩

theorem isNumber_notional (hfinite : q.Finite) {n : F} (hn : q.notional = some n) :
    IsNumber n := by
  have hgross : (q.account.grossExposure + n) / q.account.currentEquity ∈ q.projectedGross := by
    unfold Query.projectedGross
    rw [hn]
    rfl
  exact isNumber_of_add (isNumber_of_div (isNumber_of_isfinite (hfinite.gross _ hgross)))

theorem failsClosed_iff (h : q.Evaluated upper state d) (hclear : q.Clear upper) :
    q.FailsClosed ↔ IsNumber q.account.strategyPnl ∧ 0 ≤ q.risk.riskAmount := by
  refine ⟨fun hclosed ↦ ⟨hclosed.strategyPnl, hclosed.riskAmount⟩, ?_⟩
  rintro ⟨hpnl, hamount⟩
  have hfinite := h.finite
  have hlimits := RiskLimits.valid_of_eq_ok h.limits
  obtain ⟨n, hn, hproposed, -⟩ := notional_of_isSome hclear.notional
  refine ⟨hpnl, ⟨n, hproposed, isNumber_notional hfinite hn⟩, hamount,
    lt_of_not_reached hfinite.dailyLoss hlimits.maxDailyLossFraction hclear.dailyLoss,
    lt_of_not_reached hfinite.drawdown hlimits.maxDrawdownFraction hclear.drawdown,
    lt_of_not_reached hfinite.strategyLoss hlimits.maxStrategyLossFraction hclear.strategyLoss,
    lt_of_not_reached hfinite.tradeRisk hlimits.maxTradeLossFraction hclear.tradeRisk, ?_, ?_, ?_⟩
  · have hx : q.projectedOpenRisk = some _ := congrArg (Option.map _) hn
    exact ⟨_, hx, lt_of_not_reached (hfinite.openRisk _ hx) hlimits.maxPortfolioOpenRiskFraction
      (hclear.openRisk _ hx)⟩
  · have hx : q.projectedGross = some _ := congrArg (Option.map _) hn
    exact ⟨_, hx, lt_of_not_reached (hfinite.gross _ hx) hlimits.maxGrossExposureFraction
      (hclear.gross _ hx)⟩
  · have hx : q.projectedSingle = some _ := congrArg (Option.map _) hn
    exact ⟨_, hx, lt_of_not_reached (hfinite.single _ hx) hlimits.maxSingleInstrumentExposureFraction
      (hclear.single _ hx)⟩

/-! ## Raised inputs -/

/-- `q'` is `q` with some losses, risks or exposures raised. -/
structure Query.Raises (q q' : Query F) : Prop where
  risk : q'.risk = q.risk
  limits : q'.limits = q.limits
  strategyState : q'.strategyState = q.strategyState
  researchValid : q'.researchValid = q.researchValid
  currentEquity : q'.account.currentEquity = q.account.currentEquity
  strategyReferenceEquity :
    q'.account.strategyReferenceEquity = q.account.strategyReferenceEquity
  killSwitchActive : q'.account.killSwitchActive = q.account.killSwitchActive
  killSwitchReason : q'.account.killSwitchReason = q.account.killSwitchReason
  dayStartEquity : q.account.dayStartEquity ≤ q'.account.dayStartEquity
  highWaterMark : q.account.highWaterMark ≤ q'.account.highWaterMark
  strategyPnl : q'.account.strategyPnl = q.account.strategyPnl ∨
    q'.account.strategyPnl ≤ q.account.strategyPnl
  openRiskAmount : q.account.openRiskAmount ≤ q'.account.openRiskAmount
  grossExposure : q.account.grossExposure ≤ q'.account.grossExposure
  singleInstrumentExposure :
    q.account.singleInstrumentExposure ≤ q'.account.singleInstrumentExposure
  notional : q'.proposedNotional = q.proposedNotional ∨
    ∃ n n', q.proposedNotional = some n ∧ q'.proposedNotional = some n' ∧ 0 < n ∧ n ≤ n'

theorem positive_of_not_le {x : F} (h : isfinite x = true ∧ ¬ x ≤ 0) : 0 < x :=
  lt_of_not_le (isNumber_of_isfinite isfinite_zero) (isNumber_of_isfinite h.1) h.2

theorem notional_of_raises {q q' : Query F} (hraises : q.Raises q') {n' : F}
    (hn' : q'.notional = some n') : ∃ n, q.notional = some n ∧ (n = n' ∨ n ≤ n') := by
  rcases hraises.notional with heq | ⟨n, m', hn, hm', hpositive, hle⟩
  · refine ⟨n', ?_, .inl rfl⟩
    unfold Query.notional at hn' ⊢
    rwa [heq] at hn'
  · obtain ⟨hproposed', -⟩ := Option.filter_eq_some_iff.mp hn'
    obtain rfl : m' = n' := Option.some.inj (hm'.symm.trans hproposed')
    refine ⟨n, ?_, .inr hle⟩
    exact Option.filter_eq_some_iff.mpr ⟨hn, decide_eq_true (lt_iff.mp hpositive).2⟩

theorem strategyLoss_le {q q' : Query F} (hraises : q.Raises q') (hvalid : q.account.Valid)
    (hfinite : q.Finite) : q.account.strategyLossFraction ≤ q'.account.strategyLossFraction := by
  rcases hraises.strategyPnl with heq | hle
  · have hsame : q'.account.strategyLossFraction = q.account.strategyLossFraction := by
      unfold RiskAccountState.strategyLossFraction
      rw [heq, hraises.strategyReferenceEquity]
    rw [hsame]
    exact isNumber_of_isfinite hfinite.strategyLoss
  · refine max_le_max (isNumber_of_isfinite isfinite_zero) ?_
    rw [hraises.strategyReferenceEquity]
    exact div_le_div_right hvalid.strategyReferenceEquity.1
      (positive_of_not_le hvalid.strategyReferenceEquity) (neg_le_neg hle)

theorem exposure_le {e e' n n' c : F} (hc : isfinite c = true ∧ ¬ c ≤ 0) (he : isfinite e = true)
    (he' : isfinite e' = true) (hn : IsNumber n) (hn' : IsNumber n') (hle : e ≤ e')
    (hnotional : n = n' ∨ n ≤ n') : (e + n) / c ≤ (e' + n') / c := by
  refine div_le_div_right hc.1 (positive_of_not_le hc) ?_
  have hraised : e + n ≤ e' + n := add_le_add_right (isNumber_add he hn) (isNumber_add he' hn) hle
  rcases hnotional with rfl | hnn
  · exact hraised
  · exact le_trans hraised (add_le_add_left (isNumber_add he' hn) (isNumber_add he' hn') hnn)

theorem clear_of_raises {q q' : Query F} {state state' : StrategyRiskState} {d d' : RiskDecision F}
    (h : q.Evaluated upper state d) (h' : q'.Evaluated upper state' d') (hraises : q.Raises q')
    (hclear : q'.Clear upper)
    (hdaily : ¬ Reached q.account.dailyLossFraction q.limits.maxDailyLossFraction)
    (hdrawdown : ¬ Reached q.account.drawdownFraction q.limits.maxDrawdownFraction) :
    q.Clear upper := by
  have hvalid := RiskAccountState.valid_of_eq_ok h.account
  have hvalid' := RiskAccountState.valid_of_eq_ok h'.account
  have hfinite := h.finite
  have hfinite' := h'.finite
  obtain ⟨n', hn', -, -⟩ := notional_of_isSome hclear.notional
  obtain ⟨n, hn, hnn⟩ := notional_of_raises hraises hn'
  have hnumber := isNumber_notional hfinite hn
  have hnumber' := isNumber_notional hfinite' hn'
  have hopen : q.projectedOpenRisk = some _ := congrArg (Option.map _) hn
  have hopen' : q'.projectedOpenRisk = some _ := congrArg (Option.map _) hn'
  have hgross : q.projectedGross = some _ := congrArg (Option.map _) hn
  have hgross' : q'.projectedGross = some _ := congrArg (Option.map _) hn'
  have hsingle : q.projectedSingle = some _ := congrArg (Option.map _) hn
  have hsingle' : q'.projectedSingle = some _ := congrArg (Option.map _) hn'
  have hamount := isNumber_of_isfinite h.riskAmount
  have htrade : q'.proposedRiskFraction = q.proposedRiskFraction := by
    unfold Query.proposedRiskFraction
    rw [hraises.risk, hraises.currentEquity]
  refine ⟨hraises.researchValid ▸ hclear.researchValid, hraises.strategyState ▸ hclear.state,
    hraises.killSwitchActive ▸ hclear.killSwitch, ?_, ?_, hdaily, hdrawdown, ?_, ?_, ?_, ?_, ?_⟩
  · rw [hn]
    rfl
  · have hmismatch := hclear.mismatch
    unfold Query.Mismatch Query.expectedRiskAmount at hmismatch ⊢
    rwa [hraises.risk, hraises.currentEquity] at hmismatch
  · rw [← hraises.limits]
    exact fun hreached ↦ hclear.strategyLoss (hreached.mono (strategyLoss_le hraises hvalid hfinite)
      hfinite'.strategyLoss hfinite.strategyLoss)
  · rw [← htrade, ← hraises.limits]
    exact hclear.tradeRisk
  · intro x hx hreached
    rw [← hraises.limits] at hreached
    refine hclear.openRisk _ hopen' (hreached.mono ?_ (hfinite'.openRisk _ hopen') (hfinite.openRisk _ hx))
    obtain rfl := Option.some.inj (hopen.symm.trans hx)
    rw [hraises.currentEquity, hraises.risk]
    exact exposure_le hvalid.currentEquity hvalid.openRiskAmount hvalid'.openRiskAmount hamount hamount
      hraises.openRiskAmount (.inl rfl)
  · intro x hx hreached
    rw [← hraises.limits] at hreached
    refine hclear.gross _ hgross' (hreached.mono ?_ (hfinite'.gross _ hgross') (hfinite.gross _ hx))
    obtain rfl := Option.some.inj (hgross.symm.trans hx)
    rw [hraises.currentEquity]
    exact exposure_le hvalid.currentEquity hvalid.grossExposure hvalid'.grossExposure hnumber hnumber'
      hraises.grossExposure hnn
  · intro x hx hreached
    rw [← hraises.limits] at hreached
    refine hclear.single _ hsingle' (hreached.mono ?_ (hfinite'.single _ hsingle') (hfinite.single _ hx))
    obtain rfl := Option.some.inj (hsingle.symm.trans hx)
    rw [hraises.currentEquity]
    exact exposure_le hvalid.currentEquity hvalid.singleInstrumentExposure
      hvalid'.singleInstrumentExposure hnumber hnumber' hraises.singleInstrumentExposure hnn

/-- Of a query that is evaluated: a pass vouches for its numbers just when, if the query is clear,
the profit is a number and the risk is not negative; and raising inputs turns no block into a pass
just when, if the raised query is clear, neither loss of the other one reaches its limit. -/
theorem pretrade_risk_iff {q : Query F} {d : RiskDecision F}
    (h : evaluatePretradeRisk upper q = .ok d) :
    ((d.status = .pass → q.FailsClosed) ↔
      (q.Clear upper → IsNumber q.account.strategyPnl ∧ 0 ≤ q.risk.riskAmount)) ∧
    ∀ q' d', evaluatePretradeRisk upper q' = .ok d' → q.Raises q' →
      ((d.status = .blocked → d'.status = .blocked) ↔
        (q'.Clear upper →
          ¬ Reached q.account.dailyLossFraction q.limits.maxDailyLossFraction ∧
          ¬ Reached q.account.drawdownFraction q.limits.maxDrawdownFraction)) := by
  obtain ⟨state, h⟩ := evaluated_of_eq_ok upper h
  constructor
  · rw [pass_iff upper h]
    exact forall_congr' fun hclear ↦ failsClosed_iff upper h hclear
  · intro q' d' h' hraises
    obtain ⟨state', h'⟩ := evaluated_of_eq_ok upper h'
    rw [blocked_iff upper h, blocked_iff upper h', not_imp_not]
    constructor
    · intro hmono hclear'
      have hclear := hmono hclear'
      exact ⟨hclear.dailyLoss, hclear.drawdown⟩
    · intro hlosses hclear'
      obtain ⟨hdaily, hdrawdown⟩ := hlosses hclear'
      exact clear_of_raises upper h h' hraises hclear' hdaily hdrawdown

end Gate

/-! ## Exact arithmetic -/

section

instance : LawfulTolerance Extended where
  isfinite := rfl
  nonneg := by
    show (0 : ℚ) ≤ 1e-12
    norm_num

variable {upper : String → String}

theorem loss_le {x x' c : Extended} (hx : isfinite x = true ∧ ¬ x ≤ 0)
    (hx' : isfinite x' = true ∧ ¬ x' ≤ 0) (hc : isfinite c = true ∧ ¬ c ≤ 0) (h : x ≤ x') :
    max 0 ((x - c) / x) ≤ max 0 ((x' - c) / x') := by
  obtain ⟨p, rfl⟩ := Extended.isfinite_iff.mp hx.1
  obtain ⟨p', rfl⟩ := Extended.isfinite_iff.mp hx'.1
  obtain ⟨r, rfl⟩ := Extended.isfinite_iff.mp hc.1
  have hp : 0 < p := not_le.mp hx.2
  have hp' : 0 < p' := not_le.mp hx'.2
  have hr : 0 < r := not_le.mp hc.2
  have hle : p ≤ p' := h
  refine max_le_max (le_refl (0 : ℚ)) ?_
  show Extended.fin (p + -r) / .fin p ≤ Extended.fin (p' + -r) / .fin p'
  rw [Extended.fin_div_fin hp, Extended.fin_div_fin hp', Extended.fin_le_fin,
    div_le_div_iff₀ hp hp']
  have hmul : r * p ≤ r * p' := mul_le_mul_of_nonneg_left hle (le_of_lt hr)
  linarith

theorem blocked_of_raises {q q' : Query Extended} {state state' : StrategyRiskState}
    {d d' : RiskDecision Extended} (h : q.Evaluated upper state d)
    (h' : q'.Evaluated upper state' d') (hraises : q.Raises q') (hblocked : d.status = .blocked) :
    d'.status = .blocked := by
  rw [blocked_iff upper h] at hblocked
  rw [blocked_iff upper h']
  intro hclear'
  have hvalid := RiskAccountState.valid_of_eq_ok h.account
  have hvalid' := RiskAccountState.valid_of_eq_ok h'.account
  have hfinite := h.finite
  have hfinite' := h'.finite
  refine hblocked (clear_of_raises upper h h' hraises hclear' ?_ ?_)
  · intro hreached
    rw [← hraises.limits] at hreached
    refine hclear'.dailyLoss (hreached.mono ?_ hfinite'.dailyLoss hfinite.dailyLoss)
    unfold RiskAccountState.dailyLossFraction
    rw [hraises.currentEquity]
    exact loss_le hvalid.dayStartEquity hvalid'.dayStartEquity hvalid.currentEquity
      hraises.dayStartEquity
  · intro hreached
    rw [← hraises.limits] at hreached
    refine hclear'.drawdown (hreached.mono ?_ hfinite'.drawdown hfinite.drawdown)
    unfold RiskAccountState.drawdownFraction
    rw [hraises.currentEquity]
    exact loss_le hvalid.highWaterMark hvalid'.highWaterMark hvalid.currentEquity
      hraises.highWaterMark

end

/-! ## A query with a profit -/

/-- A trade that risks a quarter of a percent, after the given profit. -/
def quarterPercent (strategyPnl : Extended) : Query Extended where
  risk := ⟨250, 0.0025⟩
  account := ⟨100000, 100000, 100000, 100000, strategyPnl, 0, 0, 0, false, none⟩
  limits := .default
  proposedNotional := some 50000
  strategyState := .state .active
  researchValid := true

theorem pretrade_risk_quarterPercent :
    (((quarterPercent 0).decision .active).status = .pass → (quarterPercent 0).FailsClosed) ↔
      ((quarterPercent 0).Clear id → IsNumber (0 : Extended) ∧ (0 : Extended) ≤ 250) :=
  (pretrade_risk_iff id (q := quarterPercent 0) (by decide +kernel)).1

/-- An unknown profit passes. -/
theorem unknown_profit_passes : ¬ ∀ d, evaluatePretradeRisk id (quarterPercent .nan) = .ok d →
    d.status = .pass → (quarterPercent .nan).FailsClosed := by
  intro h
  have hclosed := h ((quarterPercent .nan).decision .active) (by decide +kernel) (by decide +kernel)
  exact hclosed.strategyPnl

end Qros.Risk
