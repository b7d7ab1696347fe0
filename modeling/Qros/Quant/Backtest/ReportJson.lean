import Qros.Quant.Backtest.EventJson
import Qros.Quant.Backtest.Performance
import Qros.Quant.ExtInt

/-!
# Reports as JSON

`report_to_json` of `src/backtest/serialization.cpp`, which writes the numbers of a report as
`std::to_chars` does.  The reader of the same file accepts the text just when every number of the
report is finite (`report_accepted_iff`); a report without a losing trade has an infinite profit
factor (`not_accepted_of_no_loss`).
-/

universe u

set_option linter.unusedSectionVars false

namespace Qros.Quant.Backtest

open Json CharConv List

variable {F : Type u}

inductive FieldValue (F : Type u) where
  | number (x : F)
  | size (n : Nat)

section Write

variable [CharConv F]

def FieldValue.text : FieldValue F → List Char
  | .number x => toGeneral x
  | .size n => natText n

/-- `append_key`, over `out` and `first`. -/
def appendKey (s : List Char × Bool) (field : List Char × FieldValue F) : List Char × Bool :=
  (s.1 ++ (if s.2 then [] else [',']) ++ '"' :: (field.1 ++ '"' :: ':' :: field.2.text), false)

/-- The keys in the order they are appended. -/
def reportFields (r : PerformanceReport F) : List (List Char × FieldValue F) :=
  [("total_return".toList, .number r.totalReturn),
    ("total_return_pct".toList, .number r.totalReturnPct),
    ("annualized_return".toList, .number r.annualizedReturn),
    ("annualized_volatility".toList, .number r.annualizedVolatility),
    ("sharpe_ratio".toList, .number r.sharpeRatio),
    ("sortino_ratio".toList, .number r.sortinoRatio),
    ("calmar_ratio".toList, .number r.calmarRatio),
    ("max_drawdown_pct".toList, .number r.maxDrawdownPct),
    ("max_drawdown_duration".toList, .number r.maxDrawdownDuration),
    ("win_rate".toList, .number r.winRate),
    ("profit_factor".toList, .number r.profitFactor),
    ("avg_win".toList, .number r.avgWin),
    ("avg_loss".toList, .number r.avgLoss),
    ("largest_win".toList, .number r.largestWin),
    ("largest_loss".toList, .number r.largestLoss),
    ("total_trades".toList, .size r.totalTrades),
    ("winning_trades".toList, .size r.winningTrades),
    ("losing_trades".toList, .size r.losingTrades),
    ("downside_deviation".toList, .number r.downsideDeviation),
    ("downside_deviation_annualized".toList, .number r.downsideDeviationAnnualized),
    ("var_95".toList, .number r.var95),
    ("var_99".toList, .number r.var99),
    ("cvar_95".toList, .number r.cvar95),
    ("cvar_99".toList, .number r.cvar99),
    ("max_drawdown_recovery_bars".toList, .size r.maxDrawdownRecoveryBars),
    ("time_in_drawdown_pct".toList, .number r.timeInDrawdownPct)]

def reportToJson (r : PerformanceReport F) : Result (List Char) :=
  .ok (((reportFields r).foldl appendKey (['{'], true)).1 ++ ['}'])

def reportNumbers (r : PerformanceReport F) : List F :=
  (reportFields r).filterMap fun field ↦ match field.2 with
    | .number x => some x
    | .size _ => none

def reportSizes (r : PerformanceReport F) : List Nat :=
  [r.totalTrades, r.winningTrades, r.losingTrades, r.maxDrawdownRecoveryBars]

end Write

/-- The reader accepts what is written. -/
def Accepted [CharConv F] [Zero F] (r : PerformanceReport F) : Prop :=
  ∃ json, reportToJson r = .ok json ∧ ∃ v : JsonValue F, parseJson json = .ok v

/-- `std::from_chars` reads the digits of every `size_t`. -/
class ReadsSizes (F : Type u) [CharConv F] : Prop where
  fromChars_natText : ∀ n < 2 ^ 64, ∃ x : F, CharConv.fromChars (natText n) = some (x, [])

/-! ## The text of a report -/

section

variable [CharConv F]

theorem foldl_appendKey (fields : List (List Char × FieldValue F)) (hne : fields ≠ [])
    (out : List Char) : (fields.foldl appendKey (out, true)).1 =
      out ++ List.intercalate [','] (fields.map fun field ↦
        '"' :: (field.1 ++ '"' :: ':' :: field.2.text)) := by
  have hrest : ∀ (fields : List (List Char × FieldValue F)) (out : List Char),
      (fields.foldl appendKey (out, false)).1 = out ++ (fields.map fun field ↦
        ',' :: '"' :: (field.1 ++ '"' :: ':' :: field.2.text)).flatten := by
    intro fields
    induction fields with
    | nil => exact fun out ↦ (append_nil out).symm
    | cons field fields ih =>
      intro out
      rw [foldl_cons, map_cons, flatten_cons, ← append_assoc]
      refine (ih _).trans (congrArg (· ++ _) ?_)
      rw [if_neg Bool.false_ne_true, append_assoc]
      rfl
  obtain ⟨field, fields, rfl⟩ := exists_cons_of_ne_nil hne
  have hjoin : ∀ (texts : List (List Char)) (t : List Char),
      List.intercalate [','] (t :: texts) = t ++ (texts.map (',' :: ·)).flatten := by
    intro texts
    induction texts with
    | nil =>
      intro t
      rw [intercalate_singleton, map_nil, flatten_nil, append_nil]
    | cons t' texts ih =>
      intro t
      rw [intercalate_cons_cons, ih, map_cons, flatten_cons, append_assoc]
      rfl
  rw [foldl_cons, map_cons, hjoin, map_map, ← append_assoc]
  refine (hrest fields _).trans (congrArg (· ++ _) ?_)
  rw [if_pos rfl, append_nil]

variable [Zero F]

/-- A field as the reader sees it. -/
def FieldValue.value : FieldValue F → Option (JsonValue F)
  | .number x => finiteValue x
  | .size n => natValue n

def fieldMember (field : List Char × FieldValue F) :
    List Char × Option (JsonValue F) × List Char :=
  (field.1, field.2.value, field.2.text)

theorem reportFields_ne_nil (r : PerformanceReport F) : reportFields r ≠ [] :=
  cons_ne_nil _ _

theorem reportToJson_eq (r : PerformanceReport F) : reportToJson r = .ok
    ('{' :: (List.intercalate [','] (((reportFields r).map fieldMember).map memberText) ++
      ['}'])) := by
  rw [reportToJson, foldl_appendKey _ (reportFields_ne_nil r), map_map]
  rfl

def reportKeys : List (List Char) :=
  ["total_return".toList, "total_return_pct".toList, "annualized_return".toList,
    "annualized_volatility".toList, "sharpe_ratio".toList, "sortino_ratio".toList,
    "calmar_ratio".toList, "max_drawdown_pct".toList, "max_drawdown_duration".toList,
    "win_rate".toList, "profit_factor".toList, "avg_win".toList, "avg_loss".toList,
    "largest_win".toList, "largest_loss".toList, "total_trades".toList, "winning_trades".toList,
    "losing_trades".toList, "downside_deviation".toList, "downside_deviation_annualized".toList,
    "var_95".toList, "var_99".toList, "cvar_95".toList, "cvar_99".toList,
    "max_drawdown_recovery_bars".toList, "time_in_drawdown_pct".toList]

theorem reportKeys_unescaped (r : PerformanceReport F) :
    ∀ key ∈ (reportFields r).map Prod.fst, Unescaped key := by
  have hkeys : ∀ key ∈ reportKeys, Unescaped key := by decide
  exact hkeys

variable [LawfulCharConv F]

theorem FieldValue.reads (v : FieldValue F) : Reads v.value v.text := by
  cases v with
  | number x => exact reads_finiteValue x
  | size n => exact reads_natValue n

theorem reads_report (r : PerformanceReport F) :
    Reads ((((reportFields r).map fieldMember).mapM memberValue).map .object)
      ('{' :: (List.intercalate [','] (((reportFields r).map fieldMember).map memberText) ++
        ['}'])) := by
  refine .object (cons_ne_nil _ _) fun m hm ↦ ?_
  obtain ⟨field, hfield, rfl⟩ := mem_map.mp hm
  exact ⟨reportKeys_unescaped r _ (mem_map_of_mem hfield), field.2.reads⟩

theorem accepted_iff_fields (r : PerformanceReport F) :
    Accepted r ↔ ∀ field ∈ reportFields r, field.2.value.isSome = true := by
  have hmapM : ∀ ms : List (List Char × Option (JsonValue F) × List Char),
      (ms.mapM memberValue).isSome = true ↔ ∀ m ∈ ms, m.2.1.isSome = true := by
    intro ms
    induction ms with
    | nil => exact iff_of_true rfl nofun
    | cons m ms ih =>
      rw [mapM_option_cons, forall_mem_cons, ← ih, memberValue]
      cases m.2.1 with
      | none => simp
      | some v => cases ms.mapM memberValue <;> simp
  have hfields := hmapM ((reportFields r).map fieldMember)
  rw [forall_mem_map] at hfields
  show Accepted r ↔ ∀ field ∈ reportFields r, (fieldMember field).2.1.isSome = true
  rw [← hfields]
  have hreads := reads_report r
  constructor
  · rintro ⟨json, hjson, v, hv⟩
    rw [reportToJson_eq] at hjson
    rw [← Except.ok.inj hjson] at hv
    cases hms : ((reportFields r).map fieldMember).mapM memberValue with
    | none =>
      rw [hms] at hreads
      obtain ⟨err, herr⟩ := hreads.parseJson_error
      rw [herr] at hv
      cases hv
    | some ms => rfl
  · intro hsome
    obtain ⟨ms, hms⟩ := Option.isSome_iff_exists.mp hsome
    rw [hms] at hreads
    exact ⟨_, reportToJson_eq r, _, hreads.parseJson_eq⟩

theorem accepted_iff_finite [ReadsSizes F] (r : PerformanceReport F)
    (hsizes : ∀ n ∈ reportSizes r, n < 2 ^ 64) :
    Accepted r ↔ ∀ x ∈ reportNumbers r, isfinite x = true := by
  have hsize : ∀ n ∈ reportSizes r, (natValue n : Option (JsonValue F)).isSome = true := by
    intro n hn
    obtain ⟨x, hx⟩ := ReadsSizes.fromChars_natText (F := F) n (hsizes n hn)
    rw [natValue, textNumber, parseDouble, if_neg (natText_ne_nil n), hx]
    rfl
  have hnumber : ∀ x : F, (finiteValue x).isSome = isfinite x := by
    intro x
    unfold finiteValue
    cases isfinite x <;> rfl
  rw [accepted_iff_fields]
  simp only [reportSizes, forall_mem_cons, not_mem_nil, false_imp_iff, implies_true,
    and_true] at hsize
  simp only [reportFields, reportNumbers, forall_mem_cons, filterMap_cons,
    filterMap_nil, not_mem_nil, false_imp_iff, implies_true, and_true, FieldValue.value,
    hnumber, hsize, true_and]

end

/-! ## Computed reports -/

section

variable [Zero F] [One F] [NatCast F] [Add F] [Sub F] [Mul F] [Div F] [Neg F] [LT F] [LE F]
  [DecidableLT F] [DecidableLE F] [BEq F] [CMath F] [SizeCast F]

theorem worstRecovery_le (equity : List F) (k : Nat) :
    (Underwater.after equity k).worstRecovery ≤ k := by
  induction k with
  | zero => exact le_refl 0
  | succ k ih =>
    unfold Underwater.after at ih ⊢
    rw [range_succ, foldl_append, foldl_cons, foldl_nil, Underwater.step]
    split
    · exact Nat.le_succ_of_le ih
    · exact Nat.max_le.mpr ⟨Nat.le_succ_of_le ih, (Nat.sub_le _ _).trans (Nat.le_succ k)⟩

section Blocks

variable (equity returns : List F) (tradingDaysPerYear : F) (r : PerformanceReport F)

theorem reportSizes_withVar : reportSizes (withVar returns r) = reportSizes r := by
  unfold withVar
  split <;> rfl

theorem reportSizes_withSharpe :
    reportSizes (withSharpe returns tradingDaysPerYear r) = reportSizes r := by
  unfold withSharpe
  split <;> rfl

theorem reportSizes_withSortino :
    reportSizes (withSortino returns tradingDaysPerYear r) = reportSizes r := by
  unfold withSortino
  split <;> rfl

theorem reportSizes_withCalmar : reportSizes (withCalmar r) = reportSizes r := by
  unfold withCalmar
  split <;> rfl

theorem reportSizes_withTrades (closed : List (Trade F)) :
    reportSizes (withTrades closed r) = reportSizes r := by
  unfold withTrades
  split <;> rfl

theorem le_of_mem_reportSizes_withCurve {n : Nat}
    (h : n ∈ reportSizes (withCurve equity tradingDaysPerYear r)) :
    n ∈ reportSizes r ∨ n ≤ equity.length := by
  have hsizes : reportSizes (withCurve equity tradingDaysPerYear r) =
      reportSizes (withUnderwater equity (withVar (returnsOf equity)
        (withDownside (returnsOf equity) tradingDaysPerYear r))) := by
    unfold withCurve
    dsimp only
    split
    · rfl
    · rw [reportSizes_withCalmar, reportSizes_withSortino, reportSizes_withSharpe]
      rfl
  have hothers := reportSizes_withVar (returnsOf equity)
    (withDownside (returnsOf equity) tradingDaysPerYear r)
  rw [hsizes] at h
  simp only [reportSizes, List.cons.injEq, and_true] at hothers
  simp only [reportSizes, withUnderwater, mem_cons, not_mem_nil, or_false] at h ⊢
  rw [hothers.1, hothers.2.1, hothers.2.2.1] at h
  rcases h with h | h | h | h
  · exact .inl (.inl h)
  · exact .inl (.inr (.inl h))
  · exact .inl (.inr (.inr (.inl h)))
  · exact .inr (h ▸ worstRecovery_le equity equity.length)

end Blocks

theorem le_of_mem_reportSizes (result : ReportedResult F) (tradingDaysPerYear : F) {n : Nat}
    (h : n ∈ reportSizes (PerformanceReport.compute result tradingDaysPerYear)) :
    n ≤ result.equityCurve.length ∨ n ≤ result.tradeBook.trades.length := by
  have hbase : ∀ n ∈ reportSizes (baseReport result), n ≤ result.tradeBook.trades.length := by
    have hclosed : result.tradeBook.closedTrades.length ≤ result.tradeBook.trades.length :=
      length_filter_le _ _
    simp only [reportSizes, baseReport, forall_mem_cons, not_mem_nil, false_imp_iff,
      implies_true, and_true]
    exact ⟨le_refl _, length_filter_le _ _, (length_filter_le _ _).trans hclosed,
      Nat.zero_le _⟩
  unfold PerformanceReport.compute at h
  dsimp only at h
  rw [reportSizes_withTrades] at h
  split at h
  · exact .inr (hbase n h)
  · exact (le_of_mem_reportSizes_withCurve _ _ _ h).symm.imp_right (hbase n)

variable [CharConv F] [LawfulCharConv F] [ReadsSizes F]

/-- **When a report is read back.**  The reader accepts what is written of a computed report just
when every number of the report is finite. -/
theorem report_accepted_iff (result : ReportedResult F) (tradingDaysPerYear : F)
    (hbars : result.equityCurve.length < 2 ^ 64)
    (htrades : result.tradeBook.trades.length < 2 ^ 64) :
    Accepted (PerformanceReport.compute result tradingDaysPerYear) ↔
      ∀ x ∈ reportNumbers (PerformanceReport.compute result tradingDaysPerYear),
        isfinite x = true := by
  refine accepted_iff_finite _ fun n hn ↦ ?_
  rcases le_of_mem_reportSizes result tradingDaysPerYear hn with h | h
  · exact h.trans_lt hbars
  · exact h.trans_lt htrades

theorem not_accepted_of_no_loss (hinf : isfinite (CMath.infinity : F) = false)
    (result : ReportedResult F) (tradingDaysPerYear : F)
    (hwin : 0 < (winsLosses result.tradeBook.closedTrades).winSum)
    (hloss : ¬ 0 < (winsLosses result.tradeBook.closedTrades).lossSum)
    (hclosed : result.tradeBook.closedTrades ≠ []) :
    ¬ Accepted (PerformanceReport.compute result tradingDaysPerYear) := by
  intro h
  have hfactor : (PerformanceReport.compute result tradingDaysPerYear).profitFactor =
      CMath.infinity := by
    obtain ⟨t, ts, hts⟩ := exists_cons_of_ne_nil hclosed
    unfold PerformanceReport.compute withTrades
    dsimp only
    rw [hts] at hwin hloss ⊢
    show profitFactorOf (winsLosses (t :: ts)) = _
    rw [profitFactorOf, if_neg hloss, if_pos hwin]
  have hmem : ("profit_factor".toList, FieldValue.number
      (PerformanceReport.compute result tradingDaysPerYear).profitFactor) ∈
        reportFields (PerformanceReport.compute result tradingDaysPerYear) := by
    simp [reportFields]
  have hsome := (accepted_iff_fields _).mp h _ hmem
  rw [hfactor, FieldValue.value, finiteValue, hinf] at hsome
  cases hsome

end

/-! ## Runs -/

instance : ReadsSizes ExtInt where
  fromChars_natText n _ := by
    have hint : CharConv.toChars (n : Int) = natText n := if_neg (by omega)
    refine ⟨.int n, ?_⟩
    rw [← hint]
    exact ExtInt.fromChars_int n

/-- A result without bars. -/
def resultOf (trades : List (Trade ExtInt)) : ReportedResult ExtInt where
  equityCurve := []
  drawdownCurve := []
  barsUsed := []
  tradeBook := ⟨"", trades, 1⟩
  config := ⟨100000, 0, 0, true⟩
  totalBars := 0
  finalEquity := 100010
  totalReturnPct := 0
  maxDrawdownPct := 0
  winRate := 0
  profitFactor := 0

/-- Bought at 100 and sold at 110. -/
def wonTrade : Trade ExtInt :=
  { (Trade.initial : Trade ExtInt) with
    quantity := 1, entryPrice := 100, exitPrice := 110, status := .closed }

theorem report_accepted_sample :
    Accepted (PerformanceReport.compute (resultOf []) 252) ↔
      ∀ x ∈ reportNumbers (PerformanceReport.compute (resultOf []) 252), isfinite x = true :=
  report_accepted_iff (resultOf []) 252 (by decide) (by decide)

/-- The report of one trade that was won says `inf`. -/
theorem won_report_not_accepted :
    ¬ Accepted (PerformanceReport.compute (resultOf [wonTrade]) 252) := by
  rintro ⟨json, hjson, v, hv⟩
  have hrefused : (parseJson json : Except String (JsonValue ExtInt)).isOk = false := by
    rw [← Except.ok.inj hjson]
    decide +kernel
  rw [hv] at hrefused
  cases hrefused

end Qros.Quant.Backtest
