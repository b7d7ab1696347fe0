import Qros.Quant.Backtest.Iso8601

/-!
# Candles as CSV

`candles_to_csv` and `candles_from_csv` of `src/backtest/serialization.cpp`.  The reader
takes candles of six to nine fields; what the last three do not say keeps its default.
-/

universe u

namespace Qros.Quant

open List

def timeframeFromName (name : List Char) : Timeframe :=
  if name = ['M', '1'] then .m1
  else if name = ['M', '5'] then .m5
  else if name = ['M', '1', '5'] then .m15
  else if name = ['M', '3', '0'] then .m30
  else if name = ['H', '1'] then .h1
  else if name = ['H', '4'] then .h4
  else if name = ['D', '1'] then .d1
  else if name = ['W', '1'] then .w1
  else if name = ['M', 'N', '1'] then .mn1
  else .m1

theorem timeframeFromName_timeframeName (tf : Timeframe) :
    timeframeFromName (timeframeName tf) = tf := by
  cases tf <;> rfl

def splitLine (line : List Char) (delim : Char) : List (List Char) := line.splitOn delim

def csvHeader : List Char := "timestamp,open,high,low,close,volume,trade_count,vwap,timeframe".toList

section Csv

variable {F : Type u} [CharConv F]

/-- One round of the loop of `candles_to_csv`. -/
def candleRow (c : Candle F) : List Char :=
  toIso8601 c.timestamp ++ ',' :: toGeneral c.open ++ ',' :: toGeneral c.high ++
    ',' :: toGeneral c.low ++ ',' :: toGeneral c.close ++ ',' :: toGeneral c.volume ++
    ',' :: natText c.tradeCount.toNat ++ ',' :: toGeneral c.vwap ++
    ',' :: timeframeName c.timeframe ++ ['\n']

def candlesToCsv (candles : List (Candle F)) : Result (List Char) :=
  .ok (csvHeader ++ '\n' :: candles.flatMap candleRow)

variable [Zero F] [LE F] [LT F] [DecidableLE F] [DecidableLT F]

/-- The candle that `finish` makes of the fields of a line.  The volume-weighted price keeps what
`std::from_chars` stored even where more text follows it. -/
def candleOfParts (parts : List (List Char)) : Option (Candle F) :=
  let part := fun i ↦ parts.getD i []
  if parts.length < 6 then none
  else if (part 0).length < 19 ∨ hasIsoMarks (part 0) = false then none
  else
    let c : Candle F := { (Candle.empty : Candle F) with timestamp := fromIso8601 (part 0) }
    match parseDouble (part 1) c.open, parseDouble (part 2) c.high, parseDouble (part 3) c.low,
      parseDouble (part 4) c.close, parseDouble (part 5) c.volume with
    | (true, open'), (true, high), (true, low), (true, close), (true, volume) =>
      let c : Candle F := { c with «open» := open', high, low, close, volume }
      let c := if 7 ≤ parts.length then
          { c with tradeCount := (parseU64 (part 6)).getD c.tradeCount } else c
      let c := if 8 ≤ parts.length then { c with vwap := (parseDouble (part 7) c.vwap).2 } else c
      let c := if 9 ≤ parts.length then { c with timeframe := timeframeFromName (part 8) } else c
      if c.isValid = false then none else some c
    | _, _, _, _, _ => none

/-- `finish`, for a line without its line feed.  The state is `line_no` and `out`; a line that is
refused leaves its number. -/
def finish (s : Nat × List (Candle F)) (line : List Char) : Except Nat (Nat × List (Candle F)) :=
  let lineNo := s.1 + 1
  let line := if line.getLast? = some '\r' then line.dropLast else line
  if line = [] then .ok (lineNo, s.2)
  else if lineNo = 1 ∧ "timestamp".toList.isPrefixOf line = true then .ok (lineNo, s.2)
  else match candleOfParts (splitLine line ',') with
    | none => .error lineNo
    | some c => .ok (lineNo, s.2 ++ [c])

/-- `candles_from_csv`.  The loop cuts the text at its line feeds. -/
def candlesFromCsv (csv : List Char) : Result (List (Candle F)) :=
  match (csv.splitOn '\n').foldlM finish (0, []) with
  | .ok s => .ok s.2
  | .error lineNo => .error ⟨.invalidArgument,
      "serialization::candles_from_csv: malformed CSV at line " ++ toString lineNo⟩

end Csv

/-! ## The round trip -/

section

variable {F : Type u} [CharConv F]

/-- The fields of a row. -/
def candleParts (c : Candle F) : List (List Char) :=
  [toIso8601 c.timestamp, toGeneral c.open, toGeneral c.high, toGeneral c.low, toGeneral c.close,
    toGeneral c.volume, natText c.tradeCount.toNat, toGeneral c.vwap, timeframeName c.timeframe]

theorem candleRow_eq (c : Candle F) :
    candleRow c = List.intercalate [','] (candleParts c) ++ ['\n'] := by
  simp [candleRow, candleParts, intercalate_cons_cons]

theorem plain_of_mem_natText {n : Nat} {c : Char} (h : c ∈ natText n) : c ≠ ',' ∧ c ≠ '\n' := by
  have := isDigit_of_mem_natText h
  constructor <;> rintro rfl <;> exact absurd this (by decide)

theorem plain_of_mem_timeframeName {tf : Timeframe} {c : Char} (h : c ∈ timeframeName tf) :
    c ≠ ',' ∧ c ≠ '\n' := by
  constructor <;> rintro rfl <;> revert h <;> cases tf <;> decide

theorem not_mem_intercalate {d sep : Char} (hsep : d ≠ sep) {texts : List (List Char)}
    (h : ∀ text ∈ texts, d ∉ text) : d ∉ List.intercalate [sep] texts := by
  induction texts with
  | nil => exact not_mem_nil
  | cons text texts ih =>
    have hrest := ih fun t ht ↦ h t (mem_cons_of_mem _ ht)
    have htext := h text mem_cons_self
    cases texts with
    | nil => rwa [intercalate_singleton]
    | cons text' texts =>
      rw [intercalate_cons_cons, mem_append, mem_append, mem_singleton]
      rintro ((hmem | hmem) | hmem)
      · exact htext hmem
      · exact hsep hmem
      · exact hrest hmem

theorem splitOn_lines {head : List Char} {rows : List (List Char)}
    (h : ∀ row ∈ head :: rows, '\n' ∉ row) :
    (head ++ '\n' :: rows.flatMap (· ++ ['\n'])).splitOn '\n' = head :: rows ++ [[]] := by
  have htable : head ++ '\n' :: rows.flatMap (· ++ ['\n']) =
      List.intercalate ['\n'] (head :: rows ++ [[]]) := by
    clear h
    induction rows generalizing head with
    | nil => simp [intercalate_cons_cons]
    | cons row rows ih =>
      rw [cons_append, cons_append, intercalate_cons_cons, ← cons_append, ← ih,
        flatMap_cons]
      simp
  rw [htable]
  refine splitOn_intercalate '\n' (fun row hrow ↦ ?_) (cons_ne_nil _ _)
  rcases mem_append.mp hrow with hrow | hrow
  · exact h row hrow
  · rw [mem_singleton.mp hrow]
    exact not_mem_nil

variable [LawfulCharConv F]

variable {c : Candle F}

theorem plain_of_mem_candleParts {text : List Char} {d : Char}
    (hstamp : IsStamp (toIso8601 c.timestamp) c.timestamp) (htext : text ∈ candleParts c)
    (hd : d ∈ text) : d ≠ ',' ∧ d ≠ '\n' := by
  simp only [candleParts, mem_cons, not_mem_nil, or_false] at htext
  rcases htext with rfl | rfl | rfl | rfl | rfl | rfl | rfl | rfl | rfl
  · have := hstamp.chars d hd
    constructor <;> rintro rfl <;> exact absurd this (by decide)
  any_goals exact plain_of_mem_toGeneral hd
  · exact plain_of_mem_natText hd
  · exact plain_of_mem_timeframeName hd

theorem splitLine_candleParts (hstamp : IsStamp (toIso8601 c.timestamp) c.timestamp) :
    splitLine (List.intercalate [','] (candleParts c)) ',' = candleParts c := by
  refine splitOn_intercalate ',' (fun text htext hmem ↦ ?_) (cons_ne_nil _ _)
  exact (plain_of_mem_candleParts hstamp htext hmem).1 rfl

variable [Zero F] [LE F] [LT F] [DecidableLE F] [DecidableLT F]

theorem candleOfParts_candleParts (hstamp : IsStamp (toIso8601 c.timestamp) c.timestamp)
    (hvalid : c.isValid = true) :
    candleOfParts (candleParts c) = some c := by
  have hlength : (candleParts c).length = 9 := rfl
  rw [candleOfParts, hlength]
  simp only [candleParts, getD_cons_zero, getD_cons_succ, hstamp.length, hstamp.marks,
    hstamp.value, parseDouble_toGeneral, parseU64_natText, timeframeFromName_timeframeName]
  simp [hvalid]

theorem finish_candleParts (hstamp : IsStamp (toIso8601 c.timestamp) c.timestamp)
    (hvalid : c.isValid = true) (n : Nat) (out : List (Candle F)) :
    finish (n + 1, out) (List.intercalate [','] (candleParts c)) = .ok (n + 2, out ++ [c]) := by
  obtain ⟨front, hfront⟩ : ∃ front,
      List.intercalate [','] (candleParts c) = front ++ timeframeName c.timeframe := by
    refine ⟨List.intercalate [','] (candleParts c).dropLast ++ [','], ?_⟩
    simp [candleParts, intercalate_cons_cons]
  have hlast : (List.intercalate [','] (candleParts c)).getLast? ≠ some '\r' := by
    rw [hfront, getLast?_append]
    cases c.timeframe <;> simp [timeframeName]
  have hne : List.intercalate [','] (candleParts c) ≠ [] := by
    rw [hfront]
    cases c.timeframe <;> simp [timeframeName]
  simp only [finish, if_neg hlast, if_neg hne]
  rw [if_neg (by omega), splitLine_candleParts hstamp, candleOfParts_candleParts hstamp hvalid]

theorem foldlM_finish {cs : List (Candle F)} (hvalid : ∀ c ∈ cs, c.isValid = true)
    (hstamp : ∀ c ∈ cs, IsStamp (toIso8601 c.timestamp) c.timestamp) (n : Nat)
    (out : List (Candle F)) :
    (cs.map fun c ↦ List.intercalate [','] (candleParts c)).foldlM finish (n + 1, out) =
      .ok (n + 1 + cs.length, out ++ cs) := by
  induction cs generalizing n out with
  | nil =>
    rw [append_nil]
    rfl
  | cons c cs ih =>
    rw [map_cons, foldlM_cons,
      finish_candleParts (hstamp c mem_cons_self) (hvalid c mem_cons_self)]
    refine (ih (fun d hd ↦ hvalid d (mem_cons_of_mem _ hd))
      (fun d hd ↦ hstamp d (mem_cons_of_mem _ hd)) (n + 1) (out ++ [c])).trans ?_
    rw [append_assoc, length_cons]
    congr 2
    omega

omit [LawfulCharConv F] in
theorem finish_csvHeader : finish (0, ([] : List (Candle F))) csvHeader = .ok (1, []) := rfl

/-- **Candles survive the table.** -/
theorem candlesFromCsv_candlesToCsv {cs : List (Candle F)} (hvalid : ∀ c ∈ cs, c.isValid = true)
    (htime : ∀ c ∈ cs, WholeSecond c.timestamp ∧ InYears c.timestamp) :
    ∃ csv, candlesToCsv cs = .ok csv ∧ candlesFromCsv csv = .ok cs := by
  have hstamp : ∀ c ∈ cs, IsStamp (toIso8601 c.timestamp) c.timestamp := fun c hc ↦
    isStamp_toIso8601 (htime c hc).1 (htime c hc).2
  have hlines : (csvHeader ++ '\n' :: cs.flatMap candleRow).splitOn '\n' =
      csvHeader :: cs.map (fun c ↦ List.intercalate [','] (candleParts c)) ++ [[]] := by
    have hrows : cs.flatMap candleRow =
        (cs.map fun c ↦ List.intercalate [','] (candleParts c)).flatMap (· ++ ['\n']) := by
      rw [flatMap_map]
      exact congrArg (fun f ↦ cs.flatMap f) (funext candleRow_eq)
    rw [hrows, splitOn_lines]
    · intro row hrow hmem
      rcases mem_cons.mp hrow with rfl | hrow
      · revert hmem
        decide
      · obtain ⟨c, hc, rfl⟩ := mem_map.mp hrow
        refine not_mem_intercalate (by decide) (fun text htext hd ↦ ?_) hmem
        exact (plain_of_mem_candleParts (hstamp c hc) htext hd).2 rfl
  have hloop : ((csvHeader ++ '\n' :: cs.flatMap candleRow).splitOn '\n').foldlM finish
      (0, ([] : List (Candle F))) = .ok (cs.length + 2, cs) := by
    rw [hlines, cons_append, foldlM_cons, finish_csvHeader]
    show ((cs.map fun c ↦ List.intercalate [','] (candleParts c)) ++ [[]]).foldlM finish (1, []) = _
    rw [foldlM_append, foldlM_finish hvalid hstamp 0, Nat.add_comm]
    rfl
  exact ⟨_, rfl, by rw [candlesFromCsv, hloop]⟩

/-- A leap day before 1970 and a day after it. -/
theorem candlesFromCsv_candlesToCsv_sample :
    let cs : List (Candle Int) :=
      [⟨-57974401000000000, 101, 105, 99, 102, 1500, 12, 103, .h4⟩,
        ⟨1592217045000000000, 102, 108, 98, 107, 0, 0, 0, .mn1⟩]
    ∃ csv, candlesToCsv cs = .ok csv ∧ candlesFromCsv csv = .ok cs :=
  candlesFromCsv_candlesToCsv (by decide) (by decide)

end

end Qros.Quant
