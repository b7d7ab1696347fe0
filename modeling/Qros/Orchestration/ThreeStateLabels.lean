import Qros.Orchestration.XauusdLabels

/-!
# Labels of barriers around a close

`triple_barrier_label` of `researchos/orchestration/triple_barrier.py` and
`label_three_state_triple_barrier` of `researchos/orchestration/xauusd_three_state_labels.py`.
Numbers are as in `Qros.Orchestration.XauusdLabels`.
-/

namespace Qros.Orchestration

open Qros.Lib Qros.Python List

inductive BarrierLabel where
  | upFirst
  | downFirst
  | timeout
  | ambiguous
  | unavailable
deriving DecidableEq

inductive ThreeState where
  | up
  | down
  | range
deriving DecidableEq

structure BarrierRecord (F : Type) where
  label : BarrierLabel
  endIndex : Option Nat
  upperBarrier : Option F
  lowerBarrier : Option F
deriving DecidableEq

section Labels

variable {F : Type} [LinearOrder F] [Zero F] [IsFinite F]

/-! ## One signal -/

/-- The scan over the opens, highs and lows from bar number `j` on, up to the vertical barrier. -/
def scanBarriers (upper lower : F) : List (F × F × F) → Nat → BarrierLabel × Nat
  | [], j => (.timeout, j - 1)
  | (o, high, low) :: later, j =>
    if o ≥ upper then (.upFirst, j)
    else if o ≤ lower then (.downFirst, j)
    else if high ≥ upper ∧ low ≤ lower then (.ambiguous, j)
    else if high ≥ upper then (.upFirst, j)
    else if low ≤ lower then (.downFirst, j)
    else scanBarriers upper lower later (j + 1)

def checkBar (i : Nat) (bar : F × F × F × F) : Except String Unit := do
  let (o, high, low, close) := bar
  require (∀ x ∈ [o, high, low, close], FinitePositive x) ("invalid OHLC at index " ++ toString i)
  require (¬ (high < max (max o close) low ∨ low > min (min o close) high))
    ("invalid OHLC geometry at index " ++ toString i)

variable [Add F] [Sub F] [Mul F]

def tripleBarrierLabel (opens highs lows closes : List F) (atr : List (Option F))
    (startIndex : Int) (upperAtr lowerAtr : F) (verticalBarrier : Int) :
    Except String (BarrierRecord F) := do
  let n := closes.length
  require (opens.length = n ∧ highs.length = n ∧ lows.length = n ∧ atr.length = n)
    "OHLC and ATR arrays must have equal lengths"
  require (0 ≤ startIndex ∧ startIndex < n) "start_index must be a valid row index"
  require (1 ≤ verticalBarrier) "vertical_barrier must be an integer >= 1"
  require (∀ x ∈ [upperAtr, lowerAtr], FinitePositive x) "ATR multipliers must be finite and positive"
  let start := startIndex.toNat
  let close ← found closes[start]? "start_index must be a valid row index"
  match (atr[start]?.join).filter fun scale ↦ decide (FinitePositive scale) with
  | none => return ⟨.unavailable, none, none, none⟩
  | some scale =>
    let upper := close + upperAtr * scale
    let lower := close - lowerAtr * scale
    let stop := start + verticalBarrier.toNat
    let bars := opens.zip (highs.zip (lows.zip closes))
    ((bars.zipIdx.drop start).take (verticalBarrier.toNat + 1)).forM fun e ↦ checkBar e.2 e.1
    if stop ≥ n then
      return ⟨.unavailable, none, some upper, some lower⟩
    else
      let window := ((opens.zip (highs.zip lows)).drop (start + 1)).take verticalBarrier.toNat
      let (label, endIndex) := scanBarriers upper lower window (start + 1)
      return ⟨label, some endIndex, some upper, some lower⟩

/-! ## All closes -/

omit [Add F] [Sub F] [Mul F] in
/-- The loop over the bars after an event up to the end of its horizon. -/
def resolveState (upper lower : F) : List (OHLCBar F) → Option ThreeState
  | [] => none
  | future :: later =>
    if future.open ≥ upper then some .up
    else if future.open ≤ lower then some .down
    else if future.high ≥ upper ∧ future.low ≤ lower then none
    else if future.high ≥ upper then some .up
    else if future.low ≤ lower then some .down
    else if later.isEmpty then some .range
    else resolveState upper lower later

/-- The round of the loop for one bar. -/
def stateAt (bars : List (OHLCBar F)) (atr : List (Option F)) (upperAtr lowerAtr : F)
    (maxHoldingBars : Nat) (i : Nat) (bar : OHLCBar F) : Option ThreeState := do
  let eventAtr ← atr[i]?.join
  if i + maxHoldingBars ≥ bars.length then
    none
  else
    let upper := bar.close + upperAtr * eventAtr
    let lower := bar.close - lowerAtr * eventAtr
    resolveState upper lower ((bars.drop (i + 1)).take maxHoldingBars)

def labelThreeStateTripleBarrier (bars : List (OHLCBar F)) (atr : List (Option F))
    (upperAtr lowerAtr : F) (maxHoldingBars : Int) : Except String (List (Option ThreeState)) := do
  require (bars.length = atr.length) "bars and atr must have equal lengths"
  require (∀ p ∈ bars.zip bars.tail, p.1.timestamp < p.2.timestamp)
    "bar timestamps must be strictly increasing"
  require (FinitePositive upperAtr) "upper_atr must be finite and positive"
  require (FinitePositive lowerAtr) "lower_atr must be finite and positive"
  require (1 ≤ maxHoldingBars) "max_holding_bars must be a positive integer"
  require (∀ value ∈ atr, ∀ numeric ∈ value, FinitePositive numeric)
    "ATR values must be finite and positive or None"
  return bars.mapIdx (stateAt bars atr upperAtr lowerAtr maxHoldingBars.toNat)

/-! ## Agreement -/

def BarrierLabel.state : BarrierLabel → Option ThreeState
  | .upFirst => some .up
  | .downFirst => some .down
  | .timeout => some .range
  | .ambiguous => none
  | .unavailable => none

def tripleAt (bars : List (OHLCBar F)) (atr : List (Option F)) (upperAtr lowerAtr : F)
    (verticalBarrier : Int) (i : Nat) : Except String (BarrierRecord F) :=
  tripleBarrierLabel (bars.map (·.open)) (bars.map (·.high)) (bars.map (·.low))
    (bars.map (·.close)) atr i upperAtr lowerAtr verticalBarrier

variable {bars : List (OHLCBar F)} {atr : List (Option F)} {upperAtr lowerAtr : F}
  {labels : List (Option ThreeState)}

omit [Add F] [Sub F] [Mul F] in
theorem state_scanBarriers (upper lower : F) (hne : bars ≠ []) (j : Nat) :
    (scanBarriers upper lower (bars.map fun b ↦ (b.open, b.high, b.low)) j).1.state =
      resolveState upper lower bars := by
  induction bars generalizing j with
  | nil => exact absurd rfl hne
  | cons bar later ih =>
    rw [map_cons, scanBarriers, resolveState]
    split_ifs with h₁ h₂ h₃ h₄ h₅ hlast
    · rfl
    · rfl
    · rfl
    · rfl
    · rfl
    · rw [isEmpty_iff.mp hlast]
      rfl
    · exact ih (fun hnil ↦ hlast (isEmpty_iff.mpr hnil)) _

omit [Add F] [Sub F] [Mul F] in
theorem checkBar_ok (i : Nat) (bar : OHLCBar F) :
    checkBar i (bar.open, bar.high, bar.low, bar.close) = .ok () := by
  have hle : bar.low ≤ bar.high :=
    bar.low_ok.trans ((min_le_left _ _).trans ((le_max_left _ _).trans bar.high_ok))
  refine bind_eq_ok.mpr ⟨(), require_eq_ok.mpr bar.prices_ok, require_eq_ok.mpr ?_⟩
  rintro (h | h)
  · exact absurd h (not_lt.mpr (max_le bar.high_ok hle))
  · exact absurd h (not_lt.mpr (le_min bar.low_ok hle))

omit [Add F] [Sub F] [Mul F] in
theorem zip_prices (bars : List (OHLCBar F)) :
    (bars.map (·.open)).zip ((bars.map (·.high)).zip ((bars.map (·.low)).zip
        (bars.map (·.close)))) = bars.map fun b ↦ (b.open, b.high, b.low, b.close) := by
  rw [zip_map', zip_map', zip_map']

theorem tripleAt_eq {verticalBarrier : Int} (hlen : bars.length = atr.length)
    (hupper : FinitePositive upperAtr) (hlower : FinitePositive lowerAtr)
    (hvertical : 1 ≤ verticalBarrier)
    (hatr : ∀ value ∈ atr, ∀ numeric ∈ value, FinitePositive numeric) {i : Nat} {bar : OHLCBar F}
    (hbar : bars[i]? = some bar) :
    tripleAt bars atr upperAtr lowerAtr verticalBarrier i = .ok (match atr[i]?.join with
      | none => ⟨.unavailable, none, none, none⟩
      | some scale =>
        let upper := bar.close + upperAtr * scale
        let lower := bar.close - lowerAtr * scale
        if i + verticalBarrier.toNat ≥ bars.length then
          ⟨.unavailable, none, some upper, some lower⟩
        else
          let found := scanBarriers upper lower
            (((bars.drop (i + 1)).take verticalBarrier.toNat).map
              fun b ↦ (b.open, b.high, b.low)) (i + 1)
          ⟨found.1, some found.2, some upper, some lower⟩) := by
  have hi : i < bars.length := (List.getElem?_eq_some_iff.mp hbar).1
  have hclose : (bars.map (·.close))[i]? = some bar.close := by
    rw [getElem?_map, hbar]
    rfl
  have hfilter : (atr[i]?.join).filter (fun scale ↦ decide (FinitePositive scale)) =
      atr[i]?.join := by
    cases hj : atr[i]?.join with
    | none => rfl
    | some scale =>
      have hmem := mem_of_getElem? (Option.join_eq_some_iff.mp hj)
      rw [Option.filter_some, if_pos (decide_eq_true (hatr _ hmem scale rfl))]
  unfold tripleAt tripleBarrierLabel
  refine bind_eq_ok.mpr ⟨(), require_eq_ok.mpr (by simp [hlen]), ?_⟩
  refine bind_eq_ok.mpr ⟨(), require_eq_ok.mpr ⟨Int.natCast_nonneg i, by simpa using hi⟩, ?_⟩
  refine bind_eq_ok.mpr ⟨(), require_eq_ok.mpr hvertical, ?_⟩
  refine bind_eq_ok.mpr ⟨(), require_eq_ok.mpr
    (forall_mem_cons.mpr ⟨hupper, forall_mem_singleton.mpr hlower⟩), ?_⟩
  refine bind_eq_ok.mpr ⟨bar.close, found_eq_ok.mpr hclose, ?_⟩
  dsimp only
  rw [Int.toNat_natCast, hfilter, zip_prices, zip_map', zip_map']
  cases atr[i]?.join with
  | none => rfl
  | some scale =>
    refine bind_eq_ok.mpr ⟨(), ?_, ?_⟩
    · refine forM_eq_ok.mpr fun e he ↦ ?_
      obtain ⟨b, -, hb⟩ := mem_map.mp
        (fst_mem_of_mem_zipIdx (mem_of_mem_drop (mem_of_mem_take he)))
      rw [← hb]
      exact checkBar_ok e.2 b
    · rw [length_map]
      dsimp only
      split_ifs with hstop
      · rfl
      · rw [← map_drop, ← map_take]
        rfl

variable {horizon : Int}

theorem labels_correspond
    (h : labelThreeStateTripleBarrier bars atr upperAtr lowerAtr horizon = .ok labels) {i : Nat}
    (hi : i < bars.length) :
    ∃ r, tripleAt bars atr upperAtr lowerAtr horizon i = .ok r ∧
      labels[i]? = some r.label.state := by
  obtain ⟨_, hlen, h⟩ := bind_eq_ok.mp h
  obtain ⟨_, -, h⟩ := bind_eq_ok.mp h
  obtain ⟨_, hupper, h⟩ := bind_eq_ok.mp h
  obtain ⟨_, hlower, h⟩ := bind_eq_ok.mp h
  obtain ⟨_, hhorizon, h⟩ := bind_eq_ok.mp h
  obtain ⟨_, hatr, h⟩ := bind_eq_ok.mp h
  obtain rfl := Except.ok.inj h
  have hhorizon := require_eq_ok.mp hhorizon
  have hbar := getElem?_eq_getElem hi
  refine ⟨_, tripleAt_eq (require_eq_ok.mp hlen) (require_eq_ok.mp hupper)
    (require_eq_ok.mp hlower) hhorizon (require_eq_ok.mp hatr) hbar, ?_⟩
  rw [getElem?_mapIdx, hbar, Option.map_some, stateAt]
  refine congrArg some ?_
  cases atr[i]?.join with
  | none => rfl
  | some scale =>
    dsimp only [Option.bind_eq_bind, Option.bind_some]
    split_ifs with hstop
    · rfl
    · refine (state_scanBarriers _ _ (ne_nil_of_length_pos ?_) _).symm
      rw [length_take, length_drop]
      omega

/-! ## Stability -/

omit [LinearOrder F] [Zero F] [IsFinite F] [Add F] [Sub F] [Mul F] in
theorem window_append {α : Type} {xs : List α} {start k : Nat} (h : start + k ≤ xs.length)
    (ys : List α) : ((xs ++ ys).drop start).take k = (xs.drop start).take k := by
  rw [drop_append_of_le_length (Nat.le_of_add_right_le h),
    take_append_of_le_length (by rw [length_drop]; omega)]

theorem tripleBarrierLabel_append {opens highs lows closes opens' highs' lows' closes' : List F}
    {atr atr' : List (Option F)} {startIndex : Int} {verticalBarrier : Int} {r : BarrierRecord F}
    (hopens : opens'.length = closes'.length) (hhighs : highs'.length = closes'.length)
    (hlows : lows'.length = closes'.length) (hatrs : atr'.length = closes'.length)
    (h : tripleBarrierLabel opens highs lows closes atr startIndex upperAtr lowerAtr verticalBarrier = .ok r)
    (hr : r.label ≠ .unavailable) :
    tripleBarrierLabel (opens ++ opens') (highs ++ highs') (lows ++ lows') (closes ++ closes')
      (atr ++ atr') startIndex upperAtr lowerAtr verticalBarrier = .ok r := by
  unfold tripleBarrierLabel at h ⊢
  obtain ⟨_, hlen, h⟩ := bind_eq_ok.mp h
  obtain ⟨_, hstart, h⟩ := bind_eq_ok.mp h
  obtain ⟨_, hvertical, h⟩ := bind_eq_ok.mp h
  obtain ⟨_, hmultipliers, h⟩ := bind_eq_ok.mp h
  obtain ⟨close, hclose, h⟩ := bind_eq_ok.mp h
  obtain ⟨ho, hhi, hlo, ha⟩ := require_eq_ok.mp hlen
  obtain ⟨hnonneg, hlt⟩ := require_eq_ok.mp hstart
  have hclose := found_eq_ok.mp hclose
  have hstartLt : startIndex.toNat < closes.length := (List.getElem?_eq_some_iff.mp hclose).1
  refine bind_eq_ok.mpr ⟨(), require_eq_ok.mpr ?_, ?_⟩
  · simp [ho, hhi, hlo, ha, hopens, hhighs, hlows, hatrs]
  refine bind_eq_ok.mpr ⟨(), require_eq_ok.mpr ⟨hnonneg, ?_⟩, ?_⟩
  · rw [length_append]
    omega
  refine bind_eq_ok.mpr ⟨(), hvertical, bind_eq_ok.mpr ⟨(), hmultipliers,
    bind_eq_ok.mpr ⟨close, found_eq_ok.mpr ?_, ?_⟩⟩⟩
  · rw [getElem?_append_left hstartLt, hclose]
  dsimp only at h ⊢
  rw [getElem?_append_left (hstartLt.trans_eq ha.symm)]
  cases hscale : (atr[startIndex.toNat]?.join).filter
      fun scale ↦ decide (FinitePositive scale) with
  | none =>
    rw [hscale] at h
    cases h
    exact absurd rfl hr
  | some scale =>
    rw [hscale] at h
    obtain ⟨_, hchecks, h⟩ := bind_eq_ok.mp h
    split_ifs at h with hstop
    · cases h
      exact absurd rfl hr
    · have hfits : startIndex.toNat + verticalBarrier.toNat < closes.length := not_le.mp hstop
      refine bind_eq_ok.mpr ⟨(), ?_, ?_⟩
      · rw [zip_append hlo, zip_append (by simp [hhi, hlo]),
          zip_append (by simp [ho, hhi, hlo]), zipIdx_append, window_append]
        · exact hchecks
        · simp [ho, hhi, hlo]
          omega
      · rw [if_neg (by rw [length_append]; omega), zip_append (hhi.trans hlo.symm),
          zip_append (by simp [ho, hhi, hlo]), window_append]
        · exact h
        · simp [ho, hhi, hlo]
          omega

theorem length_labels
    (h : labelThreeStateTripleBarrier bars atr upperAtr lowerAtr horizon = .ok labels) :
    labels.length = bars.length := by
  obtain ⟨_, -, h⟩ := bind_eq_ok.mp h
  obtain ⟨_, -, h⟩ := bind_eq_ok.mp h
  obtain ⟨_, -, h⟩ := bind_eq_ok.mp h
  obtain ⟨_, -, h⟩ := bind_eq_ok.mp h
  obtain ⟨_, -, h⟩ := bind_eq_ok.mp h
  obtain ⟨_, -, h⟩ := bind_eq_ok.mp h
  rw [← Except.ok.inj h, length_mapIdx]

theorem length_atr_of_labels
    (h : labelThreeStateTripleBarrier bars atr upperAtr lowerAtr horizon = .ok labels) :
    bars.length = atr.length := by
  obtain ⟨_, hlen, -⟩ := bind_eq_ok.mp h
  exact require_eq_ok.mp hlen

/-- At every bar the two labellers give corresponding labels, and a label that is not unavailable
stays as it is when bars are appended. -/
theorem labellers_agree_and_stable (bars : List (OHLCBar F)) (atr : List (Option F))
    (upperAtr lowerAtr : F) (horizon : Int) (labels : List (Option ThreeState))
    (h : labelThreeStateTripleBarrier bars atr upperAtr lowerAtr horizon = .ok labels) :
    labels.length = bars.length ∧
    ∀ i < bars.length, ∃ r, tripleAt bars atr upperAtr lowerAtr horizon i = .ok r ∧
      labels[i]? = some r.label.state ∧
      (r.label ≠ .unavailable → ∀ (more : List (OHLCBar F)) (moreAtr : List (Option F)),
        (moreAtr.length = more.length →
          tripleAt (bars ++ more) (atr ++ moreAtr) upperAtr lowerAtr horizon i = .ok r) ∧
        ∀ labels', labelThreeStateTripleBarrier (bars ++ more) (atr ++ moreAtr) upperAtr lowerAtr
          horizon = .ok labels' → labels'[i]? = labels[i]?) := by
  refine ⟨length_labels h, fun i hi ↦ ?_⟩
  obtain ⟨r, hrecord, hlabel⟩ := labels_correspond h hi
  refine ⟨r, hrecord, hlabel, fun hr more moreAtr ↦ ?_⟩
  have hstable : moreAtr.length = more.length →
      tripleAt (bars ++ more) (atr ++ moreAtr) upperAtr lowerAtr horizon i = .ok r := by
    intro hlen
    unfold tripleAt
    simp only [map_append]
    refine tripleBarrierLabel_append ?_ ?_ ?_ ?_ hrecord hr <;> simp [hlen]
  refine ⟨hstable, fun labels' h' ↦ ?_⟩
  have hlen : moreAtr.length = more.length := by
    have hbase := length_atr_of_labels h
    have hboth := length_atr_of_labels h'
    rw [length_append, length_append] at hboth
    omega
  obtain ⟨r', hrecord', hlabel'⟩ := labels_correspond h' (i := i)
    (hi.trans_le (by rw [length_append]; exact Nat.le_add_right _ _))
  obtain rfl := Except.ok.inj ((hstable hlen).symm.trans hrecord')
  rw [hlabel, hlabel']

end Labels

/-! ## A close that the next bar leaves upwards -/

def stillBar (timestamp : Int) : OHLCBar ℚ where
  timestamp := timestamp
  «open» := 100
  high := 101
  low := 99
  close := 100
  prices_ok := by decide +kernel
  high_ok := by decide +kernel
  low_ok := by decide +kernel

theorem labellers_agree_and_stable_sample :
    ∃ r, tripleAt [stillBar 0, stillBar 1] [some (1 : ℚ), none] 1 2 1 0 = .ok r ∧
      [some ThreeState.up, none][0]? = some r.label.state := by
  obtain ⟨r, hr, hlabel, -⟩ := (labellers_agree_and_stable [stillBar 0, stillBar 1]
    [some (1 : ℚ), none] 1 2 1 [some .up, none] (by decide +kernel)).2 0 (by decide)
  exact ⟨r, hr, hlabel⟩

end Qros.Orchestration
