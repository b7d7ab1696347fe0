import Mathlib.Algebra.Order.BigOperators.Group.List
import Mathlib.Data.List.Zip
import Qros.QuantEngine.StructureCausality

/-!
# Market structure events are well formed

What every accepted series gives: a level is broken at most once, by bars that all come after
its confirmation; a bar has one event at most; and a break is a CHOCH just when it turns the
direction of the one before.  The two sides of the detector are each other's mirror image, so
the invariant of the loop is stated once, for a side.
-/

namespace Qros.QuantEngine.Technical

open Qros.Lib Qros.Lib.Online Qros.Python List

/-! ## A side of the detector -/

section

variable {F : Type} [Field F] [LinearOrder F]

def Direction.swing : Direction → SwingKind
  | .bullish => .swingHigh
  | .bearish => .swingLow

def Direction.flip : Direction → Direction
  | .bullish => .bearish
  | .bearish => .bullish

def Direction.trend : Direction → Int
  | .bullish => 1
  | .bearish => -1

def Direction.Beyond : Direction → F → F → Prop
  | .bullish, level, x => level < x
  | .bearish, level, x => x < level

def Detection.active (st : Detection F) : Direction → Option (SwingPoint F)
  | .bullish => st.activeHigh
  | .bearish => st.activeLow

def Detection.consumed (st : Detection F) : Direction → Bool
  | .bullish => st.highConsumed
  | .bearish => st.lowConsumed

def Series.extremes (s : Series F) : Direction → List F
  | .bullish => s.high
  | .bearish => s.low

def Series.values (s : Series F) (basis : BreakBasis) : Direction → List F
  | .bullish => if basis = .wick then s.high else s.close
  | .bearish => if basis = .wick then s.low else s.close

/-- What the checks of the input give. -/
structure Series.Sound (s : Series F) : Prop where
  high_length : s.high.length = s.close.length
  low_length : s.low.length = s.close.length
  atr_length : s.atr.length = s.close.length
  gap_length : s.gapBefore.length = s.close.length
  bar : ∀ i < s.close.length,
    s.low.getD i 0 ≤ s.close.getD i 0 ∧ s.close.getD i 0 ≤ s.high.getD i 0
  atr_nonneg : ∀ a ∈ s.atr, ∀ x ∈ a, 0 ≤ x

/-- A pivot of a side whose window lies within the bars and crosses no gap. -/
structure IsPivot (w : Nat) (s : Series F) (dir : Direction) (p : SwingPoint F) : Prop where
  kind : p.kind = dir.swing
  confirmed : p.confirmedIndex = p.pivotIndex + w
  left : w ≤ p.pivotIndex
  inside : p.confirmedIndex < s.close.length
  no_gap : ∀ i, p.pivotIndex < i + w → i ≤ p.confirmedIndex → s.gapBefore.getD i false = false
  strict : dir.Beyond ((s.extremes dir).getD p.confirmedIndex 0) p.price

def Detection.broken [FloorRing F] [FloatText F] [Hashlib] (st : Detection F)
    (d : StructureDefinition F) (s : Series F) (index : Nat) (dir : Direction)
    (point : SwingPoint F) : Detection F :=
  let kind := if st.trend = -dir.trend then .choch else .bos
  let st := { st with
    breaks := st.breaks ++ [structureBreak kind dir point index (s.values d.breakBasis dir) d]
    trend := dir.trend }
  match dir with
  | .bullish => { st with highConsumed := true }
  | .bearish => { st with lowConsumed := true }

/-- A new level of a side. -/
def Detection.confirm (st : Detection F) (dir : Direction) (point : SwingPoint F) : Detection F :=
  let st := { st with swings := st.swings ++ [point] }
  match dir with
  | .bullish => { st with activeHigh := some point, highConsumed := false }
  | .bearish => { st with activeLow := some point, lowConsumed := false }

theorem levelBroken_eq_true {active : Option (SwingPoint F)} {consumed : Bool} {values : List F}
    {index : Nat} {dir : Direction} {config : MarketStructureConfig F} {s : Series F}
    (h : levelBroken active consumed values index dir config s = true) :
    ∃ point, active = some point ∧ consumed = false ∧
      isConfirmedBreak values index point.price dir config s.atr s.gapBefore = true := by
  cases active with
  | none => cases h
  | some point =>
    rw [levelBroken, Bool.and_eq_true, Bool.not_eq_true'] at h
    exact ⟨point, rfl, h⟩

def Detection.breaksSide (st : Detection F) (d : StructureDefinition F) (s : Series F) (index : Nat)
    (dir : Direction) : Bool :=
  levelBroken (st.active dir) (st.consumed dir) (s.values d.breakBasis dir) index dir
    d.toMarketStructureConfig s

theorem detectBreaks_cases [FloorRing F] [FloatText F] [Hashlib] (d : StructureDefinition F)
    (s : Series F) (index : Nat) (st : Detection F) :
    ((∀ dir, st.breaksSide d s index dir = false) ∧ detectBreaks d s index st = st) ∨
    ((∀ dir, st.breaksSide d s index dir = true) ∧
      detectBreaks d s index st = { st with ambiguous := st.ambiguous ++ [index] }) ∨
    ∃ dir point, st.breaksSide d s index dir = true ∧ st.breaksSide d s index dir.flip = false ∧
      st.active dir = some point ∧ detectBreaks d s index st = st.broken d s index dir point := by
  have hup : ∀ h : levelBroken st.activeHigh st.highConsumed
      (if d.breakBasis = .wick then s.high else s.close) index .bullish d.toMarketStructureConfig
      s = true, _ := fun h ↦ levelBroken_eq_true h
  have hdown : ∀ h : levelBroken st.activeLow st.lowConsumed
      (if d.breakBasis = .wick then s.low else s.close) index .bearish d.toMarketStructureConfig s =
      true, _ := fun h ↦ levelBroken_eq_true h
  have hhigh : st.breaksSide d s index .bullish = levelBroken st.activeHigh st.highConsumed
      (if d.breakBasis = .wick then s.high else s.close) index .bullish d.toMarketStructureConfig
      s := rfl
  have hlow : st.breaksSide d s index .bearish = levelBroken st.activeLow st.lowConsumed
      (if d.breakBasis = .wick then s.low else s.close) index .bearish d.toMarketStructureConfig
      s := rfl
  unfold detectBreaks
  dsimp only
  generalize levelBroken st.activeHigh st.highConsumed _ index .bullish _ s = bullishBreak
    at hup hhigh ⊢
  generalize levelBroken st.activeLow st.lowConsumed _ index .bearish _ s = bearishBreak
    at hdown hlow ⊢
  cases bullishBreak with
  | false =>
    cases bearishBreak with
    | false =>
      refine .inl ⟨fun dir ↦ ?_, rfl⟩
      cases dir with
      | bullish => exact hhigh
      | bearish => exact hlow
    | true =>
      obtain ⟨point, hactive, -⟩ := hdown rfl
      refine .inr (.inr ⟨.bearish, point, hlow, hhigh, hactive, ?_⟩)
      clear hhigh hlow
      obtain ⟨_, _, _, activeHigh, _, _, _, _⟩ := st
      obtain rfl : _ = some point := hactive
      cases activeHigh with
      | none => rfl
      | some high => rfl
  | true =>
    cases bearishBreak with
    | true =>
      refine .inr (.inl ⟨fun dir ↦ ?_, rfl⟩)
      cases dir with
      | bullish => exact hhigh
      | bearish => exact hlow
    | false =>
      obtain ⟨point, hactive, -⟩ := hup rfl
      refine .inr (.inr ⟨.bullish, point, hhigh, hlow, hactive, ?_⟩)
      clear hhigh hlow
      obtain ⟨_, _, _, _, _, _, _, _⟩ := st
      obtain rfl : _ = some point := hactive
      rfl

/-! ## Pivots -/

variable {xs : List F}

omit [Field F] in
theorem aboveMax_iff {x : F} : aboveMax x xs = true ↔ xs ≠ [] ∧ ∀ y ∈ xs, y < x := by
  unfold aboveMax
  cases hmax : xs.max? with
  | none =>
    refine iff_of_false (fun h ↦ by cases h) fun h ↦ h.1 ?_
    rwa [max?_eq_none_iff] at hmax
  | some m =>
    obtain ⟨hm, hle⟩ := max?_eq_some_iff.mp hmax
    rw [Option.map_some, Option.getD_some, decide_eq_true_iff]
    exact ⟨fun h ↦ ⟨ne_nil_of_mem hm, fun y hy ↦ lt_of_le_of_lt (hle y hy) h⟩,
      fun h ↦ h.2 m hm⟩

omit [Field F] in
theorem belowMin_iff {x : F} : belowMin x xs = true ↔ xs ≠ [] ∧ ∀ y ∈ xs, x < y := by
  unfold belowMin
  cases hmin : xs.min? with
  | none =>
    refine iff_of_false (fun h ↦ by cases h) fun h ↦ h.1 ?_
    rwa [min?_eq_none_iff] at hmin
  | some m =>
    obtain ⟨hm, hle⟩ := min?_eq_some_iff.mp hmin
    rw [Option.map_some, Option.getD_some, decide_eq_true_iff]
    exact ⟨fun h ↦ ⟨ne_nil_of_mem hm, fun y hy ↦ lt_of_lt_of_le h (hle y hy)⟩,
      fun h ↦ h.2 m hm⟩

/-- A value lies beyond all the values of a slice. -/
def Direction.strict : Direction → F → List F → Bool
  | .bullish => aboveMax
  | .bearish => belowMin

omit [Field F] in
theorem strict_iff {dir : Direction} {x : F} :
    dir.strict x xs = true ↔ xs ≠ [] ∧ ∀ y ∈ xs, dir.Beyond y x := by
  cases dir with
  | bullish => exact aboveMax_iff
  | bearish => exact belowMin_iff

/-- The pivot of a side that a bar confirms. -/
def pivotAt (w : Nat) (s : Series F) (index : Nat) (dir : Direction) : Option (SwingPoint F) :=
  if index < w + w then none
  else if (Online.slice s.gapBefore (index - w - w + 1) (index + 1)).any id then none
  else
    let price := (s.extremes dir).getD (index - w) 0
    if dir.strict price (Online.slice (s.extremes dir) (index - w - w) (index - w)) &&
        dir.strict price (Online.slice (s.extremes dir) (index - w + 1) (index + 1)) then
      some ⟨dir.swing, index - w, index, price⟩
    else none

theorem confirmPivot_eq (w : Nat) (s : Series F) (index : Nat) (st : Detection F) :
    confirmPivot w s index st =
      (pivotAt w s index .bearish).elim ((pivotAt w s index .bullish).elim st (st.confirm .bullish))
        ((pivotAt w s index .bullish).elim st (st.confirm .bullish) |>.confirm .bearish) := by
  unfold confirmPivot
  split
  · rename_i hwindow
    have hnone (dir : Direction) : pivotAt w s index dir = none := if_pos hwindow
    rw [hnone, hnone]
    rfl
  · rename_i hwindow
    dsimp only
    split
    · rename_i hgap
      have hnone (dir : Direction) : pivotAt w s index dir = none :=
        (if_neg hwindow).trans (if_pos hgap)
      rw [hnone, hnone]
      rfl
    · rename_i hgap
      have hhigh : pivotAt w s index .bullish =
          if aboveMax (s.high.getD (index - w) 0)
              (Online.slice s.high (index - w - w) (index - w)) &&
            aboveMax (s.high.getD (index - w) 0)
              (Online.slice s.high (index - w + 1) (index + 1)) then
            some ⟨.swingHigh, index - w, index, s.high.getD (index - w) 0⟩ else none :=
        (if_neg hwindow).trans (if_neg hgap)
      have hlow : pivotAt w s index .bearish =
          if belowMin (s.low.getD (index - w) 0)
              (Online.slice s.low (index - w - w) (index - w)) &&
            belowMin (s.low.getD (index - w) 0)
              (Online.slice s.low (index - w + 1) (index + 1)) then
            some ⟨.swingLow, index - w, index, s.low.getD (index - w) 0⟩ else none :=
        (if_neg hwindow).trans (if_neg hgap)
      rw [hhigh, hlow]
      generalize (aboveMax (F := F) _ _ && aboveMax (F := F) _ _) = isSwingHigh
      generalize (belowMin (F := F) _ _ && belowMin (F := F) _ _) = isSwingLow
      cases isSwingHigh with
      | false => cases isSwingLow with
        | false => rfl
        | true => rfl
      | true => cases isSwingLow with
        | false => rfl
        | true => rfl

theorem isPivot_of_pivotAt {w index : Nat} {dir : Direction} {s : Series F} (hw : 1 ≤ w)
    (hs : s.Sound) (hindex : index < s.close.length) :
    ∀ p ∈ pivotAt w s index dir, IsPivot w s dir p ∧ p.confirmedIndex = index := by
  intro p hp
  have hextremes : (s.extremes dir).length = s.close.length := by
    cases dir with
    | bullish => exact hs.high_length
    | bearish => exact hs.low_length
  unfold pivotAt at hp
  split at hp
  · cases hp
  · rename_i hwindow
    split at hp
    · cases hp
    · rename_i hgap
      dsimp only at hp
      split at hp
      · rename_i hpivot
        obtain rfl := Option.some.inj hp
        rw [Bool.and_eq_true] at hpivot
        have hmem := getD_mem_slice (by omega : index - w + 1 ≤ index) (Nat.lt_succ_self index)
          (hextremes ▸ hindex) (0 : F)
        refine ⟨⟨rfl, (by omega : index = index - w + w), (by omega : w ≤ index - w), hindex,
          fun i hlow hhigh ↦ ?_, (strict_iff.mp hpivot.2).2 _ hmem⟩, rfl⟩
        dsimp only at hlow hhigh
        have hmem : s.gapBefore.getD i false ∈
            Online.slice s.gapBefore (index - w - w + 1) (index + 1) :=
          getD_mem_slice (by omega) (by omega) (by rw [hs.gap_length]; omega) false
        rw [Bool.not_eq_true, any_eq_false] at hgap
        exact Bool.not_eq_true _ ▸ hgap _ hmem
      · cases hp

end

section Sides

variable {F : Type} [Field F] [LinearOrder F]

/-! ## Confirmation windows -/

section

variable [IsStrictOrderedRing F] {config : MarketStructureConfig F} {s : Series F}

theorem breakBuffers_nonneg {observed : List F} {observedAtr : List (Option F)} {buffers : List F}
    (hlength : observedAtr.length = observed.length) (hatr : ∀ a ∈ observedAtr, ∀ x ∈ a, 0 ≤ x)
    (h : breakBuffers config observed observedAtr = some buffers) :
    buffers.length = observed.length ∧ ∀ b ∈ buffers, 0 ≤ b := by
  unfold breakBuffers at h
  split at h
  · obtain rfl := Option.some.inj h
    exact ⟨length_map _, fun b hb ↦ by obtain ⟨_, -, rfl⟩ := mem_map.mp hb; rfl⟩
  · rw [← hlength]
    clear hlength
    induction observedAtr generalizing buffers with
    | nil =>
      obtain rfl := Option.some.inj h
      exact ⟨rfl, fun b hb ↦ absurd hb not_mem_nil⟩
    | cons a observedAtr ih =>
      rw [mapM_cons] at h
      obtain ⟨b, hb, h⟩ := Option.bind_eq_some_iff.mp h
      obtain ⟨rest, hrest, h⟩ := Option.bind_eq_some_iff.mp h
      obtain rfl := Option.some.inj h
      obtain ⟨ha, hatr⟩ := forall_mem_cons.mp hatr
      obtain ⟨hcount, hnonneg⟩ := ih hatr hrest
      obtain ⟨x, hx, rfl⟩ := Option.map_eq_some_iff.mp hb
      refine ⟨congrArg (· + 1) hcount, forall_mem_cons.mpr ⟨?_, hnonneg⟩⟩
      exact mul_nonneg config.breakBufferAtr_ok (ha x hx)

theorem beyond_of_isConfirmedBreak {values : List F} {index : Nat} {level : F} {dir : Direction}
    (hs : s.Sound) (hvalues : values.length = s.close.length) (hindex : index < s.close.length)
    (h : isConfirmedBreak values index level dir config s.atr s.gapBefore = true) :
    config.confirmationBars ≤ index + 1 ∧ ∀ j, index + 1 ≤ j + config.confirmationBars →
      j ≤ index → dir.Beyond level (values.getD j 0) := by
  unfold isConfirmedBreak at h
  split at h
  · cases h
  · rename_i hstart
    refine ⟨Nat.not_lt.mp hstart, fun j hlow hhigh ↦ ?_⟩
    dsimp only at h
    split at h
    · cases h
    · split at h
      · cases h
      · rename_i buffers hbuffers
        have hatr_mem : ∀ a ∈ Online.slice s.atr (index + 1 - config.confirmationBars) (index + 1),
            ∀ x ∈ a, 0 ≤ x :=
          fun a ha ↦ hs.atr_nonneg a (mem_of_mem_take (mem_of_mem_drop ha))
        obtain ⟨hcount, hnonneg⟩ := breakBuffers_nonneg
          (by rw [length_slice (by rw [hs.atr_length]; omega), length_slice (by omega)])
          hatr_mem hbuffers
        rw [length_slice (by omega)] at hcount
        -- the buffer of the bar
        have hk : j - (index + 1 - config.confirmationBars) < buffers.length := by omega
        have hmem : (values.getD j 0, buffers[j - (index + 1 - config.confirmationBars)]) ∈
            (Online.slice values (index + 1 - config.confirmationBars) (index + 1)).zip
              buffers := by
          refine mem_of_getElem? (i := j - (index + 1 - config.confirmationBars)) ?_
          rw [getElem?_zip_eq_some]
          exact ⟨getElem?_slice (by omega) (by omega) (by omega) 0, getElem?_eq_getElem hk⟩
        have hpos := hnonneg _ (getElem_mem hk)
        split at h
        · have hlt := of_decide_eq_true (all_eq_true.mp h _ hmem)
          exact lt_of_le_of_lt (le_add_of_nonneg_right hpos) hlt
        · have hlt := of_decide_eq_true (all_eq_true.mp h _ hmem)
          exact lt_of_lt_of_le hlt (sub_le_self level hpos)

omit [Field F] [LinearOrder F] [IsStrictOrderedRing F] in
theorem Series.values_cases (s : Series F) (basis : BreakBasis) (dir : Direction) :
    s.values basis dir = s.extremes dir ∨ s.values basis dir = s.close := by
  cases basis with
  | wick =>
    cases dir with
    | bullish => exact .inl rfl
    | bearish => exact .inl rfl
  | close =>
    cases dir with
    | bullish => exact .inr rfl
    | bearish => exact .inr rfl

omit [IsStrictOrderedRing F] in
theorem Series.Sound.values_length (hs : s.Sound) (basis : BreakBasis) (dir : Direction) :
    (s.values basis dir).length = s.close.length := by
  rcases s.values_cases basis dir with heq | heq
  · rw [heq]
    cases dir with
    | bullish => exact hs.high_length
    | bearish => exact hs.low_length
  · rw [heq]

/-- **A confirmation window comes after the confirmation of its pivot**: the bars of the pivot's
own window do not reach the level. -/
theorem confirmed_before_window {basis : BreakBasis} {index w : Nat} {dir : Direction}
    {p : SwingPoint F} (hs : s.Sound) (hp : IsPivot w s dir p) (hlt : p.confirmedIndex < index)
    (hindex : index < s.close.length)
    (h : isConfirmedBreak (s.values basis dir) index p.price dir config s.atr s.gapBefore = true) :
    p.confirmedIndex + config.confirmationBars ≤ index := by
  obtain ⟨-, hbeyond⟩ := beyond_of_isConfirmedBreak hs (hs.values_length basis dir) hindex h
  by_contra hnot
  have hbar := hbeyond p.confirmedIndex (by omega) hlt.le
  have hstrict := hp.strict
  obtain ⟨hlow, hhigh⟩ := hs.bar p.confirmedIndex hp.inside
  rcases s.values_cases basis dir with heq | heq
  · rw [heq] at hbar
    cases dir with
    | bullish => exact lt_asymm hbar hstrict
    | bearish => exact lt_asymm hbar hstrict
  · rw [heq] at hbar
    cases dir with
    | bullish => exact lt_asymm (lt_of_lt_of_le hbar hhigh) hstrict
    | bearish => exact lt_asymm (lt_of_le_of_lt hlow hbar) hstrict

end

/-! ## The invariant of the loop -/

section

variable [FloorRing F] [FloatText F] [Hashlib] (st : Detection F) (d : StructureDefinition F)
  (s : Series F) (index : Nat) (dir : Direction) (point : SwingPoint F)

@[simp]
theorem broken_swings : (st.broken d s index dir point).swings = st.swings := by
  cases dir with
  | bullish => rfl
  | bearish => rfl

@[simp]
theorem broken_breaks : (st.broken d s index dir point).breaks =
    st.breaks ++ [structureBreak (if st.trend = -dir.trend then .choch else .bos) dir point index
      (s.values d.breakBasis dir) d] := by
  cases dir with
  | bullish => rfl
  | bearish => rfl

@[simp]
theorem broken_ambiguous : (st.broken d s index dir point).ambiguous = st.ambiguous := by
  cases dir with
  | bullish => rfl
  | bearish => rfl

@[simp]
theorem broken_active (side : Direction) :
    (st.broken d s index dir point).active side = st.active side := by
  cases dir with
  | bullish => cases side with
    | bullish => rfl
    | bearish => rfl
  | bearish => cases side with
    | bullish => rfl
    | bearish => rfl

@[simp]
theorem broken_consumed (side : Direction) : (st.broken d s index dir point).consumed side =
    if side = dir then true else st.consumed side := by
  cases dir with
  | bullish => cases side with
    | bullish => rfl
    | bearish => rfl
  | bearish => cases side with
    | bullish => rfl
    | bearish => rfl

@[simp]
theorem broken_trend : (st.broken d s index dir point).trend = dir.trend := by
  cases dir with
  | bullish => rfl
  | bearish => rfl

omit [FloorRing F] [FloatText F] [Hashlib] [Field F] [LinearOrder F]

@[simp]
theorem confirm_swings : (st.confirm dir point).swings = st.swings ++ [point] := by
  cases dir with
  | bullish => rfl
  | bearish => rfl

@[simp]
theorem confirm_breaks : (st.confirm dir point).breaks = st.breaks := by
  cases dir with
  | bullish => rfl
  | bearish => rfl

@[simp]
theorem confirm_ambiguous : (st.confirm dir point).ambiguous = st.ambiguous := by
  cases dir with
  | bullish => rfl
  | bearish => rfl

@[simp]
theorem confirm_trend : (st.confirm dir point).trend = st.trend := by
  cases dir with
  | bullish => rfl
  | bearish => rfl

@[simp]
theorem confirm_active (side : Direction) : (st.confirm dir point).active side =
    if side = dir then some point else st.active side := by
  cases dir with
  | bullish => cases side with
    | bullish => rfl
    | bearish => rfl
  | bearish => cases side with
    | bullish => rfl
    | bearish => rfl

@[simp]
theorem confirm_consumed (side : Direction) : (st.confirm dir point).consumed side =
    if side = dir then false else st.consumed side := by
  cases dir with
  | bullish => cases side with
    | bullish => rfl
    | bearish => rfl
  | bearish => cases side with
    | bullish => rfl
    | bearish => rfl

end

structure StructureBreak.Breaks (b : StructureBreak F) (p : SwingPoint F) : Prop where
  kind : p.kind = b.direction.swing
  pivot : p.pivotIndex = b.pivotIndex
  confirmed : p.confirmedIndex = b.pivotConfirmedIndex
  level : p.price = b.level

/-- The events before bar `m`. -/
structure WellFormed (d : StructureDefinition F) (s : Series F) (m : Nat) (st : Detection F) :
    Prop where
  swings : ∀ p ∈ st.swings, ∃ dir, IsPivot d.swingWindow s dir p
  active : ∀ dir, ∀ p ∈ st.active dir, p ∈ st.swings ∧ IsPivot d.swingWindow s dir p
  breaks : ∀ b ∈ st.breaks, b.breakIndex < m ∧
    b.pivotConfirmedIndex + d.confirmationBars ≤ b.breakIndex ∧ ∃ p ∈ st.swings, b.Breaks p
  used : ∀ b ∈ st.breaks, ∃ p ∈ st.active b.direction, b.pivotIndex < p.pivotIndex ∨
    b.pivotIndex = p.pivotIndex ∧ st.consumed b.direction = true
  ordered : st.breaks.Pairwise fun b b' ↦ b.breakIndex < b'.breakIndex ∧
    (b.direction = b'.direction → b.pivotIndex < b'.pivotIndex)
  ambiguous : ∀ i ∈ st.ambiguous, i < m ∧ ∀ b ∈ st.breaks, b.breakIndex ≠ i
  first : ∀ b ∈ st.breaks.head?, b.kind = .bos
  turns : st.breaks.IsChain fun b b' ↦ b'.kind = .choch ↔ b'.direction ≠ b.direction
  trend : st.trend = (st.breaks.getLast?.map fun b ↦ b.direction.trend).getD 0

section Invariant

variable {d : StructureDefinition F} {s : Series F} {m : Nat} {st : Detection F}

omit [Field F] [LinearOrder F] in
theorem trend_eq_neg_iff {dir dir' : Direction} : dir'.trend = -dir.trend ↔ dir ≠ dir' := by
  cases dir with
  | bullish => cases dir' with
    | bullish => decide
    | bearish => decide
  | bearish => cases dir' with
    | bullish => decide
    | bearish => decide

theorem WellFormed.mono (h : WellFormed d s m st) {m' : Nat} (hle : m ≤ m') :
    WellFormed d s m' st :=
  { h with
    breaks := fun b hb ↦ ⟨Nat.lt_of_lt_of_le (h.breaks b hb).1 hle, (h.breaks b hb).2⟩
    ambiguous := fun i hi ↦ ⟨Nat.lt_of_lt_of_le (h.ambiguous i hi).1 hle, (h.ambiguous i hi).2⟩ }

theorem WellFormed.ambiguousBar (h : WellFormed d s m st) :
    WellFormed d s (m + 1) { st with ambiguous := st.ambiguous ++ [m] } := by
  refine { h.mono (Nat.le_succ m) with
    active := fun dir p hp ↦ ?_
    used := fun b hb ↦ ?_
    ambiguous := fun i hi ↦ ?_ }
  · cases dir with
    | bullish => exact h.active .bullish p hp
    | bearish => exact h.active .bearish p hp
  · obtain ⟨p, hp, hused⟩ := h.used b hb
    refine ⟨p, ?_, ?_⟩
    · cases hdir : b.direction with
      | bullish => rwa [hdir] at hp
      | bearish => rwa [hdir] at hp
    · cases hdir : b.direction with
      | bullish => rwa [hdir] at hused
      | bearish => rwa [hdir] at hused
  · rcases mem_append.mp hi with hi | hi
    · exact ⟨Nat.lt_succ_of_lt (h.ambiguous i hi).1, (h.ambiguous i hi).2⟩
    · obtain rfl := mem_singleton.mp hi
      exact ⟨Nat.lt_succ_self _, fun b hb ↦ (h.breaks b hb).1.ne⟩

variable [FloorRing F] [FloatText F] [Hashlib]

theorem WellFormed.broken (h : WellFormed d s m st) {dir : Direction} {point : SwingPoint F}
    (hactive : st.active dir = some point) (hfresh : st.consumed dir = false)
    (hwindow : point.confirmedIndex + d.confirmationBars ≤ m) :
    WellFormed d s (m + 1) (st.broken d s m dir point) := by
  obtain ⟨hswing, hpivot⟩ := h.active dir point hactive
  constructor
  · simpa using h.swings
  · simpa using h.active
  · intro b hb
    rw [broken_breaks, mem_append, mem_singleton] at hb
    rw [broken_swings]
    rcases hb with hb | rfl
    · exact ⟨Nat.lt_succ_of_lt (h.breaks b hb).1, (h.breaks b hb).2⟩
    · exact ⟨Nat.lt_succ_self m, hwindow, point, hswing, hpivot.kind, rfl, rfl, rfl⟩
  · intro b hb
    rw [broken_breaks, mem_append, mem_singleton] at hb
    rw [broken_active, broken_consumed]
    rcases hb with hb | rfl
    · obtain ⟨p, hp, hused⟩ := h.used b hb
      refine ⟨p, hp, hused.imp_right fun hold ↦ ⟨hold.1, ?_⟩⟩
      split
      · rfl
      · exact hold.2
    · exact ⟨point, hactive, .inr ⟨rfl, if_pos rfl⟩⟩
  · rw [broken_breaks, pairwise_append]
    refine ⟨h.ordered, pairwise_singleton _ _, fun b hb b' hb' ↦ ?_⟩
    obtain rfl := mem_singleton.mp hb'
    refine ⟨(h.breaks b hb).1, fun hdir ↦ ?_⟩
    -- the level of an older break of the side is older, as this one is fresh
    obtain ⟨p, hp, hused⟩ := h.used b hb
    change b.direction = dir at hdir
    rw [hdir, Option.mem_def, hactive] at hp
    obtain rfl := Option.some.inj hp
    rcases hused with hlt | ⟨-, hconsumed⟩
    · exact hlt
    · rw [hdir, hfresh] at hconsumed
      cases hconsumed
  · rw [broken_ambiguous, broken_breaks]
    refine fun i hi ↦ ⟨Nat.lt_succ_of_lt (h.ambiguous i hi).1, fun b hb ↦ ?_⟩
    rcases mem_append.mp hb with hb | hb
    · exact (h.ambiguous i hi).2 b hb
    · obtain rfl := mem_singleton.mp hb
      exact (h.ambiguous i hi).1.ne'
  · intro b hb
    rw [broken_breaks, head?_append] at hb
    cases hfirst : st.breaks.head? with
    | some a =>
      rw [hfirst, Option.some_or] at hb
      exact h.first b (hfirst ▸ hb)
    | none =>
      rw [hfirst] at hb
      obtain rfl := Option.some.inj hb
      have htrend := h.trend
      rw [head?_eq_none_iff.mp hfirst] at htrend
      change st.trend = 0 at htrend
      refine if_neg ?_
      rw [htrend]
      cases dir with
      | bullish => decide
      | bearish => decide
  · rw [broken_breaks, isChain_append]
    refine ⟨h.turns, isChain_singleton _, fun b hb b' hb' ↦ ?_⟩
    obtain rfl := Option.some.inj hb'
    have htrend := h.trend
    rw [Option.mem_def.mp hb] at htrend
    change st.trend = b.direction.trend at htrend
    change (if st.trend = -dir.trend then StructureKind.choch else .bos) = .choch ↔
      dir ≠ b.direction
    rw [htrend, ← trend_eq_neg_iff]
    split
    · exact iff_of_true rfl ‹_›
    · exact iff_of_false (fun hkind ↦ by cases hkind) ‹_›
  · rw [broken_breaks, broken_trend, getLast?_concat]
    rfl

omit [FloorRing F] [FloatText F] [Hashlib] in
theorem WellFormed.confirm (h : WellFormed d s m st) {dir : Direction} {point : SwingPoint F}
    (hpoint : IsPivot d.swingWindow s dir point)
    (hnew : ∀ p ∈ st.active dir, p.confirmedIndex < point.confirmedIndex) :
    WellFormed d s m (st.confirm dir point) := by
  constructor
  · intro p hp
    rw [confirm_swings, mem_append, mem_singleton] at hp
    rcases hp with hp | rfl
    · exact h.swings p hp
    · exact ⟨dir, hpoint⟩
  · intro side p hp
    rw [confirm_active] at hp
    rw [confirm_swings, mem_append, mem_singleton]
    split at hp
    · obtain rfl := Option.some.inj hp
      exact ⟨.inr rfl, ‹side = dir› ▸ hpoint⟩
    · exact ⟨.inl (h.active side p hp).1, (h.active side p hp).2⟩
  · intro b hb
    rw [confirm_breaks] at hb
    obtain ⟨hlt, hwindow, p, hp, hbreaks⟩ := h.breaks b hb
    rw [confirm_swings]
    exact ⟨hlt, hwindow, p, mem_append_left _ hp, hbreaks⟩
  · intro b hb
    rw [confirm_breaks] at hb
    obtain ⟨p, hp, hused⟩ := h.used b hb
    rw [confirm_active, confirm_consumed]
    by_cases hdir : b.direction = dir
    · rw [if_pos hdir]
      refine ⟨point, rfl, .inl ?_⟩
      rw [hdir] at hp
      have hold := (h.active dir p hp).2.confirmed
      have hlater := hnew p hp
      have hpivot := hpoint.confirmed
      rcases hused with hlt | ⟨heq, -⟩
      · omega
      · omega
    · rw [if_neg hdir, if_neg hdir]
      exact ⟨p, hp, hused⟩
  · simpa using h.ordered
  · simpa using h.ambiguous
  · simpa using h.first
  · simpa using h.turns
  · simpa using h.trend

variable [IsStrictOrderedRing F]

omit [IsStrictOrderedRing F] in
theorem detectBreaks_active (index : Nat) (dir : Direction) :
    (detectBreaks d s index st).active dir = st.active dir := by
  rcases detectBreaks_cases d s index st with ⟨-, heq⟩ | ⟨-, heq⟩ | ⟨side, point, -, -, -, heq⟩
  · rw [heq]
  · rw [heq]
    cases dir with
    | bullish => rfl
    | bearish => rfl
  · rw [heq, broken_active]

theorem WellFormed.detectBreaks (h : WellFormed d s m st) (hs : s.Sound) (hm : m < s.close.length)
    (hbefore : ∀ dir, ∀ p ∈ st.active dir, p.confirmedIndex < m) :
    WellFormed d s (m + 1) (detectBreaks d s m st) := by
  rcases detectBreaks_cases d s m st with ⟨-, heq⟩ | ⟨-, heq⟩ | ⟨dir, point, hside, -, hactive, heq⟩
  · rw [heq]
    exact h.mono (Nat.le_succ m)
  · rw [heq]
    exact h.ambiguousBar
  · obtain ⟨_, hsome, hfresh, hbreak⟩ := levelBroken_eq_true hside
    obtain rfl := Option.some.inj (hactive.symm.trans hsome)
    rw [heq]
    refine h.broken hactive hfresh ?_
    exact confirmed_before_window hs (h.active dir point hactive).2 (hbefore dir point hactive) hm
      hbreak

/-- **A turn of the loop keeps the invariant.** -/
theorem WellFormed.detectBar (h : WellFormed d s m st) (hs : s.Sound) (hm : m < s.close.length)
    (hbefore : ∀ dir, ∀ p ∈ st.active dir, p.confirmedIndex < m) :
    WellFormed d s (m + 1) (detectBar d s m st) ∧
      ∀ dir, ∀ p ∈ (detectBar d s m st).active dir, p.confirmedIndex < m + 1 := by
  have hbreaks := h.detectBreaks hs hm hbefore
  have hactive : ∀ dir, ∀ p ∈ (Technical.detectBreaks d s m st).active dir,
      p.confirmedIndex < m := by
    intro dir
    rw [detectBreaks_active]
    exact hbefore dir
  have hhigh := @isPivot_of_pivotAt F _ _ d.swingWindow m .bullish s d.swingWindow_ok hs hm
  have hlow := @isPivot_of_pivotAt F _ _ d.swingWindow m .bearish s d.swingWindow_ok hs hm
  unfold Technical.detectBar
  rw [confirmPivot_eq]
  generalize pivotAt d.swingWindow s m .bullish = high at hhigh ⊢
  generalize pivotAt d.swingWindow s m .bearish = low at hlow ⊢
  -- The high is confirmed first; the low side does not see it.
  have hfirst : WellFormed d s (m + 1) (high.elim (Technical.detectBreaks d s m st)
        ((Technical.detectBreaks d s m st).confirm .bullish)) ∧
      ∀ dir, ∀ p ∈ (high.elim (Technical.detectBreaks d s m st)
        ((Technical.detectBreaks d s m st).confirm .bullish)).active dir,
        p.confirmedIndex < m ∨ dir = .bullish ∧ p.confirmedIndex = m := by
    cases high with
    | none => exact ⟨hbreaks, fun dir p hp ↦ .inl (hactive dir p hp)⟩
    | some point =>
      obtain ⟨hpivot, hconfirmed⟩ := hhigh point rfl
      refine ⟨hbreaks.confirm hpivot fun p hp ↦ hconfirmed ▸ hactive _ p hp, fun dir p hp ↦ ?_⟩
      rw [Option.elim_some, confirm_active] at hp
      split at hp
      · obtain rfl := Option.some.inj hp
        exact .inr ⟨‹_›, hconfirmed⟩
      · exact .inl (hactive dir p hp)
  generalize high.elim (Technical.detectBreaks d s m st)
    ((Technical.detectBreaks d s m st).confirm .bullish) = st' at hfirst
  obtain ⟨hst', hside⟩ := hfirst
  have hle : ∀ dir, ∀ p ∈ st'.active dir, p.confirmedIndex < m + 1 := by
    intro dir p hp
    rcases hside dir p hp with hlt | ⟨-, heq⟩
    · exact Nat.lt_succ_of_lt hlt
    · exact Nat.lt_succ_of_le heq.le
  cases low with
  | none => exact ⟨hst', hle⟩
  | some point =>
    obtain ⟨hpivot, hconfirmed⟩ := hlow point rfl
    refine ⟨hst'.confirm hpivot fun p hp ↦ ?_, fun dir p hp ↦ ?_⟩
    · rw [hconfirmed]
      rcases hside .bearish p hp with hlt | ⟨hdir, -⟩
      · exact hlt
      · cases hdir
    · rw [Option.elim_some, confirm_active] at hp
      split at hp
      · obtain rfl := Option.some.inj hp
        exact Nat.lt_succ_of_le hconfirmed.le
      · exact hle dir p hp

theorem wellFormed_loop (hs : s.Sound) : ∀ n ≤ s.close.length,
    WellFormed d s n (loop (Technical.detectBar d s) n .start) ∧
      ∀ dir, ∀ p ∈ (loop (Technical.detectBar d s) n .start).active dir, p.confirmedIndex < n := by
  intro n hn
  induction n with
  | zero =>
    have hnone : ∀ dir, ∀ p ∈ (Detection.start (F := F)).active dir, False := by
      intro dir p hp
      cases dir with
      | bullish => cases hp
      | bearish => cases hp
    refine ⟨?_, fun dir p hp ↦ (hnone dir p hp).elim⟩
    exact {
      swings := fun p hp ↦ absurd hp not_mem_nil
      active := fun dir p hp ↦ (hnone dir p hp).elim
      breaks := fun b hb ↦ absurd hb not_mem_nil
      used := fun b hb ↦ absurd hb not_mem_nil
      ordered := .nil
      ambiguous := fun i hi ↦ absurd hi not_mem_nil
      first := fun b hb ↦ by cases hb
      turns := .nil
      trend := rfl }
  | succ n ih =>
    obtain ⟨hst, hbefore⟩ := ih (by omega)
    rw [loop_succ]
    exact hst.detectBar hs hn hbefore

end Invariant

/-! ## What the checks give -/

section

variable {high low close : List F}

omit [Field F] in
theorem bar_bounds (h : validateOhlc high low close = .ok ()) {i : Nat} (hi : i < close.length)
    (x : F) : low.getD i x ≤ close.getD i x ∧ close.getD i x ≤ high.getD i x := by
  obtain ⟨⟨hhigh, hlow⟩, -, -, hclose⟩ := validateOhlc_eq_ok.mp h
  have hmem : ((high.getD i x, low.getD i x), close.getD i x) ∈ (high.zip low).zip close := by
    refine mem_of_getElem? (i := i) ?_
    rw [getElem?_zip_eq_some, getElem?_zip_eq_some]
    simp only [getD_eq_getElem?_getD, getElem?_eq_getElem hi,
      getElem?_eq_getElem (hlow ▸ hi : i < low.length),
      getElem?_eq_getElem (hhigh ▸ hlow ▸ hi : i < high.length), Option.getD_some, and_self]
  exact ⟨not_lt.mp (hclose _ hmem).2, not_lt.mp (hclose _ hmem).1⟩

variable [IsStrictOrderedRing F]

theorem trueRange_nonneg : ∀ x ∈ trueRange high low close, 0 ≤ x := by
  intro x hx
  obtain ⟨⟨⟨a, b⟩, c⟩, -, rfl⟩ := mem_map.mp hx
  exact le_max_of_le_right (le_max_of_le_left (abs_nonneg _))

omit [LinearOrder F] [IsStrictOrderedRing F] in
theorem getD_scanl_succ {xs : List F} {i : Nat} (hi : i < xs.length) :
    (List.scanl (· + ·) (0 : F) xs).getD (i + 1) 0 =
      (List.scanl (· + ·) (0 : F) xs).getD i 0 + xs[i] := by
  rw [getD_eq_getElem?_getD, getD_eq_getElem?_getD,
    getElem?_eq_getElem (by rw [length_scanl]; omega),
    getElem?_eq_getElem (by rw [length_scanl]; omega), Option.getD_some, Option.getD_some,
    getElem_succ_scanl]

theorem scanl_mono {xs : List F} (hxs : ∀ x ∈ xs, 0 ≤ x) {i j : Nat} (hij : i ≤ j)
    (hj : j ≤ xs.length) : (List.scanl (· + ·) (0 : F) xs).getD i 0 ≤
      (List.scanl (· + ·) (0 : F) xs).getD j 0 := by
  induction j, hij using Nat.le_induction with
  | base => exact le_refl _
  | succ j hij ih =>
    rw [getD_scanl_succ (Nat.lt_of_succ_le hj)]
    exact le_trans (ih (by omega)) (le_add_of_nonneg_right (hxs _ (getElem_mem _)))

variable {period : Nat}

theorem atr_nonneg (hhigh : high.length = low.length) (hlow : low.length = close.length)
    (hperiod : 1 ≤ period) :
    ∀ a ∈ atr high low close period, ∀ x ∈ a, 0 ≤ x := by
  intro a ha x hx
  obtain ⟨i, hi⟩ := mem_iff_getElem?.mp ha
  rw [getElem?_atr hhigh hlow hperiod] at hi
  split at hi
  · obtain rfl := Option.some.inj hi
    dsimp only at hx
    split at hx
    · cases hx
    · obtain rfl := Option.some.inj hx
      refine div_nonneg (sub_nonneg.mpr (scanl_mono trueRange_nonneg (by omega) ?_))
        (Nat.cast_nonneg _)
      rw [length_trueRange hhigh hlow]
      omega
  · cases hi

omit [IsStrictOrderedRing F] in
theorem length_atr (hhigh : high.length = low.length) (hlow : low.length = close.length)
    (hperiod : 1 ≤ period) :
    (atr high low close period).length = close.length := by
  have hat := getElem?_atr hhigh hlow hperiod
  refine le_antisymm ?_ ?_
  · rw [← getElem?_eq_none_iff, hat, if_neg (lt_irrefl _)]
  · by_contra hlt
    have hnone := getElem?_eq_none (Nat.le_refl (atr high low close period).length)
    rw [hat, if_pos (Nat.not_le.mp hlt)] at hnone
    cases hnone

theorem sound_of_accepted {timestamps : Option (List Timestamp)} {gapBefore : List Bool}
    (hohlc : validateOhlc high low close = .ok ()) (hperiod : 1 ≤ period)
    (htimes : validateUtcTimestamps timestamps close.length = .ok gapBefore) :
    (⟨high, low, close, atr high low close period, gapBefore⟩ : Series F).Sound := by
  obtain ⟨⟨hhigh, hlow⟩, hne, -⟩ := validateOhlc_eq_ok.mp hohlc
  refine ⟨hhigh.trans hlow, hlow, length_atr hhigh hlow hperiod, ?_,
    fun i hi ↦ bar_bounds hohlc hi 0, atr_nonneg hhigh hlow hperiod⟩
  unfold validateUtcTimestamps at htimes
  obtain ⟨values, -, htimes⟩ := bind_eq_ok.mp htimes
  obtain ⟨_, hlength, htimes⟩ := bind_eq_ok.mp htimes
  obtain ⟨epochs, hepochs, htimes⟩ := bind_eq_ok.mp htimes
  obtain rfl := Except.ok.inj htimes
  have hcount := (length_of_validateTimestamps hepochs).trans (of_require hlength)
  have hpos := length_pos_iff.mpr hne
  change (gapsBefore epochs).length = close.length
  rw [gapsBefore, length_cons, length_zipWith, length_tail, hcount]
  omega

end

end Sides

/-! ## The mirror image -/

section

variable {F : Type} [Field F] [LinearOrder F]

def SwingKind.flip : SwingKind → SwingKind
  | .swingHigh => .swingLow
  | .swingLow => .swingHigh

def TrendLabel.flip : TrendLabel → TrendLabel
  | .unknown => .unknown
  | .bullish => .bearish
  | .bearish => .bullish

def SwingPoint.mirror (p : SwingPoint F) : SwingPoint F :=
  { p with kind := p.kind.flip, price := -p.price }

def StructureBreak.mirror (b : StructureBreak F) : StructureBreak F :=
  { b with direction := b.direction.flip, level := -b.level, breakPrice := -b.breakPrice }

/-- Negated prices, high and low exchanged. -/
def Series.mirror (s : Series F) : Series F :=
  { s with
    high := s.low.map (-·)
    low := s.high.map (-·)
    close := s.close.map (-·) }

/-- The variables of two runs with mirrored series; of a bar that confirms both sides, the
swings are listed with the high first in both. -/
structure Mirrors (st st' : Detection F) : Prop where
  swings : st'.swings.Perm (st.swings.map SwingPoint.mirror)
  breaks : st'.breaks = st.breaks.map StructureBreak.mirror
  ambiguous : st'.ambiguous = st.ambiguous
  active : ∀ dir, st'.active dir.flip = (st.active dir).map SwingPoint.mirror
  consumed : ∀ dir, st'.consumed dir.flip = st.consumed dir
  trend : st'.trend = -st.trend

variable [IsStrictOrderedRing F] {s : Series F} {st st' : Detection F}

omit [LinearOrder F] [IsStrictOrderedRing F] in
theorem getD_neg (xs : List F) (i : Nat) : (xs.map (-·)).getD i 0 = -xs.getD i 0 := by
  rw [getD_eq_getElem?_getD, getD_eq_getElem?_getD, getElem?_map]
  cases xs[i]? with
  | none => exact neg_zero.symm
  | some x => rfl

omit [LinearOrder F] [IsStrictOrderedRing F] in
theorem values_mirror (basis : BreakBasis) (dir : Direction) :
    s.mirror.values basis dir.flip = (s.values basis dir).map (-·) := by
  cases basis with
  | wick => cases dir with
    | bullish => rfl
    | bearish => rfl
  | close => cases dir with
    | bullish => rfl
    | bearish => rfl

theorem isConfirmedBreak_mirror (values : List F) (index : Nat) (level : F) (dir : Direction)
    (config : MarketStructureConfig F) (atr : List (Option F)) (gapBefore : List Bool) :
    isConfirmedBreak (values.map (-·)) index (-level) dir.flip config atr gapBefore =
      isConfirmedBreak values index level dir config atr gapBefore := by
  have hbuffers (observed : List F) (observedAtr : List (Option F)) :
      breakBuffers config (observed.map (-·)) observedAtr =
        breakBuffers config observed observedAtr := by
    unfold breakBuffers
    rw [map_map]
    rfl
  unfold isConfirmedBreak
  dsimp only
  rw [slice_map, hbuffers]
  split
  · rfl
  · split
    · rfl
    · cases breakBuffers config _ _ with
      | none => rfl
      | some buffers =>
        have hzip (xs : List F) : (xs.map (-·)).zip buffers =
            (xs.zip buffers).map fun q ↦ (-q.1, q.2) := by
          rw [← map_id buffers, zip_map, map_id]
          rfl
        cases dir with
        | bullish =>
          dsimp only [Direction.flip]
          rw [hzip, all_map]
          refine congrArg (List.all _) (funext fun q ↦ decide_eq_decide.mpr ?_)
          exact ⟨fun h ↦ by linarith, fun h ↦ by linarith⟩
        | bearish =>
          dsimp only [Direction.flip]
          rw [hzip, all_map]
          refine congrArg (List.all _) (funext fun q ↦ decide_eq_decide.mpr ?_)
          exact ⟨fun h ↦ by linarith, fun h ↦ by linarith⟩

theorem breaksSide_mirror (h : Mirrors st st') (d : StructureDefinition F) (index : Nat)
    (dir : Direction) :
    st'.breaksSide d s.mirror index dir.flip = st.breaksSide d s index dir := by
  unfold Detection.breaksSide
  rw [h.active, h.consumed, values_mirror]
  cases st.active dir with
  | none => rfl
  | some point =>
    unfold levelBroken
    exact congrArg (!st.consumed dir && ·) (isConfirmedBreak_mirror _ _ _ _ _ _ _)

omit [Field F] [LinearOrder F] [IsStrictOrderedRing F] in
@[simp]
theorem flip_flip (dir : Direction) : dir.flip.flip = dir := by
  cases dir with
  | bullish => rfl
  | bearish => rfl

section Breaks

variable [FloorRing F] [FloatText F] [Hashlib] (d : StructureDefinition F)

omit [IsStrictOrderedRing F] in
theorem broken_mirror (h : Mirrors st st') (index : Nat) (dir : Direction) (point : SwingPoint F) :
    Mirrors (st.broken d s index dir point)
      (st'.broken d s.mirror index dir.flip point.mirror) := by
  have htrend : dir.flip.trend = -dir.trend := by
    cases dir with
    | bullish => rfl
    | bearish => rfl
  constructor
  · simpa using h.swings
  · rw [broken_breaks, broken_breaks, h.breaks, map_append, map_singleton, htrend,
      h.trend]
    have hkind : (if -st.trend = -(-dir.trend) then StructureKind.choch else .bos) =
        if st.trend = -dir.trend then .choch else .bos := by
      simp only [neg_inj]
    rw [hkind, values_mirror]
    unfold structureBreak
    rw [getD_neg]
    rfl
  · simpa using h.ambiguous
  · simpa using h.active
  · intro side
    rw [broken_consumed, broken_consumed, h.consumed]
    cases side with
    | bullish => cases dir with
      | bullish => rfl
      | bearish => rfl
    | bearish => cases dir with
      | bullish => rfl
      | bearish => rfl
  · rw [broken_trend, broken_trend, htrend]

theorem detectBreaks_mirror (h : Mirrors st st') (index : Nat) :
    Mirrors (detectBreaks d s index st) (detectBreaks d s.mirror index st') := by
  have hside := breaksSide_mirror (s := s) h d index
  rcases detectBreaks_cases d s index st with ⟨hall, heq⟩ | ⟨hall, heq⟩ |
    ⟨dir, point, hbreak, hother, hactive, heq⟩
  · rcases detectBreaks_cases d s.mirror index st' with ⟨-, heq'⟩ | ⟨hall', -⟩ |
      ⟨dir', _, hbreak', -⟩
    · rw [heq, heq']
      exact h
    · cases (hall .bullish).symm.trans ((hside .bullish).symm.trans (hall' _))
    · rw [← flip_flip dir', hside, hall] at hbreak'
      cases hbreak'
  · rcases detectBreaks_cases d s.mirror index st' with ⟨hall', -⟩ | ⟨-, heq'⟩ |
      ⟨dir', _, -, hother', -⟩
    · cases (hall .bullish).symm.trans ((hside .bullish).symm.trans (hall' _))
    · rw [heq, heq']
      exact { h with
        ambiguous := congrArg (· ++ [index]) h.ambiguous
        active := fun dir ↦ by
          cases dir with
          | bullish => exact h.active .bullish
          | bearish => exact h.active .bearish
        consumed := fun dir ↦ by
          cases dir with
          | bullish => exact h.consumed .bullish
          | bearish => exact h.consumed .bearish }
    · rw [hside, hall] at hother'
      cases hother'
  · have hactive' := h.active dir
    rw [hactive, Option.map_some] at hactive'
    rcases detectBreaks_cases d s.mirror index st' with ⟨hall', -⟩ | ⟨hall', -⟩ |
      ⟨dir', point', hbreak', hother', hpoint, heq'⟩
    · cases hbreak.symm.trans ((hside dir).symm.trans (hall' _))
    · cases hother.symm.trans ((hside dir.flip).symm.trans (hall' _))
    · obtain rfl : dir' = dir.flip := by
        by_contra hne
        have hsame : dir' = dir := by
          cases dir with
          | bullish => cases dir' with
            | bullish => rfl
            | bearish => exact absurd rfl hne
          | bearish => cases dir' with
            | bullish => exact absurd rfl hne
            | bearish => rfl
        rw [← flip_flip dir', hside, hsame, hother] at hbreak'
        cases hbreak'
      obtain rfl := Option.some.inj (hactive'.symm.trans hpoint)
      rw [heq, heq']
      exact broken_mirror d h index dir point

end Breaks

/-! ### Pivots -/

omit [IsStrictOrderedRing F] in
theorem beyond_neg [IsStrictOrderedRing F] {dir : Direction} {x y : F} :
    dir.flip.Beyond (-x) (-y) ↔ dir.Beyond x y := by
  cases dir with
  | bullish => exact neg_lt_neg_iff
  | bearish => exact neg_lt_neg_iff

theorem strict_mirror (dir : Direction) (x : F) (xs : List F) :
    dir.flip.strict (-x) (xs.map (-·)) = dir.strict x xs := by
  rw [Bool.eq_iff_iff, strict_iff, strict_iff, forall_mem_map, ne_eq, map_eq_nil_iff]
  simp only [beyond_neg, ne_eq]

theorem pivotAt_mirror (w index : Nat) (dir : Direction) :
    pivotAt w s.mirror index dir.flip = (pivotAt w s index dir).map SwingPoint.mirror := by
  have hextremes : s.mirror.extremes dir.flip = (s.extremes dir).map (-·) := by
    cases dir with
    | bullish => rfl
    | bearish => rfl
  have hswing : dir.flip.swing = dir.swing.flip := by
    cases dir with
    | bullish => rfl
    | bearish => rfl
  unfold pivotAt
  dsimp only
  rw [hextremes, slice_map, slice_map, getD_neg, strict_mirror, strict_mirror, hswing]
  change (if _ then none else if (Online.slice s.gapBefore _ _).any id then none else _) = _
  split
  · rfl
  · split
    · rfl
    · split
      · rfl
      · rfl

omit [LinearOrder F] [IsStrictOrderedRing F] in
theorem confirm_mirror (h : Mirrors st st') (dir : Direction) (point : SwingPoint F) :
    Mirrors (st.confirm dir point) (st'.confirm dir.flip point.mirror) := by
  have hside (side : Direction) : side.flip = dir.flip ↔ side = dir := by
    cases dir with
    | bullish => cases side with
      | bullish => decide
      | bearish => decide
    | bearish => cases side with
      | bullish => decide
      | bearish => decide
  constructor
  · rw [confirm_swings, confirm_swings, map_append]
    exact h.swings.append_right _
  · simpa using h.breaks
  · simpa using h.ambiguous
  · intro side
    rw [confirm_active, confirm_active, h.active]
    simp only [hside]
    split
    · rfl
    · rfl
  · intro side
    rw [confirm_consumed, confirm_consumed, h.consumed]
    simp only [hside]
  · simpa using h.trend

omit [LinearOrder F] [IsStrictOrderedRing F] in
theorem confirm_comm (st : Detection F) (high low : SwingPoint F) {st' : Detection F}
    (h : Mirrors ((st.confirm .bearish low).confirm .bullish high) st') :
    Mirrors ((st.confirm .bullish high).confirm .bearish low) st' := by
  refine { h with
    swings := h.swings.trans (List.Perm.map _ ?_)
    active := fun dir ↦ (h.active dir).trans ?_
    consumed := fun dir ↦ (h.consumed dir).trans ?_ }
  · simp only [confirm_swings, append_assoc]
    exact (List.Perm.swap high low []).append_left st.swings
  · cases dir with
    | bullish => rfl
    | bearish => rfl
  · cases dir with
    | bullish => rfl
    | bearish => rfl

theorem confirmPivot_mirror (h : Mirrors st st') (w index : Nat) :
    Mirrors (confirmPivot w s index st) (confirmPivot w s.mirror index st') := by
  have hhigh := pivotAt_mirror (s := s) w index .bearish
  have hlow := pivotAt_mirror (s := s) w index .bullish
  rw [confirmPivot_eq, confirmPivot_eq]
  change pivotAt w s.mirror index .bullish = _ at hhigh
  change pivotAt w s.mirror index .bearish = _ at hlow
  rw [hhigh, hlow]
  cases pivotAt w s index .bullish with
  | none => cases pivotAt w s index .bearish with
    | none => exact h
    | some low => exact confirm_mirror h .bearish low
  | some high => cases pivotAt w s index .bearish with
    | none => exact confirm_mirror h .bullish high
    | some low =>
      exact confirm_comm st high low
        (confirm_mirror (confirm_mirror h .bearish low) .bullish high)

/-! ### Runs -/

section

variable [FloorRing F] [FloatText F] [Hashlib] (d : StructureDefinition F)

/-- **Runs over mirrored series mirror each other.** -/
theorem loop_mirror (n : Nat) :
    Mirrors (loop (detectBar d s) n .start) (loop (detectBar d s.mirror) n .start) := by
  induction n with
  | zero =>
    refine ⟨.nil, rfl, rfl, fun dir ↦ ?_, fun dir ↦ ?_, neg_zero.symm⟩
    · cases dir with
      | bullish => rfl
      | bearish => rfl
    · cases dir with
      | bullish => rfl
      | bearish => rfl
  | succ n ih =>
    rw [loop_succ, loop_succ]
    exact confirmPivot_mirror (detectBreaks_mirror d ih n) d.swingWindow n

end

/-! ### Inputs -/

section

variable {high low close : List F}

omit [LinearOrder F] [IsStrictOrderedRing F] in
theorem zip_neg (xs ys : List F) : (xs.map (-·)).zip (ys.map (-·)) =
    (ys.zip xs).map fun q ↦ (-q.2, -q.1) := by
  rw [← zip_swap, zip_map, map_map]
  rfl

omit [IsStrictOrderedRing F] in
theorem trueRange_mirror : trueRange (low.map (-·)) (high.map (-·)) (close.map (-·)) =
    trueRange high low close := by
  have hprevious : previousClose (close.map (-·)) = (previousClose close).map (-·) := by
    cases close with
    | nil => rfl
    | cons c close =>
      unfold previousClose
      rw [map_cons, map_cons, ← map_cons, map_dropLast]
      rfl
  unfold trueRange
  rw [hprevious, zip_neg, zip_map, map_map]
  refine map_congr_left fun q _ ↦ ?_
  obtain ⟨⟨h, l⟩, p⟩ := q
  change max (-l - -h) (max |-l - -p| |-h - -p|) = max (h - l) (max |h - p| |l - p|)
  rw [neg_sub_neg, neg_sub_neg, neg_sub_neg, abs_sub_comm p l, abs_sub_comm p h,
    max_comm |l - p| |h - p|]

omit [IsStrictOrderedRing F] in
theorem atr_mirror (period : Nat) : atr (low.map (-·)) (high.map (-·)) (close.map (-·)) period =
    atr high low close period := by
  unfold atr
  rw [trueRange_mirror, length_map]

theorem validateOhlc_mirror (h : validateOhlc high low close = .ok ()) :
    validateOhlc (low.map (-·)) (high.map (-·)) (close.map (-·)) = .ok () := by
  obtain ⟨⟨hhigh, hlow⟩, hne, hbars, hclose⟩ := validateOhlc_eq_ok.mp h
  rw [validateOhlc_eq_ok, zip_neg, zip_map]
  refine ⟨?_, ?_, ?_, ?_⟩
  · simp only [length_map, hhigh, hlow, and_self]
  · rwa [ne_eq, map_eq_nil_iff]
  · rw [forall_mem_map]
    intro bar hbar
    rw [neg_lt_neg_iff]
    exact hbars bar hbar
  · rw [forall_mem_map]
    intro bar hbar
    obtain ⟨hup, hdown⟩ := hclose bar hbar
    refine ⟨?_, ?_⟩
    · simpa using hdown
    · simpa using hup

end

end

/-! ## Results -/

section

variable {F : Type} [Field F] [LinearOrder F]

structure WellFormedEvents (d : StructureDefinition F) (r : MarketStructureResult F) : Prop where
  level_once : r.breaks.Pairwise fun b b' ↦
    ¬ (b.direction = b'.direction ∧ b.pivotIndex = b'.pivotIndex)
  pivot : ∀ b ∈ r.breaks, ∃ p ∈ r.swings, b.Breaks p
  confirmed_earlier : ∀ b ∈ r.breaks, b.pivotConfirmedIndex < b.breakIndex
  window_after : ∀ b ∈ r.breaks, ∀ j, b.breakIndex + 1 ≤ j + d.confirmationBars →
    b.pivotConfirmedIndex < j
  one_break : r.breaks.Pairwise fun b b' ↦ b.breakIndex ≠ b'.breakIndex
  not_ambiguous : ∀ b ∈ r.breaks, b.breakIndex ∉ r.ambiguousBreakIndices
  first_bos : ∀ b ∈ r.breaks.head?, b.kind = .bos
  choch_iff : r.breaks.IsChain fun b b' ↦ b'.kind = .choch ↔ b'.direction ≠ b.direction
  swing_window : ∀ p ∈ r.swings, d.swingWindow ≤ p.pivotIndex ∧
    p.confirmedIndex = p.pivotIndex + d.swingWindow ∧ p.confirmedIndex < r.rows
  swing_no_gap : ∀ p ∈ r.swings, ∀ i ∈ r.gapIndices,
    ¬ (p.pivotIndex < i + d.swingWindow ∧ i ≤ p.confirmedIndex)

structure MirrorResults (r r' : MarketStructureResult F) : Prop where
  variantId : r'.variantId = r.variantId
  definitionId : r'.definitionId = r.definitionId
  rows : r'.rows = r.rows
  swings : r'.swings.Perm (r.swings.map SwingPoint.mirror)
  breaks : r'.breaks = r.breaks.map StructureBreak.mirror
  ambiguous : r'.ambiguousBreakIndices = r.ambiguousBreakIndices
  gaps : r'.gapIndices = r.gapIndices
  trend : r'.finalTrend = r.finalTrend.flip

theorem mem_flatnonzero {flags : List Bool} {i : Nat} (h : i ∈ flatnonzero flags) :
    flags.getD i false = true := (mem_filter.mp h).2

def trendLabel (trend : Int) : TrendLabel :=
  if trend = 1 then .bullish else if trend = -1 then .bearish else .unknown

theorem trendLabel_neg (trend : Int) : trendLabel (-trend) = (trendLabel trend).flip := by
  unfold trendLabel
  by_cases hup : trend = 1
  · subst hup
    rfl
  · by_cases hdown : trend = -1
    · subst hdown
      rfl
    · rw [if_neg (by omega), if_neg (by omega), if_neg hup, if_neg hdown]
      rfl

variable [IsStrictOrderedRing F] [FloorRing F] [FloatText F] [Hashlib]

/-- **Market structure events are well formed, and those of the mirror image are the mirrored
events.** -/
theorem market_structure_events {high low close : List F} {config : StructureConfig F}
    {timestamps : Option (List Timestamp)} {result : MarketStructureResult F}
    (h : detectMarketStructure high low close config timestamps = .ok result) :
    WellFormedEvents config.resolved result ∧
      ∃ result', detectMarketStructure (low.map (-·)) (high.map (-·)) (close.map (-·)) config
          timestamps = .ok result' ∧ MirrorResults result result' := by
  unfold detectMarketStructure at h
  obtain ⟨_, hohlc, h⟩ := bind_eq_ok.mp h
  obtain ⟨gapBefore, htimes, h⟩ := bind_eq_ok.mp h
  obtain rfl := Except.ok.inj h
  let d := config.resolved
  let s : Series F := ⟨high, low, close, atr high low close d.atrPeriod, gapBefore⟩
  have hs : s.Sound := sound_of_accepted hohlc d.atrPeriod_ok htimes
  have hst := (wellFormed_loop (d := d) hs close.length (le_refl _)).1
  have hmirror := loop_mirror (s := s) d close.length
  constructor
  · exact {
      level_once := hst.ordered.imp fun hlt heq ↦ (hlt.2 heq.1).ne heq.2
      pivot := fun b hb ↦ (hst.breaks b hb).2.2
      confirmed_earlier := fun b hb ↦ by
        have hwindow := (hst.breaks b hb).2.1
        have hbars := d.confirmationBars_ok
        omega
      window_after := fun b hb j hj ↦ by
        have hwindow : b.pivotConfirmedIndex + config.resolved.confirmationBars ≤ b.breakIndex :=
          (hst.breaks b hb).2.1
        omega
      one_break := hst.ordered.imp fun hlt ↦ hlt.1.ne
      not_ambiguous := fun b hb hi ↦ (hst.ambiguous _ hi).2 b hb rfl
      first_bos := hst.first
      choch_iff := hst.turns
      swing_window := fun p hp ↦ by
        obtain ⟨dir, hpivot⟩ := hst.swings p hp
        exact ⟨hpivot.left, hpivot.confirmed, hpivot.inside⟩
      swing_no_gap := fun p hp i hi hin ↦ by
        obtain ⟨dir, hpivot⟩ := hst.swings p hp
        have hgap := mem_flatnonzero hi
        have hno := hpivot.no_gap i hin.1 hin.2
        rw [hgap] at hno
        cases hno }
  · unfold detectMarketStructure
    rw [validateOhlc_mirror hohlc, length_map, htimes]
    refine ⟨_, rfl, ?_⟩
    rw [atr_mirror]
    exact {
      variantId := rfl
      definitionId := rfl
      rows := rfl
      swings := hmirror.swings
      breaks := hmirror.breaks
      ambiguous := hmirror.ambiguous
      gaps := rfl
      trend := (congrArg trendLabel hmirror.trend).trans (trendLabel_neg _) }

end

/-! ## A series of minutes -/

namespace Sample

local instance eventsFloatText : FloatText ℚ where
  kind _ := .finite
  repr x := (toString x).toList
  ofText _ := 0
  nan := 0
  posInf := 0
  negInf := 0

local instance eventsHashlib : Hashlib where
  sha256 _ := ⟨"0", isHex_zero⟩

/-- The high of the third bar is broken by the last, and its mirror image by the same bar. -/
theorem break_mirrored : ∃ result,
    detectMarketStructure high low close (.config config) (some minutes) = .ok result ∧
    result.breaks.map StructureBreak.breakIndex = [6] ∧
    WellFormedEvents (StructureConfig.config config).resolved result ∧
    ∃ result', detectMarketStructure (low.map (-·)) (high.map (-·)) (close.map (-·))
      (.config config) (some minutes) = .ok result' ∧ MirrorResults result result' := by
  have h : detectMarketStructure high low close (.config config) (some minutes) = .ok _ := rfl
  exact ⟨_, h, by decide +kernel, market_structure_events h⟩

end Sample

end Qros.QuantEngine.Technical
