import Mathlib.Tactic.Linarith
import Qros.Orchestration.XauusdLabels

/-!
# Symmetry and locality of the triple-barrier labels

In exact arithmetic a long position over some bars and a short one over their mirror image at a
price `a` have one outcome.  Whatever the arithmetic, a label depends on the bars of its own
horizon alone.
-/

namespace Qros.Orchestration

open Qros.Lib Qros.Python List

/-! ## The mirror image of bars -/

section

variable {F : Type} [Field F] [LinearOrder F] [IsFinite F] (a : F)

/-- `p'` is the mirror image of the price `p` at `a`. -/
def Opposite (p p' : F) : Prop := p + p' = a + a

structure MirrorBar (bar bar' : OHLCBar F) : Prop where
  timestamp : bar'.timestamp = bar.timestamp
  «open» : Opposite a bar.open bar'.open
  high : Opposite a bar.high bar'.low
  low : Opposite a bar.low bar'.high
  close : Opposite a bar.close bar'.close

variable {a} [IsStrictOrderedRing F]

omit [IsFinite F] in
theorem Opposite.le_iff {p p' q q' : F} (hp : Opposite a p p') (hq : Opposite a q q') :
    p ≤ q ↔ q' ≤ p' := by
  unfold Opposite at hp hq
  constructor <;> intro <;> linarith

omit [LinearOrder F] [IsFinite F] [IsStrictOrderedRing F] in
theorem Opposite.add {p p' : F} (h : Opposite a p p') (d : F) : Opposite a (p + d) (p' - d) := by
  unfold Opposite at h ⊢
  rw [add_add_sub_cancel, h]

omit [LinearOrder F] [IsFinite F] [IsStrictOrderedRing F] in
theorem Opposite.sub {p p' : F} (h : Opposite a p p') (d : F) : Opposite a (p - d) (p' + d) := by
  unfold Opposite at h ⊢
  rw [sub_add_add_cancel, h]

variable {direction : Int}

omit [IsStrictOrderedRing F] in
theorem barriers_mirror (spec : OutcomeSpec F) (hdir : direction = -1 ∨ direction = 1)
    {entry entry' : F} (h : Opposite a entry entry') (eventAtr : F) :
    Opposite a (barriers spec direction entry eventAtr).1
        (barriers spec (-direction) entry' eventAtr).1 ∧
      Opposite a (barriers spec direction entry eventAtr).2
        (barriers spec (-direction) entry' eventAtr).2 := by
  rcases hdir with rfl | rfl
  · exact ⟨h.sub _, h.add _⟩
  · exact ⟨h.add _, h.sub _⟩

theorem touches_mirror (hdir : direction = -1 ∨ direction = 1) {tp tp' sl sl' : F}
    (htp : Opposite a tp tp') (hsl : Opposite a sl sl') {bar bar' : OHLCBar F}
    (hbar : MirrorBar a bar bar') :
    touches (-direction) tp' sl' bar' = touches direction tp sl bar := by
  rcases hdir with rfl | rfl
  · unfold touches
    rw [neg_neg, if_pos rfl, if_neg (by decide)]
    simp only [ge_iff_le, ← hbar.open.le_iff htp, ← hsl.le_iff hbar.open, ← hbar.low.le_iff htp,
      ← hsl.le_iff hbar.high]
  · unfold touches
    rw [if_neg (by decide), if_pos rfl]
    simp only [ge_iff_le, ← htp.le_iff hbar.open, ← hbar.open.le_iff hsl, ← htp.le_iff hbar.high,
      ← hbar.low.le_iff hsl]

variable {bars bars' : List (OHLCBar F)}

theorem resolve_mirror (policy : AmbiguousTouchPolicy) (hdir : direction = -1 ∨ direction = 1)
    {tp tp' sl sl' : F} (htp : Opposite a tp tp') (hsl : Opposite a sl sl')
    (hbars : List.Forall₂ (MirrorBar a) bars bars') (held : Nat) :
    (resolve policy (-direction) tp' sl' bars' held).map
        (fun r ↦ (r.1, r.2.2.1.timestamp, r.2.2.2)) =
      (resolve policy direction tp sl bars held).map
        (fun r ↦ (r.1, r.2.2.1.timestamp, r.2.2.2)) := by
  induction hbars generalizing held with
  | nil => rfl
  | cons hbar hlater ih =>
    rename_i bar bar' later later'
    have hnil : later' = [] ↔ later = [] := by
      rw [← length_eq_zero_iff, ← length_eq_zero_iff, hlater.length_eq]
    rw [resolve, resolve, touches_mirror hdir htp hsl hbar]
    simp only [hnil]
    split_ifs
    all_goals simp only [Option.map_some, Option.map_none, hbar.timestamp, ih]

omit [IsStrictOrderedRing F] in
theorem scan_labelAt {spec : OutcomeSpec F} {bars : List (OHLCBar F)} {atr : List (Option F)}
    {index : Nat} {eventAtr : F} {entryBar : OHLCBar F}
    (hatr : atr[index]? = some (some eventAtr)) (hentry : bars[index + 1]? = some entryBar)
    (hfits : index + spec.maxHoldingBars < bars.length) :
    (labelAt spec bars atr index (some direction)).map
        (fun l ↦ (l.outcome, l.exitTime, l.barsHeld)) =
      (resolve spec.ambiguousTouchPolicy direction
        (barriers spec direction entryBar.open eventAtr).1
        (barriers spec direction entryBar.open eventAtr).2
        ((bars.drop (index + 1)).take spec.maxHoldingBars) 0).map
          (fun r ↦ (r.1, r.2.2.1.timestamp, r.2.2.2)) := by
  have hsignal : bars[index]? = some bars[index] := getElem?_eq_getElem (by omega)
  simp only [labelAt, Option.bind_eq_bind, Option.bind_some, if_neg (not_le.mpr hfits), hatr,
    hsignal, hentry]
  obtain ⟨takeProfit, stopLoss⟩ := barriers spec direction entryBar.open eventAtr
  cases resolve spec.ambiguousTouchPolicy direction takeProfit stopLoss
    ((bars.drop (index + 1)).take spec.maxHoldingBars) 0 with
  | none => rfl
  | some resolved => rfl

theorem labelAt_mirror (spec : OutcomeSpec F) (hbars : List.Forall₂ (MirrorBar a) bars bars')
    (atr : List (Option F)) (index : Nat) {direction : Option Int}
    (hdir : ∀ d ∈ direction, d = -1 ∨ d = 1) :
    (labelAt spec bars' atr index (direction.map Neg.neg)).map
        (fun l ↦ (l.outcome, l.exitTime, l.barsHeld)) =
      (labelAt spec bars atr index direction).map
        (fun l ↦ (l.outcome, l.exitTime, l.barsHeld)) := by
  cases direction with
  | none => rfl
  | some d =>
    have hlen := hbars.length_eq
    by_cases hfits : index + spec.maxHoldingBars < bars.length
    · have hfits' := hfits.trans_eq hlen
      have hpos := spec.holding_pos
      have hentry := hbars.get (i := index + 1) (by omega) (by omega)
      rcases hatr : atr[index]? with _ | _ | eventAtr
      · simp [labelAt, hlen, hatr]
      · simp [labelAt, hlen, hatr]
      · rw [Option.map_some, scan_labelAt hatr (getElem?_eq_getElem (by omega)) hfits',
          scan_labelAt hatr (getElem?_eq_getElem (by omega)) hfits]
        obtain ⟨htp, hsl⟩ := barriers_mirror spec (hdir d rfl) hentry.open eventAtr
        exact resolve_mirror spec.ambiguousTouchPolicy (hdir d rfl) htp hsl
          (forall₂_take spec.maxHoldingBars (forall₂_drop (index + 1) hbars)) 0
    · simp [labelAt, ← hlen, not_lt.mp hfits]

omit [IsStrictOrderedRing F] in
theorem timestamps_mirror (hbars : List.Forall₂ (MirrorBar a) bars bars') :
    bars'.map OHLCBar.timestamp = bars.map OHLCBar.timestamp := by
  induction hbars with
  | nil => rfl
  | cons hbar _ ih => rw [map_cons, map_cons, hbar.timestamp, ih]

end

section Label

variable {F : Type} [LinearOrder F] [Zero F] [IsFinite F]

theorem increasing_iff (bars : List (OHLCBar F)) :
    (∀ p ∈ bars.zip bars.tail, p.1.timestamp < p.2.timestamp) ↔
      ∀ p ∈ (bars.map OHLCBar.timestamp).zip (bars.map OHLCBar.timestamp).tail, p.1 < p.2 := by
  rw [← map_tail, zip_map, forall_mem_map]
  rfl

theorem opposite_ok (directions : List (Option Int)) :
    (∀ direction ∈ directions.map (Option.map Neg.neg), ∀ d ∈ direction, d = -1 ∨ d = 1) ↔
      ∀ direction ∈ directions, ∀ d ∈ direction, d = -1 ∨ d = 1 := by
  rw [forall_mem_map]
  refine forall₂_congr fun direction _ ↦ ?_
  cases direction with
  | none => exact iff_of_true (fun _ h ↦ (by cases h)) fun _ h ↦ (by cases h)
  | some d =>
    simp only [Option.map_some, Option.mem_some_iff, forall_eq']
    omega

variable [Add F] [Sub F] [Mul F]

theorem labelOhlcTripleBarrier_eq_ok {bars : List (OHLCBar F)} {directions : List (Option Int)}
    {atr : List (Option F)} {spec : OutcomeSpec F} {labels : List (Option (OHLCBarrierLabel F))}
    (h : labelOhlcTripleBarrier bars directions atr spec = .ok labels) :
    labels = directions.mapIdx (labelAt spec bars atr) := by
  obtain ⟨_, -, h⟩ := bind_eq_ok.mp h
  obtain ⟨_, -, h⟩ := bind_eq_ok.mp h
  obtain ⟨_, -, h⟩ := bind_eq_ok.mp h
  obtain ⟨_, -, h⟩ := bind_eq_ok.mp h
  exact (Except.ok.inj h).symm

theorem labelAt_local {spec : OutcomeSpec F} {bars bars' : List (OHLCBar F)}
    {atr atr' : List (Option F)} {index : Nat} (direction : Option Int)
    (hatr : atr[index]? = atr'[index]?)
    (hbars : ∀ k ≤ spec.maxHoldingBars, bars[index + k]? = bars'[index + k]?) :
    labelAt spec bars atr index direction = labelAt spec bars' atr' index direction := by
  have hend : index + spec.maxHoldingBars ≥ bars.length ↔
      index + spec.maxHoldingBars ≥ bars'.length := by
    rw [ge_iff_le, ge_iff_le, ← getElem?_eq_none_iff, hbars _ le_rfl,
      getElem?_eq_none_iff]
  have hwindow : (bars.drop (index + 1)).take spec.maxHoldingBars =
      (bars'.drop (index + 1)).take spec.maxHoldingBars := by
    refine ext_getElem? fun k ↦ ?_
    rw [List.getElem?_take, List.getElem?_take]
    split_ifs with hk
    · rw [getElem?_drop, getElem?_drop, Nat.add_assoc, Nat.add_comm 1]
      exact hbars (k + 1) hk
    · rfl
  have hsignal : bars[index]? = bars'[index]? := hbars 0 (Nat.zero_le _)
  have hentry : bars[index + 1]? = bars'[index + 1]? := hbars 1 spec.holding_pos
  simp only [labelAt, hend, hwindow, hatr, hsignal, hentry]

end Label

/-- In exact arithmetic the opposite positions over mirrored bars get the same outcomes, exit
times and bars held; and in any arithmetic a label depends on the ATR and the direction of its
signal and the bars from there to the end of the horizon. -/
theorem labels_mirror_and_local :
    (∀ {F : Type} [Field F] [LinearOrder F] [IsStrictOrderedRing F] [IsFinite F] (a : F)
      (bars bars' : List (OHLCBar F)) (directions : List (Option Int)) (atr : List (Option F))
      (spec : OutcomeSpec F), List.Forall₂ (MirrorBar a) bars bars' →
      (labelOhlcTripleBarrier bars' (directions.map (Option.map Neg.neg)) atr spec).map
          (List.map (Option.map fun l ↦ (l.outcome, l.exitTime, l.barsHeld))) =
        (labelOhlcTripleBarrier bars directions atr spec).map
          (List.map (Option.map fun l ↦ (l.outcome, l.exitTime, l.barsHeld)))) ∧
    ∀ {F : Type} [LinearOrder F] [Zero F] [IsFinite F] [Add F] [Sub F] [Mul F]
      (bars bars' : List (OHLCBar F)) (directions directions' : List (Option Int))
      (atr atr' : List (Option F)) (spec : OutcomeSpec F)
      (labels labels' : List (Option (OHLCBarrierLabel F))) (i : Nat),
      labelOhlcTripleBarrier bars directions atr spec = .ok labels →
      labelOhlcTripleBarrier bars' directions' atr' spec = .ok labels' →
      atr[i]? = atr'[i]? → directions[i]? = directions'[i]? →
      (∀ k ≤ spec.maxHoldingBars, bars[i + k]? = bars'[i + k]?) → labels[i]? = labels'[i]? := by
  constructor
  · intro F _ _ _ _ a bars bars' directions atr spec hbars
    unfold labelOhlcTripleBarrier require
    have hlen := hbars.length_eq
    have hincreasing : (∀ p ∈ bars'.zip bars'.tail, p.1.timestamp < p.2.timestamp) ↔
        ∀ p ∈ bars.zip bars.tail, p.1.timestamp < p.2.timestamp := by
      rw [increasing_iff, increasing_iff, timestamps_mirror hbars]
    simp only [length_map, hlen, hincreasing, opposite_ok]
    dsimp only [bind, Except.bind]
    split_ifs with _ _ _ hdir
    · refine congrArg Except.ok (ext_getElem? fun i ↦ ?_)
      simp only [getElem?_map, getElem?_mapIdx, Option.map_map]
      cases hd : directions[i]? with
      | none => rfl
      | some direction =>
        exact congrArg some (labelAt_mirror spec hbars atr i
          (hdir direction (mem_of_getElem? hd)))
    all_goals rfl
  · intro F _ _ _ _ _ _ bars bars' directions directions' atr atr' spec labels labels' i h h'
      hatr hdirection hbars
    rw [labelOhlcTripleBarrier_eq_ok h, labelOhlcTripleBarrier_eq_ok h', getElem?_mapIdx,
      getElem?_mapIdx, hdirection]
    exact congrArg (directions'[i]?.map ·) (funext fun d ↦ labelAt_local d hatr hbars)

/-! ## A long position and its mirror image -/

def upBar (timestamp : Int) : OHLCBar ℚ where
  timestamp := timestamp
  «open» := 100
  high := 102
  low := 99
  close := 101
  prices_ok := by decide +kernel
  high_ok := by decide +kernel
  low_ok := by decide +kernel

def downBar (timestamp : Int) : OHLCBar ℚ where
  timestamp := timestamp
  «open» := 100
  high := 101
  low := 98
  close := 99
  prices_ok := by decide +kernel
  high_ok := by decide +kernel
  low_ok := by decide +kernel

def oneBarSpec : OutcomeSpec ℚ where
  takeProfitAtr := 2
  stopLossAtr := 2
  maxHoldingBars := 1
  ambiguousTouchPolicy := .exclude
  version := "outcome-v1"
  takeProfit_ok := by decide +kernel
  stopLoss_ok := by decide +kernel
  holding_pos := Nat.one_pos

theorem mirrorBar_up (timestamp : Int) : MirrorBar 100 (upBar timestamp) (downBar timestamp) :=
  ⟨rfl, by norm_num [Opposite, upBar, downBar], by norm_num [Opposite, upBar, downBar],
    by norm_num [Opposite, upBar, downBar], by norm_num [Opposite, upBar, downBar]⟩

theorem labels_mirror_and_local_sample :
    (labelOhlcTripleBarrier [downBar 0, downBar 1] ([some 1, none].map (Option.map Neg.neg))
        [some 1, none] oneBarSpec).map
          (List.map (Option.map fun l ↦ (l.outcome, l.exitTime, l.barsHeld))) =
      (labelOhlcTripleBarrier [upBar 0, upBar 1] [some 1, none] [some 1, none] oneBarSpec).map
        (List.map (Option.map fun l ↦ (l.outcome, l.exitTime, l.barsHeld))) :=
  labels_mirror_and_local.1 100 [upBar 0, upBar 1] [downBar 0, downBar 1] [some 1, none]
    [some 1, none] oneBarSpec (.cons (mirrorBar_up 0) (.cons (mirrorBar_up 1) .nil))

end Qros.Orchestration
