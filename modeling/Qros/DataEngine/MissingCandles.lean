import Qros.Python.Builtins
import Qros.Python.Datetime

/-!
# Missing candles

`MissingCandleDetector` of `data_engine/validator.py` and `Timeframe` of
`data_engine/contracts.py`.  Times are in UTC.

A bar is looked for until the tolerance before the next record.  With the default of a minute
that leaves out the last missing bar of a gap in candles of a minute (`detect_exact_iff`).
-/

namespace Qros.DataEngine.MissingCandles

open Qros.Lib Qros.Python List

/-! ## Timeframes -/

inductive Timeframe where
  | tick
  | m1
  | m5
  | m15
  | m30
  | h1
  | h4
  | d1
  | w1
  | mn1
deriving DecidableEq

namespace Timeframe

def mapping : List (String × Timeframe) :=
  [("tick", .tick), ("1m", .m1), ("1min", .m1), ("minute", .m1), ("5m", .m5), ("5min", .m5),
    ("15m", .m15), ("15min", .m15), ("30m", .m30), ("30min", .m30), ("1h", .h1),
    ("1hour", .h1), ("hour", .h1), ("4h", .h4), ("4hour", .h4), ("1d", .d1), ("1day", .d1),
    ("daily", .d1), ("day", .d1), ("1w", .w1), ("1week", .w1), ("weekly", .w1), ("week", .w1),
    ("1mo", .mn1), ("1month", .mn1), ("monthly", .mn1), ("month", .mn1)]

/-- `from_string`, where `lower` is `str.lower`; there is no value where it raises. -/
def fromString (lower : String → String) (value : String) : Option Timeframe :=
  mapping.lookup (strip (lower value))

def toSeconds : Timeframe → Nat
  | tick => 0
  | m1 => 60
  | m5 => 300
  | m15 => 900
  | m30 => 1800
  | h1 => 3600
  | h4 => 14400
  | d1 => 86400
  | w1 => 604800
  | mn1 => 2592000

end Timeframe

/-! ## The detector -/

def seconds (n : Int) : Int := n * 1000000

structure Record where
  timestamp : Option Utc

structure MissingCandleDetector where
  toleranceSeconds : Int := 60

def fill (step : Nat) (hstep : 0 < step) (bound current : Utc) : Except String (List Utc) :=
  if current < bound then
    match _h : current.add (seconds step) with
    | .error e => .error e
    | .ok next => (current :: ·) <$> fill step hstep bound next
  else .ok []
termination_by (bound.micros - current.micros).toNat
decreasing_by
  have hnext := Utc.add_eq_ok.mp _h
  rename_i hlt
  rw [Utc.lt_iff] at hlt
  unfold seconds at hnext
  omega

namespace MissingCandleDetector

variable (detector : MissingCandleDetector) (step : Nat) (hstep : 0 < step)

/-- What is reported between two records. -/
def between (prev curr : Utc) : Except String (List Utc) := do
  let current ← prev.add (seconds step)
  let bound ← curr.add (-seconds detector.toleranceSeconds)
  fill step hstep bound current

/-- The outer loop. -/
def scan : List Record → Except String (List Utc)
  | prev :: curr :: rest => do
      let missing ← match prev.timestamp, curr.timestamp with
        | some p, some c => detector.between step hstep p c
        | _, _ => .ok []
      let later ← scan (curr :: rest)
      return missing ++ later
  | _ => .ok []

def detect (lower : String → String) (records : List Record) (timeframe : String) :
    Except String (List Utc) :=
  if records.length < 2 then .ok []
  else match Timeframe.fromString lower timeframe with
    | none => .ok []
    | some tf =>
      if h : 0 < tf.toSeconds then detector.scan tf.toSeconds h records
      else .ok []

end MissingCandleDetector

/-! ## The inner loop -/

def OnGrid (step : Nat) (t u : Utc) : Prop := seconds step ∣ u.micros - t.micros

section Fill

variable {step : Nat} {hstep : 0 < step} {bound current : Utc} {missing : List Utc}

theorem seconds_pos (hstep : 0 < step) : 0 < seconds step := by
  unfold seconds
  omega

theorem onGrid_next {next t : Utc} (h : next.micros = current.micros + seconds step) :
    OnGrid step next t ↔ OnGrid step current t := by
  have hdiff : t.micros - next.micros = t.micros - current.micros - seconds step := by omega
  rw [OnGrid, OnGrid, hdiff, dvd_sub_self_right]

theorem OnGrid.trans {t u v : Utc} (h : OnGrid step t u) (h' : OnGrid step u v) :
    OnGrid step t v := by
  have hsum : v.micros - t.micros = u.micros - t.micros + (v.micros - u.micros) := by omega
  rw [OnGrid, hsum]
  exact dvd_add h h'

theorem OnGrid.step_le {t u : Utc} (h : OnGrid step t u) (hlt : t < u) :
    t.micros + seconds step ≤ u.micros := by
  rw [Utc.lt_iff] at hlt
  have := Int.le_of_dvd (by omega) h
  omega

theorem fill_of_le (h : bound ≤ current) : fill step hstep bound current = .ok [] := by
  rw [fill, if_neg (not_lt.mpr h)]

theorem fill_of_lt (h : current < bound) :
    fill step hstep bound current =
      (do let next ← current.add (seconds step)
          let missing ← fill step hstep bound next
          return current :: missing) := by
  rw [fill, if_pos h]
  split
  · rename_i e hadd
    rw [hadd]
    rfl
  · rename_i next hadd
    rw [hadd]
    rfl

theorem fill_ok (h : fill step hstep bound current = .ok missing) :
    missing.Pairwise (· < ·) ∧
      ∀ t, t ∈ missing ↔ current ≤ t ∧ t < bound ∧ OnGrid step current t := by
  induction current using fill.induct step hstep bound generalizing missing with
  | case1 current hlt e hadd =>
    rw [fill_of_lt hlt, hadd] at h
    cases h
  | case2 current hlt next hadd ih =>
    rw [fill_of_lt hlt, hadd] at h
    change (do let later ← fill step hstep bound next; return current :: later) = _ at h
    obtain ⟨later, hlater, h⟩ := bind_eq_ok.mp h
    obtain rfl := Except.ok.inj h
    obtain ⟨hsorted, hmem⟩ := ih hlater
    have hnext := Utc.add_eq_ok.mp hadd
    have hpos := seconds_pos hstep
    constructor
    · refine pairwise_cons.mpr ⟨fun t ht ↦ ?_, hsorted⟩
      have := ((hmem t).mp ht).1
      rw [Utc.le_iff] at this
      rw [Utc.lt_iff]
      omega
    · intro t
      rw [mem_cons, hmem, onGrid_next hnext]
      constructor
      · rintro (rfl | ⟨hle, hbound, hgrid⟩)
        · exact ⟨le_refl _, hlt, by simp [OnGrid]⟩
        · rw [Utc.le_iff] at hle
          exact ⟨Utc.le_iff.mpr (by omega), hbound, hgrid⟩
      · rintro ⟨hle, hbound, hgrid⟩
        rcases eq_or_lt_of_le hle with rfl | hcurrent
        · exact .inl rfl
        · have := hgrid.step_le hcurrent
          exact .inr ⟨Utc.le_iff.mpr (by omega), hbound, hgrid⟩
  | case3 current hge =>
    rw [fill_of_le (not_lt.mp hge)] at h
    obtain rfl := Except.ok.inj h
    refine ⟨List.Pairwise.nil, fun t ↦ iff_of_false not_mem_nil ?_⟩
    rintro ⟨hle, hbound, -⟩
    exact hge (lt_of_le_of_lt hle hbound)

theorem exists_fill_eq_ok {last : Utc} (hlast : bound ≤ last) (hle : current ≤ last)
    (hgrid : OnGrid step current last) :
    ∃ missing, fill step hstep bound current = .ok missing := by
  induction current using fill.induct step hstep bound with
  | case1 current hlt e hadd =>
    have hstep_le := hgrid.step_le (lt_of_lt_of_le hlt hlast)
    have hpos := seconds_pos hstep
    have hlow := current.property.1
    have hhigh := last.property.2
    change -62135596800000000 ≤ current.micros at hlow
    change last.micros ≤ 253402300799999999 at hhigh
    rw [Utc.add, dif_pos ⟨by omega, by omega⟩] at hadd
    cases hadd
  | case2 current hlt next hadd ih =>
    have hnext := Utc.add_eq_ok.mp hadd
    have hstep_le := hgrid.step_le (lt_of_lt_of_le hlt hlast)
    obtain ⟨later, hlater⟩ := ih (Utc.le_iff.mpr (by omega)) ((onGrid_next hnext).mpr hgrid)
    refine ⟨current :: later, ?_⟩
    rw [fill_of_lt hlt, hadd]
    change (do let later ← fill step hstep bound next; return current :: later) = _
    exact bind_eq_ok.mpr ⟨later, hlater, rfl⟩
  | case3 current hge => exact ⟨[], fill_of_le (not_lt.mp hge)⟩

end Fill

/-! ## Two records -/

/-- The absent points of the grid between two records. -/
def IsGap (step : Nat) (prev curr t : Utc) : Prop := prev < t ∧ t < curr ∧ OnGrid step prev t

/-- Each of the points once, in order. -/
def Lists (missing : List Utc) (absent : Utc → Prop) : Prop :=
  missing.Pairwise (· < ·) ∧ ∀ t, t ∈ missing ↔ absent t

section Between

variable {detector : MissingCandleDetector} {step : Nat} {hstep : 0 < step} {prev curr : Utc}
  {missing : List Utc}

theorem between_ok (h : detector.between step hstep prev curr = .ok missing) :
    Lists missing fun t ↦ prev < t ∧
      t.micros < curr.micros - seconds detector.toleranceSeconds ∧ OnGrid step prev t := by
  obtain ⟨current, hcurrent, h⟩ := bind_eq_ok.mp h
  obtain ⟨bound, hbound, h⟩ := bind_eq_ok.mp h
  rw [Utc.add_eq_ok] at hcurrent hbound
  obtain ⟨hsorted, hmem⟩ := fill_ok h
  refine ⟨hsorted, fun t ↦ ?_⟩
  have hpos := seconds_pos hstep
  rw [hmem, onGrid_next hcurrent, Utc.le_iff, Utc.lt_iff]
  constructor
  · rintro ⟨hle, hlt, hgrid⟩
    exact ⟨Utc.lt_iff.mpr (by omega), by omega, hgrid⟩
  · rintro ⟨hlt, hlt', hgrid⟩
    have := hgrid.step_le hlt
    exact ⟨by omega, by omega, hgrid⟩

/-- When the points between two records are reported, if the tolerance is not negative. -/
def Covers (detector : MissingCandleDetector) (step : Nat) (prev curr : Utc) : Prop :=
  detector.toleranceSeconds < step ∨
    curr.micros = prev.micros + seconds step ∧
      -62135596800000000 ≤ curr.micros - seconds detector.toleranceSeconds

theorem lt_sub_tolerance_iff (htol : 0 ≤ detector.toleranceSeconds)
    (h : Covers detector step prev curr) (hgrid : OnGrid step prev curr) {t : Utc} (hlt : prev < t)
    (ht : OnGrid step prev t) :
    t.micros < curr.micros - seconds detector.toleranceSeconds ↔ t < curr := by
  have hcurr : OnGrid step t curr := by
    have hdiff : curr.micros - t.micros = curr.micros - prev.micros - (t.micros - prev.micros) := by
      omega
    rw [OnGrid, hdiff]
    exact dvd_sub hgrid ht
  have hafter := ht.step_le hlt
  rw [Utc.lt_iff]
  unfold seconds at *
  constructor
  · omega
  · intro hbefore
    have hreach := hcurr.step_le (Utc.lt_iff.mpr hbefore)
    unfold seconds at hreach
    rcases h with h | ⟨h, -⟩
    · omega
    · unfold seconds at h
      omega

theorem between_iff (htol : 0 ≤ detector.toleranceSeconds) (hlt : prev < curr)
    (hgrid : OnGrid step prev curr) :
    (∃ missing, detector.between step hstep prev curr = .ok missing ∧
      Lists missing (IsGap step prev curr)) ↔ Covers detector step prev curr := by
  have hfirst := hgrid.step_le hlt
  have hpos := seconds_pos hstep
  have hlow := prev.property.1
  have hhigh := curr.property.2
  change -62135596800000000 ≤ prev.micros at hlow
  change curr.micros ≤ 253402300799999999 at hhigh
  constructor
  · rintro ⟨missing, hmissing, -, hmem⟩
    by_cases hsmall : detector.toleranceSeconds < step
    · exact .inl hsmall
    · have hreach : seconds step ≤ seconds detector.toleranceSeconds := by
        unfold seconds
        omega
      refine .inr ⟨?_, ?_⟩
      · -- The bar before the second record would be a gap that is not reported.
        by_contra hne
        have hdvd : seconds step ∣ curr.micros - seconds step - prev.micros := by
          rw [sub_right_comm]
          exact dvd_sub_self_right.mpr hgrid
        let t : Utc := ⟨curr.micros - seconds step, by omega, by omega⟩
        have htmicros : t.micros = curr.micros - seconds step := rfl
        have hgap : IsGap step prev curr t :=
          ⟨Utc.lt_iff.mpr (by omega), Utc.lt_iff.mpr (by omega), hdvd⟩
        have hbefore := (((between_ok hmissing).2 t).mp ((hmem t).mpr hgap)).2.1
        omega
      · obtain ⟨current, -, h⟩ := bind_eq_ok.mp hmissing
        obtain ⟨bound, hbound, -⟩ := bind_eq_ok.mp h
        rw [Utc.add_eq_ok] at hbound
        have := bound.property.1
        change -62135596800000000 ≤ bound.micros at this
        omega
  · intro hcovers
    have hbound : -62135596800000000 ≤ curr.micros - seconds detector.toleranceSeconds := by
      unfold seconds at *
      rcases hcovers with h | ⟨-, h⟩
      · omega
      · exact h
    have htol' : 0 ≤ seconds detector.toleranceSeconds := by
      unfold seconds
      omega
    let current : Utc := ⟨prev.micros + seconds step, by omega, by omega⟩
    let bound : Utc := ⟨curr.micros - seconds detector.toleranceSeconds, hbound, by omega⟩
    have hcurrent : current.micros = prev.micros + seconds step := rfl
    obtain ⟨missing, hfill⟩ : ∃ missing, fill step hstep bound current = .ok missing :=
      exists_fill_eq_ok (Utc.le_iff.mpr (by change _ - _ ≤ _; omega))
        (Utc.le_iff.mpr (by omega)) ((onGrid_next hcurrent).mpr hgrid)
    have hmissing : detector.between step hstep prev curr = .ok missing :=
      bind_eq_ok.mpr ⟨current, Utc.add_eq_ok.mpr rfl, bind_eq_ok.mpr
        ⟨bound, Utc.add_eq_ok.mpr (sub_eq_add_neg _ _), hfill⟩⟩
    obtain ⟨hsorted, hmem⟩ := between_ok hmissing
    refine ⟨missing, hmissing, hsorted, fun t ↦ (hmem t).trans ?_⟩
    constructor
    · rintro ⟨ht, hbefore, hon⟩
      exact ⟨ht, (lt_sub_tolerance_iff htol hcovers hgrid ht hon).mp hbefore, hon⟩
    · rintro ⟨ht, hbefore, hon⟩
      exact ⟨ht, (lt_sub_tolerance_iff htol hcovers hgrid ht hon).mpr hbefore, hon⟩

end Between

/-! ## A list of records -/

structure Regular (step : Nat) (times : List Utc) : Prop where
  sorted : times.Pairwise (· < ·)
  onGrid : ∀ a ∈ times, ∀ b ∈ times, OnGrid step a b

/-- A point of the grid between the first time and the last that is not there. -/
def IsAbsent (step : Nat) (times : List Utc) (t : Utc) : Prop :=
  (∃ a ∈ times, a < t ∧ OnGrid step a t) ∧ (∃ b ∈ times, t < b) ∧ t ∉ times

def candles (times : List Utc) : List Record := times.map fun t ↦ ⟨some t⟩

section Scan

variable {detector : MissingCandleDetector} {step : Nat} {hstep : 0 < step} {prev curr t : Utc}
  {rest times missing later : List Utc}

theorem Regular.tail (h : Regular step (prev :: times)) : Regular step times where
  sorted := (pairwise_cons.mp h.sorted).2
  onGrid a ha b hb := h.onGrid a (mem_cons_of_mem _ ha) b (mem_cons_of_mem _ hb)

theorem Regular.head_lt (h : Regular step (prev :: times)) (ht : t ∈ times) : prev < t :=
  (pairwise_cons.mp h.sorted).1 t ht

theorem Regular.head_le (h : Regular step (prev :: times)) (ht : t ∈ prev :: times) :
    prev ≤ t := by
  rcases mem_cons.mp ht with rfl | ht
  · exact le_refl _
  · exact (h.head_lt ht).le

theorem isAbsent_head_lt (h : Regular step (prev :: times))
    (ht : IsAbsent step (prev :: times) t) : prev < t := by
  obtain ⟨⟨a, ha, hlt, -⟩, -⟩ := ht
  exact lt_of_le_of_lt (h.head_le ha) hlt

theorem isAbsent_cons (h : Regular step (prev :: curr :: rest)) :
    IsAbsent step (prev :: curr :: rest) t ↔
      IsGap step prev curr t ∨ IsAbsent step (curr :: rest) t := by
  have hcurr : prev < curr := h.head_lt mem_cons_self
  constructor
  · rintro ⟨⟨a, ha, hlt, hgrid⟩, ⟨b, hb, htb⟩, hmem⟩
    rcases lt_trichotomy t curr with hbefore | rfl | hafter
    · -- Only the first record is before `t`.
      rcases mem_cons.mp ha with rfl | ha
      · exact .inl ⟨hlt, hbefore, hgrid⟩
      · exact absurd (lt_of_lt_of_le hbefore (h.tail.head_le ha)) (not_lt.mpr hlt.le)
    · exact absurd (mem_cons_of_mem _ mem_cons_self) hmem
    · refine .inr ⟨⟨curr, mem_cons_self, hafter, ?_⟩, ⟨b, ?_, htb⟩, fun ht ↦ ?_⟩
      · exact (h.onGrid curr (mem_cons_of_mem _ mem_cons_self) a ha).trans hgrid
      · refine (mem_cons.mp hb).resolve_left ?_
        rintro rfl
        exact absurd (hcurr.trans hafter) (not_lt.mpr htb.le)
      · exact hmem (mem_cons_of_mem _ ht)
  · rintro (⟨hprev, hbefore, hgrid⟩ | ⟨⟨a, ha, hlt, hgrid⟩, ⟨b, hb, htb⟩, hmem⟩)
    · refine ⟨⟨prev, mem_cons_self, hprev, hgrid⟩,
        ⟨curr, mem_cons_of_mem _ mem_cons_self, hbefore⟩, fun ht ↦ ?_⟩
      rcases mem_cons.mp ht with rfl | ht
      · exact lt_irrefl _ hprev
      · exact absurd hbefore (not_lt.mpr (h.tail.head_le ht))
    · refine ⟨⟨a, mem_cons_of_mem _ ha, hlt, hgrid⟩, ⟨b, mem_cons_of_mem _ hb, htb⟩,
        fun ht ↦ ?_⟩
      rcases mem_cons.mp ht with rfl | ht
      · exact absurd (lt_of_lt_of_le (h.head_lt ha) hlt.le) (lt_irrefl _)
      · exact hmem ht

theorem scan_cons : detector.scan step hstep (candles (prev :: curr :: rest)) =
    (do let missing ← detector.between step hstep prev curr
        let later ← detector.scan step hstep (candles (curr :: rest))
        return missing ++ later) := rfl

theorem scan_head_lt (h : Regular step (prev :: times))
    (hscan : detector.scan step hstep (candles (prev :: times)) = .ok missing)
    (ht : t ∈ missing) : prev < t := by
  induction times generalizing prev missing with
  | nil =>
    obtain rfl := Except.ok.inj hscan
    exact absurd ht not_mem_nil
  | cons curr rest ih =>
    rw [scan_cons] at hscan
    obtain ⟨here, hhere, hscan⟩ := bind_eq_ok.mp hscan
    obtain ⟨later, hlater, hscan⟩ := bind_eq_ok.mp hscan
    obtain rfl := Except.ok.inj hscan
    rcases mem_append.mp ht with ht | ht
    · exact (((between_ok hhere).2 t).mp ht).1
    · exact (h.head_lt mem_cons_self).trans (ih h.tail hlater ht)

theorem lists_append (h : Regular step (prev :: curr :: rest))
    (hhere : ∀ t ∈ missing, t < curr) (hlater : ∀ t ∈ later, curr < t) :
    Lists (missing ++ later) (IsAbsent step (prev :: curr :: rest)) ↔
      Lists missing (IsGap step prev curr) ∧ Lists later (IsAbsent step (curr :: rest)) := by
  have hsplit := fun t ↦ @isAbsent_cons step prev curr t rest h
  constructor
  · rintro ⟨hsorted, hmem⟩
    obtain ⟨hsorted₁, hsorted₂, -⟩ := pairwise_append.mp hsorted
    refine ⟨⟨hsorted₁, fun t ↦ ⟨fun ht ↦ ?_, fun ht ↦ ?_⟩⟩,
      ⟨hsorted₂, fun t ↦ ⟨fun ht ↦ ?_, fun ht ↦ ?_⟩⟩⟩
    · have habsent := (hmem t).mp (mem_append_left _ ht)
      refine ((hsplit t).mp habsent).resolve_right fun hrest ↦ ?_
      exact lt_asymm (hhere t ht) (isAbsent_head_lt h.tail hrest)
    · refine (mem_append.mp ((hmem t).mpr ((hsplit t).mpr (.inl ht)))).resolve_right ?_
      exact fun hrest ↦ lt_asymm ht.2.1 (hlater t hrest)
    · have habsent := (hmem t).mp (mem_append_right _ ht)
      refine ((hsplit t).mp habsent).resolve_left fun hgap ↦ ?_
      exact lt_asymm hgap.2.1 (hlater t ht)
    · refine (mem_append.mp ((hmem t).mpr ((hsplit t).mpr (.inr ht)))).resolve_left ?_
      exact fun hfirst ↦ lt_asymm (hhere t hfirst) (isAbsent_head_lt h.tail ht)
  · rintro ⟨⟨hsorted₁, hmem₁⟩, hsorted₂, hmem₂⟩
    refine ⟨pairwise_append.mpr ⟨hsorted₁, hsorted₂, fun t ht u hu ↦ ?_⟩, fun t ↦ ?_⟩
    · exact (hhere t ht).trans (hlater u hu)
    · rw [mem_append, hmem₁, hmem₂, hsplit]

theorem not_isAbsent_of_length (h : times.length < 2) : ¬ IsAbsent step times t := by
  rintro ⟨⟨a, ha, hlt, -⟩, ⟨b, hb, hlt'⟩, -⟩
  rcases times with _ | ⟨u, _ | ⟨v, rest⟩⟩
  · exact not_mem_nil ha
  · rw [mem_singleton] at ha hb
    subst ha hb
    exact lt_asymm hlt hlt'
  · simp at h

theorem lists_nil_of_length (h : times.length < 2) : Lists [] (IsAbsent step times) :=
  ⟨List.Pairwise.nil, fun _ ↦ iff_of_false not_mem_nil (not_isAbsent_of_length h)⟩

/-- **The run.**  The absent bars are reported when the points between every two neighbours
are. -/
theorem scan_iff (htol : 0 ≤ detector.toleranceSeconds) (h : Regular step times) :
    (∃ missing, detector.scan step hstep (candles times) = .ok missing ∧
      Lists missing (IsAbsent step times)) ↔ times.IsChain (Covers detector step) := by
  induction times with
  | nil => exact iff_of_true ⟨[], rfl, lists_nil_of_length Nat.two_pos⟩ isChain_nil
  | cons prev times ih =>
    cases times with
    | nil =>
      exact iff_of_true ⟨[], rfl, lists_nil_of_length Nat.one_lt_two⟩
        (isChain_singleton prev)
    | cons curr rest =>
      have hlt : prev < curr := h.head_lt mem_cons_self
      have hgrid : OnGrid step prev curr :=
        h.onGrid prev mem_cons_self curr (mem_cons_of_mem _ mem_cons_self)
      have hbefore : ∀ missing, detector.between step hstep prev curr = .ok missing →
          ∀ t ∈ missing, t < curr := fun missing hmissing t ht ↦ by
        have := (((between_ok hmissing).2 t).mp ht).2.1
        rw [Utc.lt_iff]
        unfold seconds at this
        omega
      rw [isChain_cons_cons, ← ih h.tail,
        ← @between_iff detector step hstep prev curr htol hlt hgrid]
      constructor
      · rintro ⟨all, hscan, hall⟩
        rw [scan_cons] at hscan
        obtain ⟨missing, hmissing, hscan⟩ := bind_eq_ok.mp hscan
        obtain ⟨later, hlater, hscan⟩ := bind_eq_ok.mp hscan
        obtain rfl := Except.ok.inj hscan
        obtain ⟨h₁, h₂⟩ := (lists_append h (hbefore missing hmissing)
          fun t ht ↦ scan_head_lt h.tail hlater ht).mp hall
        exact ⟨⟨missing, hmissing, h₁⟩, later, hlater, h₂⟩
      · rintro ⟨⟨missing, hmissing, h₁⟩, later, hlater, h₂⟩
        refine ⟨missing ++ later, ?_, (lists_append h (hbefore missing hmissing)
          fun t ht ↦ scan_head_lt h.tail hlater ht).mpr ⟨h₁, h₂⟩⟩
        rw [scan_cons, hmissing]
        exact bind_eq_ok.mpr ⟨missing, rfl, bind_eq_ok.mpr ⟨later, hlater, rfl⟩⟩

theorem forall_not_isGap (h : prev < curr) (hgrid : OnGrid step prev curr) (hstep : 0 < step) :
    (∀ t, ¬ IsGap step prev curr t) ↔ curr.micros = prev.micros + seconds step := by
  have hfirst := hgrid.step_le h
  have hpos := seconds_pos hstep
  constructor
  · intro hnone
    by_contra hne
    have hlow := prev.property.1
    have hhigh := curr.property.2
    change -62135596800000000 ≤ prev.micros at hlow
    change curr.micros ≤ 253402300799999999 at hhigh
    let t : Utc := ⟨prev.micros + seconds step, by omega, by omega⟩
    have htmicros : t.micros = prev.micros + seconds step := rfl
    refine hnone t ⟨Utc.lt_iff.mpr (by omega), Utc.lt_iff.mpr (by omega), ?_⟩
    rw [OnGrid, htmicros, add_sub_cancel_left]
  · rintro hcurr t ⟨hlt, hlt', ht⟩
    have := ht.step_le hlt
    rw [Utc.lt_iff] at hlt'
    omega

/-- The tolerance can be taken from every record but the first. -/
def Reaches (detector : MissingCandleDetector) (times : List Utc) : Prop :=
  ∀ t ∈ times.tail, -62135596800000000 ≤ t.micros - seconds detector.toleranceSeconds

theorem isChain_covers_iff (h : Regular step times) (hstep : 0 < step) :
    times.IsChain (Covers detector step) ↔ detector.toleranceSeconds < step ∨
      (∀ t, ¬ IsAbsent step times t) ∧ Reaches detector times := by
  induction times with
  | nil =>
    exact iff_of_true isChain_nil
      (.inr ⟨fun t ↦ not_isAbsent_of_length Nat.two_pos, fun t ht ↦ absurd ht not_mem_nil⟩)
  | cons prev times ih =>
    cases times with
    | nil =>
      exact iff_of_true (isChain_singleton prev)
        (.inr ⟨fun t ↦ not_isAbsent_of_length Nat.one_lt_two,
          fun t ht ↦ absurd ht not_mem_nil⟩)
    | cons curr rest =>
      have hlt : prev < curr := h.head_lt mem_cons_self
      have hgrid : OnGrid step prev curr :=
        h.onGrid prev mem_cons_self curr (mem_cons_of_mem _ mem_cons_self)
      have habsent : (∀ t, ¬ IsAbsent step (prev :: curr :: rest) t) ↔
          curr.micros = prev.micros + seconds step ∧ ∀ t, ¬ IsAbsent step (curr :: rest) t := by
        rw [← forall_not_isGap hlt hgrid hstep, ← forall_and]
        exact forall_congr' fun t ↦ by rw [isAbsent_cons h, not_or]
      have hreaches : Reaches detector (prev :: curr :: rest) ↔
          -62135596800000000 ≤ curr.micros - seconds detector.toleranceSeconds ∧
            Reaches detector (curr :: rest) := forall_mem_cons
      rw [isChain_cons_cons, ih h.tail, habsent, hreaches, Covers]
      tauto

end Scan

/-! ## The detector -/

section

variable {detector : MissingCandleDetector} {step : Nat} {hstep : 0 < step}
  {lower : String → String} {value : String} {tf : Timeframe} {times missing : List Utc}

theorem toleranceSeconds_nonneg (h : Regular step times) (hlength : 2 ≤ times.length)
    (hscan : detector.scan step hstep (candles times) = .ok missing)
    (hlists : Lists missing (IsAbsent step times)) : 0 ≤ detector.toleranceSeconds := by
  rcases times with _ | ⟨prev, _ | ⟨curr, rest⟩⟩
  · simp at hlength
  · simp at hlength
  · by_contra hneg
    rw [scan_cons] at hscan
    obtain ⟨here, hhere, hscan⟩ := bind_eq_ok.mp hscan
    obtain ⟨later, hlater, hscan⟩ := bind_eq_ok.mp hscan
    obtain rfl := Except.ok.inj hscan
    have hcurr : curr ∈ here := by
      refine ((between_ok hhere).2 curr).mpr ⟨h.head_lt mem_cons_self, ?_, ?_⟩
      · unfold seconds
        omega
      · exact h.onGrid prev mem_cons_self curr (mem_cons_of_mem _ mem_cons_self)
    have habsent := ((hlists.2 curr).mp (mem_append_left _ hcurr)).2.2
    exact habsent (mem_cons_of_mem _ mem_cons_self)

/-- When the detector reports what is absent. -/
def Suits (detector : MissingCandleDetector) (tf : Timeframe) (times : List Utc) : Prop :=
  times.length < 2 ∨ 0 ≤ detector.toleranceSeconds ∧
    (detector.toleranceSeconds < tf.toSeconds ∨
      (∀ t, ¬ IsAbsent tf.toSeconds times t) ∧ Reaches detector times)

/-- **Exactness.**  The absent bars are reported, each once and in order, if and only if the
tolerance is less than the timeframe or no bar is absent. -/
theorem detect_exact_iff (hvalue : Timeframe.fromString lower value = some tf)
    (h : Regular tf.toSeconds times) :
    (∃ missing, detector.detect lower (candles times) value = .ok missing ∧
      Lists missing (IsAbsent tf.toSeconds times)) ↔ Suits detector tf times := by
  have hlengths : (candles times).length = times.length := length_map _
  by_cases hlength : times.length < 2
  · refine iff_of_true ⟨[], ?_, lists_nil_of_length hlength⟩ (.inl hlength)
    rw [MissingCandleDetector.detect, if_pos (hlengths ▸ hlength)]
  · by_cases hstep : 0 < tf.toSeconds
    · rw [MissingCandleDetector.detect, if_neg (hlengths ▸ hlength), hvalue]
      simp only
      rw [dif_pos hstep, Suits, or_iff_right hlength]
      constructor
      · rintro ⟨missing, hscan, hlists⟩
        have htol := toleranceSeconds_nonneg h (not_lt.mp hlength) hscan hlists
        exact ⟨htol, (isChain_covers_iff h hstep).mp
          ((scan_iff htol h).mp ⟨missing, hscan, hlists⟩)⟩
      · rintro ⟨htol, hcovers⟩
        exact (scan_iff htol h).mpr ((isChain_covers_iff h hstep).mpr hcovers)
    · -- No two times of a grid without steps differ.
      rcases times with _ | ⟨prev, _ | ⟨curr, rest⟩⟩
      · simp at hlength
      · simp at hlength
      · have hlt : prev < curr := h.head_lt mem_cons_self
        have hgrid := h.onGrid prev mem_cons_self curr
          (mem_cons_of_mem _ mem_cons_self)
        have hzero : seconds tf.toSeconds = 0 := by
          unfold seconds
          omega
        rw [OnGrid, hzero, zero_dvd_iff] at hgrid
        rw [Utc.lt_iff] at hlt
        omega

end

/-! ## Two gaps -/

theorem hour_ok : -62135596800000000 ≤ (10800000000 : Int) ∧
    (10800000000 : Int) ≤ 253402300799999999 := by decide

theorem minute_ok : -62135596800000000 ≤ (60000000 : Int) ∧
    (60000000 : Int) ≤ 253402300799999999 := by decide

theorem twoMinutes_ok : -62135596800000000 ≤ (120000000 : Int) ∧
    (120000000 : Int) ≤ 253402300799999999 := by decide

/-- Two records, three hours apart. -/
def hourTimes : List Utc := [⟨0, Utc.epoch_ok⟩, ⟨10800000000, hour_ok⟩]

/-- The second bar of a list of bars of a minute. -/
def minute : Utc := ⟨60000000, minute_ok⟩

/-- Two records, two minutes apart. -/
def minuteTimes : List Utc := [⟨0, Utc.epoch_ok⟩, ⟨120000000, twoMinutes_ok⟩]

theorem regular_pair {step : Nat} {t u : Utc} (h : t < u) (hgrid : OnGrid step t u) :
    Regular step [t, u] where
  sorted := pairwise_pair.mpr h
  onGrid := by
    have hself : ∀ v : Utc, OnGrid step v v := fun v ↦ by simp [OnGrid]
    have hback : OnGrid step u t := by
      rw [OnGrid, ← neg_sub, dvd_neg]
      exact hgrid
    simp [hself, hgrid, hback]

theorem hourTimes_regular : Regular Timeframe.h1.toSeconds hourTimes :=
  regular_pair (Utc.lt_iff.mpr (by decide)) (by unfold OnGrid; decide)

theorem minuteTimes_regular : Regular Timeframe.m1.toSeconds minuteTimes :=
  regular_pair (Utc.lt_iff.mpr (by decide)) (by unfold OnGrid; decide)

theorem detect_exact_hours : ∃ missing,
    ({} : MissingCandleDetector).detect id (candles hourTimes) "1h" = .ok missing ∧
      Lists missing (IsAbsent Timeframe.h1.toSeconds hourTimes) :=
  (detect_exact_iff (by decide +kernel) hourTimes_regular).mpr
    (.inr ⟨by decide, .inl (by decide)⟩)

/-- A single absent minute is not reported. -/
theorem minute_not_reported :
    Timeframe.fromString id "1m" = some .m1 ∧ Regular Timeframe.m1.toSeconds minuteTimes ∧
      IsAbsent Timeframe.m1.toSeconds minuteTimes minute ∧
      ({} : MissingCandleDetector).detect id (candles minuteTimes) "1m" = .ok [] := by
  have hname : Timeframe.fromString id "1m" = some .m1 := by decide +kernel
  refine ⟨hname, minuteTimes_regular, ⟨?_, ?_, ?_⟩, ?_⟩
  · exact ⟨_, mem_cons_self, Utc.lt_iff.mpr (by decide), by unfold OnGrid; decide⟩
  · exact ⟨_, mem_cons_of_mem _ mem_cons_self, Utc.lt_iff.mpr (by decide)⟩
  · decide
  · rw [MissingCandleDetector.detect, if_neg (by decide), hname]
    have hbetween : MissingCandleDetector.between {} 60 (by decide) ⟨0, Utc.epoch_ok⟩
        ⟨120000000, twoMinutes_ok⟩ = .ok [] :=
      bind_eq_ok.mpr ⟨minute, Utc.add_eq_ok.mpr rfl, bind_eq_ok.mpr
        ⟨minute, Utc.add_eq_ok.mpr rfl, fill_of_le (le_refl _)⟩⟩
    exact bind_eq_ok.mpr ⟨[], hbetween, rfl⟩

end Qros.DataEngine.MissingCandles
