import Mathlib.Algebra.BigOperators.Group.List.Basic
import Mathlib.Data.Rat.Cast.Defs
import Qros.Lib.Dict

/-!
# Certified performance profiles

`CertifiedPerformanceProfile.recalibrate` of `quant_engine/scheduler.py`, in exact arithmetic.
A key that was not measured before is entered with a count of one, however many samples it
has, so the next recalibration gives them too little weight (`recalibrate_incremental_iff`).
-/

namespace Qros.QuantEngine.Scheduler

open Qros.Lib List

section Data

variable (F : Type)

structure ExecutionRecord where
  operation : String
  backend : Option String
  sizeClass : Option String
  durationMs : F

structure PerformanceStat where
  meanMs : F
  count : Nat
  lastMs : F

/-- The backend, the operation and the size class. -/
abbrev Key : Type := String × String × String

structure CertifiedPerformanceProfile where
  stats : Dict Key (PerformanceStat F)
  thresholds : Int × Int
  version : String
  source : String

end Data

section Samples

variable {F : Type}

def ExecutionRecord.key (record : ExecutionRecord F) : Option Key :=
  match record.sizeClass, record.backend with
  | some sizeClass, some backend => some (backend, record.operation, sizeClass)
  | _, _ => none

/-- `setdefault(key, []).append(duration)` for every record that has a key. -/
def samplesByKey (records : List (ExecutionRecord F)) : Dict Key (List F) :=
  records.foldl (fun samples record ↦ record.key.elim samples fun key ↦
    samples.set key ((samples.get? key).getD [] ++ [record.durationMs])) ∅

/-! ## The samples of a key -/

def samplesOf (key : Key) (history : List (ExecutionRecord F)) : List F :=
  (history.filter fun record ↦ decide (record.key = some key)).map ExecutionRecord.durationMs

@[simp]
theorem samplesOf_append (key : Key) (h₁ h₂ : List (ExecutionRecord F)) :
    samplesOf key (h₁ ++ h₂) = samplesOf key h₁ ++ samplesOf key h₂ := by
  rw [samplesOf, filter_append, map_append]
  rfl

theorem samplesOf_singleton (key : Key) (record : ExecutionRecord F) :
    samplesOf key [record] = if record.key = some key then [record.durationMs] else [] := by
  unfold samplesOf
  by_cases hkey : record.key = some key
  · simp [hkey]
  · simp [hkey]

/-- **One record.** -/
theorem get?_samplesByKey_concat (history : List (ExecutionRecord F)) (record : ExecutionRecord F)
    (key : Key) : (samplesByKey (history ++ [record])).get? key =
      if record.key = some key then
        some (((samplesByKey history).get? key).getD [] ++ [record.durationMs])
      else (samplesByKey history).get? key := by
  rw [samplesByKey, foldl_append, foldl_cons, foldl_nil, ← samplesByKey]
  cases record.key with
  | none => rfl
  | some k =>
    rw [Option.elim_some, Dict.get?_set]
    by_cases hk : k = key
    · rw [if_pos hk, if_pos (congrArg some hk), hk]
    · rw [if_neg hk, if_neg fun h ↦ hk (Option.some.inj h)]

/-- **The run over the records.** -/
theorem get?_samplesByKey (history : List (ExecutionRecord F)) (key : Key) :
    (samplesByKey history).get? key =
      if samplesOf key history = [] then none else some (samplesOf key history) := by
  induction history using reverseRecOn with
  | nil => rfl
  | append_singleton history record ih =>
    rw [get?_samplesByKey_concat, samplesOf_append, samplesOf_singleton, ih]
    by_cases hkey : record.key = some key
    · rw [if_pos hkey, if_pos hkey, if_neg (append_ne_nil_of_right_ne_nil _ (by simp))]
      by_cases hnil : samplesOf key history = []
      · rw [if_pos hnil, hnil]
        rfl
      · rw [if_neg hnil]
        rfl
    · rw [if_neg hkey, if_neg hkey, append_nil]

end Samples

/-! ## Recalibration -/

variable {F : Type} [Field F]

def PerformanceStat.fromMeasurement (elapsedMs : F) : PerformanceStat F :=
  ⟨elapsedMs, 1, elapsedMs⟩

def merge (prior : Option (PerformanceStat F)) (samples : List F) : Option (PerformanceStat F) :=
  if samples = [] then none
  else match prior with
    | some prior =>
      let total := prior.meanMs * prior.count + samples.sum
      let count := prior.count + samples.length
      some ⟨total / count, count, samples.getLastD 0⟩
    | none => some (.fromMeasurement (samples.sum / samples.length))

def CertifiedPerformanceProfile.recalibrate (p : CertifiedPerformanceProfile F)
    (history : List (ExecutionRecord F)) (version : Option String) :
    CertifiedPerformanceProfile F where
  stats := (samplesByKey history).entries.foldl
    (fun merged e ↦ (merge (merged.get? e.1) e.2).elim merged (merged.set e.1)) p.stats
  thresholds := p.thresholds
  version := ((version.filter fun v ↦ decide (v ≠ "")).getD (p.version ++ ".1"))
  source := if p.source ≠ "" then p.source else "recalibrated-from-history"

/-! ## What recalibration does to a key -/

/-- The stat of a key afterwards. -/
def recalibrated (prior : Option (PerformanceStat F)) (samples : List F) :
    Option (PerformanceStat F) :=
  (merge prior samples).or prior

variable (p : CertifiedPerformanceProfile F) (history : List (ExecutionRecord F))
  (version : Option String)

theorem get?_recalibrate (key : Key) : (p.recalibrate history version).stats.get? key =
    recalibrated (p.stats.get? key) (samplesOf key history) := by
  change (List.foldl _ p.stats (samplesByKey history).entries).get? key = _
  rw [Dict.get?_foldl_update (samplesByKey history).nodup]
  change (((samplesByKey history).get? key).bind _).or _ = _
  rw [get?_samplesByKey]
  by_cases hnil : samplesOf key history = []
  · rw [if_pos hnil, recalibrated, hnil]
    rfl
  · rw [if_neg hnil]
    rfl

/-! ## Recalibrating in two steps -/

/-- The number of samples that a stat stands for, and their sum. -/
def priorCount (prior : Option (PerformanceStat F)) : Nat :=
  prior.elim 0 PerformanceStat.count

def priorTotal (prior : Option (PerformanceStat F)) : F :=
  prior.elim 0 fun s ↦ s.meanMs * s.count

/-- The mean and the sample count. -/
def measured (stat : Option (PerformanceStat F)) : Option (F × Nat) :=
  stat.map fun s ↦ (s.meanMs, s.count)

/-- The mean is that of the samples before and of these. -/
def IsAverage (prior : Option (PerformanceStat F)) (samples : List F)
    (stat : Option (PerformanceStat F)) : Prop :=
  ∀ s ∈ stat, s.meanMs * ((priorCount prior + samples.length : Nat) : F) =
    priorTotal prior + samples.sum

theorem merge_nil (prior : Option (PerformanceStat F)) : merge prior [] = none := if_pos rfl

theorem recalibrated_nil (prior : Option (PerformanceStat F)) : recalibrated prior [] = prior := by
  rw [recalibrated, merge_nil, Option.none_or]

theorem recalibrated_some (prior : PerformanceStat F) {samples : List F} (h : samples ≠ []) :
    recalibrated (some prior) samples =
      some ⟨(prior.meanMs * prior.count + samples.sum) / ((prior.count + samples.length : Nat) : F),
        prior.count + samples.length, samples.getLastD 0⟩ := by
  rw [recalibrated, merge, if_neg h]
  rfl

theorem recalibrated_none {samples : List F} (h : samples ≠ []) :
    recalibrated none samples = some (.fromMeasurement (samples.sum / samples.length)) := by
  rw [recalibrated, merge, if_neg h]
  rfl

section Exact

variable [CharZero F] {prior : Option (PerformanceStat F)} {samples samples₁ samples₂ : List F}

theorem count_ne_zero (n : Nat) (h : samples ≠ []) : ((n + samples.length : Nat) : F) ≠ 0 := by
  have := length_pos_iff.mpr h
  exact Nat.cast_ne_zero.mpr (by omega)

theorem isAverage_recalibrated : IsAverage prior samples (recalibrated prior samples) := by
  intro s hs
  by_cases hnil : samples = []
  · subst hnil
    rw [recalibrated_nil] at hs
    rw [Option.mem_def.mp hs]
    simp [priorCount, priorTotal]
  · have hcount := count_ne_zero (priorCount prior) hnil
    cases prior with
    | none =>
      rw [recalibrated_none hnil] at hs
      obtain rfl := Option.some.inj hs
      simp only [priorCount, priorTotal, Option.elim_none, zero_add] at hcount ⊢
      exact div_mul_cancel₀ _ hcount
    | some prior =>
      rw [recalibrated_some prior hnil] at hs
      obtain rfl := Option.some.inj hs
      exact div_mul_cancel₀ _ hcount

theorem recalibrated_append (prior : PerformanceStat F) :
    measured (recalibrated (some prior) (samples₁ ++ samples₂)) =
      measured (recalibrated (recalibrated (some prior) samples₁) samples₂) := by
  by_cases h₁ : samples₁ = []
  · rw [h₁, nil_append, recalibrated_nil]
  · by_cases h₂ : samples₂ = []
    · rw [h₂, append_nil, recalibrated_nil]
    · rw [recalibrated_some prior (append_ne_nil_of_left_ne_nil h₁ _),
        recalibrated_some prior h₁, recalibrated_some _ h₂]
      simp only [measured, Option.map_some, Option.some.injEq, Prod.mk.injEq]
      rw [div_mul_cancel₀ _ (count_ne_zero prior.count h₁), sum_append, length_append,
        ← add_assoc, ← Nat.add_assoc]
      exact ⟨rfl, rfl⟩

def KeyIncremental (prior : Option (PerformanceStat F)) (samples₁ samples₂ : List F) : Prop :=
  measured (recalibrated prior (samples₁ ++ samples₂)) =
      measured (recalibrated (recalibrated prior samples₁) samples₂) ∧
    IsAverage prior (samples₁ ++ samples₂) (recalibrated prior (samples₁ ++ samples₂)) ∧
    IsAverage prior (samples₁ ++ samples₂) (recalibrated (recalibrated prior samples₁) samples₂)

omit [CharZero F] in
theorem isAverage_congr {stat stat' : Option (PerformanceStat F)}
    (h : measured stat = measured stat') (ha : IsAverage prior samples stat) :
    IsAverage prior samples stat' := by
  intro s hs
  rw [Option.mem_def.mp hs] at h
  obtain ⟨t, ht, hst⟩ := Option.map_eq_some_iff.mp h
  rw [← (Prod.mk.inj hst).1]
  exact ha t ht

theorem keyIncremental_iff : KeyIncremental prior samples₁ samples₂ ↔
    (samples₁ ≠ [] → samples₂ ≠ [] → prior ≠ none) := by
  have hsame : measured (recalibrated prior (samples₁ ++ samples₂)) =
      measured (recalibrated (recalibrated prior samples₁) samples₂) ↔
      (samples₁ ≠ [] → samples₂ ≠ [] → prior ≠ none) := by
    cases prior with
    | some prior => exact iff_of_true (recalibrated_append prior) fun _ _ h ↦ by cases h
    | none =>
      by_cases h₁ : samples₁ = []
      · rw [h₁, nil_append, recalibrated_nil]
        exact iff_of_true rfl fun h ↦ absurd rfl h
      · by_cases h₂ : samples₂ = []
        · rw [h₂, append_nil, recalibrated_nil]
          exact iff_of_true rfl fun _ h ↦ absurd rfl h
        · refine iff_of_false (fun h ↦ ?_) fun h ↦ h h₁ h₂ rfl
          -- One step enters a count of one, the second step adds to it.
          rw [recalibrated_none (append_ne_nil_of_left_ne_nil h₁ _), recalibrated_none h₁,
            recalibrated_some _ h₂] at h
          have hcount : 1 = 1 + samples₂.length := (Prod.mk.inj (Option.some.inj h)).2
          have := length_pos_iff.mpr h₂
          omega
  rw [← hsame]
  refine ⟨fun h ↦ h.1, fun h ↦ ⟨h, isAverage_recalibrated, ?_⟩⟩
  exact isAverage_congr h isAverage_recalibrated

end Exact

/-- Both ways give every key the same mean and count, and the mean is the average. -/
def Incremental (h₁ h₂ : List (ExecutionRecord F)) (v v₁ v₂ : Option String) : Prop :=
  ∀ key, measured ((p.recalibrate (h₁ ++ h₂) v).stats.get? key) =
      measured (((p.recalibrate h₁ v₁).recalibrate h₂ v₂).stats.get? key) ∧
    IsAverage (p.stats.get? key) (samplesOf key (h₁ ++ h₂))
      ((p.recalibrate (h₁ ++ h₂) v).stats.get? key) ∧
    IsAverage (p.stats.get? key) (samplesOf key (h₁ ++ h₂))
      (((p.recalibrate h₁ v₁).recalibrate h₂ v₂).stats.get? key)

/-- **Two recalibrations.**  They do what one does if and only if every key with samples in both
histories was measured before. -/
theorem recalibrate_incremental_iff [CharZero F] (h₁ h₂ : List (ExecutionRecord F))
    (v v₁ v₂ : Option String) : Incremental p h₁ h₂ v v₁ v₂ ↔
      ∀ key, samplesOf key h₁ ≠ [] → samplesOf key h₂ ≠ [] → p.stats.get? key ≠ none := by
  refine forall_congr' fun key ↦ ?_
  rw [get?_recalibrate, get?_recalibrate, get?_recalibrate, samplesOf_append]
  exact keyIncremental_iff

/-- The telemetry of one execution of a backend. -/
def sampleRecord (durationMs : ℚ) : ExecutionRecord ℚ :=
  ⟨"calculate_returns", some "cpp", some "small", durationMs⟩

def emptyProfile : CertifiedPerformanceProfile ℚ := ⟨∅, (1000, 10000), "0", ""⟩

theorem recalibrate_incremental_sample :
    Incremental emptyProfile [sampleRecord 3] [] none none none :=
  (recalibrate_incremental_iff emptyProfile [sampleRecord 3] [] none none none).mpr
    fun _ _ h ↦ absurd rfl h

/-- Two executions, recalibrated one after the other. -/
theorem recalibrate_not_incremental :
    ¬ Incremental emptyProfile [sampleRecord 3] [sampleRecord 5] none none none := by
  intro h
  have hsame := (h ("cpp", "calculate_returns", "small")).1
  rw [get?_recalibrate, get?_recalibrate, get?_recalibrate] at hsame
  revert hsame
  decide +kernel

end Qros.QuantEngine.Scheduler
