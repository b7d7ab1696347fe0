import Mathlib.Data.List.Infix
import Mathlib.Data.List.Perm.Basic
import Mathlib.Order.Lattice

/-!
# States that follow the latest event

A state remembers the time of the last event it has taken in.  An event that is older is
stale and skipped whole; any other is merged.  So along a run the merged events are those
that are the latest so far, and which these are depends on the order of arrival.

What the last merged event alone determines is the same in every order (`run_observe`).
A field that an event may leave as it is comes out the same in every order just when the
latest event sets it or no event could have changed it (`keeps_iff`).
-/

universe u v w

namespace Qros.Lib

open List

structure Latest (σ : Type u) (ε : Type v) (τ : Type w) where
  /-- The time of the last event taken in. -/
  last : σ → Option τ
  time : ε → Option τ
  merge : σ → ε → σ
  last_merge : ∀ s e, last (merge s e) = (time e).or (last s)

namespace Latest

variable {σ : Type u} {ε : Type v} {τ : Type w} [LinearOrder τ] (R : Latest σ ε τ)

/-- The event is older than the last one. -/
def isStale (s : σ) (e : ε) : Bool :=
  match R.time e, R.last s with
  | some t, some u => decide (t < u)
  | _, _ => false

def step (s : σ) (e : ε) : σ := if R.isStale s e then s else R.merge s e

def run (s : σ) (es : List ε) : σ := es.foldl R.step s

@[simp]
theorem run_nil (s : σ) : R.run s [] = s := rfl

@[simp]
theorem run_cons (s : σ) (e : ε) (es : List ε) : R.run s (e :: es) = R.run (R.step s e) es := rfl

@[simp]
theorem run_concat (s : σ) (es : List ε) (e : ε) :
    R.run s (es ++ [e]) = R.step (R.run s es) e := by
  rw [run, foldl_append]
  rfl

def NoLater (e n : ε) : Prop := ∀ t u, R.time e = some t → R.time n = some u → t ≤ u

/-- Events with times, no two of which are the same. -/
structure Timed (es : List ε) : Prop where
  timed : ∀ e ∈ es, (R.time e).isSome = true
  nodup : es.Nodup
  eq_of_time : ∀ a ∈ es, ∀ b ∈ es, R.time a = R.time b → a = b

variable {R} {s : σ} {e n : ε} {es es' : List ε}

theorem isStale_iff {t : τ} (ht : R.time e = some t) :
    R.isStale s e = true ↔ ∃ u, R.last s = some u ∧ t < u := by
  unfold isStale
  rw [ht]
  cases R.last s with
  | none => exact iff_of_false Bool.false_ne_true (by rintro ⟨u, h, -⟩; cases h)
  | some u => simp

/-- An event that is not stale is not older than the last one. -/
theorem last_le_of_fresh {t u : τ} (ht : R.time e = some t) (hu : R.last s = some u)
    (h : R.isStale s e = false) : u ≤ t := by
  by_contra hnot
  have hlate := (isStale_iff ht).mpr ⟨u, hu, not_le.mp hnot⟩
  rw [h] at hlate
  cases hlate

theorem step_of_stale (h : R.isStale s e = true) : R.step s e = s := if_pos h

theorem step_of_fresh (h : R.isStale s e = false) : R.step s e = R.merge s e := by
  unfold step
  rw [h]
  exact if_neg Bool.false_ne_true

omit [LinearOrder τ] in
theorem last_merge_of_time {t : τ} (ht : R.time e = some t) : R.last (R.merge s e) = some t := by
  rw [R.last_merge, ht]
  rfl

omit [LinearOrder τ] in
theorem Timed.perm (h : R.Timed es) (hperm : es'.Perm es) : R.Timed es' where
  timed := fun e he ↦ h.timed e (hperm.mem_iff.mp he)
  nodup := hperm.nodup_iff.mpr h.nodup
  eq_of_time := fun a ha b hb ↦ h.eq_of_time a (hperm.mem_iff.mp ha) b (hperm.mem_iff.mp hb)

theorem Timed.eq_of_noLater (h : R.Timed es) {a b : ε} (ha : a ∈ es) (hb : b ∈ es)
    (hab : R.NoLater a b) (hba : R.NoLater b a) : a = b := by
  obtain ⟨t, ht⟩ := Option.isSome_iff_exists.mp (h.timed a ha)
  obtain ⟨u, hu⟩ := Option.isSome_iff_exists.mp (h.timed b hb)
  refine h.eq_of_time a ha b hb ?_
  rw [ht, hu, le_antisymm (hab t u ht hu) (hba u t hu ht)]

/-- **A run.**  Either every event is stale, or the last one merged is the latest of
all. -/
theorem run_cases (s : σ) (ht : ∀ e ∈ es, (R.time e).isSome = true) :
    ((∀ e ∈ es, R.isStale s e = true) ∧ R.run s es = s) ∨
      ∃ pre n, pre ++ [n] <+: es ∧ R.isStale s n = false ∧ (∀ e ∈ es, R.NoLater e n) ∧
        R.run s es = R.merge (R.run s pre) n := by
  induction es using reverseRecOn with
  | nil => exact .inl ⟨fun _ h ↦ absurd h not_mem_nil, rfl⟩
  | append_singleton es e ih =>
    have hes : ∀ x ∈ es, (R.time x).isSome = true := fun x hx ↦ ht x (mem_append_left _ hx)
    obtain ⟨t, hte⟩ := Option.isSome_iff_exists.mp (ht e (mem_append_right _ (by simp)))
    have hself : R.NoLater e e := by
      intro t u h h'
      cases h.symm.trans h'
      exact le_refl t
    have hforall : ∀ {P : ε → Prop}, (∀ x ∈ es, P x) → P e → ∀ x ∈ es ++ [e], P x := by
      intro P h he x hx
      rcases mem_append.mp hx with hx | hx
      · exact h x hx
      · exact mem_singleton.mp hx ▸ he
    rw [run_concat]
    rcases ih hes with ⟨hstale, hrun⟩ | ⟨pre, n, hpre, hfresh, hlatest, hrun⟩
    · rw [hrun]
      cases he : R.isStale s e with
      | true => exact .inl ⟨hforall hstale he, step_of_stale he⟩
      | false =>
        refine .inr ⟨es, e, List.prefix_refl _, he, hforall (fun x hx ↦ ?_) hself, ?_⟩
        · intro tx te hx' he'
          obtain ⟨u, hu, hlt⟩ := (isStale_iff hx').mp (hstale x hx)
          exact hlt.le.trans (last_le_of_fresh he' hu he)
        · rw [hrun]
          exact step_of_fresh he
    · obtain ⟨tn, htn⟩ := Option.isSome_iff_exists.mp (hes n (hpre.subset (by simp)))
      have hlast : R.last (R.run s es) = some tn := hrun ▸ last_merge_of_time htn
      cases he : R.isStale (R.run s es) e with
      | true =>
        refine .inr ⟨pre, n, hpre.trans (List.prefix_append es [e]), hfresh,
          hforall hlatest ?_, (step_of_stale he).trans hrun⟩
        intro te un he' hn'
        obtain ⟨u, hu, hlt⟩ := (isStale_iff he').mp he
        cases htn.symm.trans hn'
        cases hlast.symm.trans hu
        exact hlt.le
      | false =>
        have hle : tn ≤ t := last_le_of_fresh hte hlast he
        refine .inr ⟨es, e, List.prefix_refl _, ?_, hforall (fun x hx ↦ ?_) hself,
          step_of_fresh he⟩
        · rw [← Bool.not_eq_true]
          intro hstale
          obtain ⟨u, hu, hlt⟩ := (isStale_iff hte).mp hstale
          exact absurd (hle.trans_lt hlt) (not_lt.mpr (last_le_of_fresh htn hu hfresh))
        · intro tx te hx' he'
          cases hte.symm.trans he'
          exact (hlatest x hx tx tn hx' htn).trans hle

theorem run_of_stale (h : ∀ e ∈ es, R.isStale s e = true) : R.run s es = s := by
  induction es with
  | nil => rfl
  | cons e es ih =>
    rw [run_cons, step_of_stale (h e mem_cons_self)]
    exact ih fun x hx ↦ h x (mem_cons_of_mem _ hx)

theorem isStale_run (ht : ∀ e ∈ es, (R.time e).isSome = true) (he : (R.time e).isSome = true)
    (h : R.isStale s e = true) : R.isStale (R.run s es) e = true := by
  obtain ⟨t, hte⟩ := Option.isSome_iff_exists.mp he
  rcases R.run_cases s ht with ⟨-, hrun⟩ | ⟨pre, n, hpre, hfresh, -, hrun⟩
  · rwa [hrun]
  · obtain ⟨tn, htn⟩ := Option.isSome_iff_exists.mp (ht n (hpre.subset (by simp)))
    obtain ⟨u, hu, hlt⟩ := (isStale_iff hte).mp h
    have hle : u ≤ tn := last_le_of_fresh htn hu hfresh
    rw [hrun]
    exact (isStale_iff hte).mpr ⟨tn, last_merge_of_time htn, hlt.trans_le hle⟩

/-- Whatever comes after the latest event is stale. -/
theorem isStale_merge (hes : R.Timed es) (hn : n ∈ es) (hlatest : ∀ x ∈ es, R.NoLater x n)
    (he : e ∈ es) (hne : e ≠ n) (s : σ) : R.isStale (R.merge s n) e = true := by
  obtain ⟨tn, htn⟩ := Option.isSome_iff_exists.mp (hes.timed n hn)
  obtain ⟨te, hte⟩ := Option.isSome_iff_exists.mp (hes.timed e he)
  refine (isStale_iff hte).mpr ⟨tn, last_merge_of_time htn, ?_⟩
  refine lt_of_le_of_ne (hlatest e he te tn hte htn) fun heq ↦ hne ?_
  exact hes.eq_of_time e he n hn (hte.trans (heq ▸ htn.symm))

/-- Two orders of the same events merge the same event last, if any. -/
theorem run_cases_perm (s : σ) (hes : R.Timed es) (hperm : es'.Perm es) :
    (R.run s es = s ∧ R.run s es' = s) ∨
      ∃ pre pre' n, n ∈ es ∧ R.isStale s n = false ∧ (∀ e ∈ es, R.NoLater e n) ∧
        R.run s es = R.merge (R.run s pre) n ∧ R.run s es' = R.merge (R.run s pre') n := by
  rcases R.run_cases s hes.timed with ⟨hstale, hrun⟩ | ⟨pre, n, hpre, hfresh, hlatest, hrun⟩
  · exact .inl ⟨hrun, run_of_stale fun e he ↦ hstale e (hperm.mem_iff.mp he)⟩
  · have hn : n ∈ es := hpre.subset (by simp)
    rcases R.run_cases s (hes.perm hperm).timed with
      ⟨hstale, -⟩ | ⟨pre', n', hpre', -, hlatest', hrun'⟩
    · exact absurd (hfresh.symm.trans (hstale n (hperm.mem_iff.mpr hn))) Bool.false_ne_true
    · have hn' : n' ∈ es := hperm.mem_iff.mp (hpre'.subset (by simp))
      obtain rfl : n = n' := hes.eq_of_noLater hn hn' (hlatest' n (hperm.mem_iff.mpr hn))
        (hlatest n' hn')
      exact .inr ⟨pre, pre', n, hn, hfresh, hlatest, hrun, hrun'⟩

/-! ## What every order gives -/

/-- What the last merged event determines is the same in every order. -/
theorem run_observe {γ : Type*} {g : σ → γ} {h : ε → γ}
    (hg : ∀ s e, (R.time e).isSome = true → g (R.merge s e) = h e) (s : σ) (hes : R.Timed es)
    (hperm : es'.Perm es) : g (R.run s es') = g (R.run s es) := by
  rcases R.run_cases_perm s hes hperm with ⟨hrun, hrun'⟩ | ⟨pre, pre', n, hn, -, -, hrun, hrun'⟩
  · rw [hrun, hrun']
  · rw [hrun, hrun', hg _ n (hes.timed n hn), hg _ n (hes.timed n hn)]

section Keeps

variable {α : Type*} {field : σ → Option α} {sets : ε → Option α}

/-- A field that no event could have changed. -/
theorem run_keeps (hfield : ∀ s e, field (R.merge s e) = (sets e).or (field s))
    (ht : ∀ e ∈ es, (R.time e).isSome = true)
    (h : ∀ e ∈ es, R.isStale s e = false → sets e = none ∨ sets e = field s) :
    field (R.run s es) = field s := by
  induction es using reverseRecOn with
  | nil => rfl
  | append_singleton es e ih =>
    have hes : ∀ x ∈ es, (R.time x).isSome = true := fun x hx ↦ ht x (mem_append_left _ hx)
    have ih := ih hes fun x hx ↦ h x (mem_append_left _ hx)
    have hmem : e ∈ es ++ [e] := mem_append_right _ (mem_singleton_self e)
    rw [run_concat]
    cases he : R.isStale (R.run s es) e with
    | true => rw [step_of_stale he, ih]
    | false =>
      have hfresh : R.isStale s e = false := by
        rw [← Bool.not_eq_true]
        intro hstale
        rw [isStale_run hes (ht e hmem) hstale] at he
        cases he
      rw [step_of_fresh he, hfield, ih]
      rcases h e hmem hfresh with hsets | hsets
      · rw [hsets]
        rfl
      · rw [hsets]
        cases field s <;> rfl

/-- A field comes out the same in every order just when the latest event sets it or no
event could have changed it. -/
theorem keeps_iff (hfield : ∀ s e, field (R.merge s e) = (sets e).or (field s))
    (hes : R.Timed es) :
    (∀ es', es'.Perm es → field (R.run s es') = field (R.run s es)) ↔
      ∀ n ∈ es, (∀ e ∈ es, R.NoLater e n) → R.isStale s n = false →
        sets n ≠ none ∨ ∀ e ∈ es, R.isStale s e = false → sets e = none ∨ sets e = field s := by
  constructor
  · intro h n hn hlatest hfresh
    by_contra hnot
    rw [not_or, not_not] at hnot
    obtain ⟨hnone, hnot⟩ := hnot
    refine hnot fun e he hefresh ↦ ?_
    by_cases hen : e = n
    · exact .inl (hen ▸ hnone)
    obtain ⟨tn, htn⟩ := Option.isSome_iff_exists.mp (hes.timed n hn)
    obtain ⟨te, hte⟩ := Option.isSome_iff_exists.mp (hes.timed e he)
    obtain ⟨l₁, l₂, hl⟩ := append_of_mem hn
    have hperm₁ : es.Perm (n :: (l₁ ++ l₂)) := hl ▸ perm_middle
    have he₁ : e ∈ l₁ ++ l₂ := (mem_cons.mp (hperm₁.mem_iff.mp he)).resolve_left hen
    obtain ⟨r₁, r₂, hr⟩ := append_of_mem he₁
    have hperm : es.Perm (n :: e :: (r₁ ++ r₂)) :=
      hperm₁.trans (.cons n (hr ▸ perm_middle))
    have hrest : ∀ s', R.run (R.merge s' n) (r₁ ++ r₂) = R.merge s' n := by
      intro s'
      refine run_of_stale fun x hx ↦ isStale_merge hes hn hlatest (hperm.mem_iff.mpr ?_) ?_ s'
      · exact mem_cons_of_mem _ (mem_cons_of_mem _ hx)
      · rintro rfl
        exact (nodup_cons.mp (hperm.nodup_iff.mp hes.nodup)).1 (mem_cons_of_mem _ hx)
    -- The latest event first, and `e` before it.
    have hfirst : field (R.run s (n :: e :: (r₁ ++ r₂))) = field s := by
      rw [run_cons, run_cons, step_of_fresh hfresh,
        step_of_stale (isStale_merge hes hn hlatest he hen s), hrest, hfield, hnone]
      rfl
    have hsecond : field (R.run s (e :: n :: (r₁ ++ r₂))) = (sets e).or (field s) := by
      have hn' : R.isStale (R.merge s e) n = false := by
        rw [← Bool.not_eq_true]
        intro hstale
        obtain ⟨u, hu, hlt⟩ := (isStale_iff htn).mp hstale
        cases (last_merge_of_time hte).symm.trans hu
        exact absurd hlt (not_lt.mpr (hlatest e he te tn hte htn))
      rw [run_cons, run_cons, step_of_fresh hefresh, step_of_fresh hn', hrest, hfield, hfield, hnone]
      rfl
    have heq := (h _ ((List.Perm.swap n e _).trans hperm.symm)).trans (h _ hperm.symm).symm
    rw [hfirst, hsecond] at heq
    cases hsets : sets e with
    | none => exact .inl rfl
    | some a =>
      rw [hsets] at heq
      exact .inr heq
  · intro h es' hperm
    rcases R.run_cases_perm s hes hperm with
      ⟨hrun, hrun'⟩ | ⟨pre, pre', n, hn, hfresh, hlatest, hrun, hrun'⟩
    · rw [hrun, hrun']
    · rcases h n hn hlatest hfresh with hsets | hkeeps
      · have hset : ∀ s', field (R.merge s' n) = sets n := by
          intro s'
          rw [hfield]
          cases hs : sets n with
          | none => exact absurd hs hsets
          | some a => rfl
        rw [hrun, hrun', hset, hset]
      · rw [run_keeps hfield hes.timed hkeeps, run_keeps hfield (hes.perm hperm).timed
          fun e he ↦ hkeeps e (hperm.mem_iff.mp he)]

end Keeps

end Latest

end Qros.Lib
