import Mathlib.Data.List.Infix
import Mathlib.Algebra.Group.Defs

/-!
# Machines driven by inputs

A machine answers each input and moves to a new state.  Whatever its environment
decides (who moves next, what a clock shows, whether a party fails) is part of
the input, so a run is a list of inputs and every interleaving is one of them.

`Meets A is` says that every step of the run `is` satisfies `A`, which may look at
the inputs so far and hence at the state and the answers they lead to.
`Meets.induction` is the rule for invariants; `safe_iff_meets` is the rule for
conditions that are exact: safe after every step just when each step meets them.
-/

universe u v w u' w' x

namespace Qros.Lib

open List

/-- `step i s` is the answer to the input `i` in state `s` and the new state. -/
structure Machine (σ : Type u) (ι : Type v) (ω : Type w) where
  init : σ
  step : ι → σ → ω × σ

namespace Machine

variable {σ : Type u} {ι : Type v} {ω : Type w} (M : Machine σ ι ω)

/-- The state after the inputs `is`. -/
def after (is : List ι) : σ := is.foldl (fun s i ↦ (M.step i s).2) M.init

def traceFrom : σ → List ι → List (ι × ω)
  | _, [] => []
  | s, i :: is => (i, (M.step i s).1) :: traceFrom (M.step i s).2 is

/-- The inputs `is`, each with its answer. -/
def trace (is : List ι) : List (ι × ω) := M.traceFrom M.init is

@[simp]
theorem after_nil : M.after [] = M.init := rfl

@[simp]
theorem after_concat (is : List ι) (i : ι) :
    M.after (is ++ [i]) = (M.step i (M.after is)).2 := by
  rw [after, foldl_append]
  rfl

theorem traceFrom_concat (s : σ) (is : List ι) (i : ι) :
    M.traceFrom s (is ++ [i]) = M.traceFrom s is ++
      [(i, (M.step i (is.foldl (fun s i ↦ (M.step i s).2) s)).1)] := by
  induction is generalizing s with
  | nil => rfl
  | cons a is ih => rw [cons_append, traceFrom, ih, traceFrom, foldl_cons, cons_append]

@[simp]
theorem trace_nil : M.trace [] = [] := rfl

@[simp]
theorem trace_concat (is : List ι) (i : ι) :
    M.trace (is ++ [i]) = M.trace is ++ [(i, (M.step i (M.after is)).1)] :=
  M.traceFrom_concat M.init is i

theorem mem_of_mem_trace {is : List ι} {i : ι} {a : ω} (h : (i, a) ∈ M.trace is) : i ∈ is := by
  induction is using reverseRecOn with
  | nil => cases h
  | append_singleton is j ih =>
    rw [trace_concat, mem_append] at h
    rcases h with h | h
    · exact mem_append_left _ (ih h)
    · cases mem_singleton.mp h
      exact mem_append_right _ (mem_singleton_self i)

/-- Of two steps of a run one comes first, unless they are the same. -/
theorem steps_trichotomy {pre pre' is : List ι} {i i' : ι} (h : pre ++ [i] <+: is)
    (h' : pre' ++ [i'] <+: is) :
    pre ++ [i] <+: pre' ∨ (pre = pre' ∧ i = i') ∨ pre' ++ [i'] <+: pre := by
  have hsame : pre ++ [i] = pre' ++ [i'] → pre = pre' ∧ i = i' := by
    intro heq
    obtain ⟨rfl, hi⟩ := append_inj' heq rfl
    exact ⟨rfl, singleton_inj.mp hi⟩
  rcases List.prefix_or_prefix_of_prefix h h' with h | h
  · rcases List.prefix_concat_iff.mp h with heq | h
    · exact .inr (.inl (hsame heq))
    · exact .inl h
  · rcases List.prefix_concat_iff.mp h with heq | h
    · exact .inr (.inl (hsame heq.symm))
    · exact .inr (.inr h)

/-- What holds in the end and did not at first was brought about by a step. -/
theorem exists_step (P : σ → Prop) {is : List ι} (hinit : ¬ P M.init) (h : P (M.after is)) :
    ∃ pre i, pre ++ [i] <+: is ∧ ¬ P (M.after pre) ∧ P (M.after (pre ++ [i])) := by
  induction is using reverseRecOn with
  | nil => exact absurd h hinit
  | append_singleton is i ih =>
    by_cases his : P (M.after is)
    · obtain ⟨pre, j, hpre, hstep⟩ := ih his
      exact ⟨pre, j, hpre.trans (List.prefix_append is [i]), hstep⟩
    · exact ⟨is, i, List.prefix_refl _, his, h⟩

/-- What no step undoes holds from then on. -/
theorem after_stable (P : σ → Prop) (hstep : ∀ i s, P s → P (M.step i s).2) {pre is : List ι}
    (h : pre <+: is) (hpre : P (M.after pre)) : P (M.after is) := by
  obtain ⟨rest, rfl⟩ := h
  induction rest using reverseRecOn with
  | nil => rwa [append_nil]
  | append_singleton rest i ih =>
    rw [← append_assoc, after_concat]
    exact hstep i _ ih

end Machine

/-! ## Conditions on every step -/

section

variable {ι : Type v}

/-- Every step of the run `is` satisfies `A`: `A pre i` for the input `i` after the
inputs `pre`. -/
def Meets (A : List ι → ι → Prop) (is : List ι) : Prop := ∀ pre i, pre ++ [i] <+: is → A pre i

variable {A B : List ι → ι → Prop} {is : List ι}

theorem meets_nil : Meets A [] := by
  intro pre i h
  simpa using h.length_le

theorem meets_concat {i : ι} : Meets A (is ++ [i]) ↔ Meets A is ∧ A is i := by
  constructor
  · intro h
    exact ⟨fun pre j hpre ↦ h pre j (hpre.trans (List.prefix_append is [i])),
      h is i (List.prefix_refl _)⟩
  · rintro ⟨h, hi⟩ pre j hpre
    rcases List.prefix_concat_iff.mp hpre with heq | hpre
    · obtain ⟨rfl, hj⟩ := append_inj' heq rfl
      cases hj
      exact hi
    · exact h pre j hpre

/-- A relation between any two inputs of a run, as a condition on its steps. -/
theorem meets_iff_pairwise {R : ι → ι → Prop} :
    Meets (fun pre i ↦ ∀ j ∈ pre, R j i) is ↔ is.Pairwise R := by
  induction is using reverseRecOn with
  | nil => exact iff_of_true meets_nil List.Pairwise.nil
  | append_singleton is i ih =>
    rw [meets_concat, ih, pairwise_append]
    simp

theorem Meets.and (h : Meets A is) (h' : Meets B is) :
    Meets (fun pre i ↦ A pre i ∧ B pre i) is :=
  fun pre i hi ↦ ⟨h pre i hi, h' pre i hi⟩

/-- Step by step, as it can be decided for a given run. -/
theorem meets_iff_take : Meets A is ↔ ∀ k, (h : k < is.length) → A (is.take k) is[k] := by
  constructor
  · intro h k hk
    refine h _ _ ?_
    rw [take_concat_get' is k hk]
    exact take_prefix _ _
  · rintro h pre i ⟨rest, rfl⟩
    have := h pre.length (by simp)
    simpa using this

instance [∀ pre i, Decidable (A pre i)] : Decidable (Meets A is) :=
  decidable_of_iff _ meets_iff_take.symm

/-- Two conditions on the steps of a run are equivalent if they are for each step that
comes after steps that met them. -/
theorem meets_congr (h : ∀ pre i, pre ++ [i] <+: is → Meets B pre → (A pre i ↔ B pre i)) :
    Meets A is ↔ Meets B is := by
  induction is using reverseRecOn with
  | nil => exact iff_of_true meets_nil meets_nil
  | append_singleton is i ih =>
    have ih := ih fun pre j hpre ↦ h pre j (hpre.trans (List.prefix_append is [i]))
    rw [meets_concat, meets_concat, ih]
    exact and_congr_right fun hB ↦ h is i (List.prefix_refl _) hB

/-- **Run induction.** -/
theorem Meets.induction {I : List ι → Prop} (h : Meets A is) (hnil : I [])
    (hstep : ∀ is i, Meets A is → I is → A is i → I (is ++ [i])) : I is := by
  induction is using reverseRecOn with
  | nil => exact hnil
  | append_singleton is i ih =>
    obtain ⟨his, hi⟩ := meets_concat.mp h
    exact hstep is i his (ih his) hi

/-- **Exact conditions.**  If, after a run whose steps met `A`, one more step is safe
just when it meets `A`, then a run is safe throughout just when every step meets
`A`. -/
theorem safe_iff_meets {P : List ι → Prop} (hB : Meets B is) (hnil : P [])
    (hstep : ∀ is i, Meets B is → Meets A is → (∀ pre, pre <+: is → P pre) → B is i →
      (P (is ++ [i]) ↔ A is i)) :
    (∀ pre, pre <+: is → P pre) ↔ Meets A is := by
  induction is using reverseRecOn with
  | nil =>
    refine ⟨fun _ ↦ meets_nil, fun _ pre hpre ↦ ?_⟩
    rw [List.prefix_nil.mp hpre]
    exact hnil
  | append_singleton is i ih =>
    obtain ⟨hBis, hBi⟩ := meets_concat.mp hB
    have ih := ih hBis
    rw [meets_concat]
    constructor
    · intro h
      have hsafe : ∀ pre, pre <+: is → P pre :=
        fun pre hpre ↦ h pre (hpre.trans (List.prefix_append is [i]))
      have hA := ih.mp hsafe
      exact ⟨hA, (hstep is i hBis hA hsafe hBi).mp (h _ (List.prefix_refl _))⟩
    · rintro ⟨hA, hAi⟩ pre hpre
      have hsafe := ih.mpr hA
      rcases List.prefix_concat_iff.mp hpre with rfl | hpre
      · exact (hstep is i hBis hA hsafe hBi).mpr hAi
      · exact hsafe pre hpre

end

end Qros.Lib

/-!
## Potentials

A step that changes a quantity of the state by a known amount is charged that
amount.  `charge d is` adds up what the steps of the run `is` are charged, each in
the state it starts from, and `potential_after` telescopes: the quantity ends where
it began plus the charges.

The charges may be read off a coarser machine.  `Projects π N M` says that `M`
follows `N` through the projection `π`, and then both see the same states and the
same charges.
-/

namespace Qros.Lib.Machine

variable {σ : Type u} {τ : Type u'} {ι : Type v} {ω : Type w} {ω' : Type w'} {G : Type x}
variable (M : Machine σ ι ω)

section Charge

variable [AddMonoid G] (d : σ → ι → G)

def chargeFrom : σ → List ι → G
  | _, [] => 0
  | s, i :: is => d s i + chargeFrom (M.step i s).2 is

/-- What the steps of a run are charged, added up. -/
def charge (is : List ι) : G := M.chargeFrom d M.init is

@[simp]
theorem charge_nil : M.charge d [] = 0 := rfl

theorem chargeFrom_concat (s : σ) (is : List ι) (i : ι) :
    M.chargeFrom d s (is ++ [i]) =
      M.chargeFrom d s is + d (is.foldl (fun s i ↦ (M.step i s).2) s) i := by
  induction is generalizing s with
  | nil =>
    show d s i + 0 = 0 + d s i
    rw [add_zero, zero_add]
  | cons a is ih =>
    rw [List.cons_append, chargeFrom, ih, chargeFrom, List.foldl_cons, add_assoc]

@[simp]
theorem charge_concat (is : List ι) (i : ι) :
    M.charge d (is ++ [i]) = M.charge d is + d (M.after is) i :=
  M.chargeFrom_concat d M.init is i

variable {d}

/-- A run whose steps are all free is charged nothing. -/
theorem charge_eq_zero {is : List ι} (h : Meets (fun pre i ↦ d (M.after pre) i = 0) is) :
    M.charge d is = 0 := by
  have hnil : M.charge d [] = 0 := charge_nil M d
  refine Meets.induction (I := fun is ↦ M.charge d is = 0) h hnil ?_
  intro is i _ ih hi
  rw [charge_concat, ih, hi, add_zero]

/-- **Telescoping.**  What each step changes by its charge, a run changes by the sum. -/
theorem potential_after {φ : σ → G} (hstep : ∀ i s, φ (M.step i s).2 = φ s + d s i)
    (is : List ι) : φ (M.after is) = φ M.init + M.charge d is := by
  induction is using List.reverseRecOn with
  | nil => rw [after_nil, charge_nil, add_zero]
  | append_singleton is i ih => rw [after_concat, hstep, ih, charge_concat, add_assoc]

end Charge

/-! ## Projections -/

variable {N : Machine τ ι ω'} {M} {π : τ → σ}

structure Projects (π : τ → σ) (N : Machine τ ι ω') (M : Machine σ ι ω) : Prop where
  init : π N.init = M.init
  step : ∀ i s, π (N.step i s).2 = (M.step i (π s)).2

namespace Projects

theorem after (h : Projects π N M) (is : List ι) : π (N.after is) = M.after is := by
  induction is using List.reverseRecOn with
  | nil => exact h.init
  | append_singleton is i ih => rw [after_concat, after_concat, h.step, ih]

theorem charge [AddMonoid G] (h : Projects π N M) (d : σ → ι → G) (is : List ι) :
    N.charge (fun s i ↦ d (π s) i) is = M.charge d is := by
  induction is using List.reverseRecOn with
  | nil => rfl
  | append_singleton is i ih => rw [charge_concat, charge_concat, ih, h.after]

end Projects

end Qros.Lib.Machine
