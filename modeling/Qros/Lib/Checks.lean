import Mathlib.Data.List.Forall2

/-!
# Sequences of checks

A request passes a sequence of checks, each of which may reject it with an error.
The lemmas turn "the sequence accepts" into the conjunction of what the checks
found, so that no proof steps through the sequence again.
-/

universe u v

namespace Qros.Lib

open List

section Checks

variable {ε : Type u} {α β : Type v}

def require (p : Prop) [Decidable p] (e : ε) : Except ε Unit := if p then .ok () else .error e

/-- The value looked for, or `e` if there is none. -/
def found (o : Option α) (e : ε) : Except ε α :=
  match o with
  | none => .error e
  | some a => .ok a

/-- A check of every element, by evaluation. -/
theorem forall_mem_of_all {l : List α} {p : α → Prop} [DecidablePred p]
    (h : l.all (fun a ↦ decide (p a)) = true) : ∀ a ∈ l, p a :=
  fun a ha ↦ of_decide_eq_true (all_eq_true.mp h a ha)

variable {f : α → Except ε β} {as : List α}

variable {x : Except ε α} {bs : List β}

theorem bind_eq_ok {b : β} :
    (x >>= f) = .ok b ↔ ∃ a, x = .ok a ∧ f a = .ok b := by
  constructor
  · intro h
    cases x with
    | error e => cases h
    | ok a => exact ⟨a, rfl, h⟩
  · rintro ⟨a, rfl, h⟩
    exact h

theorem exists_of_isOk (h : x.isOk = true) : ∃ a, x = .ok a := by
  cases x with
  | error e => cases h
  | ok a => exact ⟨a, rfl⟩

theorem map_eq_ok {f : α → β} {b : β} :
    x.map f = .ok b ↔ ∃ a, x = .ok a ∧ f a = b := by
  cases x with
  | error e => exact iff_of_false (fun h ↦ by cases h) fun ⟨_, h, _⟩ ↦ by cases h
  | ok a =>
    constructor
    · intro h
      exact ⟨a, rfl, Except.ok.inj h⟩
    · rintro ⟨_, h, rfl⟩
      cases h
      rfl

theorem require_eq_ok {p : Prop} [Decidable p] {e : ε} {u : Unit} :
    require p e = .ok u ↔ p := by
  unfold require
  constructor
  · intro h
    split at h
    · assumption
    · cases h
  · intro h
    rw [if_pos h]

/-- What was checked, however it was decided. -/
theorem of_require {p : Prop} {_ : Decidable p} {e : ε} {u : Unit} (h : require p e = .ok u) : p :=
  require_eq_ok.mp h

theorem found_eq_ok {o : Option α} {e : ε} {a : α} : found o e = .ok a ↔ o = some a := by
  cases o with
  | none => exact iff_of_false nofun nofun
  | some b =>
    exact ⟨fun h ↦ congrArg some (Except.ok.inj h),
      fun h ↦ congrArg Except.ok (Option.some.inj h)⟩

theorem forM_eq_ok {f : α → Except ε PUnit} {u : PUnit} :
    forM as f = .ok u ↔ ∀ a ∈ as, f a = .ok u := by
  induction as with
  | nil => exact iff_of_true rfl nofun
  | cons a as ih =>
    rw [forM_cons, bind_eq_ok, forall_mem_cons, ← ih]
    exact ⟨fun ⟨_, ha, has⟩ ↦ ⟨ha, has⟩, fun ⟨ha, has⟩ ↦ ⟨u, ha, has⟩⟩

/-- A loop that checks each element and folds it in. -/
theorem foldlM_check_eq_ok {σ : Type v} {check : α → Except ε PUnit} {f : σ → α → σ} {s s' : σ} :
    as.foldlM (fun s a ↦ do check a; return f s a) s = .ok s' ↔
      (∀ a ∈ as, check a = .ok ⟨⟩) ∧ as.foldl f s = s' := by
  induction as generalizing s with
  | nil => exact ⟨fun h ↦ ⟨nofun, Except.ok.inj h⟩, fun h ↦ congrArg Except.ok h.2⟩
  | cons a as ih =>
    rw [foldlM_cons, bind_eq_ok, forall_mem_cons, foldl_cons, and_assoc, ← ih]
    constructor
    · rintro ⟨t, ht, hrest⟩
      obtain ⟨u, hu, heq⟩ := bind_eq_ok.mp ht
      exact ⟨hu, Except.ok.inj heq ▸ hrest⟩
    · rintro ⟨hu, hrest⟩
      exact ⟨_, bind_eq_ok.mpr ⟨⟨⟩, hu, rfl⟩, hrest⟩

/-- A loop that accepts every element collects what it makes of each. -/
theorem exists_mapM_eq_ok (h : ∀ a ∈ as, ∃ b, f a = .ok b) :
    ∃ bs, as.mapM f = .ok bs ∧ bs.length = as.length ∧
      ∀ (i : Nat) (a : α), as[i]? = some a → ∃ b, bs[i]? = some b ∧ f a = .ok b := by
  induction as with
  | nil => exact ⟨[], rfl, rfl, nofun⟩
  | cons a as ih =>
    obtain ⟨b, hb⟩ := h a mem_cons_self
    obtain ⟨bs, hbs, hlength, hat⟩ := ih fun a' ha' ↦ h a' (mem_cons_of_mem _ ha')
    refine ⟨b :: bs, ?_, congrArg (· + 1) hlength, ?_⟩
    · rw [mapM_cons]
      exact bind_eq_ok.mpr ⟨b, hb, bind_eq_ok.mpr ⟨bs, hbs, rfl⟩⟩
    · intro i a' ha'
      cases i with
      | zero =>
        obtain rfl : a = a' := Option.some.inj ha'
        exact ⟨b, rfl, hb⟩
      | succ i => exact hat i a' ha'

/-- What a loop that accepts every element makes of each. -/
theorem forall₂_of_mapM (h : as.mapM f = .ok bs) : List.Forall₂ (fun a b ↦ f a = .ok b) as bs := by
  induction as generalizing bs with
  | nil =>
    obtain rfl := Except.ok.inj h
    exact .nil
  | cons a as ih =>
    rw [mapM_cons, bind_eq_ok] at h
    obtain ⟨b, hb, h⟩ := h
    obtain ⟨bs', hbs, h⟩ := bind_eq_ok.mp h
    obtain rfl := Except.ok.inj h
    exact .cons hb (ih hbs)

/-- A loop whose results are known to be those of a function. -/
theorem eq_map_of_mapM {g : α → β} (h : as.mapM f = .ok bs)
    (hg : ∀ a ∈ as, ∀ b, f a = .ok b → b = g a) : bs = as.map g := by
  have hall := forall₂_of_mapM h
  clear h
  induction hall with
  | nil => rfl
  | cons hab _ ih =>
    rw [map_cons, hg _ mem_cons_self _ hab,
      ih fun a ha ↦ hg a (mem_cons_of_mem _ ha)]

theorem mem_of_mapM (h : as.mapM f = .ok bs) :
    ∀ a ∈ as, ∃ b ∈ bs, f a = .ok b := by
  have hall := forall₂_of_mapM h
  clear h
  induction hall with
  | nil => exact nofun
  | cons hab _ ih =>
    intro a ha
    rcases mem_cons.mp ha with rfl | ha
    · exact ⟨_, mem_cons_self, hab⟩
    · obtain ⟨b, hb, hfab⟩ := ih a ha
      exact ⟨b, mem_cons_of_mem _ hb, hfab⟩

theorem exists_of_mem_mapM (h : as.mapM f = .ok bs) : ∀ b ∈ bs, ∃ a ∈ as, f a = .ok b := by
  have hall := forall₂_of_mapM h
  clear h
  induction hall with
  | nil => exact nofun
  | cons hab _ ih =>
    intro b hb
    rcases mem_cons.mp hb with rfl | hb
    · exact ⟨_, mem_cons_self, hab⟩
    · obtain ⟨a, ha, hfab⟩ := ih b hb
      exact ⟨a, mem_cons_of_mem _ ha, hfab⟩

end Checks

end Qros.Lib
