import Qros.Lib.Dict

/-!
# Stores whose objects refer to each other

The objects of a store have a class each and refer to other objects by class and
key.  A store is `Sound` if every reference leads to an object of its class.

Saving an object may replace another one.  It does no harm to the references that
are there if it `Fits`: the key is free, or held by an object of the same class.
`Sound.set` is the step of every proof about a sequence of saves.  What such a
sequence adds is in `Grows`, and `Admits` says that it will fit.
-/

universe u v w

namespace Qros.Lib.TypedStore

open List

/-- What a store has to know of its objects. -/
structure Schema (κ : Type u) (α : Type v) (γ : Type w) where
  cls : α → γ
  refs : α → List (γ × κ)

variable {κ : Type u} {α : Type v} {γ : Type w} [DecidableEq κ] (S : Schema κ α γ)

/-- The reference `r` leads to an object of its class. -/
def Names (d : Dict κ α) (r : γ × κ) : Prop := ∃ a, d.get? r.2 = some a ∧ S.cls a = r.1

/-- Every reference of a stored object leads to an object of its class. -/
def Sound (d : Dict κ α) : Prop := ∀ k a, d.get? k = some a → ∀ r ∈ S.refs a, Names S d r

/-- The key `k` is free for an object of the class `c`. -/
def Fits (d : Dict κ α) (k : κ) (c : γ) : Prop := ∀ a, d.get? k = some a → S.cls a = c

variable {S} {d : Dict κ α} {k l : κ} {a b : α} {c : γ}

variable {r : γ × κ}

theorem names_iff : Names S d r ↔ (d.get? r.2).map S.cls = some r.1 :=
  Option.map_eq_some_iff.symm

theorem fits_iff : Fits S d k c ↔ ∀ c' ∈ (d.get? k).map S.cls, c' = c := by
  constructor
  · intro h c' hc'
    obtain ⟨b, hb, rfl⟩ := Option.map_eq_some_iff.mp hc'
    exact h b hb
  · intro h b hb
    exact h _ (Option.map_eq_some_iff.mpr ⟨b, hb, rfl⟩)

instance [DecidableEq γ] (r : γ × κ) : Decidable (Names S d r) := decidable_of_iff' _ names_iff

instance [DecidableEq γ] : Decidable (Fits S d k c) := decidable_of_iff' _ fits_iff

theorem fits_of_get (h : d.get? k = some b) : Fits S d k (S.cls b) := by
  intro b' hb'
  rw [h] at hb'
  exact Option.some_inj.mp hb' ▸ rfl

theorem fits_of_free (h : d.get? k = none) : Fits S d k c := by
  intro b hb
  rw [h] at hb
  cases hb

/-- A save that fits keeps every reference. -/
theorem Names.set (h : Names S d r) (hfits : Fits S d k (S.cls a)) :
    Names S (d.set k a) r := by
  obtain ⟨b, hb, hcls⟩ := h
  by_cases hk : k = r.2
  · refine ⟨a, by rw [Dict.get?_set, if_pos hk], ?_⟩
    rw [← hcls]
    exact (hfits b (hk ▸ hb)).symm
  · exact ⟨b, by rw [Dict.get?_set_of_ne d a hk, hb], hcls⟩

theorem Names.update (h : Names S d r) (hb : d.get? l = some b) (hcls : S.cls b = S.cls a) :
    Names S (d.set l a) r :=
  h.set (hcls ▸ fits_of_get hb)

/-- Where an object of another class fits, what is stored stays. -/
theorem get?_set_of_fits (h : d.get? l = some b) (hfits : Fits S d k (S.cls a))
    (hcls : S.cls b ≠ S.cls a) : (d.set k a).get? l = some b := by
  rw [Dict.get?_set_of_ne d a, h]
  rintro rfl
  exact hcls (hfits b h)

/-- **Saving.**  An object that fits and whose references lead somewhere afterwards. -/
theorem Sound.set (h : Sound S d) (hfits : Fits S d k (S.cls a))
    (hrefs : ∀ r ∈ S.refs a, Names S (d.set k a) r) : Sound S (d.set k a) := by
  intro l b hb r hr
  rw [Dict.get?_set] at hb
  split at hb
  · obtain rfl := Option.some_inj.mp hb
    exact hrefs r hr
  · exact (h l b hb r hr).set hfits

theorem sound_empty : Sound S (∅ : Dict κ α) := fun _ _ h ↦ nomatch h

/-! ## Sequences of saves -/

theorem Fits.eq (h : Fits S d r.2 c) (hr : Names S d r) : r.1 = c := by
  obtain ⟨b, hb, hcls⟩ := hr
  exact hcls ▸ h b hb

variable (S) in
structure Grows (d : Dict κ α) (new : List (γ × κ)) (d' : Dict κ α) : Prop where
  kept : ∀ r, Names S d r → Names S d' r
  only : ∀ r, Names S d' r → Names S d r ∨ r ∈ new

variable (S) in
/-- The names in `new` fit into the store, each beside the others. -/
structure Admits (d : Dict κ α) (new : List (γ × κ)) : Prop where
  fits : ∀ r ∈ new, Fits S d r.2 r.1
  same : ∀ r ∈ new, ∀ r' ∈ new, r.2 = r'.2 → r.1 = r'.1

variable {d' d'' : Dict κ α} {new new' : List (γ × κ)}

theorem Grows.refl : Grows S d [] d := ⟨fun _ h ↦ h, fun _ h ↦ .inl h⟩

theorem Grows.trans (h : Grows S d new d') (h' : Grows S d' new' d'') :
    Grows S d (new ++ new') d'' where
  kept r hr := h'.kept r (h.kept r hr)
  only r hr := by
    rcases h'.only r hr with hr | hr
    · rcases h.only r hr with hr | hr
      · exact .inl hr
      · exact .inr (mem_append_left new' hr)
    · exact .inr (mem_append_right new hr)

theorem Fits.grows_set (h : Fits S d k (S.cls a)) : Grows S d [(S.cls a, k)] (d.set k a) where
  kept _ hr := hr.set h
  only r hr := by
    obtain ⟨b, hb, hcls⟩ := hr
    rw [Dict.get?_set] at hb
    split at hb
    · rename_i hk
      obtain rfl := Option.some_inj.mp hb
      exact .inr (mem_singleton.mpr (Prod.ext hcls.symm hk.symm))
    · exact .inl ⟨b, hb, hcls⟩

/-- A change of an object that keeps its class adds no name. -/
theorem grows_update (hb : d.get? l = some b) (hcls : S.cls b = S.cls a) :
    Grows S d [] (d.set l a) where
  kept _ hr := hr.update hb hcls
  only r hr := by
    have hfits : Fits S d l (S.cls a) := hcls ▸ fits_of_get hb
    rcases hfits.grows_set.only r hr with hr | hr
    · exact .inl hr
    · cases mem_singleton.mp hr
      exact .inl ⟨b, hb, hcls⟩

theorem Grows.fits (h : Grows S d new d') (hfits : Fits S d k c)
    (hnew : ∀ c', (c', k) ∈ new → c' = c) : Fits S d' k c := by
  intro b hb
  rcases h.only (S.cls b, k) ⟨b, hb, rfl⟩ with hr | hr
  · exact hfits.eq hr
  · exact hnew _ hr

theorem Admits.left (h : Admits S d (new ++ new')) : Admits S d new where
  fits r hr := h.fits r (mem_append_left new' hr)
  same r hr r' hr' := h.same r (mem_append_left new' hr) r' (mem_append_left new' hr')

/-- What is left to save fits into what the saves so far have made. -/
theorem Admits.grows (h : Admits S d (new ++ new')) (hgrows : Grows S d new d') :
    Admits S d' new' where
  fits r hr := hgrows.fits (h.fits r (mem_append_right new hr)) fun c' hc' ↦
    h.same (c', r.2) (mem_append_left new' hc') r (mem_append_right new hr) rfl
  same r hr r' hr' :=
    h.same r (mem_append_right new hr) r' (mem_append_right new hr')

theorem Admits.tail (h : Admits S d (r :: new)) (hgrows : Grows S d [r] d') :
    Admits S d' new := Admits.grows h hgrows

instance [DecidableEq γ] : Decidable (Admits S d new) :=
  decidable_of_iff ((∀ r ∈ new, Fits S d r.2 r.1) ∧ ∀ r ∈ new, ∀ r' ∈ new, r.2 = r'.2 → r.1 = r'.1)
    ⟨fun h ↦ ⟨h.1, h.2⟩, fun h ↦ ⟨h.1, h.2⟩⟩

end Qros.Lib.TypedStore
