import Mathlib.Data.List.Nodup
import Mathlib.Data.List.Induction

/-!
# Interleaved histories

A list of items that belong to keys is read item by item.  An item that came before is left
out (`firsts`), and one that may follow the items of its key is accepted (`Accepted`).
Neither depends on how the items of different keys are interleaved.
-/

universe u v

namespace Qros.Lib.Interleave

open List

variable {α : Type u} {κ : Type v}

/-! ## The first of each kind -/

section

variable [DecidableEq κ] (f : α → κ)

/-- Add an item unless one of its kind is there. -/
def keep (u : List α) (a : α) : List α := if f a ∈ u.map f then u else u ++ [a]

/-- The first items of each kind. -/
def firsts (l : List α) : List α := l.foldl (keep f) []

variable {f} {l : List α} {a : α}

@[simp]
theorem firsts_nil : firsts f [] = [] := rfl

theorem firsts_concat (l : List α) (a : α) : firsts f (l ++ [a]) = keep f (firsts f l) a := by
  rw [firsts, foldl_append]
  rfl

variable {u : List α}

theorem keep_of_mem (h : f a ∈ u.map f) : keep f u a = u := if_pos h

theorem keep_of_not_mem (h : f a ∉ u.map f) : keep f u a = u ++ [a] := if_neg h

theorem map_keep_subset {k : κ} :
    k ∈ (keep f u a).map f ↔ k ∈ u.map f ∨ k = f a := by
  by_cases h : f a ∈ u.map f
  · rw [keep_of_mem h]
    constructor
    · exact .inl
    · rintro (hk | rfl)
      · exact hk
      · exact h
  · rw [keep_of_not_mem h, map_append, mem_append, map_singleton,
      mem_singleton]

/-- Every kind of the list is kept. -/
theorem mem_map_firsts {k : κ} : k ∈ (firsts f l).map f ↔ k ∈ l.map f := by
  induction l using reverseRecOn with
  | nil => rfl
  | append_singleton l a ih =>
    rw [firsts_concat, map_keep_subset, ih, map_append, mem_append,
      map_singleton, mem_singleton]

theorem mem_of_mem_firsts (h : a ∈ firsts f l) : a ∈ l := by
  induction l using reverseRecOn with
  | nil => exact h
  | append_singleton l b ih =>
    rw [firsts_concat] at h
    rw [mem_append]
    by_cases hb : f b ∈ (firsts f l).map f
    · rw [keep_of_mem hb] at h
      exact .inl (ih h)
    · rw [keep_of_not_mem hb, mem_append] at h
      exact h.imp_left ih

theorem exists_mem_firsts (h : a ∈ l) : ∃ b ∈ firsts f l, f b = f a :=
  mem_map.mp (mem_map_firsts.mpr (mem_map_of_mem h))

theorem nodup_firsts : ((firsts f l).map f).Nodup := by
  induction l using reverseRecOn with
  | nil => exact nodup_nil
  | append_singleton l a ih =>
    rw [firsts_concat]
    by_cases ha : f a ∈ (firsts f l).map f
    · rwa [keep_of_mem ha]
    · rw [keep_of_not_mem ha, map_append, map_singleton]
      refine nodup_append'.mpr ⟨ih, nodup_singleton _, ?_⟩
      rintro k hk hka
      rw [mem_singleton] at hka
      exact ha (hka ▸ hk)

/-- Selecting items commutes with keeping the first ones, if items of one kind are selected
together. -/
theorem firsts_filter {p : α → Bool} (h : ∀ a ∈ l, ∀ b ∈ l, f a = f b → p a = p b) :
    firsts f (l.filter p) = (firsts f l).filter p := by
  induction l using reverseRecOn with
  | nil => rfl
  | append_singleton l a ih =>
    have ih' := ih fun b hb c hc ↦
      h b (mem_append_left _ hb) c (mem_append_left _ hc)
    have hlast : a ∈ l ++ [a] := mem_append_right _ mem_cons_self
    rw [filter_append, firsts_concat]
    cases hp : p a with
    | false =>
      rw [filter_cons_of_neg (by rw [hp]; exact Bool.false_ne_true), filter_nil,
        append_nil, ih']
      by_cases ha : f a ∈ (firsts f l).map f
      · rw [keep_of_mem ha]
      · rw [keep_of_not_mem ha, filter_append,
          filter_cons_of_neg (by rw [hp]; exact Bool.false_ne_true), filter_nil,
          append_nil]
    | true =>
      rw [filter_cons_of_pos hp, filter_nil, firsts_concat, ih']
      by_cases ha : f a ∈ (firsts f l).map f
      · have hsel : f a ∈ ((firsts f l).filter p).map f := by
          obtain ⟨b, hb, hba⟩ := mem_map.mp ha
          have hbl : b ∈ l ++ [a] := mem_append_left _ (mem_of_mem_firsts hb)
          refine mem_map.mpr ⟨b, mem_filter.mpr ⟨hb, ?_⟩, hba⟩
          rw [h b hbl a hlast hba, hp]
        rw [keep_of_mem ha, keep_of_mem hsel]
      · have hsel : f a ∉ ((firsts f l).filter p).map f :=
          fun hmem ↦ ha ((filter_sublist.map f).subset hmem)
        rw [keep_of_not_mem ha, keep_of_not_mem hsel, filter_append,
          filter_cons_of_pos hp, filter_nil]

/-- What comes later adds items of its own only. -/
theorem firsts_append (l l' : List α) : ∃ m, firsts f (l ++ l') = firsts f l ++ m ∧ m ⊆ l' := by
  induction l' using reverseRecOn with
  | nil => exact ⟨[], by rw [append_nil, append_nil], List.Subset.refl _⟩
  | append_singleton l' a ih =>
    obtain ⟨m, hm, hsub⟩ := ih
    rw [← append_assoc, firsts_concat, hm]
    by_cases ha : f a ∈ (firsts f l ++ m).map f
    · exact ⟨m, keep_of_mem ha, subset_append_of_subset_left _ hsub⟩
    · refine ⟨m ++ [a], ?_, ?_⟩
      · rw [keep_of_not_mem ha, append_assoc]
      · exact append_subset.mpr
          ⟨subset_append_of_subset_left _ hsub, subset_append_right _ _⟩

end

/-! ## Repeated items -/

/-- The second list is the first one with items repeated after they came. -/
inductive Repeats (R : α → α → Prop) : List α → List α → Prop
  | nil : Repeats R [] []
  | next {l l' : List α} (a : α) (h : Repeats R l l') : Repeats R (l ++ [a]) (l' ++ [a])
  | again {l l' : List α} {a b : α} (h : Repeats R l l') (ha : a ∈ l) (hab : R a b) :
      Repeats R l (l' ++ [b])

section Repeats

variable {R : α → α → Prop} {l l' : List α}

theorem Repeats.refl (R : α → α → Prop) (l : List α) : Repeats R l l := by
  induction l using reverseRecOn with
  | nil => exact .nil
  | append_singleton l a ih => exact .next a ih

theorem Repeats.subset (h : Repeats R l l') : l ⊆ l' := by
  induction h with
  | nil => exact List.Subset.refl _
  | next a _ ih =>
    exact append_subset.mpr
      ⟨subset_append_of_subset_left _ ih, subset_append_right _ _⟩
  | again _ _ _ ih => exact subset_append_of_subset_left _ ih

theorem Repeats.exists_of_mem (hR : ∀ a, R a a) (h : Repeats R l l') {b : α} (hb : b ∈ l') :
    ∃ a ∈ l, R a b := by
  induction h with
  | nil => exact absurd hb not_mem_nil
  | next a _ ih =>
    rw [mem_append, mem_singleton] at hb
    rcases hb with hb | rfl
    · obtain ⟨c, hc, hcb⟩ := ih hb
      exact ⟨c, mem_append_left _ hc, hcb⟩
    · exact ⟨b, mem_append_right _ mem_cons_self, hR b⟩
  | again _ ha hab ih =>
    rw [mem_append, mem_singleton] at hb
    rcases hb with hb | rfl
    · exact ih hb
    · exact ⟨_, ha, hab⟩

theorem Repeats.firsts_eq [DecidableEq κ] {f : α → κ} (hR : ∀ a b, R a b → f a = f b)
    (h : Repeats R l l') : firsts f l' = firsts f l := by
  induction h with
  | nil => rfl
  | next a _ ih => rw [firsts_concat, firsts_concat, ih]
  | again _ ha hab ih =>
    rw [firsts_concat, ih, keep_of_mem]
    rw [mem_map_firsts, ← hR _ _ hab]
    exact mem_map_of_mem ha

end Repeats

/-! ## Interleavings -/

section

variable [DecidableEq κ] (key : α → κ)

/-- The items of one key, in order. -/
def history (k : κ) (l : List α) : List α := l.filter fun a ↦ decide (key a = k)

/-- Every key has the same items, in the same order. -/
def Interleaves (l l' : List α) : Prop := ∀ k, history key k l' = history key k l

variable {key} {k : κ} {l l' : List α} {a : α}

theorem mem_history : a ∈ history key k l ↔ a ∈ l ∧ key a = k := by
  rw [history, mem_filter, decide_eq_true_iff]

theorem history_append (l l' : List α) :
    history key k (l ++ l') = history key k l ++ history key k l' := filter_append ..

theorem history_concat_self (l : List α) (a : α) :
    history key (key a) (l ++ [a]) = history key (key a) l ++ [a] := by
  rw [history_append]
  simp [history]

theorem history_concat_of_ne (l : List α) (h : key a ≠ k) :
    history key k (l ++ [a]) = history key k l := by
  rw [history_append]
  simp [history, h]

theorem Interleaves.mem_iff (h : Interleaves key l l') : a ∈ l' ↔ a ∈ l := by
  have hself : ∀ l : List α, a ∈ history key (key a) l ↔ a ∈ l := fun l ↦ by
    rw [mem_history, and_iff_left rfl]
  rw [← hself, h, hself]

/-- The items of one key can be read before all others. -/
theorem interleaves_front (key : α → κ) (k : κ) (l : List α) :
    Interleaves key l (history key k l ++ l.filter fun a ↦ decide (key a ≠ k)) := by
  intro k'
  rw [history_append]
  unfold history
  rw [filter_filter, filter_filter]
  by_cases hk : k = k'
  · subst hk
    have hnone : (l.filter fun a ↦ decide (key a = k) && decide (key a ≠ k)) = [] := by
      rw [filter_eq_nil_iff]
      intro a _
      simp
    rw [hnone, append_nil]
    simp only [Bool.and_self]
  · have hnone : (l.filter fun a ↦ decide (key a = k') && decide (key a = k)) = [] := by
      rw [filter_eq_nil_iff]
      intro a _
      rw [Bool.and_eq_true, decide_eq_true_iff, decide_eq_true_iff]
      rintro ⟨h₁, h₂⟩
      exact hk (h₂.symm.trans h₁)
    rw [hnone, nil_append]
    refine filter_congr fun a _ ↦ ?_
    by_cases ha : key a = k'
    · simp [ha, Ne.symm hk]
    · simp [ha]

/-! ## Items that follow their history -/

variable (Follows : List α → α → Prop)

inductive IsChain : List α → Prop
  | nil : IsChain []
  | concat {l : List α} {a : α} (h : IsChain l) (ha : Follows l a) : IsChain (l ++ [a])

/-- Each item may follow the items of its key before it. -/
def Accepted (key : α → κ) (l : List α) : Prop := ∀ k, IsChain Follows (history key k l)

variable {Follows}

theorem isChain_concat : IsChain Follows (l ++ [a]) ↔ IsChain Follows l ∧ Follows l a := by
  constructor
  · intro h
    generalize hm : l ++ [a] = m at h
    cases h with
    | nil => exact absurd hm (append_ne_nil_of_right_ne_nil _ (cons_ne_nil a []))
    | concat h ha =>
      obtain ⟨rfl, hlast⟩ := append_inj' hm rfl
      obtain rfl := singleton_inj.mp hlast
      exact ⟨h, ha⟩
  · rintro ⟨h, ha⟩
    exact .concat h ha

theorem accepted_nil : Accepted Follows key [] := fun _ ↦ .nil

/-- **One item more.** -/
theorem accepted_concat : Accepted Follows key (l ++ [a]) ↔
    Accepted Follows key l ∧ Follows (history key (key a) l) a := by
  constructor
  · intro h
    have hself := h (key a)
    rw [history_concat_self, isChain_concat] at hself
    refine ⟨fun k ↦ ?_, hself.2⟩
    by_cases hk : key a = k
    · subst hk
      exact hself.1
    · have := h k
      rwa [history_concat_of_ne l hk] at this
  · rintro ⟨h, ha⟩ k
    by_cases hk : key a = k
    · subst hk
      rw [history_concat_self]
      exact .concat (h (key a)) ha
    · rw [history_concat_of_ne l hk]
      exact h k

/-- **Interleaving.**  Only the items of each key count. -/
theorem Interleaves.accepted_iff (h : Interleaves key l l') :
    Accepted Follows key l' ↔ Accepted Follows key l := by
  rw [Accepted, Accepted]
  exact forall_congr' fun k ↦ by rw [h k]

theorem Interleaves.firsts_of {ι : Type*} [DecidableEq ι] {f : α → ι}
    (hf : ∀ a ∈ l, ∀ b ∈ l, f a = f b → key a = key b) (h : Interleaves key l l') :
    Interleaves key (firsts f l) (firsts f l') := by
  intro k
  have hselect : ∀ m : List α, (∀ a ∈ m, a ∈ l) →
      history key k (firsts f m) = firsts f (history key k m) := fun m hm ↦ by
    refine (firsts_filter fun a ha b hb hab ↦ ?_).symm
    rw [hf a (hm a ha) b (hm b hb) hab]
  rw [hselect l' fun a ha ↦ h.mem_iff.mp ha, hselect l fun a ha ↦ ha, h k]

end

/-! ## Folds that keep the keys apart -/

section

variable [DecidableEq κ] {key : α → κ} {σ : Type*} {τ : Type*} {view : σ → κ → τ}
  {step : σ → α → σ} {local_ : τ → α → τ}

/-- If an item changes what is known of its own key only, then what is known of a key in the
end comes from its history. -/
theorem view_foldl
    (h : ∀ s a k, view (step s a) k = if key a = k then local_ (view s k) a else view s k)
    (s : σ) (l : List α) (k : κ) :
    view (l.foldl step s) k = (history key k l).foldl local_ (view s k) := by
  induction l generalizing s with
  | nil => rfl
  | cons a l ih =>
    rw [foldl_cons, ih, h, history, history, filter_cons]
    by_cases ha : key a = k
    · rw [if_pos ha, if_pos (decide_eq_true ha), foldl_cons]
    · rw [if_neg ha, if_neg (by simpa using ha)]

/-- The items are the same, so interleavings are permutations. -/
theorem Interleaves.perm {l l' : List α} (h : Interleaves key l l') : l.Perm l' := by
  classical
  have hself : ∀ (m : List α) a, (history key (key a) m).count a = m.count a := fun m a ↦
    count_filter (decide_eq_true rfl)
  rw [perm_iff_count]
  intro a
  rw [← hself l a, ← hself l' a, h]

end

/-! ## Order in a list -/

theorem exists_pair_sublist {β : Type*} {f : α → β} {l : List α} {b c : β}
    (h : [b, c].Sublist (l.map f)) : ∃ a a', [a, a'].Sublist l ∧ f a = b ∧ f a' = c := by
  obtain ⟨m, hm, heq⟩ := sublist_map_iff.mp h
  obtain ⟨a, m', rfl, ha, heq'⟩ := map_eq_cons_iff.mp heq.symm
  obtain ⟨a', m'', rfl, ha', hnil⟩ := map_eq_cons_iff.mp heq'
  rw [map_eq_nil_iff.mp hnil] at hm
  exact ⟨a, a', hm, ha, ha'⟩

/-- Two items do not stand in both orders in a list without duplicates. -/
theorem eq_of_pair_sublist {l : List α} (hnd : l.Nodup) {a b : α} (h : [a, b].Sublist l)
    (h' : [b, a].Sublist l) : a = b := by
  induction l with
  | nil => exact absurd h.subset (by simp)
  | cons c l ih =>
    obtain ⟨hc, hl⟩ := nodup_cons.mp hnd
    cases h with
    | cons _ h =>
      cases h' with
      | cons _ h' => exact ih hl h h'
      | cons_cons _ h' => exact absurd (h.subset (by simp)) hc
    | cons_cons _ h =>
      cases h' with
      | cons _ h' => exact absurd (h'.subset (by simp)) hc
      | cons_cons _ h' => rfl

end Qros.Lib.Interleave
