import Mathlib.Data.List.Sort

/-!
# Stable sorting by a key

`stableSortBy key l` sorts `l` by `key` and keeps equal keys in their order.
The sorted list is determined by the sublists of equal keys: two lists with the
same elements at every key, in the same order, sort to the same list
(`stableSortBy_congr`), and selecting keys commutes with sorting
(`atKey_stableSortBy`).
-/

universe u v

namespace Qros.Lib.KeySort

open List

variable {α : Type u} {κ : Type v} [LinearOrder κ]

def stableSortBy (key : α → κ) (l : List α) : List α :=
  l.insertionSort (fun a b ↦ key a ≤ key b)

def atKey (key : α → κ) (k : κ) (l : List α) : List α := l.filter (fun a ↦ decide (key a = k))

variable (key : α → κ)

private theorem key_total : Std.Total (fun a b : α ↦ key a ≤ key b) :=
  ⟨fun a b ↦ le_total (key a) (key b)⟩

private theorem key_trans : IsTrans α (fun a b : α ↦ key a ≤ key b) :=
  ⟨fun _ _ _ h h' ↦ le_trans h h'⟩

theorem stableSortBy_sorted (l : List α) :
    (stableSortBy key l).Pairwise (fun a b ↦ key a ≤ key b) :=
  haveI := key_total key
  haveI := key_trans key
  pairwise_insertionSort _ l

theorem stableSortBy_perm (l : List α) : (stableSortBy key l).Perm l :=
  perm_insertionSort _ l

theorem mem_stableSortBy {l : List α} {a : α} : a ∈ stableSortBy key l ↔ a ∈ l :=
  (stableSortBy_perm key l).mem_iff

/-- Sorting keeps the elements of each key in their order. -/
theorem atKey_stableSortBy (k : κ) (l : List α) :
    atKey key k (stableSortBy key l) = atKey key k l := by
  have := key_total key
  have := key_trans key
  have hsub : (atKey key k l).Sublist (stableSortBy key l) := by
    refine sublist_insertionSort ?_ filter_sublist
    refine List.Pairwise.imp_of_mem ?_ (pairwise_of_forall (fun _ _ ↦ trivial))
    intro a b ha hb _
    rw [of_decide_eq_true (mem_filter.mp ha).2, of_decide_eq_true (mem_filter.mp hb).2]
  have hself : (atKey key k l).filter (fun a ↦ decide (key a = k)) = atKey key k l :=
    filter_eq_self.mpr fun a ha ↦ (mem_filter.mp ha).2
  have hsub' : (atKey key k l).Sublist (atKey key k (stableSortBy key l)) := by
    have h := hsub.filter (fun a ↦ decide (key a = k))
    rwa [hself] at h
  exact (hsub'.eq_of_length ((stableSortBy_perm key l).filter _).length_eq.symm).symm

/-- The head of a sorted list is the head of the sublist at its key. -/
theorem atKey_cons_self (a : α) (l : List α) :
    atKey key (key a) (a :: l) = a :: atKey key (key a) l := by
  simp [atKey]

variable {l l' : List α}

/-- Two sorted lists that agree at every key are equal. -/
theorem eq_of_atKey_eq (h : l.Pairwise (fun a b ↦ key a ≤ key b))
    (h' : l'.Pairwise (fun a b ↦ key a ≤ key b)) (hk : ∀ k, atKey key k l = atKey key k l') :
    l = l' := by
  induction l generalizing l' with
  | nil =>
    cases l' with
    | nil => rfl
    | cons b t' =>
      have := hk (key b)
      rw [atKey_cons_self] at this
      simp [atKey] at this
  | cons a t ih =>
    cases l' with
    | nil =>
      have := hk (key a)
      rw [atKey_cons_self] at this
      simp [atKey] at this
    | cons b t' =>
      obtain ⟨ha, ht⟩ := pairwise_cons.mp h
      obtain ⟨hb, ht'⟩ := pairwise_cons.mp h'
      -- Each head lies in the other list, so neither key is below the other.
      have hab : key b ≤ key a := by
        have hmem : a ∈ atKey key (key a) (b :: t') := by
          rw [← hk, atKey_cons_self]
          exact mem_cons_self
        rcases mem_cons.mp (mem_filter.mp hmem).1 with rfl | hmem'
        · exact le_refl _
        · exact hb a hmem'
      have hba : key a ≤ key b := by
        have hmem : b ∈ atKey key (key b) (a :: t) := by
          rw [hk, atKey_cons_self]
          exact mem_cons_self
        rcases mem_cons.mp (mem_filter.mp hmem).1 with rfl | hmem'
        · exact le_refl _
        · exact ha b hmem'
      have hkey : key a = key b := le_antisymm hba hab
      have hhead := hk (key a)
      rw [atKey_cons_self, hkey, atKey_cons_self] at hhead
      obtain ⟨rfl, -⟩ := List.cons.inj hhead
      refine congrArg (a :: ·) (ih ht ht' fun k ↦ ?_)
      have hkk := hk k
      by_cases hak : key a = k
      · subst hak
        rw [atKey_cons_self, atKey_cons_self] at hkk
        exact (List.cons.inj hkk).2
      · simpa [atKey, hak] using hkk

/-- **A stable sort depends only on the order within each key.** -/
theorem stableSortBy_congr (h : ∀ k, atKey key k l = atKey key k l') :
    stableSortBy key l = stableSortBy key l' :=
  eq_of_atKey_eq key (stableSortBy_sorted key l) (stableSortBy_sorted key l') fun k ↦ by
    rw [atKey_stableSortBy, atKey_stableSortBy, h]

/-- Elements with different keys are sorted in one way only. -/
theorem stableSortBy_eq_of_perm (h : l.Perm l') (hinj : ∀ a ∈ l, ∀ b ∈ l, key a = key b → a = b) :
    stableSortBy key l = stableSortBy key l' := by
  have hperm : (stableSortBy key l).Perm (stableSortBy key l') :=
    (stableSortBy_perm key l).trans (h.trans (stableSortBy_perm key l').symm)
  refine hperm.eq_of_pairwise ?_ (stableSortBy_sorted key l) (stableSortBy_sorted key l')
  intro a b ha hb hab hba
  exact hinj a ((mem_stableSortBy key).mp ha) b
    (h.mem_iff.mpr ((mem_stableSortBy key).mp hb)) (le_antisymm hab hba)

/-- Mapping commutes with sorting. -/
theorem stableSortBy_map {β : Type*} (f : β → α) (l : List β) :
    stableSortBy key (l.map f) = (stableSortBy (fun b ↦ key (f b)) l).map f := by
  refine (map_insertionSort _ _ _ _ ?_).symm
  intro a _ b _
  rfl

/-- Selecting elements commutes with sorting. -/
theorem filter_stableSortBy (p : α → Bool) (l : List α) :
    (stableSortBy key l).filter p = stableSortBy key (l.filter p) := by
  refine eq_of_atKey_eq key ((stableSortBy_sorted key l).sublist filter_sublist)
    (stableSortBy_sorted key _) fun k ↦ ?_
  have hswap (l : List α) : atKey key k (l.filter p) = (atKey key k l).filter p := by
    unfold atKey
    rw [filter_filter, filter_filter]
    exact filter_congr fun a _ ↦ Bool.and_comm _ _
  rw [hswap, atKey_stableSortBy, atKey_stableSortBy, hswap]

theorem stableSortBy_append (h : ∀ a ∈ l, ∀ b ∈ l', key a ≤ key b) :
    stableSortBy key (l ++ l') = stableSortBy key l ++ stableSortBy key l' := by
  refine eq_of_atKey_eq key (stableSortBy_sorted key _) ?_ fun k ↦ ?_
  · refine pairwise_append.mpr ⟨stableSortBy_sorted key l, stableSortBy_sorted key l', ?_⟩
    intro a ha b hb
    exact h a ((mem_stableSortBy key).mp ha) b ((mem_stableSortBy key).mp hb)
  · have happend (xs ys : List α) : atKey key k (xs ++ ys) = atKey key k xs ++ atKey key k ys :=
      filter_append _ _
    rw [atKey_stableSortBy, happend, happend, atKey_stableSortBy, atKey_stableSortBy]

omit [LinearOrder κ] in
/-- Lists that list the same distinct keys in the same order are equal as soon as
they are permutations of each other. -/
theorem eq_of_perm_of_map_eq (hperm : l.Perm l') (hkeys : l.map key = l'.map key)
    (hnd : (l.map key).Nodup) : l = l' := by
  induction l generalizing l' with
  | nil => exact hperm.symm.eq_nil.symm
  | cons a t ih =>
    cases l' with
    | nil => exact absurd hperm.eq_nil (cons_ne_nil _ _)
    | cons b t' =>
      obtain ⟨-, htt⟩ := List.cons.inj hkeys
      obtain ⟨hnotin, hnd⟩ := nodup_cons.mp hnd
      have heq : a = b := by
        rcases mem_cons.mp (hperm.subset mem_cons_self) with h | h
        · exact h
        · exact absurd (htt ▸ mem_map_of_mem h) hnotin
      subst heq
      rw [ih hperm.cons_inv htt hnd]

/-! ## Walking a sorted list one key at a time -/

theorem takeWhile_eq_atKey {k : κ} {l : List α} (h : l.Pairwise (fun a b ↦ key a ≤ key b))
    (hk : ∀ a ∈ l, k ≤ key a) : l.takeWhile (fun a ↦ decide (key a = k)) = atKey key k l := by
  induction l with
  | nil => rfl
  | cons a t ih =>
    obtain ⟨ha, ht⟩ := pairwise_cons.mp h
    by_cases hak : key a = k
    · simp only [takeWhile_cons, atKey, filter_cons, hak, decide_true, if_true]
      exact congrArg (a :: ·) (ih ht fun b hb ↦ hk b (mem_cons_of_mem _ hb))
    · -- Past the first larger key there is nothing left at `k`.
      have hlt : k < key a := lt_of_le_of_ne (hk a mem_cons_self) (Ne.symm hak)
      have hnone : ∀ b ∈ a :: t, ¬ decide (key b = k) = true := by
        intro b hb hbk
        rcases mem_cons.mp hb with rfl | hb
        · exact hak (of_decide_eq_true hbk)
        · exact absurd (ha b hb) (not_le.mpr (of_decide_eq_true hbk ▸ hlt))
      rw [atKey, filter_eq_nil_iff.mpr hnone]
      simp [hak]

theorem atKey_dropWhile {k k' : κ} (hkk : k ≠ k') (l : List α) :
    atKey key k' (l.dropWhile (fun a ↦ decide (key a = k))) = atKey key k' l := by
  induction l with
  | nil => rfl
  | cons a t ih =>
    by_cases hak : key a = k
    · have hak' : ¬ key a = k' := fun h ↦ hkk (hak.symm.trans h)
      rw [dropWhile_cons_of_pos (by simpa using hak), ih]
      simp [atKey, hak']
    · rw [dropWhile_cons_of_neg (by simpa using hak)]

theorem dropWhile_sorted {k : κ} {l : List α} (h : l.Pairwise (fun a b ↦ key a ≤ key b)) :
    (l.dropWhile (fun a ↦ decide (key a = k))).Pairwise (fun a b ↦ key a ≤ key b) :=
  h.sublist (dropWhile_sublist _)

theorem lt_of_mem_dropWhile {k : κ} {l : List α} (h : l.Pairwise (fun a b ↦ key a ≤ key b))
    (hk : ∀ a ∈ l, k ≤ key a) {a : α} (ha : a ∈ l.dropWhile (fun a ↦ decide (key a = k))) :
    k < key a := by
  induction l with
  | nil => simp at ha
  | cons b t ih =>
    obtain ⟨hb, ht⟩ := pairwise_cons.mp h
    by_cases hbk : key b = k
    · rw [dropWhile_cons_of_pos (by simpa using hbk)] at ha
      exact ih ht (fun c hc ↦ hk c (mem_cons_of_mem _ hc)) ha
    · rw [dropWhile_cons_of_neg (by simpa using hbk)] at ha
      have hlt : k < key b := lt_of_le_of_ne (hk b mem_cons_self) (Ne.symm hbk)
      rcases mem_cons.mp ha with rfl | ha
      · exact hlt
      · exact lt_of_lt_of_le hlt (hb a ha)

end Qros.Lib.KeySort
