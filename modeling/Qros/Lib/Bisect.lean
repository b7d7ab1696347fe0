import Mathlib.Order.Lattice
import Mathlib.Data.List.Basic

/-!
# Binary search

`partitionPoint p n` halves `[0, n)` until it has found the first index at which
`p` fails.  That is the end of the indices at which `p` holds when these form an
initial segment, `Partitioned p n`; `bisectFind` looks a key up in a list whose
keys increase.
-/

universe u v

namespace Qros.Lib

open List

/-- One round for each unit of fuel; `len` candidates are left from `first` on. -/
def bisectLoop (p : Nat → Bool) : Nat → Nat → Nat → Nat
  | 0, first, _ => first
  | fuel + 1, first, len =>
    if len = 0 then first
    else if p (first + len / 2) then
      bisectLoop p fuel (first + len / 2 + 1) (len - len / 2 - 1)
    else bisectLoop p fuel first (len / 2)

def partitionPoint (p : Nat → Bool) (n : Nat) : Nat := bisectLoop p n 0 n

/-- Below `n` the indices at which `p` holds are an initial segment. -/
def Partitioned (p : Nat → Bool) (n : Nat) : Prop := ∀ i j, i ≤ j → j < n → p j = true → p i = true

variable {p : Nat → Bool}

/-- Where `p` holds below `first` and fails from there on, it holds just below `first`. -/
theorem iff_lt_of_boundary {n first i : Nat} (hbelow : ∀ i < first, p i = true)
    (habove : ∀ i < n, first ≤ i → p i = false) (hi : i < n) : p i = true ↔ i < first := by
  refine ⟨fun h ↦ ?_, hbelow i⟩
  by_contra hle
  rw [habove i hi (Nat.not_lt.mp hle)] at h
  cases h

/-- What the loop keeps: `p` holds below `first` and fails from `first + len` on. -/
theorem bisectLoop_spec {n : Nat} (hp : Partitioned p n) {fuel first len : Nat}
    (hfuel : len ≤ fuel) (hn : first + len ≤ n) (hbelow : ∀ i < first, p i = true)
    (habove : ∀ i < n, first + len ≤ i → p i = false) :
    ∀ i < n, p i = true ↔ i < bisectLoop p fuel first len := by
  induction fuel generalizing first len with
  | zero =>
    obtain rfl : len = 0 := Nat.le_zero.mp hfuel
    exact fun i hi ↦ iff_lt_of_boundary hbelow habove hi
  | succ fuel ih =>
    rw [bisectLoop]
    by_cases hlen : len = 0
    · subst hlen
      rw [if_pos rfl]
      exact fun i hi ↦ iff_lt_of_boundary hbelow habove hi
    · rw [if_neg hlen]
      by_cases hmid : p (first + len / 2) = true
      · rw [if_pos hmid]
        refine ih (by omega) (by omega) (fun i hi ↦ ?_) fun i hi hle ↦ habove i hi (by omega)
        exact hp i (first + len / 2) (by omega) (by omega) hmid
      · rw [if_neg hmid]
        refine ih (by omega) (by omega) hbelow fun i hi hle ↦ ?_
        rw [← Bool.not_eq_true]
        exact fun h ↦ hmid (hp (first + len / 2) i hle hi h)

theorem lt_partitionPoint_iff {n i : Nat} (hp : Partitioned p n) (hi : i < n) :
    i < partitionPoint p n ↔ p i = true :=
  (bisectLoop_spec hp le_rfl (by omega) (by omega) (by omega) i hi).symm

/-! ## Looking a key up -/

section

variable {α : Type u} {κ : Type v} [LinearOrder κ] (key : α → κ)

/-- Whether the key of the `i`-th element lies below `k`. -/
def keyBelow (xs : List α) (k : κ) (i : Nat) : Bool :=
  match xs[i]? with
  | some x => decide (key x < k)
  | none => false

/-- Whether the key of the `i`-th element does not lie above `k`. -/
def keyUpTo (xs : List α) (k : κ) (i : Nat) : Bool :=
  match xs[i]? with
  | some x => !decide (k < key x)
  | none => false

/-- The first element whose key is not below `k`, if its key is `k`. -/
def bisectFind (xs : List α) (k : κ) : Option α :=
  match xs[partitionPoint (keyBelow key xs k) xs.length]? with
  | some x => if key x = k then some x else none
  | none => none

variable {key} {xs : List α} {k : κ}

variable {i : Nat}

theorem keyBelow_of_lt (hi : i < xs.length) :
    keyBelow key xs k i = true ↔ key xs[i] < k := by
  rw [keyBelow, getElem?_eq_getElem hi]
  exact decide_eq_true_iff

theorem keyUpTo_of_lt (hi : i < xs.length) :
    keyUpTo key xs k i = true ↔ key xs[i] ≤ k := by
  rw [keyUpTo, getElem?_eq_getElem hi]
  simp

theorem key_lt_key (hxs : xs.Pairwise (fun x y ↦ key x < key y)) {i j : Nat} (hij : i < j)
    (hj : j < xs.length) : key xs[i] < key xs[j] :=
  pairwise_iff_getElem.mp hxs i j (hij.trans hj) hj hij

theorem partitioned_keyBelow (hxs : xs.Pairwise (fun x y ↦ key x < key y)) :
    Partitioned (keyBelow key xs k) xs.length := by
  intro i j hij hj h
  rw [keyBelow_of_lt hj] at h
  rw [keyBelow_of_lt (hij.trans_lt hj)]
  rcases Nat.eq_or_lt_of_le hij with rfl | hlt
  · exact h
  · exact (key_lt_key hxs hlt hj).trans h

theorem partitioned_keyUpTo (hxs : xs.Pairwise (fun x y ↦ key x < key y)) :
    Partitioned (keyUpTo key xs k) xs.length := by
  intro i j hij hj h
  rw [keyUpTo_of_lt hj] at h
  rw [keyUpTo_of_lt (hij.trans_lt hj)]
  rcases Nat.eq_or_lt_of_le hij with rfl | hlt
  · exact h
  · exact (key_lt_key hxs hlt hj).le.trans h

theorem lt_lowerBound_iff (hxs : xs.Pairwise (fun x y ↦ key x < key y)) (hi : i < xs.length) :
    i < partitionPoint (keyBelow key xs k) xs.length ↔ key xs[i] < k := by
  rw [lt_partitionPoint_iff (partitioned_keyBelow hxs) hi, keyBelow_of_lt hi]

theorem lt_upperBound_iff (hxs : xs.Pairwise (fun x y ↦ key x < key y)) (hi : i < xs.length) :
    i < partitionPoint (keyUpTo key xs k) xs.length ↔ key xs[i] ≤ k := by
  rw [lt_partitionPoint_iff (partitioned_keyUpTo hxs) hi, keyUpTo_of_lt hi]

/-- In a list with increasing keys the search finds just the element with that key. -/
theorem bisectFind_eq_some_iff (hxs : xs.Pairwise (fun x y ↦ key x < key y)) {x : α} :
    bisectFind key xs k = some x ↔ x ∈ xs ∧ key x = k := by
  constructor
  · intro h
    unfold bisectFind at h
    split at h
    · rename_i y hy
      split at h
      · cases h
        exact ⟨mem_of_getElem? hy, ‹_›⟩
      · cases h
    · cases h
  · rintro ⟨hx, hk⟩
    obtain ⟨i, hi, rfl⟩ := mem_iff_getElem.mp hx
    have hpoint : partitionPoint (keyBelow key xs k) xs.length = i := by
      apply le_antisymm
      · by_contra hlt
        exact absurd hk ((lt_lowerBound_iff hxs hi).mp (Nat.not_le.mp hlt)).ne
      · by_contra hlt
        have hlt' := Nat.not_le.mp hlt
        have hfail := (lt_lowerBound_iff (k := k) hxs (hlt'.trans hi)).not.mp (lt_irrefl _)
        exact hfail (hk ▸ key_lt_key hxs hlt' hi)
    rw [bisectFind, hpoint, getElem?_eq_getElem hi]
    exact if_pos hk

end

/-! ## Up to the boundary -/

section

variable {α : Type u} {q : α → Bool}

/-- The elements up to and including the first at which `q` holds, if there is one. -/
def upTo (q : α → Bool) : List α → Option (List α)
  | [] => none
  | x :: xs => if q x then some [x] else (upTo q xs).map (x :: ·)

theorem upTo_eq_none {xs : List α} (h : ∀ x ∈ xs, q x = false) : upTo q xs = none := by
  induction xs with
  | nil => rfl
  | cons x xs ih =>
    obtain ⟨hx, hxs⟩ := forall_mem_cons.mp h
    rw [upTo, if_neg (by simp [hx]), ih hxs]
    rfl

theorem upTo_append_cons {xs ys : List α} {y : α} (h : ∀ x ∈ xs, q x = false) (hy : q y = true) :
    upTo q (xs ++ y :: ys) = some (xs ++ [y]) := by
  induction xs with
  | nil => exact if_pos hy
  | cons x xs ih =>
    obtain ⟨hx, hxs⟩ := forall_mem_cons.mp h
    rw [cons_append, upTo, if_neg (by simp [hx]), ih hxs]
    rfl

/-- What follows the first element at which `q` holds is not seen. -/
theorem upTo_append {xs ys path : List α} (h : upTo q xs = some path) :
    upTo q (xs ++ ys) = some path := by
  induction xs generalizing path with
  | nil => cases h
  | cons x xs ih =>
    rw [cons_append]
    rw [upTo] at h ⊢
    split
    · rwa [if_pos ‹_›] at h
    · rw [if_neg ‹_›] at h
      obtain ⟨tail, htail, rfl⟩ := Option.map_eq_some_iff.mp h
      rw [ih htail]
      rfl

theorem exists_getLast_of_upTo {xs path : List α} (h : upTo q xs = some path) :
    (∀ x ∈ path, x ∈ xs) ∧ ∃ y, path.getLast? = some y := by
  induction xs generalizing path with
  | nil => cases h
  | cons x xs ih =>
    rw [upTo] at h
    split at h
    · obtain rfl := Option.some.inj h
      exact ⟨fun _ hy ↦ mem_singleton.mp hy ▸ mem_cons_self, x, rfl⟩
    · obtain ⟨tail, htail, rfl⟩ := Option.map_eq_some_iff.mp h
      obtain ⟨hsub, y, hy⟩ := ih htail
      refine ⟨fun z hz ↦ ?_, y, ?_⟩
      · rcases mem_cons.mp hz with rfl | hz
        · exact mem_cons_self
        · exact mem_cons_of_mem _ (hsub z hz)
      · rw [getLast?_cons, hy]
        rfl

end

/-! ## Searching from an index on -/

section

variable {α : Type u} {κ : Type v} [LinearOrder κ] {key : α → κ} {xs : List α} {k : κ}

def bisectFrom (key : α → κ) (xs : List α) (k : κ) (lo : Nat) : Nat :=
  bisectLoop (keyBelow key xs k) xs.length lo (xs.length - lo)

theorem lt_bisectFrom_iff (hxs : xs.Pairwise (fun x y ↦ key x < key y)) {lo : Nat}
    (hlo : lo ≤ xs.length) (hbelow : ∀ i (hi : i < xs.length), i < lo → key xs[i] < k) :
    ∀ i (hi : i < xs.length), key xs[i] < k ↔ i < bisectFrom key xs k lo := by
  intro i hi
  rw [← keyBelow_of_lt hi]
  refine bisectLoop_spec (partitioned_keyBelow hxs) (by omega) (by omega) (fun j hj ↦ ?_)
    (fun j hj hle ↦ by omega) i hi
  exact (keyBelow_of_lt (by omega)).mpr (hbelow j (by omega) hj)

theorem le_bisectFrom (hxs : xs.Pairwise (fun x y ↦ key x < key y)) {lo : Nat}
    (hlo : lo ≤ xs.length) (hbelow : ∀ i (hi : i < xs.length), i < lo → key xs[i] < k)
    (hlt : bisectFrom key xs k lo < xs.length) : lo ≤ bisectFrom key xs k lo := by
  by_contra hnot
  have hless := hbelow _ hlt (Nat.not_le.mp hnot)
  exact lt_irrefl _ ((lt_bisectFrom_iff hxs hlo hbelow _ hlt).mp hless)

/-- The search finds the end of the path from `lo` on, if there is a path. -/
theorem upTo_drop_eq (hxs : xs.Pairwise (fun x y ↦ key x < key y)) {lo : Nat}
    (hlo : lo ≤ xs.length) (hbelow : ∀ i (hi : i < xs.length), i < lo → key xs[i] < k) :
    upTo (fun x ↦ decide (k ≤ key x)) (xs.drop lo) =
      (xs[bisectFrom key xs k lo]?).map fun _ ↦
        (xs.take (bisectFrom key xs k lo + 1)).drop lo := by
  have hspec := lt_bisectFrom_iff hxs hlo hbelow
  have hlow : ∀ j, ∀ x ∈ (xs.take j).drop lo, j ≤ bisectFrom key xs k lo →
      decide (k ≤ key x) = false := by
    intro j x hx hj
    obtain ⟨i, hi, rfl⟩ := mem_iff_getElem.mp hx
    rw [length_drop, length_take] at hi
    rw [decide_eq_false_iff_not, not_le, getElem_drop, getElem_take]
    exact (hspec _ (by omega)).mpr (by omega)
  rcases Nat.lt_or_ge (bisectFrom key xs k lo) xs.length with hlt | hge
  · have hle := le_bisectFrom hxs hlo hbelow hlt
    rw [getElem?_eq_getElem hlt, Option.map_some]
    have hdrop (j : Nat) (hj : lo ≤ j) (hj' : j ≤ xs.length) :
        xs.drop lo = (xs.take j).drop lo ++ xs.drop j := by
      conv_lhs => rw [← take_append_drop j xs]
      exact drop_append_of_le_length (by rw [length_take]; omega)
    rw [hdrop _ hle hlt.le, drop_eq_getElem_cons hlt, take_add_one,
      getElem?_eq_getElem hlt, drop_append_of_le_length (by rw [length_take]; omega)]
    refine upTo_append_cons (fun x hx ↦ hlow _ x hx le_rfl) ?_
    rw [decide_eq_true_iff, ← not_lt]
    exact fun h ↦ lt_irrefl _ ((hspec _ hlt).mp h)
  · rw [getElem?_eq_none hge, Option.map_none]
    refine upTo_eq_none fun x hx ↦ ?_
    refine hlow xs.length x ?_ hge
    rwa [take_length]

theorem getLast?_drop_take {lo j : Nat} {x : α} (hlo : lo ≤ j) (hx : xs[j]? = some x) :
    ((xs.take (j + 1)).drop lo).getLast? = some x := by
  obtain ⟨hlt, -⟩ := List.getElem?_eq_some_iff.mp hx
  rw [getLast?_drop, if_neg (by rw [length_take]; omega), getLast?_take,
    if_neg (Nat.succ_ne_zero j), Nat.add_sub_cancel, hx, Option.some_or]

/-- In a list with increasing keys, the elements after the `i`-th are those with larger keys. -/
theorem filter_lt_eq_drop (hxs : xs.Pairwise (fun x y ↦ key x < key y)) {i : Nat}
    (hi : i < xs.length) (hk : key xs[i] = k) :
    xs.filter (fun x ↦ decide (k < key x)) = xs.drop (i + 1) := by
  conv_lhs => rw [← take_append_drop (i + 1) xs]
  rw [filter_append]
  have hlow : (xs.take (i + 1)).filter (fun x ↦ decide (k < key x)) = [] := by
    refine filter_eq_nil_iff.mpr fun x hx ↦ ?_
    obtain ⟨j, hj, rfl⟩ := mem_iff_getElem.mp hx
    rw [length_take] at hj
    rw [getElem_take, decide_eq_true_iff, not_lt, ← hk]
    rcases Nat.eq_or_lt_of_le (Nat.le_of_lt_succ (by omega : j < i + 1)) with rfl | hlt
    · exact le_refl _
    · exact (key_lt_key hxs hlt hi).le
  have hhigh : (xs.drop (i + 1)).filter (fun x ↦ decide (k < key x)) = xs.drop (i + 1) := by
    refine filter_eq_self.mpr fun x hx ↦ ?_
    obtain ⟨j, hj, rfl⟩ := mem_iff_getElem.mp hx
    rw [length_drop] at hj
    rw [getElem_drop, decide_eq_true_iff, ← hk]
    exact key_lt_key hxs (by omega) (by omega)
  rw [hlow, hhigh, nil_append]

end

end Qros.Lib
