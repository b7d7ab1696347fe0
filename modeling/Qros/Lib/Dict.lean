import Mathlib.Data.List.Induction
import Mathlib.Data.List.Sort
import Qros.Lib.Checks

/-!
# Dictionaries in insertion order

A dictionary lists its entries in the order in which their keys were inserted:
`set` replaces the value of a key in place or appends the entry, `pop` removes
it.  No key occurs twice, which is part of the type.

`get?_set` and `get?_pop` describe every lookup, so that no proof about a
dictionary needs to look at the entries.
-/

universe u v w w'

namespace Qros.Lib

structure Dict (κ : Type u) (α : Type v) where
  entries : List (κ × α)
  nodup : (entries.map Prod.fst).Nodup

namespace Dict

variable {κ : Type u} {α : Type v}

instance : EmptyCollection (Dict κ α) := ⟨⟨[], List.nodup_nil⟩⟩

/-- The keys, in the order of their insertion. -/
def keys (d : Dict κ α) : List κ := d.entries.map Prod.fst

/-- The values, in the order of the insertion of their keys. -/
def values (d : Dict κ α) : List α := d.entries.map Prod.snd

variable [DecidableEq κ]

/-! ## Entries -/

def find (k : κ) : List (κ × α) → Option α
  | [] => none
  | e :: es => if e.1 = k then some e.2 else find k es

def replace (k : κ) (a : α) : List (κ × α) → List (κ × α)
  | [] => [(k, a)]
  | e :: es => if e.1 = k then (k, a) :: es else e :: replace k a es

theorem find_replace (k l : κ) (a : α) (es : List (κ × α)) :
    find l (replace k a es) = if k = l then some a else find l es := by
  induction es with
  | nil => rfl
  | cons e es ih =>
    unfold replace
    by_cases he : e.1 = k
    · rw [if_pos he, find, find, he]
      by_cases hl : k = l
      · rw [if_pos hl, if_pos hl]
      · rw [if_neg hl, if_neg hl, if_neg hl]
    · rw [if_neg he, find, ih, find]
      by_cases hl : k = l
      · rw [if_pos hl, if_neg (hl ▸ he), if_pos hl]
      · rw [if_neg hl, if_neg hl]

theorem find_filter (k l : κ) (es : List (κ × α)) :
    find l (es.filter fun e ↦ decide (e.1 ≠ k)) = if k = l then none else find l es := by
  induction es with
  | nil => simp [find]
  | cons e es ih =>
    rw [List.filter_cons]
    by_cases he : e.1 = k
    · rw [if_neg (by simpa using he), ih, find]
      by_cases hl : k = l
      · rw [if_pos hl, if_pos hl]
      · rw [if_neg hl, if_neg hl, if_neg (he ▸ hl)]
    · rw [if_pos (by simpa using he), find, ih, find]
      by_cases hl : k = l
      · rw [if_pos hl, if_neg (hl ▸ he), if_pos hl]
      · rw [if_neg hl, if_neg hl]

theorem keys_replace (k : κ) (a : α) (es : List (κ × α)) :
    (replace k a es).map Prod.fst =
      if k ∈ es.map Prod.fst then es.map Prod.fst else es.map Prod.fst ++ [k] := by
  induction es with
  | nil => simp [replace]
  | cons e es ih =>
    unfold replace
    by_cases he : e.1 = k
    · simp [he]
    · rw [if_neg he, List.map_cons, ih, List.map_cons]
      have hk : k ≠ e.1 := fun h ↦ he h.symm
      by_cases hmem : k ∈ es.map Prod.fst
      · rw [if_pos hmem, if_pos (List.mem_cons_of_mem _ hmem)]
      · rw [if_neg hmem, if_neg (List.not_mem_cons_of_ne_of_not_mem hk hmem), List.cons_append]

/-! ## Dictionaries -/

def get? (d : Dict κ α) (k : κ) : Option α := find k d.entries

def set (d : Dict κ α) (k : κ) (a : α) : Dict κ α where
  entries := replace k a d.entries
  nodup := by
    rw [keys_replace]
    split
    · exact d.nodup
    · rename_i h
      exact List.nodup_append'.mpr ⟨d.nodup, List.nodup_singleton k, by simpa using h⟩

def pop (d : Dict κ α) (k : κ) : Dict κ α where
  entries := d.entries.filter fun e ↦ decide (e.1 ≠ k)
  nodup := d.nodup.sublist (List.filter_sublist.map Prod.fst)

def setdefault (d : Dict κ α) (k : κ) (a : α) : Dict κ α :=
  if (d.get? k).isSome then d else d.set k a

@[simp]
theorem get?_empty (k : κ) : (∅ : Dict κ α).get? k = none := rfl

theorem get?_set (d : Dict κ α) (k l : κ) (a : α) :
    (d.set k a).get? l = if k = l then some a else d.get? l :=
  find_replace k l a d.entries

@[simp]
theorem get?_set_self (d : Dict κ α) (k : κ) (a : α) : (d.set k a).get? k = some a := by
  rw [get?_set, if_pos rfl]

theorem get?_set_of_ne (d : Dict κ α) {k l : κ} (a : α) (h : k ≠ l) :
    (d.set k a).get? l = d.get? l := by
  rw [get?_set, if_neg h]

theorem get?_setdefault (d : Dict κ α) (k l : κ) (a : α) :
    (d.setdefault k a).get? l = if k = l then some ((d.get? l).getD a) else d.get? l := by
  unfold setdefault
  by_cases hl : k = l
  · subst hl
    rw [if_pos rfl]
    cases hk : d.get? k with
    | none =>
      rw [Option.isSome_none, if_neg Bool.false_ne_true, get?_set_self, Option.getD_none]
    | some b => rw [Option.isSome_some, if_pos rfl, hk, Option.getD_some]
  · rw [if_neg hl]
    split
    · rfl
    · exact get?_set_of_ne d a hl

theorem get?_pop (d : Dict κ α) (k l : κ) :
    (d.pop k).get? l = if k = l then none else d.get? l :=
  find_filter k l d.entries

@[simp]
theorem get?_pop_self (d : Dict κ α) (k : κ) : (d.pop k).get? k = none := by
  rw [get?_pop, if_pos rfl]

theorem get?_pop_of_ne (d : Dict κ α) {k l : κ} (h : k ≠ l) : (d.pop k).get? l = d.get? l := by
  rw [get?_pop, if_neg h]

theorem get?_foldl_pop (ks : List κ) (d : Dict κ α) (l : κ) :
    (ks.foldl pop d).get? l = if l ∈ ks then none else d.get? l := by
  induction ks generalizing d with
  | nil => rfl
  | cons k ks ih =>
    rw [List.foldl_cons, ih, get?_pop]
    by_cases hk : k = l
    · rw [if_pos hk, ite_self, if_pos (hk ▸ List.mem_cons_self)]
    · simp only [List.mem_cons, if_neg hk, Ne.symm hk, false_or]

/-! ## Entries and lookups -/

variable {k : κ}

theorem find_eq_some_iff {a : α} {es : List (κ × α)} (h : (es.map Prod.fst).Nodup) :
    find k es = some a ↔ (k, a) ∈ es := by
  induction es with
  | nil => simp [find]
  | cons e es ih =>
    rw [List.map_cons, List.nodup_cons] at h
    rw [find, List.mem_cons]
    by_cases he : e.1 = k
    · have hk : (k, a) ∉ es := fun hmem ↦ h.1 (he ▸ List.mem_map_of_mem hmem)
      rw [if_pos he, Option.some.injEq, or_iff_left hk, Prod.ext_iff]
      exact ⟨fun ha ↦ ⟨he.symm, ha.symm⟩, fun ha ↦ ha.2.symm⟩
    · rw [if_neg he, ih h.2, or_iff_right fun heq : (k, a) = e ↦ he (heq ▸ rfl)]

variable {d : Dict κ α}

theorem mem_entries {a : α} : (k, a) ∈ d.entries ↔ d.get? k = some a :=
  (find_eq_some_iff d.nodup).symm

theorem mem_values {a : α} : a ∈ d.values ↔ ∃ k, d.get? k = some a := by
  unfold values
  rw [List.mem_map]
  constructor
  · rintro ⟨⟨k, a⟩, he, rfl⟩
    exact ⟨k, mem_entries.mp he⟩
  · rintro ⟨k, h⟩
    exact ⟨(k, a), mem_entries.mpr h, rfl⟩

/-! ## Filling a dictionary -/

section

variable {ε : Type w} {κ β : Type v} {γ : Type w'} [DecidableEq κ] {f : κ × γ → Except ε β}

/-- A loop that sets every key of some entries. -/
theorem of_foldlM_set {es : List (κ × γ)} (hnd : (es.map Prod.fst).Nodup) {d d' : Dict κ β}
    (h : es.foldlM (fun d e ↦ do return d.set e.1 (← f e)) d = .ok d') :
    (∀ e ∈ es, ∃ b, f e = .ok b ∧ d'.get? e.1 = some b) ∧
      ∀ k ∉ es.map Prod.fst, d'.get? k = d.get? k := by
  induction es generalizing d with
  | nil =>
    obtain rfl := Except.ok.inj h
    exact ⟨nofun, fun _ _ ↦ rfl⟩
  | cons e es ih =>
    rw [List.map_cons, List.nodup_cons] at hnd
    rw [List.foldlM_cons] at h
    obtain ⟨d₁, h₁, hrest⟩ := bind_eq_ok.mp h
    obtain ⟨b, hb, hset⟩ := bind_eq_ok.mp h₁
    obtain rfl := Except.ok.inj hset
    obtain ⟨hmem, hout⟩ := ih hnd.2 hrest
    refine ⟨?_, ?_⟩
    · intro e' he'
      rcases List.mem_cons.mp he' with rfl | he'
      · exact ⟨b, hb, (hout _ hnd.1).trans (get?_set_self d _ b)⟩
      · exact hmem e' he'
    · intro k hk
      rw [List.map_cons, List.mem_cons, not_or] at hk
      exact (hout k hk.2).trans (get?_set_of_ne d b (Ne.symm hk.1))

theorem exists_foldlM_set {es : List (κ × γ)} (h : ∀ e ∈ es, ∃ b, f e = .ok b) (d : Dict κ β) :
    ∃ d', es.foldlM (fun d e ↦ do return d.set e.1 (← f e)) d = .ok d' := by
  induction es generalizing d with
  | nil => exact ⟨d, rfl⟩
  | cons e es ih =>
    obtain ⟨b, hb⟩ := h e List.mem_cons_self
    obtain ⟨d', hd'⟩ := ih (fun e' he' ↦ h e' (List.mem_cons_of_mem _ he')) (d.set e.1 b)
    refine ⟨d', ?_⟩
    rw [List.foldlM_cons]
    exact bind_eq_ok.mpr ⟨_, bind_eq_ok.mpr ⟨b, hb, rfl⟩, hd'⟩

end

/-- A loop that updates some keys, each once. -/
theorem get?_foldl_update {γ : Type*} {f : Option α → γ → Option α} {es : List (κ × γ)}
    (hnd : (es.map Prod.fst).Nodup) (d : Dict κ α) (k : κ) :
    (es.foldl (fun d e ↦ (f (d.get? e.1) e.2).elim d (d.set e.1)) d).get? k =
      ((find k es).bind (f (d.get? k))).or (d.get? k) := by
  induction es generalizing d with
  | nil => rfl
  | cons e es ih =>
    rw [List.map_cons, List.nodup_cons] at hnd
    rw [List.foldl_cons, ih hnd.2, find]
    by_cases he : e.1 = k
    · have hnone : find k es = none := by
        cases hk : find k es with
        | none => rfl
        | some a => exact absurd (List.mem_map_of_mem ((find_eq_some_iff hnd.2).mp hk)) (he ▸ hnd.1)
      rw [if_pos he, hnone, he, Option.bind_none, Option.none_or, Option.bind_some]
      cases f (d.get? k) e.2 with
      | none => rfl
      | some b => exact get?_set_self d k b
    · rw [if_neg he]
      cases f (d.get? e.1) e.2 with
      | none => rfl
      | some b => rw [Option.elim_some, get?_set_of_ne d b he]

/-- A key without a value is not listed. -/
theorem not_mem_keys (h : d.get? k = none) :
    k ∉ d.entries.map Prod.fst := by
  intro hmem
  obtain ⟨⟨_, a⟩, he, rfl⟩ := List.mem_map.mp hmem
  rw [mem_entries.mp he] at h
  cases h

/-! ## Counting values -/

theorem countP_replace (p : α → Bool) (k : κ) (a : α) (es : List (κ × α)) :
    ((replace k a es).map Prod.snd).countP p + (find k es).elim 0 (fun b ↦ (p b).toNat) =
      (es.map Prod.snd).countP p + (p a).toNat := by
  have hcons : ∀ (b : α) (l : List α), (b :: l).countP p = l.countP p + (p b).toNat := by
    intro b l
    rw [List.countP_cons]
    cases p b <;> rfl
  induction es with
  | nil => rw [replace, find, List.map_cons, hcons]; rfl
  | cons e es ih =>
    rw [replace, find]
    by_cases he : e.1 = k
    · rw [if_pos he, if_pos he, List.map_cons, List.map_cons, hcons, hcons]
      exact Nat.add_right_comm _ _ _
    · rw [if_neg he, if_neg he, List.map_cons, List.map_cons, hcons, hcons, Nat.add_right_comm,
        ih, Nat.add_right_comm]

/-- A new key adds its value to the count. -/
theorem countP_set_of_none (h : d.get? k = none) (p : α → Bool) (a : α) :
    (d.set k a).values.countP p = d.values.countP p + (p a).toNat := by
  have hcount := countP_replace p k a d.entries
  rwa [show find k d.entries = none from h] at hcount

/-- A value that is replaced leaves the count. -/
theorem countP_set_of_some {b : α} (h : d.get? k = some b) (p : α → Bool) (a : α) :
    (d.set k a).values.countP p + (p b).toNat = d.values.countP p + (p a).toNat := by
  have hcount := countP_replace p k a d.entries
  rwa [show find k d.entries = some b from h] at hcount

end Dict

end Qros.Lib

/-!
## Rows with a primary key

A table is a list of rows in the order in which they were inserted.  A row replaces the one
with its key (`upsert`), and so the rows that are inserted together leave only rows with
other keys (`upsertAll_eq`).
-/

namespace Qros.Lib.Rows

variable {α : Type u} {κ : Type v} [DecidableEq κ] (key : α → κ)

/-- `INSERT OR REPLACE`. -/
def upsert (rows : List α) (a : α) : List α := rows.filter (fun b ↦ decide (key b ≠ key a)) ++ [a]

/-- `INSERT OR REPLACE` of rows one after the other. -/
def upsertAll (rows new : List α) : List α := new.foldl (upsert key) rows

variable {key} {rows new : List α} {a b : α}

theorem mem_upsert : b ∈ upsert key rows a ↔ b ∈ rows ∧ key b ≠ key a ∨ b = a := by
  rw [upsert, List.mem_append, List.mem_filter, decide_eq_true_iff, List.mem_singleton]

/-- **Rows that are inserted together** come last, in their order, and replace all others with
their keys. -/
theorem upsertAll_eq (hnd : (new.map key).Nodup) :
    upsertAll key rows new = rows.filter (fun b ↦ decide (key b ∉ new.map key)) ++ new := by
  induction new generalizing rows with
  | nil =>
    rw [upsertAll, List.foldl_nil, List.append_nil, eq_comm, List.filter_eq_self]
    intro a _
    simp
  | cons a new ih =>
    rw [List.map_cons, List.nodup_cons] at hnd
    have hself : ([a] : List α).filter (fun b ↦ decide (key b ∉ new.map key)) = [a] :=
      List.filter_eq_self.mpr fun b hb ↦ by
        rw [List.mem_singleton.mp hb]
        exact decide_eq_true hnd.1
    rw [upsertAll, List.foldl_cons]
    change upsertAll key (upsert key rows a) new = _
    rw [ih hnd.2, upsert, List.filter_append, hself, List.append_assoc, List.filter_filter]
    refine congrArg (· ++ ([a] ++ new)) (List.filter_congr fun b _ ↦ ?_)
    rw [List.map_cons, ← Bool.decide_and]
    refine decide_eq_decide.mpr ?_
    rw [List.mem_cons, not_or, and_comm]

/-- Rows whose keys all come again are replaced. -/
theorem upsertAll_eq_new (hnd : (new.map key).Nodup) (h : ∀ b ∈ rows, key b ∈ new.map key) :
    upsertAll key rows new = new := by
  rw [upsertAll_eq hnd, List.filter_eq_nil_iff.mpr, List.nil_append]
  intro b hb
  simpa using h b hb

end Qros.Lib.Rows

/-!
## Stores that only evolve

A store evolves along a relation `R` if no key is lost and the value of each key moves
along `R`, as it does when values are only ever appended to.  A value under a fresh key
and a step of the value of a key are the two saves that do so.

For a list that is read off the values in the order of their keys, the first adds to the
end what the new value contributes, and the second changes nothing unless the
contribution changes.
-/

namespace Qros.Lib

variable {κ : Type u} {α : Type v} [DecidableEq κ]

structure Evolves (R : α → α → Prop) (d : Dict κ α) (new : List κ) (d' : Dict κ α) : Prop where
  kept : ∀ k a, d.get? k = some a → ∃ b, d'.get? k = some b ∧ R a b
  only : ∀ k, d.get? k = none → k ∉ new → d'.get? k = none

/-- The keys in `new` are different and not in use. -/
structure Fresh (d : Dict κ α) (new : List κ) : Prop where
  free : ∀ k ∈ new, d.get? k = none
  nodup : new.Nodup

variable {R : α → α → Prop} {d d' d'' : Dict κ α} {new new' : List κ} {k : κ} {a b : α}

instance : Decidable (Fresh d new) :=
  decidable_of_iff ((∀ k ∈ new, (d.get? k).isNone) ∧ new.Nodup)
    ⟨fun h ↦ ⟨fun k hk ↦ Option.isNone_iff_eq_none.mp (h.1 k hk), h.2⟩,
      fun h ↦ ⟨fun k hk ↦ Option.isNone_iff_eq_none.mpr (h.free k hk), h.nodup⟩⟩

namespace Evolves

theorem refl (hR : ∀ a, R a a) : Evolves R d [] d := ⟨fun _ a h ↦ ⟨a, h, hR a⟩, fun _ h _ ↦ h⟩

theorem trans (hR : ∀ a b c, R a b → R b c → R a c) (h : Evolves R d new d')
    (h' : Evolves R d' new' d'') : Evolves R d (new ++ new') d'' where
  kept k a ha := by
    obtain ⟨b, hb, hab⟩ := h.kept k a ha
    obtain ⟨c, hc, hbc⟩ := h'.kept k b hb
    exact ⟨c, hc, hR a b c hab hbc⟩
  only k hk hnew := by
    rw [List.mem_append, not_or] at hnew
    exact h'.only k (h.only k hk hnew.1) hnew.2

theorem of_free (hR : ∀ a, R a a) (h : d.get? k = none) : Evolves R d [k] (d.set k a) where
  kept l b hb := by
    refine ⟨b, ?_, hR b⟩
    rw [Dict.get?_set_of_ne d a, hb]
    rintro rfl
    rw [h] at hb
    cases hb
  only l hl hnew := by
    rw [Dict.get?_set_of_ne d a, hl]
    rintro rfl
    exact hnew (List.mem_singleton_self _)

theorem of_step (hR : ∀ a, R a a) (hb : d.get? k = some b) (hstep : R b a) :
    Evolves R d [] (d.set k a) where
  kept l c hc := by
    by_cases hl : k = l
    · subst hl
      rw [hb] at hc
      cases hc
      exact ⟨a, Dict.get?_set_self d k a, hstep⟩
    · exact ⟨c, by rw [Dict.get?_set_of_ne d a hl, hc], hR c⟩
  only l hl _ := by
    rw [Dict.get?_set_of_ne d a, hl]
    rintro rfl
    rw [hb] at hl
    cases hl

end Evolves

namespace Fresh

theorem left (h : Fresh d (new ++ new')) : Fresh d new where
  free k hk := h.free k (List.mem_append_left new' hk)
  nodup := (List.nodup_append.mp h.nodup).1

/-- What is left to add is fresh to what has been added so far. -/
theorem evolves (h : Fresh d (new ++ new')) (hd : Evolves R d new d') : Fresh d' new' where
  free k hk := hd.only k (h.free k (List.mem_append_right new hk)) fun hnew ↦
    (List.nodup_append.mp h.nodup).2.2 k hnew k hk rfl
  nodup := (List.nodup_append.mp h.nodup).2.1

theorem tail (h : Fresh d (k :: new)) (hd : Evolves R d [k] d') : Fresh d' new := evolves h hd

end Fresh

/-! ## What the values contribute to a list -/

namespace Dict

variable {β : Type w} {f : α → Option β}

theorem filterMap_replace_of_find {es : List (κ × α)} (h : find k es = some b) (hf : f a = f b) :
    ((replace k a es).map Prod.snd).filterMap f = (es.map Prod.snd).filterMap f := by
  induction es with
  | nil => cases h
  | cons e es ih =>
    rw [find] at h
    rw [replace]
    split at h
    · rename_i he
      rw [if_pos he, List.map_cons, List.map_cons, List.filterMap_cons, List.filterMap_cons,
        hf, Option.some_inj.mp h]
    · rename_i he
      rw [if_neg he, List.map_cons, List.map_cons, List.filterMap_cons, List.filterMap_cons,
        ih h]

theorem replace_of_find_none {es : List (κ × α)} (h : find k es = none) :
    replace k a es = es ++ [(k, a)] := by
  induction es with
  | nil => rfl
  | cons e es ih =>
    rw [find] at h
    rw [replace]
    split at h
    · cases h
    · rename_i he
      rw [if_neg he, ih h]
      rfl

/-- A new value contributes at the end. -/
theorem filterMap_values_set_of_free (h : d.get? k = none) :
    (d.set k a).values.filterMap f = d.values.filterMap f ++ (f a).toList := by
  have hset : (d.set k a).values = d.values ++ [a] := by
    show (replace k a d.entries).map Prod.snd = _
    rw [replace_of_find_none h, List.map_append]
    rfl
  rw [hset, List.filterMap_append]
  cases hfa : f a with
  | none => rw [List.filterMap_cons_none hfa, List.filterMap_nil]; rfl
  | some c => rw [List.filterMap_cons_some hfa, List.filterMap_nil]; rfl

theorem filterMap_values_set_of_some (h : d.get? k = some b) (hf : f a = f b) :
    (d.set k a).values.filterMap f = d.values.filterMap f := filterMap_replace_of_find h hf

end Dict

end Qros.Lib

/-!
## Groups

Items are grouped by a key, the groups taken in the order of their keys and each listed in an
order of its own.  The whole listing is in lexicographic order (`pairwise_listing`), and two
listings of the same items in one order are equal (`listing_unique`).
-/

namespace Qros.Lib

variable {α : Type u} {κ : Type v}

/-- Items by key, keys in the order in which they come. -/
def Dict.groupBy [DecidableEq κ] (key : α → κ) (l : List α) : Dict κ (List α) :=
  l.foldl (fun d a ↦ d.set (key a) ((d.get? (key a)).getD [] ++ [a])) ∅

namespace Groups

section GroupBy

variable [DecidableEq κ] {key : α → κ} {l : List α} {k : κ}

theorem groupBy_concat (l : List α) (a : α) : Dict.groupBy key (l ++ [a]) =
    (Dict.groupBy key l).set (key a) (((Dict.groupBy key l).get? (key a)).getD [] ++ [a]) := by
  rw [Dict.groupBy, List.foldl_append]
  rfl

theorem getD_groupBy (l : List α) (k : κ) :
    ((Dict.groupBy key l).get? k).getD [] = l.filter fun a ↦ decide (key a = k) := by
  induction l using List.reverseRecOn with
  | nil => rfl
  | append_singleton l a ih =>
    rw [groupBy_concat, Dict.get?_set, List.filter_append]
    by_cases hk : key a = k
    · subst hk
      rw [if_pos rfl, Option.getD_some, ih]
      simp
    · rw [if_neg hk, ih, List.filter_cons_of_neg (by simpa using hk), List.filter_nil,
        List.append_nil]

theorem mem_keys_set {β : Type w} {d : Dict κ β} {j : κ} {b : β} :
    k ∈ (d.set j b).keys ↔ k ∈ d.keys ∨ k = j := by
  rw [Dict.keys, Dict.set, Dict.keys_replace, Dict.keys]
  split
  · rename_i hj
    constructor
    · exact .inl
    · rintro (hk | rfl)
      · exact hk
      · exact hj
  · rw [List.mem_append, List.mem_singleton]

theorem mem_keys_groupBy : k ∈ (Dict.groupBy key l).keys ↔ ∃ a ∈ l, key a = k := by
  induction l using List.reverseRecOn with
  | nil => exact iff_of_false List.not_mem_nil fun ⟨a, ha, _⟩ ↦ List.not_mem_nil ha
  | append_singleton l a ih =>
    rw [groupBy_concat, mem_keys_set, ih]
    constructor
    · rintro (⟨b, hb, rfl⟩ | rfl)
      · exact ⟨b, List.mem_append_left _ hb, rfl⟩
      · exact ⟨a, List.mem_append_right _ List.mem_cons_self, rfl⟩
    · rintro ⟨b, hb, rfl⟩
      rw [List.mem_append, List.mem_singleton] at hb
      rcases hb with hb | rfl
      · exact .inl ⟨b, hb, rfl⟩
      · exact .inr rfl

end GroupBy

section Listing

variable {ι : Type w} [LinearOrder ι] {R : α → α → Prop} {group : κ → List α}

/-- Distinct keys in the order of their ranks are strictly sorted. -/
theorem sorted_lt {rank : κ → ι} (hrank : Function.Injective rank) {ks : List κ}
    (hnd : ks.Nodup) : (ks.insertionSort fun a b ↦ rank a ≤ rank b).Pairwise
      fun a b ↦ rank a < rank b := by
  have htotal : Std.Total fun a b : κ ↦ rank a ≤ rank b := ⟨fun a b ↦ le_total _ _⟩
  have htrans : IsTrans κ fun a b ↦ rank a ≤ rank b := ⟨fun _ _ _ ↦ le_trans⟩
  have hsorted := List.pairwise_insertionSort (fun a b ↦ rank a ≤ rank b) ks
  have hnd' : (ks.insertionSort fun a b ↦ rank a ≤ rank b).Nodup :=
    (List.perm_insertionSort _ _).nodup_iff.mpr hnd
  exact hsorted.imp₂ (fun a b hle hne ↦ lt_of_le_of_ne hle (hrank.ne hne)) hnd'

/-- Groups in the order of their keys, each in order, are in order. -/
theorem pairwise_listing {ks : List κ} {r : κ → κ → Prop} (hks : ks.Pairwise r)
    (hgroup : ∀ k ∈ ks, (group k).Pairwise R)
    (hbetween : ∀ k k', r k k' → ∀ a ∈ group k, ∀ b ∈ group k', R a b) :
    (ks.flatMap group).Pairwise R := by
  rw [List.pairwise_flatMap]
  exact ⟨hgroup, hks.imp fun hr ↦ hbetween _ _ hr⟩

/-- **Uniqueness.**  An order that is asymmetric sorts items in one way. -/
theorem listing_unique {l l' : List α} (hasymm : ∀ a b, R a b → ¬ R b a) (h : l.Pairwise R)
    (h' : l'.Pairwise R) (hperm : l.Perm l') : l = l' :=
  hperm.eq_of_pairwise (fun a b _ _ hab hba ↦ absurd hba (hasymm a b hab)) h h'

/-- Of two ordered lists with the same images, corresponding items stand in the same order. -/
theorem lt_of_map_eq {β : Type*} {f : α → β} {S : α → α → Prop} {l l' : List α}
    (hasymm : ∀ a b, R a b → ¬ R b a) (h : l.Pairwise R) (h' : l'.Pairwise S)
    (hmap : l.map f = l'.map f) (hinj : ∀ a ∈ l', ∀ b ∈ l', f a = f b → a = b) {a b a' b' : α}
    (ha : a ∈ l) (hb : b ∈ l) (hab : R a b) (ha' : a' ∈ l') (hb' : b' ∈ l') (hfa : f a' = f a)
    (hfb : f b' = f b) : S a' b' := by
  induction l generalizing l' with
  | nil => exact absurd ha List.not_mem_nil
  | cons c t ih =>
    cases l' with
    | nil => exact absurd ha' List.not_mem_nil
    | cons c' t' =>
      obtain ⟨hc, ht⟩ := List.pairwise_cons.mp h
      obtain ⟨hc', ht'⟩ := List.pairwise_cons.mp h'
      obtain ⟨hhead, htail⟩ := List.cons.inj hmap
      -- What corresponds to an item of the tail is an item of the tail.
      have hmem : ∀ x ∈ t, ∀ x' ∈ c' :: t', f x' = f x → x' ∈ t' := by
        intro x hx x' hx' hfx
        obtain ⟨y, hy, hfy⟩ := List.mem_map.mp (htail ▸ List.mem_map_of_mem hx)
        rw [hinj x' hx' y (List.mem_cons_of_mem _ hy) (hfx.trans hfy.symm)]
        exact hy
      rcases List.mem_cons.mp ha with rfl | hat
      · rcases List.mem_cons.mp hb with rfl | hbt
        · exact absurd hab (hasymm _ _ hab)
        · rw [hinj a' ha' c' List.mem_cons_self (hfa.trans hhead)]
          exact hc' b' (hmem b hbt b' hb' hfb)
      · rcases List.mem_cons.mp hb with rfl | hbt
        · exact absurd hab (hasymm _ _ (hc a hat))
        · exact ih ht ht' htail (fun x hx y hy ↦ hinj x (List.mem_cons_of_mem _ hx) y
            (List.mem_cons_of_mem _ hy)) hat hbt (hmem a hat a' ha' hfa) (hmem b hbt b' hb' hfb)

end Listing

end Groups

end Qros.Lib
