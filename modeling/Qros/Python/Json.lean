import Mathlib.Data.List.Sort
import Mathlib.Data.String.Basic

/-!
# JSON values and their text

The values that `json.loads` returns and the text that `json.dumps` writes for them,
with `ensure_ascii=False`.  Floats are an arbitrary type `F`, of which `json` uses the
literal of a finite number and three constants for the others.

`Json.text` keeps the entries of a dictionary in their order; `sort_keys=True` is
`Json.sortKeys`.
-/

namespace Qros.Python

open List

/-- The floats that `json` tells apart. -/
inductive FloatKind where
  | finite | nan | posInf | negInf
deriving DecidableEq

class FloatText (F : Type) where
  kind : F → FloatKind
  /-- `float.__repr__`. -/
  repr : F → List Char
  /-- `float(text)`. -/
  ofText : List Char → F
  /-- The constants of `json.decoder`. -/
  nan : F
  posInf : F
  negInf : F

inductive Json (F : Type) where
  | null
  | bool (b : Bool)
  | int (n : Int)
  | float (x : F)
  | str (s : String)
  | list (items : List (Json F))
  | dict (entries : List (String × Json F))

namespace Json

variable {F : Type}

@[elab_as_elim]
theorem induction {P : Json F → Prop} (null : P .null) (bool : ∀ b, P (.bool b))
    (int : ∀ n, P (.int n)) (float : ∀ x, P (.float x)) (str : ∀ s, P (.str s))
    (list : ∀ items, (∀ j ∈ items, P j) → P (.list items))
    (dict : ∀ entries, (∀ e ∈ entries, P e.2) → P (.dict entries)) : ∀ j, P j :=
  Json.rec (motive_1 := P) (motive_2 := fun items ↦ ∀ j ∈ items, P j)
    (motive_3 := fun entries ↦ ∀ e ∈ entries, P e.2) (motive_4 := fun e ↦ P e.2)
    null bool int float str (fun items ih ↦ list items ih) (fun entries ih ↦ dict entries ih)
    (fun _ h ↦ nomatch h)
    (fun j items hj hitems k hk ↦ by
      rcases mem_cons.mp hk with rfl | hk
      · exact hj
      · exact hitems k hk)
    (fun _ h ↦ nomatch h)
    (fun e entries he hentries e' he' ↦ by
      rcases mem_cons.mp he' with rfl | he'
      · exact he
      · exact hentries e' he')
    (fun _ _ h ↦ h)

end Json

/-! ## Text -/

/-- The separators of `json.dumps`. -/
structure Separators where
  item : List Char
  key : List Char

/-- The separators without an argument. -/
def Separators.default : Separators := ⟨[',', ' '], [':', ' ']⟩

def Separators.compact : Separators := ⟨[','], [':']⟩

/-- The entries of `ESCAPE_DCT`, which stand for the characters that `ESCAPE` matches. -/
def escapeChar (c : Char) : List Char :=
  if c = '"' then ['\\', '"']
  else if c = '\\' then ['\\', '\\']
  else if c = '\n' then ['\\', 'n']
  else if c = '\r' then ['\\', 'r']
  else if c = '\t' then ['\\', 't']
  else if c = '\x0c' then ['\\', 'f']
  else if c = '\x08' then ['\\', 'b']
  else if c.toNat < 0x20 then
    ['\\', 'u', '0', '0', Nat.digitChar (c.toNat / 16), Nat.digitChar (c.toNat % 16)]
  else [c]

/-- `encode_basestring`. -/
def strText (s : String) : List Char := '"' :: (s.toList.flatMap escapeChar ++ ['"'])

def intText (n : Int) : List Char :=
  if n < 0 then '-' :: Nat.toDigits 10 n.natAbs else Nat.toDigits 10 n.natAbs

def floatText {F : Type} [FloatText F] (x : F) : List Char :=
  match FloatText.kind x with
  | .finite => FloatText.repr x
  | .nan => "NaN".toList
  | .posInf => "Infinity".toList
  | .negInf => "-Infinity".toList

def boolText (b : Bool) : List Char := if b then "true".toList else "false".toList

namespace Json

variable {F : Type} [FloatText F]

mutual

/-- `json.dumps(..., ensure_ascii=False)`. -/
def text (s : Separators) : Json F → List Char
  | .null => "null".toList
  | .bool b => boolText b
  | .int n => intText n
  | .float x => floatText x
  | .str t => strText t
  | .list items => '[' :: (List.intercalate s.item (texts s items) ++ [']'])
  | .dict entries => '{' :: (List.intercalate s.item (entryTexts s entries) ++ ['}'])

def texts (s : Separators) : List (Json F) → List (List Char)
  | [] => []
  | j :: items => text s j :: texts s items

def entryTexts (s : Separators) : List (String × Json F) → List (List Char)
  | [] => []
  | (k, j) :: entries => (strText k ++ (s.key ++ text s j)) :: entryTexts s entries

end

theorem texts_eq_map (s : Separators) (items : List (Json F)) :
    texts s items = items.map (text s) := by
  induction items with
  | nil => rfl
  | cons j items ih => rw [texts, ih, map_cons]

theorem entryTexts_eq_map (s : Separators) (entries : List (String × Json F)) :
    entryTexts s entries = entries.map fun e ↦ strText e.1 ++ (s.key ++ text s e.2) := by
  induction entries with
  | nil => rfl
  | cons e entries ih => rw [entryTexts, ih, map_cons]

end Json

theorem intercalate_middle {α : Type} (sep : List α) (xs zs : List (List α)) :
    ∃ pre post, ∀ y, List.intercalate sep (xs ++ y :: zs) = pre ++ (y ++ post) := by
  induction xs with
  | nil =>
    cases zs with
    | nil =>
      refine ⟨[], [], fun y ↦ ?_⟩
      rw [nil_append, intercalate_singleton, append_nil, nil_append]
    | cons z zs =>
      refine ⟨[], sep ++ List.intercalate sep (z :: zs), fun y ↦ ?_⟩
      rw [nil_append, intercalate_cons_cons, nil_append, append_assoc]
  | cons x xs ih =>
    obtain ⟨pre, post, h⟩ := ih
    refine ⟨x ++ (sep ++ pre), post, fun y ↦ ?_⟩
    have hne : xs ++ y :: zs ≠ [] := append_ne_nil_of_right_ne_nil _ (cons_ne_nil _ _)
    rw [cons_append, intercalate_cons_of_ne_nil hne, h y]
    simp only [append_assoc]

theorem Json.text_dict_middle {F : Type} [FloatText F] (s : Separators)
    (before after : List (String × Json F)) (k : String) (j j' : Json F) :
    (Json.dict (before ++ (k, j) :: after)).text s =
    (Json.dict (before ++ (k, j') :: after)).text s ↔
      j.text s = j'.text s := by
  obtain ⟨pre, post, h⟩ := intercalate_middle s.item
    (before.map fun e ↦ strText e.1 ++ (s.key ++ e.2.text s))
    (after.map fun e ↦ strText e.1 ++ (s.key ++ e.2.text s))
  rw [Json.text, Json.text, Json.entryTexts_eq_map, Json.entryTexts_eq_map, map_append,
    map_append, map_cons, map_cons, h, h]
  constructor
  · intro heq
    have hmiddle := append_cancel_right (List.cons.inj heq).2
    have hentry := append_cancel_right (append_cancel_left hmiddle)
    exact append_cancel_left (append_cancel_left hentry)
  · intro heq
    rw [heq]

/-! ## Sorted keys -/

/-- The entries in the order of their keys. -/
def sortEntries {α : Type} (entries : List (String × α)) : List (String × α) :=
  entries.insertionSort fun e e' ↦ e.1 ≤ e'.1

namespace Json

variable {F : Type}

mutual

/-- What `sort_keys=True` does to a value before it is written. -/
def sortKeys : Json F → Json F
  | .null => .null
  | .bool b => .bool b
  | .int n => .int n
  | .float x => .float x
  | .str s => .str s
  | .list items => .list (sortItems items)
  | .dict entries => .dict (sortEntries (sortValues entries))

def sortItems : List (Json F) → List (Json F)
  | [] => []
  | j :: items => sortKeys j :: sortItems items

def sortValues : List (String × Json F) → List (String × Json F)
  | [] => []
  | (k, j) :: entries => (k, sortKeys j) :: sortValues entries

end

theorem sortItems_eq_map (items : List (Json F)) : sortItems items = items.map sortKeys := by
  induction items with
  | nil => rfl
  | cons j items ih => rw [sortItems, ih, map_cons]

theorem sortValues_eq_map (entries : List (String × Json F)) :
    sortValues entries = entries.map fun e ↦ (e.1, sortKeys e.2) := by
  induction entries with
  | nil => rfl
  | cons e entries ih => rw [sortValues, ih, map_cons]

end Json

section SortEntries

variable {α β : Type}

theorem perm_sortEntries (entries : List (String × α)) : (sortEntries entries).Perm entries :=
  perm_insertionSort _ entries

theorem mem_sortEntries {entries : List (String × α)} {e : String × α} :
    e ∈ sortEntries entries ↔ e ∈ entries :=
  (perm_sortEntries entries).mem_iff

theorem sortEntries_sortEntries (entries : List (String × α)) :
    sortEntries (sortEntries entries) = sortEntries entries := by
  have : Std.Total fun e e' : String × α ↦ e.1 ≤ e'.1 := ⟨fun e e' ↦ le_total e.1 e'.1⟩
  have : IsTrans (String × α) fun e e' ↦ e.1 ≤ e'.1 := ⟨fun _ _ _ ↦ le_trans⟩
  exact (pairwise_insertionSort _ entries).insertionSort_eq

theorem sortEntries_map (f : α → β) (entries : List (String × α)) :
    sortEntries (entries.map fun e ↦ (e.1, f e.2)) =
      (sortEntries entries).map fun e ↦ (e.1, f e.2) := by
  refine (map_insertionSort (fun e e' : String × α ↦ e.1 ≤ e'.1) _ _ _ ?_).symm
  intro _ _ _ _
  exact Iff.rfl

theorem nodup_keys_sortEntries {entries : List (String × α)} :
    ((sortEntries entries).map Prod.fst).Nodup ↔ (entries.map Prod.fst).Nodup :=
  ((perm_sortEntries entries).map Prod.fst).nodup_iff

theorem sortEntries_eq_of_perm {entries entries' : List (String × α)} (h : entries.Perm entries')
    (hnodup : (entries.map Prod.fst).Nodup) : sortEntries entries = sortEntries entries' := by
  have hperm : (sortEntries entries).Perm (sortEntries entries') :=
    (perm_sortEntries entries).trans (h.trans (perm_sortEntries entries').symm)
  have : Std.Total fun e e' : String × α ↦ e.1 ≤ e'.1 := ⟨fun e e' ↦ le_total e.1 e'.1⟩
  have : IsTrans (String × α) fun e e' ↦ e.1 ≤ e'.1 := ⟨fun _ _ _ ↦ le_trans⟩
  refine hperm.eq_of_pairwise ?_ (pairwise_insertionSort _ entries)
    (pairwise_insertionSort _ entries')
  intro e e' he he' hle hle'
  exact inj_on_of_nodup_map hnodup (mem_sortEntries.mp he)
    (h.mem_iff.mpr (mem_sortEntries.mp he')) (le_antisymm hle hle')

end SortEntries

theorem Json.sortKeys_sortKeys {F : Type} (j : Json F) : j.sortKeys.sortKeys = j.sortKeys := by
  induction j using Json.induction with
  | null => rfl
  | bool b => rfl
  | int n => rfl
  | float x => rfl
  | str s => rfl
  | list items ih =>
    simp only [sortKeys, sortItems_eq_map, map_map, Json.list.injEq]
    exact map_congr_left ih
  | dict entries ih =>
    simp only [sortKeys, sortValues_eq_map, sortEntries_map, map_map, Json.dict.injEq]
    have hvalues : (sortEntries entries).map
        ((fun e ↦ (e.1, sortKeys e.2)) ∘ fun e ↦ (e.1, sortKeys e.2)) =
        (sortEntries entries).map fun e ↦ (e.1, sortKeys e.2) :=
      map_congr_left fun e he ↦ Prod.ext rfl (ih e (mem_sortEntries.mp he))
    rw [hvalues, ← sortEntries_map, sortEntries_sortEntries]

end Qros.Python
