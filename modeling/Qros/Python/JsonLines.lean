import Qros.Python.JsonRoundTrip

/-!
# JSON texts on one line

`json.dumps` escapes the characters below U+0020, so a text it writes can only be split
by `str.splitlines` at U+0085, U+2028 and U+2029, which stand in it as they are.  A value
none of whose strings and keys holds one of them is written on one line.
-/

/-!
## Lines of text

How text files are read and split: `Path.read_text` translates the ends of lines, and
`str.splitlines` splits at more characters than the newline.
-/

namespace Qros.Python

open List

/-- The translation of line ends by a text file that is opened without `newline`. -/
def universalNewlines : List Char → List Char
  | [] => []
  | '\r' :: '\n' :: t => '\n' :: universalNewlines t
  | c :: t => (if c = '\r' then '\n' else c) :: universalNewlines t

/-- The characters at which `str.splitlines` splits. -/
def isLineBreak (c : Char) : Bool :=
  (0x0A ≤ c.toNat && c.toNat ≤ 0x0D) || (0x1C ≤ c.toNat && c.toNat ≤ 0x1E) || c.toNat == 0x85 ||
    c.toNat == 0x2028 || c.toNat == 0x2029

/-- The lines of the text, after the characters `line` of the first. -/
def splitLoop : List Char → List Char → List (List Char)
  | [], line => if line = [] then [] else [line]
  | '\r' :: '\n' :: t, line => line :: splitLoop t []
  | c :: t, line => if isLineBreak c then line :: splitLoop t [] else splitLoop t (line ++ [c])

def splitlines (s : List Char) : List (List Char) := splitLoop s []

/-- No line ends in the text. -/
def Unbroken (s : List Char) : Prop := ∀ c ∈ s, isLineBreak c = false

instance (s : List Char) : Decidable (Unbroken s) := List.decidableBAll _ s

theorem ne_cr_of_not_break {c : Char} (h : isLineBreak c = false) : c ≠ '\r' := by
  rintro rfl
  cases h

theorem universalNewlines_of_forall_ne {s : List Char} (h : ∀ c ∈ s, c ≠ '\r') :
    universalNewlines s = s := by
  induction s with
  | nil => rfl
  | cons c t ih =>
    have hc := h c mem_cons_self
    rw [universalNewlines.eq_def]
    split
    · rename_i heq
      cases heq
    · rename_i heq
      exact absurd (List.cons.inj heq).1 hc
    · rename_i heq
      cases heq
      rw [if_neg hc, ih fun d hd ↦ h d (mem_cons_of_mem _ hd)]

theorem splitLoop_append {s : List Char} (h : Unbroken s) (rest line : List Char) :
    splitLoop (s ++ '\n' :: rest) line = (line ++ s) :: splitLoop rest [] := by
  induction s generalizing line with
  | nil =>
    rw [nil_append, append_nil]
    rfl
  | cons c t ih =>
    have hc := h c mem_cons_self
    have hcr := ne_cr_of_not_break hc
    rw [cons_append, splitLoop.eq_def]
    split
    · rename_i heq
      cases heq
    · rename_i heq
      exact absurd (List.cons.inj heq).1 hcr
    · rename_i heq
      cases heq
      rw [hc, if_neg Bool.false_ne_true, ih fun d hd ↦ h d (mem_cons_of_mem _ hd),
        append_assoc, singleton_append]

/-- The text of a file with the lines. -/
def unlines (lines : List (List Char)) : List Char := lines.flatMap fun line ↦ line ++ ['\n']

theorem unlines_concat (lines : List (List Char)) (line : List Char) :
    unlines (lines ++ [line]) = unlines lines ++ (line ++ ['\n']) := by
  unfold unlines
  rw [flatMap_append, flatMap_singleton]

theorem splitlines_unlines {lines : List (List Char)} (h : ∀ line ∈ lines, Unbroken line) :
    splitlines (unlines lines) = lines := by
  unfold splitlines
  induction lines with
  | nil => rfl
  | cons line lines ih =>
    unfold unlines at ih ⊢
    rw [flatMap_cons, append_assoc, singleton_append,
      splitLoop_append (h line mem_cons_self), ih fun l hl ↦ h l (mem_cons_of_mem _ hl),
      nil_append]

theorem universalNewlines_unlines {lines : List (List Char)} (h : ∀ line ∈ lines, Unbroken line) :
    universalNewlines (unlines lines) = unlines lines := by
  refine universalNewlines_of_forall_ne fun c hc ↦ ?_
  obtain ⟨line, hline, hc⟩ := mem_flatMap.mp hc
  rcases mem_append.mp hc with hc | hc
  · exact ne_cr_of_not_break (h line hline c hc)
  · rw [mem_singleton.mp hc]
    decide

end Qros.Python

namespace Qros.Python

/-- No line ends within the text that is written for the string. -/
def IsInline (s : String) : Prop := ∀ c ∈ s.toList, 0x20 ≤ c.toNat → isLineBreak c = false

instance (s : String) : Decidable (IsInline s) := List.decidableBAll _ s.toList

namespace Json

variable {F : Type}

mutual

/-- The strings and the keys in a value. -/
def strings : Json F → List String
  | .null => []
  | .bool _ => []
  | .int _ => []
  | .float _ => []
  | .str s => [s]
  | .list items => itemStrings items
  | .dict entries => entryStrings entries

def itemStrings : List (Json F) → List String
  | [] => []
  | j :: items => strings j ++ itemStrings items

def entryStrings : List (String × Json F) → List String
  | [] => []
  | (k, j) :: entries => k :: (strings j ++ entryStrings entries)

end

variable {s : String}

theorem mem_itemStrings {items : List (Json F)} :
    s ∈ itemStrings items ↔ ∃ j ∈ items, s ∈ strings j := by
  induction items with
  | nil => exact iff_of_false nofun nofun
  | cons j items ih => rw [itemStrings, List.mem_append, ih, List.exists_mem_cons_iff]

theorem mem_entryStrings {entries : List (String × Json F)} :
    s ∈ entryStrings entries ↔ ∃ e ∈ entries, s = e.1 ∨ s ∈ strings e.2 := by
  induction entries with
  | nil => exact iff_of_false nofun nofun
  | cons e entries ih =>
    rw [entryStrings, List.mem_cons, List.mem_append, ih, List.exists_mem_cons_iff, or_assoc]

theorem mem_strings_sortKeys {j : Json F} : s ∈ j.sortKeys.strings ↔ s ∈ j.strings := by
  induction j using Json.induction with
  | null => exact Iff.rfl
  | bool b => exact Iff.rfl
  | int n => exact Iff.rfl
  | float x => exact Iff.rfl
  | str t => exact Iff.rfl
  | list items ih =>
    rw [sortKeys, strings, strings, mem_itemStrings, mem_itemStrings, sortItems_eq_map]
    simp only [List.mem_map, exists_exists_and_eq_and]
    exact exists_congr fun j ↦ and_congr_right (ih j)
  | dict entries ih =>
    rw [sortKeys, strings, strings, mem_entryStrings, mem_entryStrings, sortValues_eq_map]
    simp only [mem_sortEntries, List.mem_map, exists_exists_and_eq_and]
    exact exists_congr fun e ↦ and_congr_right fun he ↦ or_congr_right (ih e he)

end Json

/-! ## Unbroken texts -/

theorem unbroken_append {s t : List Char} (hs : Unbroken s) (ht : Unbroken t) :
    Unbroken (s ++ t) := by
  intro c hc
  rcases List.mem_append.mp hc with hc | hc
  · exact hs c hc
  · exact ht c hc

variable {t : List Char}

theorem unbroken_cons {c : Char} (hc : isLineBreak c = false) (ht : Unbroken t) :
    Unbroken (c :: t) := by
  intro d hd
  rcases List.mem_cons.mp hd with rfl | hd
  · exact hc
  · exact ht d hd

theorem unbroken_digit : ∀ n < 16, isLineBreak (Nat.digitChar n) = false := by decide

theorem unbroken_escapeChar {c : Char} (h : 0x20 ≤ c.toNat → isLineBreak c = false) :
    Unbroken (escapeChar c) := by
  unfold escapeChar
  split_ifs with h₁ h₂ h₃ h₄ h₅ h₆ h₇ h₈
  · decide
  · decide
  · decide
  · decide
  · decide
  · decide
  · decide
  · have hhigh := unbroken_digit (c.toNat / 16) (by omega)
    have hlow := unbroken_digit (c.toNat % 16) (Nat.mod_lt _ (by decide))
    exact unbroken_append (s := ['\\', 'u', '0', '0']) (by decide)
      (unbroken_cons hhigh (unbroken_cons hlow nofun))
  · exact unbroken_cons (h (Nat.le_of_not_lt h₈)) nofun

theorem unbroken_strText {s : String} (h : IsInline s) : Unbroken (strText s) := by
  refine unbroken_cons rfl (unbroken_append ?_ (by decide))
  intro c hc
  obtain ⟨d, hd, hc⟩ := List.mem_flatMap.mp hc
  exact unbroken_escapeChar (h d hd) c hc

theorem not_break_of_isDigit {c : Char} (h : c.isDigit = true) : isLineBreak c = false := by
  rw [Char.isDigit, Bool.and_eq_true, decide_eq_true_iff, decide_eq_true_iff] at h
  obtain ⟨hlow, hhigh⟩ := h
  have hlow : 48 ≤ c.toNat := hlow
  have hhigh : c.toNat ≤ 57 := hhigh
  unfold isLineBreak
  simp only [Bool.or_eq_false_iff, Bool.and_eq_false_iff, decide_eq_false_iff_not,
    beq_eq_false_iff_ne]
  omega

theorem unbroken_digits {ds : List Char} (h : IsDigits ds) : Unbroken ds :=
  fun c hc ↦ not_break_of_isDigit (h c hc)

theorem unbroken_sign (negative : Bool) : Unbroken (if negative = true then ['-'] else []) := by
  cases negative <;> decide

theorem unbroken_intPart (h : IsIntPart t) : Unbroken t := by
  rcases h with rfl | ⟨c, ds, rfl, -, hc, hds⟩
  · decide
  · exact unbroken_cons (not_break_of_isDigit hc) (unbroken_digits hds)

theorem unbroken_literal (h : IsFloatLiteral t) : Unbroken t := by
  obtain ⟨negative, int, frac, exp, rfl, hint, hfrac, hexp, -⟩ := h
  refine unbroken_append (unbroken_sign negative) (unbroken_append (unbroken_intPart hint)
    (unbroken_append ?_ ?_))
  · rcases hfrac with rfl | ⟨ds, rfl, -, hds⟩
    · exact nofun
    · exact unbroken_cons rfl (unbroken_digits hds)
  · rcases hexp with rfl | ⟨e, sign, ds, rfl, he, hsign, -, hds⟩
    · exact nofun
    · refine unbroken_cons ?_ (unbroken_append ?_ (unbroken_digits hds))
      · rcases he with rfl | rfl <;> rfl
      · rcases hsign with rfl | rfl | rfl <;> decide

theorem unbroken_intercalate {sep : List Char} (hsep : Unbroken sep) {texts : List (List Char)}
    (h : ∀ t ∈ texts, Unbroken t) : Unbroken (List.intercalate sep texts) := by
  induction texts with
  | nil => exact nofun
  | cons t texts ih =>
    have htail := ih fun u hu ↦ h u (List.mem_cons_of_mem _ hu)
    cases texts with
    | nil =>
      rw [List.intercalate_singleton]
      exact h t List.mem_cons_self
    | cons u texts =>
      rw [List.intercalate_cons_cons]
      exact unbroken_append (unbroken_append (h t List.mem_cons_self) hsep) htail

section Text

variable {F : Type} [FloatText F] [LawfulFloatText F]

theorem unbroken_floatText (x : F) : Unbroken (floatText x) := by
  unfold floatText
  cases hkind : FloatText.kind x with
  | finite => exact unbroken_literal (LawfulFloatText.literal x hkind)
  | nan => exact (by decide : Unbroken "NaN".toList)
  | posInf => exact (by decide : Unbroken "Infinity".toList)
  | negInf => exact (by decide : Unbroken "-Infinity".toList)

theorem unbroken_text {s : Separators} (hitem : Unbroken s.item) (hkey : Unbroken s.key)
    (j : Json F)
    (h : ∀ t ∈ j.strings, IsInline t) : Unbroken (j.text s) := by
  induction j using Json.induction with
  | null => exact (by decide : Unbroken "null".toList)
  | bool b =>
    rw [Json.text]
    cases b <;> decide
  | int n =>
    rw [Json.text, intText_eq]
    exact unbroken_append (unbroken_sign _) (unbroken_intPart (isIntPart_toDigits _))
  | float x => exact unbroken_floatText x
  | str t => exact unbroken_strText (h t List.mem_cons_self)
  | list items ih =>
    rw [Json.text, Json.texts_eq_map]
    refine unbroken_cons rfl (unbroken_append (unbroken_intercalate hitem ?_) (by decide))
    intro t ht
    obtain ⟨j, hj, rfl⟩ := List.mem_map.mp ht
    exact ih j hj fun u hu ↦ h u (Json.mem_itemStrings.mpr ⟨j, hj, hu⟩)
  | dict entries ih =>
    rw [Json.text, Json.entryTexts_eq_map]
    refine unbroken_cons rfl (unbroken_append (unbroken_intercalate hitem ?_) (by decide))
    intro t ht
    obtain ⟨e, he, rfl⟩ := List.mem_map.mp ht
    refine unbroken_append (unbroken_strText ?_) (unbroken_append hkey (ih e he ?_))
    · exact h e.1 (Json.mem_entryStrings.mpr ⟨e, he, .inl rfl⟩)
    · exact fun u hu ↦ h u (Json.mem_entryStrings.mpr ⟨e, he, .inr hu⟩)

end Text

end Qros.Python
