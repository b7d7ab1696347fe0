import Qros.Python.JsonLoads

/-!
# JSON round trips

`json.loads` reads back what `json.dumps` writes (`loads_text`): the value itself, except
that each `nan` is the constant of the decoder.  The separators may be those of
`json.dumps` or the compact ones.

`Reads` says what `scan_once` makes of a text wherever it stands, and has a rule for each
kind of value.
-/

namespace Qros.Python

open Qros.Lib List

/-! ## The text of floats -/

def IsDigits (ds : List Char) : Prop := ∀ c ∈ ds, c.isDigit = true

/-- An integer part without leading zeros. -/
def IsIntPart (t : List Char) : Prop :=
  t = ['0'] ∨ ∃ c ds, t = c :: ds ∧ c ≠ '0' ∧ c.isDigit = true ∧ IsDigits ds

def IsFracPart (t : List Char) : Prop := t = [] ∨ ∃ ds, t = '.' :: ds ∧ ds ≠ [] ∧ IsDigits ds

def IsExpPart (t : List Char) : Prop :=
  t = [] ∨ ∃ e sign ds, t = e :: (sign ++ ds) ∧ (e = 'e' ∨ e = 'E') ∧
    (sign = [] ∨ sign = ['+'] ∨ sign = ['-']) ∧ ds ≠ [] ∧ IsDigits ds

/-- The text of a number with a fractional part or an exponent. -/
def IsFloatLiteral (t : List Char) : Prop :=
  ∃ negative int frac exp, t = (if negative = true then ['-'] else []) ++ (int ++ (frac ++ exp)) ∧
    IsIntPart int ∧ IsFracPart frac ∧ IsExpPart exp ∧ ¬ (frac = [] ∧ exp = [])

/-- `float.__repr__` of a finite number is a literal that `float` reads back, and there is
one infinity of each sign. -/
class LawfulFloatText (F : Type) [FloatText F] : Prop where
  literal : ∀ x : F, FloatText.kind x = .finite → IsFloatLiteral (FloatText.repr x)
  ofText_repr : ∀ x : F, FloatText.kind x = .finite → FloatText.ofText (FloatText.repr x) = x
  posInf : ∀ x : F, FloatText.kind x = .posInf → x = FloatText.posInf
  negInf : ∀ x : F, FloatText.kind x = .negInf → x = FloatText.negInf

/-- No `nan` is told from another. -/
class SingleNan (F : Type) [FloatText F] : Prop where
  nan : ∀ x : F, FloatText.kind x = .nan → x = FloatText.nan

/-! ## Values that are read back -/

section

variable {F : Type} [FloatText F]

def decodedFloat (x : F) : F := if FloatText.kind x = .nan then FloatText.nan else x

namespace Json

mutual

/-- The value that the decoder makes of the text of one. -/
def decoded : Json F → Json F
  | .null => .null
  | .bool b => .bool b
  | .int n => .int n
  | .float x => .float (decodedFloat x)
  | .str s => .str s
  | .list items => .list (decodedItems items)
  | .dict entries => .dict (decodedEntries entries)

def decodedItems : List (Json F) → List (Json F)
  | [] => []
  | j :: items => decoded j :: decodedItems items

def decodedEntries : List (String × Json F) → List (String × Json F)
  | [] => []
  | (k, j) :: entries => (k, decoded j) :: decodedEntries entries

end

theorem decodedItems_eq_map (items : List (Json F)) : decodedItems items = items.map decoded := by
  induction items with
  | nil => rfl
  | cons j items ih => rw [decodedItems, ih, map_cons]

theorem decodedEntries_eq_map (entries : List (String × Json F)) :
    decodedEntries entries = entries.map fun e ↦ (e.1, decoded e.2) := by
  induction entries with
  | nil => rfl
  | cons e entries ih => rw [decodedEntries, ih, map_cons]

end Json

end

namespace Json

variable {F : Type}

mutual

/-- The keys of every dictionary are different. -/
def Distinct : Json F → Prop
  | .null => True
  | .bool _ => True
  | .int _ => True
  | .float _ => True
  | .str _ => True
  | .list items => DistinctItems items
  | .dict entries => (entries.map Prod.fst).Nodup ∧ DistinctValues entries

def DistinctItems : List (Json F) → Prop
  | [] => True
  | j :: items => Distinct j ∧ DistinctItems items

def DistinctValues : List (String × Json F) → Prop
  | [] => True
  | (_, j) :: entries => Distinct j ∧ DistinctValues entries

end

theorem distinctItems_iff {items : List (Json F)} :
    DistinctItems items ↔ ∀ j ∈ items, Distinct j := by
  induction items with
  | nil => exact iff_of_true trivial nofun
  | cons j items ih => rw [DistinctItems, ih, forall_mem_cons]

theorem distinctValues_iff {entries : List (String × Json F)} :
    DistinctValues entries ↔ ∀ e ∈ entries, Distinct e.2 := by
  induction entries with
  | nil => exact iff_of_true trivial nofun
  | cons e entries ih => rw [DistinctValues, ih, forall_mem_cons]

theorem distinct_list {items : List (Json F)} :
    Distinct (.list items) ↔ ∀ j ∈ items, Distinct j := distinctItems_iff

theorem distinct_dict {entries : List (String × Json F)} :
    Distinct (.dict entries) ↔ (entries.map Prod.fst).Nodup ∧ ∀ e ∈ entries, Distinct e.2 :=
  and_congr_right fun _ ↦ distinctValues_iff

theorem Distinct.sortKeys {j : Json F} (h : j.Distinct) : j.sortKeys.Distinct := by
  induction j using Json.induction with
  | null => trivial
  | bool b => trivial
  | int n => trivial
  | float x => trivial
  | str s => trivial
  | list items ih =>
    rw [distinct_list] at h
    rw [Json.sortKeys, sortItems_eq_map, distinct_list, forall_mem_map]
    exact fun j hj ↦ ih j hj (h j hj)
  | dict entries ih =>
    rw [distinct_dict] at h
    rw [Json.sortKeys, distinct_dict, nodup_keys_sortEntries, sortValues_eq_map, map_map]
    refine ⟨h.1, fun e' he' ↦ ?_⟩
    obtain ⟨e, he, rfl⟩ := mem_map.mp (mem_sortEntries.mp he')
    exact ih e he (h.2 e he)

theorem decoded_eq_self [FloatText F] [SingleNan F] (j : Json F) : j.decoded = j := by
  induction j using Json.induction with
  | null => rfl
  | bool b => rfl
  | int n => rfl
  | float x =>
    rw [decoded, decodedFloat]
    split
    · rename_i h
      rw [SingleNan.nan x h]
    · rfl
  | str s => rfl
  | list items ih =>
    rw [decoded, decodedItems_eq_map, map_congr_left ih, map_id']
  | dict entries ih =>
    have hentries : entries.map (fun e ↦ (e.1, e.2.decoded)) = entries.map id :=
      map_congr_left fun e he ↦ Prod.ext rfl (ih e he)
    rw [decoded, decodedEntries_eq_map, hentries, map_id]

end Json

/-! ## Strings -/

theorem hexValue_digitChar : ∀ n < 16, hexValue (Nat.digitChar n) = some n := by decide

theorem scanString_u {n : Nat} (hn : n < 0x20) (t out : List Char) :
    scanString
    ('\\' :: 'u' :: '0' :: '0' :: Nat.digitChar (n / 16) :: Nat.digitChar (n % 16) :: t) out =
      scanString t (out ++ [Char.ofNat n]) := by
  have hdecode : decodeU '0' '0' (Nat.digitChar (n / 16)) (Nat.digitChar (n % 16)) = some n := by
    unfold decodeU
    rw [hexValue_digitChar _ (by omega), hexValue_digitChar _ (by omega)]
    have hzero : hexValue '0' = some 0 := rfl
    rw [hzero]
    show some _ = some n
    congr 1
    omega
  have hhigh : ¬ IsHigh n := fun h ↦ absurd h.1 (by omega)
  have hlow : ¬ IsLow n := fun h ↦ absurd h.1 (by omega)
  rw [scanString.eq_def]
  simp only [hdecode, if_neg hhigh, if_neg hlow]
  rfl

theorem scanString_escapeChar (c : Char) (t out : List Char) :
    scanString (escapeChar c ++ t) out = scanString t (out ++ [c]) := by
  unfold escapeChar
  split_ifs with h₁ h₂ h₃ h₄ h₅ h₆ h₇ h₈
  · rw [h₁]; rfl
  · rw [h₂]; rfl
  · rw [h₃]; rfl
  · rw [h₄]; rfl
  · rw [h₅]; rfl
  · rw [h₆]; rfl
  · rw [h₇]; rfl
  · have hu := scanString_u h₈ t out
    rwa [Char.ofNat_toNat] at hu
  · rw [singleton_append, scanString.eq_def]
    simp only [if_neg h₁, if_neg h₂, if_neg h₈]

/-- Each character is read back from its escape. -/
def Escapes (esc : Char → List Char) : Prop :=
  ∀ c t out, scanString (esc c ++ t) out = scanString t (out ++ [c])

theorem escapes_escapeChar : Escapes escapeChar := scanString_escapeChar

def quoted (esc : Char → List Char) (s : String) : List Char := '"' :: (s.toList.flatMap esc ++ ['"'])

theorem scanString_append {esc : Char → List Char} (hesc : Escapes esc) (s rest out : List Char) :
    scanString (s.flatMap esc ++ '"' :: rest) out = .ok (out ++ s, rest) := by
  induction s generalizing out with
  | nil =>
    rw [flatMap_nil, nil_append, scanString.eq_def, append_nil]
    exact if_pos rfl
  | cons c s ih =>
    rw [flatMap_cons, append_assoc, hesc, ih, append_assoc, singleton_append]

/-! ## Numbers -/

/-- No number goes on in `rest`. -/
def Stops (rest : List Char) : Prop :=
  ∀ c ∈ rest.head?, c.isDigit = false ∧ c ≠ '.' ∧ c ≠ 'e' ∧ c ≠ 'E'

theorem stops_nil : Stops [] := nofun

theorem stops_cons {c : Char} (rest : List Char)
    (hc : c.isDigit = false ∧ c ≠ '.' ∧ c ≠ 'e' ∧ c ≠ 'E') : Stops (c :: rest) := by
  intro d hd
  obtain rfl : c = d := Option.some.inj hd
  exact hc

def NoDigit (rest : List Char) : Prop := ∀ c ∈ rest.head?, c.isDigit = false

theorem Stops.noDigit {rest : List Char} (h : Stops rest) : NoDigit rest := fun c hc ↦ (h c hc).1

theorem span_digits {ds rest : List Char} (hds : IsDigits ds) (hrest : NoDigit rest) :
    (ds ++ rest).takeWhile Char.isDigit = ds ∧ (ds ++ rest).dropWhile Char.isDigit = rest := by
  rw [takeWhile_append_of_pos hds, dropWhile_append_of_pos hds]
  cases rest with
  | nil => exact ⟨append_nil ds, rfl⟩
  | cons c rest =>
    have hc : ¬ c.isDigit = true := by simp [hrest c rfl]
    rw [takeWhile_cons_of_neg hc, dropWhile_cons_of_neg hc, append_nil]
    exact ⟨rfl, rfl⟩

theorem intPart_append {int rest : List Char} (h : IsIntPart int) (hrest : NoDigit rest) :
    intPart (int ++ rest) = some (int, rest) := by
  rcases h with rfl | ⟨c, ds, rfl, hzero, hc, hds⟩
  · rfl
  · obtain ⟨htake, hdrop⟩ := span_digits hds hrest
    rw [cons_append, intPart, if_neg hzero, if_pos hc, htake, hdrop]

theorem fracPart_append {frac rest : List Char} (h : IsFracPart frac) (hrest : NoDigit rest)
    (hdot : rest.head? ≠ some '.') : fracPart (frac ++ rest) = (frac, rest) := by
  rcases h with rfl | ⟨ds, rfl, hne, hds⟩
  · cases rest with
    | nil => rfl
    | cons c rest =>
      rw [nil_append, fracPart, if_neg]
      rintro ⟨rfl, -⟩
      exact hdot rfl
  · obtain ⟨htake, hdrop⟩ := span_digits hds hrest
    rw [cons_append, fracPart, htake, hdrop, if_pos ⟨rfl, hne⟩]

theorem expSign_append {sign ds : List Char} (rest : List Char)
    (h : sign = [] ∨ sign = ['+'] ∨ sign = ['-']) (hne : ds ≠ []) (hds : IsDigits ds) :
    expSign (sign ++ ds ++ rest) = sign := by
  rcases h with rfl | rfl | rfl
  · obtain ⟨d, ds, rfl⟩ := exists_cons_of_ne_nil hne
    have hd := hds d mem_cons_self
    unfold expSign
    split
    · rename_i heq
      cases heq
      exact absurd hd (by decide)
    · rename_i heq
      cases heq
      exact absurd hd (by decide)
    · rfl
  · rfl
  · rfl

theorem expPart_append {exp rest : List Char} (h : IsExpPart exp) (hrest : Stops rest) :
    expPart (exp ++ rest) = (exp, rest) := by
  rcases h with rfl | ⟨e, sign, ds, rfl, he, hsign, hne, hds⟩
  · cases rest with
    | nil => rfl
    | cons c rest =>
      obtain ⟨-, -, he, hE⟩ := hrest c rfl
      rw [nil_append, expPart, if_neg]
      rintro ⟨h | h, -⟩
      · exact he h
      · exact hE h
  · obtain ⟨htake, hdrop⟩ := span_digits hds hrest.noDigit
    rw [cons_append, expPart, expSign_append rest hsign hne hds, append_assoc,
      drop_left, htake, hdrop]
    exact if_pos ⟨he, hne⟩

theorem isDigit_digitChar : ∀ n < 10, (Nat.digitChar n).isDigit = true := by decide

theorem digitChar_ne_zero : ∀ n < 10, n ≠ 0 → Nat.digitChar n ≠ '0' := by decide

theorem isIntPart_toDigits (n : Nat) : IsIntPart (Nat.toDigits 10 n) := by
  induction n using Nat.strong_induction_on with
  | _ n ih =>
    by_cases hn : n < 10
    · rw [Nat.toDigits_of_lt_base hn]
      by_cases hzero : n = 0
      · exact .inl (by rw [hzero]; rfl)
      · exact .inr ⟨_, [], rfl, digitChar_ne_zero n hn hzero, isDigit_digitChar n hn, nofun⟩
    · rw [Nat.toDigits_of_base_le (by decide) (Nat.le_of_not_lt hn)]
      have hdigit := isDigit_digitChar (n % 10) (Nat.mod_lt n (by decide))
      rcases ih (n / 10) (Nat.div_lt_self (by omega) (by decide)) with h | ⟨c, ds, h, hzero, hc, hds⟩
      · -- only zero has the digits of zero
        have hval := Nat.ofDigitChars_ten_toDigits (n := n / 10)
        rw [h] at hval
        have : n / 10 = 0 := hval.symm
        omega
      · refine .inr ⟨c, ds ++ [Nat.digitChar (n % 10)], by rw [h, cons_append], hzero, hc, ?_⟩
        intro d hd
        rcases mem_append.mp hd with hd | hd
        · exact hds d hd
        · rw [mem_singleton.mp hd]
          exact hdigit

/-! ## Atoms -/

section

variable {F : Type} [FloatText F]

variable {rest : List Char} {s : List Char}

theorem unsignedNumber_int (negative : Bool) (n : Nat) (h : Stops rest) :
    (unsignedNumber negative (Nat.toDigits 10 n ++ rest) : Option (Json F × List Char)) =
      some (.int (if negative then -n else n), rest) := by
  have hdot : rest.head? ≠ some '.' := fun hd ↦ (h '.' hd).2.1 rfl
  have hfrac : fracPart rest = ([], rest) := fracPart_append (.inl rfl) h.noDigit hdot
  have hexp : expPart rest = ([], rest) := expPart_append (.inl rfl) h
  unfold unsignedNumber
  rw [intPart_append (isIntPart_toDigits n) h.noDigit]
  simp only [hfrac, hexp, and_self, if_true, intOfText, Nat.ofDigitChars_ten_toDigits]

theorem noDigit_exp {exp rest : List Char} (h : IsExpPart exp) (hrest : Stops rest) :
    NoDigit (exp ++ rest) ∧ (exp ++ rest).head? ≠ some '.' := by
  rcases h with rfl | ⟨e, sign, ds, rfl, he, -⟩
  · exact ⟨hrest.noDigit, fun hd ↦ (hrest '.' hd).2.1 rfl⟩
  · rcases he with rfl | rfl
    · exact ⟨fun c hc ↦ by cases hc; rfl, by rintro ⟨⟩⟩
    · exact ⟨fun c hc ↦ by cases hc; rfl, by rintro ⟨⟩⟩

theorem unsignedNumber_float (negative : Bool) {int frac exp rest : List Char}
    (hint : IsIntPart int)
    (hfrac : IsFracPart frac) (hexp : IsExpPart exp) (hne : ¬ (frac = [] ∧ exp = []))
    (h : Stops rest) :
    (unsignedNumber negative (int ++ (frac ++ exp) ++ rest) : Option (Json F × List Char)) =
      some (.float (FloatText.ofText
        ((if negative then ['-'] else []) ++ (int ++ (frac ++ exp)))), rest) := by
  obtain ⟨hdigit, hdot⟩ := noDigit_exp hexp h
  have hdigit' : NoDigit (frac ++ (exp ++ rest)) := by
    rcases hfrac with rfl | ⟨ds, rfl, -⟩
    · exact hdigit
    · exact fun c hc ↦ by cases hc; rfl
  unfold unsignedNumber
  rw [append_assoc, append_assoc, intPart_append hint hdigit']
  simp only [fracPart_append hfrac hdigit hdot, expPart_append hexp h, if_neg hne]

theorem scanAtom_number {r : Json F × List Char}
    (hconst : ∀ c ∈ (constants : List (List Char × Json F)), c.1.isPrefixOf s = false)
    (h : matchNumber s = some r) : scanAtom s = .ok r := by
  have hnone : (constants : List (List Char × Json F)).find? (fun c ↦ c.1.isPrefixOf s) = none := by
    rw [find?_eq_none]
    intro c hc
    rw [hconst c hc]
    exact Bool.false_ne_true
  unfold scanAtom
  rw [hnone, h]

/-- The text of a number starts with a digit, or with a sign before a digit. -/
def NumberStart (s : List Char) : Prop :=
  ∃ c t, c.isDigit = true ∧ (s = c :: t ∨ s = '-' :: c :: t)

theorem not_constant_of_numberStart (h : NumberStart s) :
    ∀ c ∈ (constants : List (List Char × Json F)), c.1.isPrefixOf s = false := by
  obtain ⟨d, t, hd, hs⟩ := h
  have hne : ∀ c : Char, c.isDigit = false → (c == d) = false := by
    intro c hc
    rw [beq_eq_false_iff_ne]
    rintro rfl
    rw [hc] at hd
    cases hd
  intro c hc
  rcases hs with rfl | rfl <;>
    simp only [constants, mem_cons, not_mem_nil, or_false] at hc <;>
    rcases hc with rfl | rfl | rfl | rfl | rfl | rfl <;>
    simp [List.isPrefixOf, hne]

theorem matchNumber_of_sign (negative : Bool) (h : ∃ c t, s = c :: t ∧ c.isDigit = true) :
    (matchNumber ((if negative then ['-'] else []) ++ s) : Option (Json F × List Char)) =
      unsignedNumber negative s := by
  obtain ⟨c, t, rfl, hc⟩ := h
  cases negative with
  | true => rfl
  | false =>
    unfold matchNumber
    split
    · rename_i heq
      cases heq
      exact absurd hc (by decide)
    · rfl

theorem IsIntPart.start {int : List Char} (h : IsIntPart int) :
    ∃ c t, int = c :: t ∧ c.isDigit = true := by
  rcases h with rfl | ⟨c, ds, rfl, -, hc, -⟩
  · exact ⟨'0', [], rfl, rfl⟩
  · exact ⟨c, ds, rfl, hc⟩

theorem numberStart_sign (negative : Bool) (h : ∃ c t, s = c :: t ∧ c.isDigit = true) :
    NumberStart ((if negative = true then ['-'] else []) ++ s) := by
  obtain ⟨c, t, rfl, hc⟩ := h
  cases negative with
  | true => exact ⟨c, t, hc, .inr rfl⟩
  | false => exact ⟨c, t, hc, .inl rfl⟩

theorem intText_eq (n : Int) :
    intText n = (if decide (n < 0) = true then ['-'] else []) ++ Nat.toDigits 10 n.natAbs := by
  unfold intText
  by_cases h : n < 0
  · simp [h]
  · simp [h]

theorem scanAtom_int (n : Int) (h : Stops rest) :
    scanAtom (intText n ++ rest) = .ok ((.int n : Json F), rest) := by
  obtain ⟨c, t, hdigits, hc⟩ := (isIntPart_toDigits n.natAbs).start
  have hstart : ∃ c t, Nat.toDigits 10 n.natAbs ++ rest = c :: t ∧ c.isDigit = true :=
    ⟨c, t ++ rest, by rw [hdigits, cons_append], hc⟩
  rw [intText_eq, append_assoc]
  refine scanAtom_number (not_constant_of_numberStart (numberStart_sign _ hstart)) ?_
  rw [matchNumber_of_sign _ hstart, unsignedNumber_int _ _ h]
  have hvalue : (if decide (n < 0) = true then -(n.natAbs : Int) else n.natAbs) = n := by
    by_cases hn : n < 0
    · rw [if_pos (decide_eq_true hn)]
      omega
    · rw [if_neg (by simpa using hn)]
      omega
  rw [hvalue]

theorem scanAtom_literal {t rest : List Char} (ht : IsFloatLiteral t) (h : Stops rest) :
    scanAtom (t ++ rest) = .ok ((.float (FloatText.ofText t) : Json F), rest) := by
  obtain ⟨negative, int, frac, exp, rfl, hint, hfrac, hexp, hne⟩ := ht
  obtain ⟨c, u, hc, hdigit⟩ := hint.start
  have hstart : ∃ c t, int ++ (frac ++ exp) ++ rest = c :: t ∧ c.isDigit = true :=
    ⟨c, u ++ (frac ++ exp) ++ rest, by rw [hc]; rfl, hdigit⟩
  rw [append_assoc]
  refine scanAtom_number (not_constant_of_numberStart (numberStart_sign _ hstart)) ?_
  rw [matchNumber_of_sign _ hstart, unsignedNumber_float _ hint hfrac hexp hne h]

theorem scanAtom_float [LawfulFloatText F] (x : F) (h : Stops rest) :
    scanAtom (floatText x ++ rest) = .ok (.float (decodedFloat x), rest) := by
  unfold floatText decodedFloat
  cases hkind : FloatText.kind x with
  | finite =>
    rw [if_neg nofun]
    have hliteral := scanAtom_literal (F := F) (LawfulFloatText.literal x hkind) h
    rwa [LawfulFloatText.ofText_repr x hkind] at hliteral
  | nan => rfl
  | posInf =>
    rw [if_neg nofun, LawfulFloatText.posInf x hkind]
    rfl
  | negInf =>
    rw [if_neg nofun, LawfulFloatText.negInf x hkind]
    rfl

end

/-! ## What is read -/

section

variable {F : Type} [FloatText F]

/-- `scan_once` makes `j` of the text `t`, whatever follows it. -/
structure Reads (j : Json F) (t : List Char) : Prop where
  /-- The text starts with something other than a blank or a closing bracket. -/
  start : ∃ c s, t = c :: s ∧ isBlank c = false ∧ c ≠ ']'
  value : ∀ fuel rest, t.length ≤ fuel → Stops rest → scanOnce fuel (t ++ rest) = .ok (j, rest)

theorem Reads.ne_nil {j : Json F} {t : List Char} (h : Reads j t) : t ≠ [] := by
  obtain ⟨c, s, rfl, -⟩ := h.start
  exact cons_ne_nil c s

variable {fuel : Nat} {s : Separators}

theorem fuel_of_length_le {c : Char} {s : List Char} (h : (c :: s).length ≤ fuel) :
    ∃ n, fuel = n + 1 ∧ s.length ≤ n := by
  rw [length_cons] at h
  exact ⟨fuel - 1, by omega, by omega⟩

theorem skipWs_cons {c : Char} (s : List Char) (hc : isBlank c = false) :
    skipWs (c :: s) = c :: s :=
  dropWhile_cons_of_neg (by simp [hc])

theorem Reads.atom {j : Json F} {t : List Char}
    (hstart : ∃ c s, t = c :: s ∧ isBlank c = false ∧ c ≠ ']' ∧ c ≠ '"' ∧ c ≠ '{' ∧ c ≠ '[')
    (h : ∀ rest, Stops rest → scanAtom (t ++ rest) = .ok (j, rest)) : Reads j t := by
  obtain ⟨c, s, rfl, hblank, hclose, hquote, hbrace, hbracket⟩ := hstart
  refine ⟨⟨c, s, rfl, hblank, hclose⟩, fun fuel rest hfuel hrest ↦ ?_⟩
  obtain ⟨n, rfl, -⟩ := fuel_of_length_le hfuel
  rw [cons_append, scanOnce]
  simp only [if_neg hquote, if_neg hbrace, if_neg hbracket]
  exact h rest hrest

theorem start_of_numberStart {s : List Char} (h : NumberStart s) :
    ∃ c t, s = c :: t ∧ isBlank c = false ∧ c ≠ ']' ∧ c ≠ '"' ∧ c ≠ '{' ∧ c ≠ '[' := by
  obtain ⟨c, t, hc, rfl | rfl⟩ := h
  · have hne : ∀ d : Char, d.isDigit = false → c ≠ d := by
      rintro d hd rfl
      rw [hc] at hd
      cases hd
    refine ⟨c, t, rfl, ?_, hne _ rfl, hne _ rfl, hne _ rfl, hne _ rfl⟩
    simp only [isBlank, Bool.or_eq_false_iff, beq_eq_false_iff_ne]
    exact ⟨⟨⟨hne _ rfl, hne _ rfl⟩, hne _ rfl⟩, hne _ rfl⟩
  · exact ⟨'-', c :: t, rfl, rfl, by decide, by decide, by decide, by decide⟩

theorem Reads.int (n : Int) : Reads (.int n : Json F) (intText n) := by
  refine Reads.atom ?_ fun rest h ↦ scanAtom_int n h
  rw [intText_eq]
  exact start_of_numberStart (numberStart_sign _ (isIntPart_toDigits _).start)

theorem Reads.float [LawfulFloatText F] (x : F) :
    Reads (.float (decodedFloat x)) (floatText x) := by
  refine Reads.atom ?_ fun rest h ↦ scanAtom_float x h
  unfold floatText
  cases hkind : FloatText.kind x with
  | finite =>
    obtain ⟨negative, int, frac, exp, heq, hint, -⟩ := LawfulFloatText.literal x hkind
    obtain ⟨c, u, rfl, hc⟩ := hint.start
    show ∃ c s, FloatText.repr x = c :: s ∧ _
    rw [heq]
    exact start_of_numberStart (numberStart_sign _ ⟨c, _, rfl, hc⟩)
  | nan => exact ⟨'N', _, rfl, rfl, by decide, by decide, by decide, by decide⟩
  | posInf => exact ⟨'I', _, rfl, rfl, by decide, by decide, by decide, by decide⟩
  | negInf => exact ⟨'-', _, rfl, rfl, by decide, by decide, by decide, by decide⟩

theorem Reads.null : Reads (.null : Json F) "null".toList :=
  Reads.atom ⟨'n', _, rfl, rfl, by decide, by decide, by decide, by decide⟩ fun _ _ ↦ rfl

theorem Reads.bool (b : Bool) : Reads (.bool b : Json F) (boolText b) := by
  cases b with
  | true => exact Reads.atom ⟨'t', _, rfl, rfl, by decide, by decide, by decide, by decide⟩ fun _ _ ↦ rfl
  | false => exact Reads.atom ⟨'f', _, rfl, rfl, by decide, by decide, by decide, by decide⟩ fun _ _ ↦ rfl

variable {esc : Char → List Char}

theorem Reads.str (hesc : Escapes esc) (s : String) :
    Reads (.str s : Json F) (quoted esc s) := by
  refine ⟨⟨'"', _, rfl, rfl, by decide⟩, fun fuel rest hfuel _ ↦ ?_⟩
  obtain ⟨n, rfl, -⟩ := fuel_of_length_le hfuel
  unfold quoted
  rw [cons_append, append_assoc, singleton_append, scanOnce]
  simp only [if_true, scanString_append hesc, nil_append, Except.map, String.ofList_toList]

/-! ### Lists -/

/-- The separators are a comma and a colon before blanks. -/
structure Separators.Plain (s : Separators) : Prop where
  item : ∃ w, s.item = ',' :: w ∧ ∀ c ∈ w, isBlank c = true
  key : ∃ w, s.key = ':' :: w ∧ ∀ c ∈ w, isBlank c = true

theorem Separators.plain_default : Separators.default.Plain :=
  ⟨⟨[' '], rfl, all_eq_true.mp rfl⟩, ⟨[' '], rfl, all_eq_true.mp rfl⟩⟩

theorem Separators.plain_compact : Separators.compact.Plain := ⟨⟨[], rfl, nofun⟩, ⟨[], rfl, nofun⟩⟩

theorem skipWs_append {w s : List Char} (hw : ∀ c ∈ w, isBlank c = true)
    (hs : ∃ c t, s = c :: t ∧ isBlank c = false) : skipWs (w ++ s) = s := by
  obtain ⟨c, t, rfl, hc⟩ := hs
  unfold skipWs
  rw [dropWhile_append_of_pos hw]
  exact skipWs_cons t hc

theorem start_append {s : List Char} {P : Char → Prop} (h : ∃ c t, s = c :: t ∧ P c)
    (u : List Char) :
    ∃ c t, s ++ u = c :: t ∧ P c := by
  obtain ⟨c, t, rfl, hc⟩ := h
  exact ⟨c, t ++ u, rfl, hc⟩

theorem start_intercalate {P : Char → Prop} {sep : List Char} {texts : List (List Char)}
    (hne : texts ≠ []) (h : ∀ t ∈ texts, ∃ c s, t = c :: s ∧ P c) :
    ∃ c s, List.intercalate sep texts = c :: s ∧ P c := by
  obtain ⟨t, texts, rfl⟩ := exists_cons_of_ne_nil hne
  have ht := h t mem_cons_self
  cases texts with
  | nil => rwa [intercalate_singleton]
  | cons u texts =>
    rw [intercalate_cons_cons, append_assoc]
    exact start_append ht _

theorem length_le_intercalate (sep : List Char) (texts : List (List Char))
    (h : ∀ t ∈ texts, t ≠ []) :
    texts.length ≤ (List.intercalate sep texts).length ∧
      ∀ t ∈ texts, t.length ≤ (List.intercalate sep texts).length := by
  induction texts with
  | nil => exact ⟨Nat.le_refl 0, nofun⟩
  | cons t texts ih =>
    have ht := length_pos_iff.mpr (h t mem_cons_self)
    obtain ⟨hcount, hlen⟩ := ih fun u hu ↦ h u (mem_cons_of_mem _ hu)
    cases texts with
    | nil =>
      rw [intercalate_singleton, length_singleton]
      exact ⟨ht, fun u hu ↦ by rw [mem_singleton.mp hu]⟩
    | cons t' texts =>
      rw [intercalate_cons_cons, length_cons, length_append, length_append]
      refine ⟨by omega, fun u hu ↦ ?_⟩
      rcases mem_cons.mp hu with rfl | hu
      · omega
      · have := hlen u hu
        omega

theorem arrayLoop_reads {sep : List Char} (hsep : ∃ w, sep = ',' :: w ∧ ∀ c ∈ w, isBlank c = true)
    {n : Nat} {items : List (Json F × List Char)} (hne : items ≠ [])
    (h : ∀ i ∈ items, Reads i.1 i.2 ∧ i.2.length ≤ n) (hfuel : items.length ≤ fuel)
    (acc : List (Json F)) (rest : List Char) :
    arrayLoop (scanOnce n) fuel (List.intercalate sep (items.map Prod.snd) ++ ']' :: rest) acc =
      .ok (.list (acc ++ items.map Prod.fst), rest) := by
  obtain ⟨w, rfl, hw⟩ := hsep
  induction items generalizing fuel acc with
  | nil => exact absurd rfl hne
  | cons i items ih =>
    obtain ⟨hread, hlen⟩ := h i mem_cons_self
    obtain ⟨fuel, rfl, hfuel'⟩ : ∃ m, fuel = m + 1 ∧ items.length ≤ m := by
      rw [length_cons] at hfuel
      exact ⟨fuel - 1, by omega, by omega⟩
    cases items with
    | nil =>
      rw [map_singleton, intercalate_singleton, arrayLoop,
        hread.value n _ hlen (stops_cons rest (by decide))]
      rfl
    | cons i' items =>
      have htail : ∀ j ∈ i' :: items, Reads j.1 j.2 ∧ j.2.length ≤ n :=
        fun j hj ↦ h j (mem_cons_of_mem _ hj)
      have hstart : ∃ c s, List.intercalate (',' :: w) ((i' :: items).map Prod.snd) ++ ']' :: rest =
          c :: s ∧ isBlank c = false := by
        refine start_append (start_intercalate ?_ ?_) _
        · exact cons_ne_nil _ _
        · intro t ht
          obtain ⟨j, hj, rfl⟩ := mem_map.mp ht
          obtain ⟨c, s, hc, hblank, -⟩ := (htail j hj).1.start
          exact ⟨c, s, hc, hblank⟩
      have htext : List.intercalate (',' :: w) ((i :: i' :: items).map Prod.snd) ++ ']' :: rest =
          i.2 ++ ',' :: (w ++
            (List.intercalate (',' :: w) ((i' :: items).map Prod.snd) ++ ']' :: rest)) := by
        simp [intercalate_cons_cons]
      rw [htext, arrayLoop, hread.value n _ hlen (stops_cons _ (by decide))]
      simp only [skipWs_cons _ (show isBlank ',' = false from rfl)]
      rw [if_neg (by decide), if_pos trivial, skipWs_append hw hstart,
        ih (cons_ne_nil _ _) htail hfuel' (acc ++ [i.1]), append_assoc]
      rfl

theorem Reads.list (hs : s.Plain) {items : List (Json F × List Char)}
    (h : ∀ i ∈ items, Reads i.1 i.2) :
    Reads (.list (items.map Prod.fst))
      ('[' :: (List.intercalate s.item (items.map Prod.snd) ++ [']'])) := by
  refine ⟨⟨'[', _, rfl, rfl, by decide⟩, fun fuel rest hfuel _ ↦ ?_⟩
  obtain ⟨n, rfl, hn⟩ := fuel_of_length_le hfuel
  rw [cons_append, append_assoc, singleton_append, scanOnce]
  simp only [Char.reduceEq, if_false, if_true]
  by_cases hne : items = []
  · subst hne
    rfl
  · have hstart : ∃ c t, List.intercalate s.item (items.map Prod.snd) = c :: t ∧
        isBlank c = false ∧ c ≠ ']' := by
      refine start_intercalate (fun hnil ↦ hne (map_eq_nil_iff.mp hnil)) ?_
      intro t ht
      obtain ⟨i, hi, rfl⟩ := mem_map.mp ht
      exact (h i hi).start
    obtain ⟨c, t, htext, hblank, hc⟩ := hstart
    obtain ⟨hcount, hlen⟩ := length_le_intercalate s.item (items.map Prod.snd) fun t ht ↦ by
      obtain ⟨i, hi, rfl⟩ := mem_map.mp ht
      exact (h i hi).ne_nil
    rw [length_map] at hcount
    rw [length_append, length_singleton] at hn
    have hloop := arrayLoop_reads hs.item hne (n := n) (fun i hi ↦
      ⟨h i hi, (hlen i.2 (mem_map_of_mem hi)).trans (by omega)⟩)
      (show items.length ≤ n by omega) [] rest
    rw [htext, cons_append] at hloop ⊢
    unfold parseArray
    rw [skipWs_cons _ hblank]
    split
    · rename_i heq
      exact absurd (List.cons.inj heq).1 hc
    · exact hloop

/-! ### Dictionaries -/

theorem replace_of_not_mem {κ α : Type} [DecidableEq κ] {k : κ} {entries : List (κ × α)}
    (h : k ∉ entries.map Prod.fst) (a : α) : Dict.replace k a entries = entries ++ [(k, a)] := by
  induction entries with
  | nil => rfl
  | cons e entries ih =>
    rw [map_cons, mem_cons, not_or] at h
    rw [Dict.replace, if_neg (Ne.symm h.1), ih h.2, cons_append]

def entryText (esc : Char → List Char) (s : Separators) (e : String × Json F × List Char) :
    List Char :=
  quoted esc e.1 ++ (s.key ++ e.2.2)

theorem objectLoop_reads (hesc : Escapes esc) (hs : s.Plain) {n : Nat}
    {entries : List (String × Json F × List Char)} (hne : entries ≠ [])
    (h : ∀ e ∈ entries, Reads e.2.1 e.2.2 ∧ e.2.2.length ≤ n) (hfuel : entries.length ≤ fuel)
    (acc : List (String × Json F)) (hnodup : (acc.map Prod.fst ++ entries.map Prod.fst).Nodup)
    (rest : List Char) :
    objectLoop (scanOnce n) fuel
        (List.intercalate s.item (entries.map (entryText esc s)) ++ '}' :: rest) acc =
      .ok (.dict (acc ++ entries.map fun e ↦ (e.1, e.2.1)), rest) := by
  obtain ⟨w, hitem, hw⟩ := hs.item
  obtain ⟨w', hkey, hw'⟩ := hs.key
  induction entries generalizing fuel acc with
  | nil => exact absurd rfl hne
  | cons e entries ih =>
    obtain ⟨hread, hlen⟩ := h e mem_cons_self
    obtain ⟨fuel, rfl, hfuel'⟩ : ∃ m, fuel = m + 1 ∧ entries.length ≤ m := by
      rw [length_cons] at hfuel
      exact ⟨fuel - 1, by omega, by omega⟩
    have hfresh : e.1 ∉ acc.map Prod.fst := by
      rw [map_cons, nodup_append'] at hnodup
      exact fun hmem ↦ hnodup.2.2 hmem mem_cons_self
    have hstart : ∀ u, ∃ c t, e.2.2 ++ u = c :: t ∧ isBlank c = false := by
      obtain ⟨c, t, hc, hblank, -⟩ := hread.start
      exact start_append ⟨c, t, hc, hblank⟩
    -- one round reads the key, the colon and the value
    have hround : ∀ (c : Char) (u : List Char),
        (c.isDigit = false ∧ c ≠ '.' ∧ c ≠ 'e' ∧ c ≠ 'E') → isBlank c = false →
        objectLoop (scanOnce n) (fuel + 1) (entryText esc s e ++ c :: u) acc =
          if c = '}' then .ok (.dict (acc ++ [(e.1, e.2.1)]), u)
          else if c = ',' then
            objectLoop (scanOnce n) fuel (skipWs u) (acc ++ [(e.1, e.2.1)])
          else .error "Expecting ',' delimiter" := by
      intro c u hc hblank
      have htext : entryText esc s e ++ c :: u =
          '"' :: (e.1.toList.flatMap esc ++ '"' :: ':' :: (w' ++ (e.2.2 ++ c :: u))) := by
        simp [entryText, quoted, hkey]
      rw [htext, objectLoop]
      simp only [scanString_append hesc, skipWs_cons _ (show isBlank ':' = false from rfl),
        skipWs_append hw' (hstart _), hread.value n _ hlen (stops_cons u hc),
        skipWs_cons u hblank, nil_append, String.ofList_toList, replace_of_not_mem hfresh]
    cases entries with
    | nil =>
      rw [map_singleton, intercalate_singleton, hround '}' rest (by decide) rfl,
        if_pos rfl]
      rfl
    | cons e' entries =>
      have htail : ∀ j ∈ e' :: entries, Reads j.2.1 j.2.2 ∧ j.2.2.length ≤ n :=
        fun j hj ↦ h j (mem_cons_of_mem _ hj)
      have hnext : ∃ c t, List.intercalate s.item ((e' :: entries).map (entryText esc s)) ++
          '}' :: rest = c :: t ∧ isBlank c = false := by
        refine start_append (start_intercalate ?_ ?_) _
        · exact cons_ne_nil _ _
        · intro t ht
          obtain ⟨j, -, rfl⟩ := mem_map.mp ht
          exact ⟨'"', _, rfl, rfl⟩
      have htext : List.intercalate s.item ((e :: e' :: entries).map (entryText esc s)) ++ '}' :: rest =
          entryText esc s e ++ ',' :: (w ++
            (List.intercalate s.item ((e' :: entries).map (entryText esc s)) ++ '}' :: rest)) := by
        simp [intercalate_cons_cons, hitem]
      have hnodup' : ((acc ++ [(e.1, e.2.1)]).map Prod.fst ++
          (e' :: entries).map Prod.fst).Nodup := by
        simpa using hnodup
      rw [htext, hround ',' _ (by decide) rfl, if_neg (by decide), if_pos rfl,
        skipWs_append hw hnext,
        ih (cons_ne_nil _ _) htail hfuel' (acc ++ [(e.1, e.2.1)]) hnodup',
        append_assoc]
      rfl

theorem Reads.dict (hesc : Escapes esc) (hs : s.Plain)
    {entries : List (String × Json F × List Char)} (hnodup : (entries.map Prod.fst).Nodup)
    (h : ∀ e ∈ entries, Reads e.2.1 e.2.2) :
    Reads (.dict (entries.map fun e ↦ (e.1, e.2.1)))
      ('{' :: (List.intercalate s.item (entries.map (entryText esc s)) ++ ['}'])) := by
  refine ⟨⟨'{', _, rfl, rfl, by decide⟩, fun fuel rest hfuel _ ↦ ?_⟩
  obtain ⟨n, rfl, hn⟩ := fuel_of_length_le hfuel
  rw [cons_append, append_assoc, singleton_append, scanOnce]
  simp only [Char.reduceEq, if_false, if_true]
  by_cases hne : entries = []
  · subst hne
    rfl
  · have hstart : ∃ c t, List.intercalate s.item (entries.map (entryText esc s)) = c :: t ∧ c = '"' := by
      refine start_intercalate (fun hnil ↦ hne (map_eq_nil_iff.mp hnil)) ?_
      intro t ht
      obtain ⟨e, -, rfl⟩ := mem_map.mp ht
      exact ⟨'"', _, rfl, rfl⟩
    obtain ⟨c, t, htext, rfl⟩ := hstart
    obtain ⟨hcount, hlen⟩ := length_le_intercalate s.item (entries.map (entryText esc s)) fun t ht ↦ by
      obtain ⟨e, -, rfl⟩ := mem_map.mp ht
      exact cons_ne_nil _ _
    rw [length_map] at hcount
    rw [length_append, length_singleton] at hn
    have hloop := objectLoop_reads hesc hs hne (n := n) (fun e he ↦ ⟨h e he, by
      have := hlen _ (mem_map_of_mem he)
      simp only [entryText, length_append] at this
      omega⟩) (show entries.length ≤ n by omega) [] (by simpa using hnodup) rest
    rw [htext, cons_append] at hloop ⊢
    unfold parseObject
    rw [skipWs_cons _ rfl]
    exact hloop

theorem Reads.head_ne_bom {j : Json F} {t : List Char} (h : Reads j t) :
    t.head? ≠ some '\uFEFF' := by
  obtain ⟨c, s, rfl, -⟩ := h.start
  intro hc
  obtain rfl : c = '\uFEFF' := Option.some.inj hc
  have hvalue := h.value _ [] (Nat.le_refl _) stops_nil
  cases hvalue

end

/-! ## Round trips -/

section

variable {F : Type} [FloatText F] [LawfulFloatText F]

variable {s : Separators}

theorem reads_text (hs : s.Plain) (j : Json F) (h : j.Distinct) :
    Reads j.decoded (j.text s) := by
  induction j using Json.induction with
  | null => exact Reads.null
  | bool b => exact Reads.bool b
  | int n => exact Reads.int n
  | float x => exact Reads.float x
  | str t => exact Reads.str escapes_escapeChar t
  | list items ih =>
    rw [Json.distinct_list] at h
    have hitems : ∀ i ∈ items.map fun j ↦ (j.decoded, j.text s), Reads i.1 i.2 := by
      intro i hi
      obtain ⟨j, hj, rfl⟩ := mem_map.mp hi
      exact ih j hj (h j hj)
    have hlist := Reads.list hs hitems
    simpa only [map_map, Function.comp_def, Json.decoded, Json.decodedItems_eq_map, Json.text,
      Json.texts_eq_map] using hlist
  | dict entries ih =>
    rw [Json.distinct_dict] at h
    have hentries : ∀ i ∈ entries.map fun e ↦ (e.1, e.2.decoded, e.2.text s),
        Reads i.2.1 i.2.2 := by
      intro i hi
      obtain ⟨e, he, rfl⟩ := mem_map.mp hi
      exact ih e he (h.2 e he)
    have hdict := Reads.dict escapes_escapeChar hs
      (by simpa only [map_map, Function.comp_def] using h.1) hentries
    simpa only [map_map, Function.comp_def, Json.decoded, Json.decodedEntries_eq_map, Json.text,
      Json.entryTexts_eq_map, entryText, quoted, strText] using hdict

omit [LawfulFloatText F] in
theorem loads_of_reads {j : Json F} {text : List Char} (hreads : Reads j text) :
    loads text = .ok j := by
  obtain ⟨c, t, ht, hblank, -⟩ := hreads.start
  have hvalue := hreads.value (text.length + 1) [] (Nat.le_succ _) stops_nil
  rw [append_nil] at hvalue
  unfold loads
  rw [if_neg hreads.head_ne_bom, ht, skipWs_cons _ hblank, ← ht, hvalue]
  rfl

/-- **Round trip.**  The decoder reads back what the encoder wrote. -/
theorem loads_text (hs : s.Plain) {j : Json F} (h : j.Distinct) :
    loads (j.text s) = .ok j.decoded :=
  loads_of_reads (reads_text hs j h)

theorem decoded_eq_of_text_eq (hs : s.Plain) {j k : Json F} (hj : j.Distinct) (hk : k.Distinct)
    (h : j.text s = k.text s) : j.decoded = k.decoded := by
  have hload := loads_text hs hj
  rw [h, loads_text hs hk] at hload
  exact (Except.ok.inj hload).symm

/-- The decoder makes the value itself of its text. -/
structure Json.ReadsBack (j : Json F) : Prop where
  distinct : j.Distinct
  decoded : j.decoded = j

namespace Json

omit [LawfulFloatText F]

@[simp]
theorem readsBack_null : (.null : Json F).ReadsBack := ⟨trivial, rfl⟩

@[simp]
theorem readsBack_int (n : Int) : (.int n : Json F).ReadsBack := ⟨trivial, rfl⟩

@[simp]
theorem readsBack_str (s : String) : (.str s : Json F).ReadsBack := ⟨trivial, rfl⟩

theorem readsBack_list {items : List (Json F)} (h : ∀ j ∈ items, j.ReadsBack) :
    (Json.list items).ReadsBack := by
  refine ⟨distinct_list.mpr fun j hj ↦ (h j hj).distinct, ?_⟩
  have hitems : items.map Json.decoded = items.map id :=
    map_congr_left fun j hj ↦ (h j hj).decoded
  rw [Json.decoded, decodedItems_eq_map, hitems, map_id]

@[simp]
theorem readsBack_strings (xs : List String) : (.list (xs.map .str) : Json F).ReadsBack := by
  refine readsBack_list fun j hj ↦ ?_
  obtain ⟨x, -, rfl⟩ := mem_map.mp hj
  exact readsBack_str x

theorem readsBack_dict {entries : List (String × Json F)} (hkeys : (entries.map Prod.fst).Nodup)
    (h : ∀ e ∈ entries, e.2.ReadsBack) : (Json.dict entries).ReadsBack := by
  refine ⟨distinct_dict.mpr ⟨hkeys, fun e he ↦ (h e he).distinct⟩, ?_⟩
  have hentries : entries.map (fun e ↦ (e.1, e.2.decoded)) = entries.map id :=
    map_congr_left fun e he ↦ Prod.ext rfl (h e he).decoded
  rw [Json.decoded, decodedEntries_eq_map, hentries, map_id]

end Json

theorem Json.ReadsBack.eq_of_text_eq (hs : s.Plain) {j k : Json F} (hj : j.ReadsBack)
    (hk : k.ReadsBack) (h : j.text s = k.text s) : j = k := by
  have hdecoded := decoded_eq_of_text_eq hs hj.distinct hk.distinct h
  rwa [hj.decoded, hk.decoded] at hdecoded

end

end Qros.Python
