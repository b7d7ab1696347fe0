import Qros.Quant.CharConv

/-!
# The JSON reader

The reader of `src/backtest/serialization.cpp`.  A parser takes the text from `pos` on and
leaves the text behind what it has read, or `error`.  The recursion of `parse_value` and
the loops of `parse_array` and `parse_object` are bounded by `fuel`; each round reads a
character, so that the length of the text is enough.

`Reads` says what `parse_value` makes of a text wherever it stands, and has a rule for each
kind of value.
-/

universe u

namespace Qros.Quant.Json

open List

inductive JsonValue (F : Type u) where
  | null
  | bool (b : Bool)
  | number (d : F)
  | string (s : List Char)
  | array (items : List (JsonValue F))
  | object (members : List (List Char × JsonValue F))

section Parser

variable {F : Type u}

def JsonValue.find (v : JsonValue F) (key : List Char) : Option (JsonValue F) :=
  match v with
  | .object members => members.lookup key
  | .null | .bool .. | .number .. | .string .. | .array .. => none

/-- What is left behind a parser, or its error. -/
abbrev Parsed (α : Type u) := Except String (α × List Char)

/-- The characters that `skip_ws` skips. -/
def isBlank (c : Char) : Bool := c == ' ' || c == '\t' || c == '\n' || c == '\r'

def skipWs (s : List Char) : List Char := s.dropWhile isBlank

def expect (c : Char) (s : List Char) : Option (List Char) :=
  match skipWs s with
  | [] => none
  | d :: t => if d = c then some t else none

/-- The characters that stand for others behind a backslash. -/
def unescape (e : Char) : Char :=
  if e = 'n' then '\n'
  else if e = 't' then '\t'
  else if e = 'r' then '\r'
  else if e = 'b' then '\x08'
  else if e = 'f' then '\x0c'
  else e

def stringLoop : List Char → List Char → Except String (List Char × List Char)
  | [], _ => .error "unterminated string"
  | c :: t, out =>
    if c = '"' then .ok (out, t)
    else if c = '\\' then
      match t with
      | [] => .error "unterminated escape"
      | e :: t => stringLoop t (out ++ [unescape e])
    else stringLoop t (out ++ [c])

def parseString (s : List Char) : Except String (List Char × List Char) :=
  match expect '"' s with
  | none => .error "expected string"
  | some t => stringLoop t []

def parseLiteral (lit : List Char) (v : JsonValue F) (s : List Char) : Parsed (JsonValue F) :=
  if lit.isPrefixOf s = true then .ok (v, s.drop lit.length) else .error "bad literal"

def parseNumber [CharConv F] [Zero F] (s : List Char) : Parsed (JsonValue F) :=
  let s := skipWs s
  match parseDouble (s.takeWhile isNumberChar) (0 : F) with
  | (true, d) => .ok (.number d, s.dropWhile isNumberChar)
  | (false, _) => .error "invalid number"

/-- The error of a reader that has no fuel left. -/
def outOfFuel : String := "out of fuel"

section Containers

variable (value : List Char → Parsed (JsonValue F))

def arrayLoop : Nat → List Char → List (JsonValue F) → Parsed (JsonValue F)
  | 0, _, _ => .error outOfFuel
  | fuel + 1, s, items =>
    match value s with
    | .error e => .error e
    | .ok (item, s) =>
      match skipWs s with
      | [] => .error "unterminated array"
      | c :: t =>
        if c = ',' then arrayLoop fuel t (items ++ [item])
        else if c = ']' then .ok (.array (items ++ [item]), t)
        else .error "expected , or ]"

def parseArray (fuel : Nat) (s : List Char) : Parsed (JsonValue F) :=
  match expect '[' s with
  | none => .error "expected array"
  | some t =>
    let t := skipWs t
    if t.head? = some ']' then .ok (.array [], t.tail) else arrayLoop value fuel t []

def objectLoop : Nat → List Char → List (List Char × JsonValue F) → Parsed (JsonValue F)
  | 0, _, _ => .error outOfFuel
  | fuel + 1, s, members =>
    match parseString s with
    | .error e => .error e
    | .ok (key, s) =>
      match expect ':' s with
      | none => .error "expected :"
      | some s =>
        match value s with
        | .error e => .error e
        | .ok (val, s) =>
          match skipWs s with
          | [] => .error "unterminated object"
          | c :: t =>
            if c = ',' then objectLoop fuel t (members ++ [(key, val)])
            else if c = '}' then .ok (.object (members ++ [(key, val)]), t)
            else .error "expected , or \x7d"

def parseObject (fuel : Nat) (s : List Char) : Parsed (JsonValue F) :=
  match expect '{' s with
  | none => .error "expected object"
  | some t =>
    let t := skipWs t
    if t.head? = some '}' then .ok (.object [], t.tail) else objectLoop value fuel t []

end Containers

variable [CharConv F] [Zero F]

def parseValue : Nat → List Char → Parsed (JsonValue F)
  | 0, _ => .error outOfFuel
  | fuel + 1, s =>
    match skipWs s with
    | [] => .error "unexpected end"
    | c :: t =>
      if c = '{' then parseObject (parseValue fuel) fuel (c :: t)
      else if c = '[' then parseArray (parseValue fuel) fuel (c :: t)
      else if c = '"' then (parseString (c :: t)).map fun r ↦ (.string r.1, r.2)
      else if c = 't' then parseLiteral ['t', 'r', 'u', 'e'] (.bool true) (c :: t)
      else if c = 'f' then parseLiteral ['f', 'a', 'l', 's', 'e'] (.bool false) (c :: t)
      else if c = 'n' then parseLiteral ['n', 'u', 'l', 'l'] .null (c :: t)
      else parseNumber (c :: t)

def parseJson (src : List Char) : Except String (JsonValue F) :=
  match parseValue (src.length + 1) src with
  | .error e => .error (if e = "" then "parse error" else e)
  | .ok (v, rest) => if skipWs rest = [] then .ok v else .error "trailing characters"

end Parser

/-! ## What is read -/

section

variable {F : Type u} [CharConv F] [Zero F]

/-- The result of reading a text that stands for `o`, or for no value. -/
def Outcome (o : Option (JsonValue F)) (rest : List Char) (r : Parsed (JsonValue F)) : Prop :=
  match o with
  | some v => r = .ok (v, rest)
  | none => r = .error "invalid number" ∨ r = .error "bad literal"

/-- No number goes on in `rest`. -/
def Stops (rest : List Char) : Prop := ∀ c ∈ rest.head?, isNumberChar c = false

/-- `parse_value` makes `o` of the text `t`, whatever follows it. -/
structure Reads (o : Option (JsonValue F)) (t : List Char) : Prop where
  /-- The text starts with something other than a blank or a closing bracket. -/
  start : ∃ c s, t = c :: s ∧ isBlank c = false ∧ c ≠ ']'
  value : ∀ fuel rest, t.length ≤ fuel → Stops rest → Outcome o rest (parseValue fuel (t ++ rest))

variable {t : List Char} {items : List (Option (JsonValue F) × List Char)}

theorem Reads.ne_nil {o : Option (JsonValue F)} (h : Reads o t) : t ≠ [] := by
  obtain ⟨c, s, rfl, -⟩ := h.start
  exact cons_ne_nil c s

variable {c : Char} {fuel : Nat} {s : List Char}

theorem stops_cons (rest : List Char) (hc : isNumberChar c = false) :
    Stops (c :: rest) := by
  rintro d hd
  obtain rfl : c = d := Option.some.inj hd
  exact hc

theorem skipWs_cons (s : List Char) (hc : isBlank c = false) :
    skipWs (c :: s) = c :: s :=
  dropWhile_cons_of_neg (by simp [hc])

theorem expect_cons (s : List Char) (hc : isBlank c = false) :
    expect c (c :: s) = some s := by
  rw [expect, skipWs_cons s hc]
  exact if_pos rfl

theorem fuel_of_length_le (h : (c :: s).length ≤ fuel) :
    ∃ n, fuel = n + 1 ∧ s.length ≤ n := by
  rw [length_cons] at h
  exact ⟨fuel - 1, by omega, by omega⟩

/-! ### Numbers -/

/-- The number that `parse_number` makes of a whole text. -/
def textNumber (t : List Char) : Option F :=
  match parseDouble t (0 : F) with
  | (true, d) => some d
  | (false, _) => none

theorem ne_of_isNumberChar {c d : Char} (hc : isNumberChar c = true) (hd : isNumberChar d = false) :
    c ≠ d := by
  rintro rfl
  rw [hc] at hd
  cases hd

theorem isBlank_of_isNumberChar (hc : isNumberChar c = true) : isBlank c = false := by
  simp only [isBlank, Bool.or_eq_false_iff, beq_eq_false_iff_ne]
  exact ⟨⟨⟨ne_of_isNumberChar hc rfl, ne_of_isNumberChar hc rfl⟩, ne_of_isNumberChar hc rfl⟩,
    ne_of_isNumberChar hc rfl⟩

theorem span_number {t rest : List Char} (ht : ∀ c ∈ t, isNumberChar c = true)
    (hrest : Stops rest) :
    (t ++ rest).takeWhile isNumberChar = t ∧ (t ++ rest).dropWhile isNumberChar = rest := by
  rw [takeWhile_append_of_pos ht, dropWhile_append_of_pos ht]
  cases rest with
  | nil => exact ⟨append_nil t, rfl⟩
  | cons c rest =>
    have hc : ¬ isNumberChar c = true := by simp [hrest c (by simp)]
    rw [takeWhile_cons_of_neg hc, dropWhile_cons_of_neg hc, append_nil]
    exact ⟨rfl, rfl⟩

theorem parseValue_number {c : Char} (s : List Char) (n : Nat) (hblank : isBlank c = false)
    (hc : c ∉ ['{', '[', '"', 't', 'f', 'n']) :
    parseValue (n + 1) (c :: s) = (parseNumber (c :: s) : Parsed (JsonValue F)) := by
  simp only [mem_cons, not_mem_nil, or_false, not_or] at hc
  obtain ⟨h₁, h₂, h₃, h₄, h₅, h₆⟩ := hc
  rw [parseValue, skipWs_cons s hblank]
  simp only [if_neg h₁, if_neg h₂, if_neg h₃, if_neg h₄, if_neg h₅, if_neg h₆]

theorem Reads.number (hne : t ≠ []) (ht : ∀ c ∈ t, isNumberChar c = true) :
    Reads ((textNumber t).map .number : Option (JsonValue F)) t := by
  obtain ⟨c, s, rfl⟩ := exists_cons_of_ne_nil hne
  have hc := ht c mem_cons_self
  have hblank := isBlank_of_isNumberChar hc
  refine ⟨⟨c, s, rfl, hblank, ne_of_isNumberChar hc rfl⟩, fun fuel rest hfuel hrest ↦ ?_⟩
  obtain ⟨n, rfl, -⟩ := fuel_of_length_le hfuel
  have hother : c ∉ ['{', '[', '"', 't', 'f', 'n'] := fun hmem ↦
    absurd (all_eq_true.mp (by decide : ['{', '[', '"', 't', 'f', 'n'].all
      (fun d ↦ isNumberChar d == false) = true) c hmem) (by simp [hc])
  obtain ⟨htake, hdrop⟩ := span_number ht hrest
  rw [cons_append, parseValue_number _ n hblank hother, parseNumber, skipWs_cons _ hblank,
    ← cons_append]
  simp only [htake, hdrop, textNumber]
  cases parseDouble (c :: s) (0 : F) with
  | mk ok d =>
    cases ok with
    | true => rfl
    | false => exact .inl rfl

theorem Reads.infinite (ht : t = ['i', 'n', 'f'] ∨ ∃ kind, t = 'n' :: 'a' :: 'n' :: kind) :
    Reads (none : Option (JsonValue F)) t := by
  rcases ht with rfl | ⟨kind, rfl⟩
  · refine ⟨⟨'i', _, rfl, rfl, by decide⟩, fun fuel rest hfuel _ ↦ .inl ?_⟩
    obtain ⟨n, rfl, -⟩ := fuel_of_length_le hfuel
    rw [cons_append, parseValue_number _ n rfl (by decide)]
    rfl
  · refine ⟨⟨'n', _, rfl, rfl, by decide⟩, fun fuel rest hfuel _ ↦ .inr ?_⟩
    obtain ⟨n, rfl, -⟩ := fuel_of_length_le hfuel
    rfl

theorem Reads.minus_infinite (hminus : CharConv.fromChars ['-'] = (none : Option (F × List Char)))
    (ht : t = ['i', 'n', 'f'] ∨ ∃ kind, t = 'n' :: 'a' :: 'n' :: kind) :
    Reads (none : Option (JsonValue F)) ('-' :: t) := by
  refine ⟨⟨'-', _, rfl, rfl, by decide⟩, fun fuel rest hfuel _ ↦ .inl ?_⟩
  obtain ⟨n, rfl, -⟩ := fuel_of_length_le hfuel
  have htake : ('-' :: (t ++ rest)).takeWhile isNumberChar = ['-'] := by
    rcases ht with rfl | ⟨kind, rfl⟩ <;> rfl
  rw [cons_append, parseValue_number _ n rfl (by decide), parseNumber, skipWs_cons _ rfl]
  simp only [htake, parseDouble, hminus]
  rfl

/-! ### Strings -/

/-- A text that needs no escapes. -/
def Unescaped (s : List Char) : Prop := ∀ c ∈ s, c ≠ '"' ∧ c ≠ '\\'

instance (s : List Char) : Decidable (Unescaped s) :=
  List.decidableBAll _ s

theorem stringLoop_append (hs : Unescaped s) (rest out : List Char) :
    stringLoop (s ++ '"' :: rest) out = .ok (out ++ s, rest) := by
  induction s generalizing out with
  | nil =>
    rw [nil_append, stringLoop.eq_def, append_nil]
    exact if_pos rfl
  | cons c s ih =>
    obtain ⟨hquote, hslash⟩ := hs c mem_cons_self
    rw [cons_append, stringLoop.eq_def]
    simp only [if_neg hquote, if_neg hslash]
    rw [ih fun d hd ↦ hs d (mem_cons_of_mem _ hd), append_assoc, singleton_append]

theorem parseString_append (hs : Unescaped s) (rest : List Char) :
    parseString ('"' :: (s ++ '"' :: rest)) = .ok (s, rest) := by
  rw [parseString, expect_cons _ rfl]
  exact stringLoop_append hs rest []

theorem Reads.string (hs : Unescaped s) :
    Reads (some (.string s) : Option (JsonValue F)) ('"' :: (s ++ ['"'])) := by
  refine ⟨⟨'"', _, rfl, rfl, by decide⟩, fun fuel rest hfuel _ ↦ ?_⟩
  obtain ⟨n, rfl, -⟩ := fuel_of_length_le hfuel
  show parseValue (n + 1) _ = _
  rw [cons_append, append_assoc, singleton_append, parseValue, skipWs_cons _ rfl]
  simp only [parseString_append hs]
  rfl

/-! ### Arrays -/

theorem mapM_option_cons {α β : Type u} (f : α → Option β) (a : α) (as : List α) :
    (a :: as).mapM f = (f a).bind fun b ↦ (as.mapM f).map fun bs ↦ b :: bs := by
  rw [mapM_cons]
  cases f a <;> cases as.mapM f <;> rfl

omit [CharConv F] [Zero F] in
theorem arrayLoop_succ {value : List Char → Parsed (JsonValue F)} {s : List Char} {fuel : Nat}
    {o : Option (JsonValue F)} {c : Char} {t : List Char} {acc : List (JsonValue F)}
    (hc : isBlank c = false) (hvalue : Outcome o (c :: t) (value s)) {rest : List Char}
    {next : JsonValue F → Option (JsonValue F)}
    (hnext : ∀ v, o = some v → Outcome (next v) rest
      (if c = ',' then arrayLoop value fuel t (acc ++ [v])
        else if c = ']' then .ok (.array (acc ++ [v]), t) else .error "expected , or ]")) :
    Outcome (o.bind next) rest (arrayLoop value (fuel + 1) s acc) := by
  rw [arrayLoop]
  cases o with
  | none => rcases hvalue with hvalue | hvalue <;> rw [hvalue] <;> simp [Outcome]
  | some v =>
    rw [show value s = _ from hvalue]
    simp only [skipWs_cons t hc]
    exact hnext v rfl

theorem arrayLoop_reads {n : Nat} (hne : items ≠ [])
    (h : ∀ i ∈ items, Reads i.1 i.2 ∧ i.2.length ≤ n) (hfuel : items.length ≤ fuel)
    (acc : List (JsonValue F)) (rest : List Char) :
    Outcome ((items.mapM Prod.fst).map fun vs ↦ .array (acc ++ vs)) rest
      (arrayLoop (parseValue n) fuel
        (List.intercalate [','] (items.map Prod.snd) ++ ']' :: rest) acc) := by
  induction items generalizing fuel acc with
  | nil => exact absurd rfl hne
  | cons i items ih =>
    obtain ⟨hread, hlen⟩ := h i mem_cons_self
    obtain ⟨fuel, rfl, hfuel'⟩ : ∃ m, fuel = m + 1 ∧ items.length ≤ m := by
      rw [length_cons] at hfuel
      exact ⟨fuel - 1, by omega, by omega⟩
    rw [mapM_option_cons, Option.map_bind]
    cases items with
    | nil =>
      rw [map_singleton, intercalate_singleton]
      exact arrayLoop_succ rfl (hread.value n _ hlen (stops_cons rest rfl)) fun v _ ↦ rfl
    | cons i' items =>
      have htext : List.intercalate [','] ((i :: i' :: items).map Prod.snd) ++ ']' :: rest =
          i.2 ++ ',' :: (List.intercalate [','] ((i' :: items).map Prod.snd) ++ ']' :: rest) := by
        simp [intercalate_cons_cons]
      rw [htext]
      refine arrayLoop_succ rfl (hread.value n _ hlen (stops_cons _ rfl)) fun v _ ↦ ?_
      have hrest := ih (cons_ne_nil _ _) (fun j hj ↦ h j (mem_cons_of_mem _ hj)) hfuel'
        (acc ++ [v])
      simp only [append_assoc, singleton_append] at hrest
      rw [if_pos rfl]
      simpa only [Function.comp_apply, Option.map_map, Function.comp_def] using hrest

theorem parseValue_array (s : List Char) (n : Nat) :
    parseValue (n + 1)
    ('[' :: s) = (parseArray (parseValue n) n ('[' :: s) : Parsed (JsonValue F)) := by
  rw [parseValue, skipWs_cons _ rfl]
  rfl

theorem start_intercalate (hne : items ≠ []) (h : ∀ i ∈ items, Reads i.1 i.2) :
    ∃ c s, List.intercalate [','] (items.map Prod.snd) = c :: s ∧ isBlank c = false ∧ c ≠ ']' := by
  obtain ⟨i, items, rfl⟩ := exists_cons_of_ne_nil hne
  obtain ⟨c, s, ht, hblank, hc⟩ := (h i mem_cons_self).start
  cases items with
  | nil => exact ⟨c, s, by rw [map_singleton, intercalate_singleton, ht], hblank, hc⟩
  | cons i' items =>
    exact ⟨c, _, by rw [map_cons, map_cons, intercalate_cons_cons, ht]; rfl,
      hblank, hc⟩

theorem length_le_intercalate (texts : List (List Char)) (h : ∀ t ∈ texts, t ≠ []) :
    texts.length ≤ (List.intercalate [','] texts).length ∧
      ∀ t ∈ texts, t.length ≤ (List.intercalate [','] texts).length := by
  induction texts with
  | nil => simp
  | cons t texts ih =>
    have ht := length_pos_iff.mpr (h t mem_cons_self)
    obtain ⟨hcount, hlen⟩ := ih fun u hu ↦ h u (mem_cons_of_mem _ hu)
    cases texts with
    | nil =>
      rw [intercalate_singleton, length_singleton]
      exact ⟨ht, fun u hu ↦ by rw [mem_singleton.mp hu]⟩
    | cons t' texts =>
      rw [intercalate_cons_cons, length_cons, length_append, length_append,
        length_singleton]
      refine ⟨by omega, fun u hu ↦ ?_⟩
      rcases mem_cons.mp hu with rfl | hu
      · omega
      · have := hlen u hu
        omega

theorem Reads.array (h : ∀ i ∈ items, Reads i.1 i.2) :
    Reads ((items.mapM Prod.fst).map .array)
      ('[' :: (List.intercalate [','] (items.map Prod.snd) ++ [']'])) := by
  refine ⟨⟨'[', _, rfl, rfl, by decide⟩, fun fuel rest hfuel _ ↦ ?_⟩
  obtain ⟨n, rfl, hn⟩ := fuel_of_length_le hfuel
  rw [cons_append, append_assoc, singleton_append, parseValue_array]
  by_cases hne : items = []
  · subst hne
    rfl
  · obtain ⟨c, s, htext, hblank, hc⟩ := start_intercalate hne h
    obtain ⟨hcount, hlen⟩ := length_le_intercalate (items.map Prod.snd) fun t ht ↦ by
      obtain ⟨i, hi, rfl⟩ := mem_map.mp ht
      exact (h i hi).ne_nil
    rw [length_map] at hcount
    rw [length_append, length_singleton] at hn
    have hloop := arrayLoop_reads hne (n := n) (fun i hi ↦
      ⟨h i hi, (hlen i.2 (mem_map_of_mem hi)).trans (by omega)⟩)
      (show items.length ≤ n by omega) [] rest
    rw [parseArray, expect_cons _ rfl, htext, cons_append]
    simp only [skipWs_cons _ hblank, head?_cons]
    rw [if_neg (by simpa using hc), ← cons_append, ← htext]
    exact hloop

/-! ### Objects -/

def memberText (m : List Char × Option (JsonValue F) × List Char) : List Char :=
  '"' :: (m.1 ++ '"' :: ':' :: m.2.2)

def memberValue (m : List Char × Option (JsonValue F) × List Char) :
    Option (List Char × JsonValue F) :=
  m.2.1.map fun v ↦ (m.1, v)

omit [CharConv F] [Zero F] in
theorem objectLoop_succ {value : List Char → Parsed (JsonValue F)} {key s : List Char} {fuel : Nat}
    {o : Option (JsonValue F)} {c : Char} {t : List Char} {acc : List (List Char × JsonValue F)}
    (hkey : Unescaped key) (hc : isBlank c = false) (hvalue : Outcome o (c :: t) (value s))
    {rest : List Char} {next : List Char × JsonValue F → Option (JsonValue F)}
    (hnext : ∀ v, o = some v → Outcome (next (key, v)) rest
      (if c = ',' then objectLoop value fuel t (acc ++ [(key, v)])
        else if c = '}' then .ok (.object (acc ++ [(key, v)]), t)
        else .error "expected , or \x7d")) :
    Outcome ((o.map fun v ↦ (key, v)).bind next) rest
      (objectLoop value (fuel + 1) ('"' :: (key ++ '"' :: ':' :: s)) acc) := by
  rw [objectLoop, parseString_append hkey]
  simp only [expect_cons s (c := ':') rfl]
  cases o with
  | none => rcases hvalue with hvalue | hvalue <;> rw [hvalue] <;> simp [Outcome]
  | some v =>
    rw [show value s = _ from hvalue]
    simp only [skipWs_cons t hc]
    exact hnext v rfl

theorem objectLoop_reads {n : Nat} {members : List (List Char × Option (JsonValue F) × List Char)}
    (hne : members ≠ []) (h : ∀ m ∈ members, Unescaped m.1 ∧ Reads m.2.1 m.2.2 ∧ m.2.2.length ≤ n)
    (hfuel : members.length ≤ fuel) (acc : List (List Char × JsonValue F)) (rest : List Char) :
    Outcome ((members.mapM memberValue).map fun ms ↦ .object (acc ++ ms)) rest
      (objectLoop (parseValue n) fuel
        (List.intercalate [','] (members.map memberText) ++ '}' :: rest) acc) := by
  induction members generalizing fuel acc with
  | nil => exact absurd rfl hne
  | cons m members ih =>
    obtain ⟨hkey, hread, hlen⟩ := h m mem_cons_self
    obtain ⟨fuel, rfl, hfuel'⟩ : ∃ k, fuel = k + 1 ∧ members.length ≤ k := by
      rw [length_cons] at hfuel
      exact ⟨fuel - 1, by omega, by omega⟩
    rw [mapM_option_cons, Option.map_bind]
    cases members with
    | nil =>
      rw [map_singleton, intercalate_singleton, memberText, cons_append,
        append_assoc, cons_append, cons_append]
      exact objectLoop_succ hkey rfl (hread.value n _ hlen (stops_cons rest rfl)) fun v _ ↦ rfl
    | cons m' members =>
      have htext : List.intercalate [','] ((m :: m' :: members).map memberText) ++ '}' :: rest =
          '"' :: (m.1 ++ '"' :: ':' :: (m.2.2 ++ ',' ::
            (List.intercalate [','] ((m' :: members).map memberText) ++ '}' :: rest))) := by
        simp [intercalate_cons_cons, memberText]
      rw [htext]
      refine objectLoop_succ hkey rfl (hread.value n _ hlen (stops_cons _ rfl)) fun v _ ↦ ?_
      have hrest := ih (cons_ne_nil _ _) (fun j hj ↦ h j (mem_cons_of_mem _ hj)) hfuel'
        (acc ++ [(m.1, v)])
      simp only [append_assoc, singleton_append] at hrest
      rw [if_pos rfl]
      simpa only [Function.comp_apply, Option.map_map, Function.comp_def] using hrest

theorem parseValue_object (s : List Char) (n : Nat) :
    parseValue (n + 1)
    ('{' :: s) = (parseObject (parseValue n) n ('{' :: s) : Parsed (JsonValue F)) := by
  rw [parseValue, skipWs_cons _ rfl]
  rfl

theorem Reads.object {members : List (List Char × Option (JsonValue F) × List Char)}
    (hne : members ≠ []) (h : ∀ m ∈ members, Unescaped m.1 ∧ Reads m.2.1 m.2.2) :
    Reads ((members.mapM memberValue).map .object)
      ('{' :: (List.intercalate [','] (members.map memberText) ++ ['}'])) := by
  refine ⟨⟨'{', _, rfl, rfl, by decide⟩, fun fuel rest hfuel _ ↦ ?_⟩
  obtain ⟨n, rfl, hn⟩ := fuel_of_length_le hfuel
  rw [cons_append, append_assoc, singleton_append, parseValue_object]
  obtain ⟨s, htext⟩ : ∃ s, List.intercalate [','] (members.map memberText) = '"' :: s := by
    obtain ⟨m, members, rfl⟩ := exists_cons_of_ne_nil hne
    cases members with
    | nil => exact ⟨_, by rw [map_singleton, intercalate_singleton, memberText]⟩
    | cons m' members =>
      exact ⟨_, by rw [map_cons, map_cons, intercalate_cons_cons]; rfl⟩
  obtain ⟨hcount, hlen⟩ := length_le_intercalate (members.map memberText) fun t ht ↦ by
    obtain ⟨m, -, rfl⟩ := mem_map.mp ht
    exact cons_ne_nil _ _
  rw [length_map] at hcount
  rw [length_append, length_singleton] at hn
  have hloop := objectLoop_reads hne (n := n) (fun m hm ↦ ⟨(h m hm).1, (h m hm).2, by
    have := hlen _ (mem_map_of_mem hm)
    simp only [memberText, length_cons, length_append] at this
    omega⟩) (show members.length ≤ n by omega) [] rest
  rw [parseObject, expect_cons _ rfl, htext, cons_append]
  simp only [skipWs_cons _ (show isBlank '"' = false from rfl), head?_cons]
  rw [if_neg (by decide), ← cons_append, ← htext]
  exact hloop

theorem Reads.parseValue {o : Option (JsonValue F)} (h : Reads o t) :
    Outcome o [] (parseValue (t.length + 1) t) := by
  have hvalue := h.value (t.length + 1) [] (Nat.le_succ _) (fun c hc ↦ nomatch hc)
  rwa [append_nil] at hvalue

theorem Reads.parseJson_eq {v : JsonValue F} (h : Reads (some v) t) :
    parseJson t = .ok v := by
  rw [parseJson, show Json.parseValue (t.length + 1) t = _ from h.parseValue]
  exact if_pos rfl

theorem Reads.parseJson_error (h : Reads (none : Option (JsonValue F)) t) :
    ∃ e, (parseJson t : Except String (JsonValue F)) = .error e := by
  rcases h.parseValue with hvalue | hvalue
  · exact ⟨_, by rw [parseJson, hvalue]⟩
  · exact ⟨_, by rw [parseJson, hvalue]⟩

end

end Qros.Quant.Json
