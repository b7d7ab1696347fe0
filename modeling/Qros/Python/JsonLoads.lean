import Qros.Lib.Dict
import Qros.Python.Json

/-!
# The JSON reader

`json.loads`.  A parser takes the text from a position on and leaves the text behind
what it has read, or the message of a `JSONDecodeError`.  The recursion of `scan_once`
and the loops over the items of a list and the entries of a dictionary are bounded by
`fuel`; each round reads a character, so that the length of the text is enough.

A string holds no lone surrogate: a `\u` escape that stands for one is an error here.
-/

namespace Qros.Python

open Qros.Lib

/-- What is left behind a parser, or its message. -/
abbrev Parsed (α : Type) := Except String (α × List Char)

/-- The characters of `WHITESPACE`. -/
def isBlank (c : Char) : Bool := c == ' ' || c == '\t' || c == '\n' || c == '\r'

def skipWs (s : List Char) : List Char := s.dropWhile isBlank

/-! ## Strings -/

def backslash (e : Char) : Option Char :=
  if e = '"' then some '"'
  else if e = '\\' then some '\\'
  else if e = '/' then some '/'
  else if e = 'b' then some '\x08'
  else if e = 'f' then some '\x0c'
  else if e = 'n' then some '\n'
  else if e = 'r' then some '\r'
  else if e = 't' then some '\t'
  else none

/-- The value of a hexadecimal digit. -/
def hexValue (c : Char) : Option Nat :=
  if c.isDigit then some (c.toNat - 48)
  else if 'a' ≤ c ∧ c ≤ 'f' then some (c.toNat - 87)
  else if 'A' ≤ c ∧ c ≤ 'F' then some (c.toNat - 55)
  else none

def decodeU (a b c d : Char) : Option Nat := do
  return ((← hexValue a) * 16 + (← hexValue b)) * 256 + ((← hexValue c) * 16 + (← hexValue d))

/-- The first half of a pair of surrogates. -/
def IsHigh (n : Nat) : Prop := 0xD800 ≤ n ∧ n < 0xDC00

instance (n : Nat) : Decidable (IsHigh n) := inferInstanceAs (Decidable (_ ∧ _))

/-- The second half of a pair of surrogates. -/
def IsLow (n : Nat) : Prop := 0xDC00 ≤ n ∧ n < 0xE000

instance (n : Nat) : Decidable (IsLow n) := inferInstanceAs (Decidable (_ ∧ _))

/-- `scanstring`, from behind the opening quote on. -/
def scanString : List Char → List Char → Parsed (List Char)
  | [], _ => .error "Unterminated string starting at"
  | c :: t, out =>
    if c = '"' then .ok (out, t)
    else if c = '\\' then
      match t with
      | 'u' :: h₁ :: h₂ :: h₃ :: h₄ :: t =>
        match decodeU h₁ h₂ h₃ h₄ with
        | none => .error "Invalid \\uXXXX escape"
        | some n =>
          if IsHigh n then
            match t with
            | '\\' :: 'u' :: l₁ :: l₂ :: l₃ :: l₄ :: t =>
              match decodeU l₁ l₂ l₃ l₄ with
              | none => .error "Invalid \\uXXXX escape"
              | some m =>
                if IsLow m then
                  scanString t (out ++ [Char.ofNat (0x10000 + (n - 0xD800) * 0x400 + (m - 0xDC00))])
                else .error "lone surrogate"
            | _ => .error "lone surrogate"
          else if IsLow n then .error "lone surrogate"
          else scanString t (out ++ [Char.ofNat n])
      | e :: t =>
        if e = 'u' then .error "Invalid \\uXXXX escape"
        else match backslash e with
          | none => .error "Invalid \\escape: "
          | some c => scanString t (out ++ [c])
      | [] => .error "Unterminated string starting at"
    else if c.toNat < 0x20 then .error "Invalid control character at"
    else scanString t (out ++ [c])

/-! ## Numbers -/

/-- The integer part of a number, and what follows it. -/
def intPart : List Char → Option (List Char × List Char)
  | [] => none
  | c :: t =>
    if c = '0' then some (['0'], t)
    else if c.isDigit then some (c :: t.takeWhile Char.isDigit, t.dropWhile Char.isDigit)
    else none

/-- The fractional part of a number, if there is one. -/
def fracPart : List Char → List Char × List Char
  | [] => ([], [])
  | c :: t =>
    if c = '.' ∧ t.takeWhile Char.isDigit ≠ [] then
      (c :: t.takeWhile Char.isDigit, t.dropWhile Char.isDigit)
    else ([], c :: t)

def expSign (t : List Char) : List Char :=
  match t with
  | '+' :: _ => ['+']
  | '-' :: _ => ['-']
  | _ => []

/-- The exponent of a number, if there is one. -/
def expPart : List Char → List Char × List Char
  | [] => ([], [])
  | c :: t =>
    let digits := (t.drop (expSign t).length)
    if (c = 'e' ∨ c = 'E') ∧ digits.takeWhile Char.isDigit ≠ [] then
      (c :: (expSign t ++ digits.takeWhile Char.isDigit), digits.dropWhile Char.isDigit)
    else ([], c :: t)

def intOfText (negative : Bool) (digits : List Char) : Int :=
  if negative then -(Nat.ofDigitChars 10 digits 0 : Int) else Nat.ofDigitChars 10 digits 0

section Parser

variable {F : Type} [FloatText F]

/-- `_match_number`, behind a sign. -/
def unsignedNumber (negative : Bool) (s : List Char) : Option (Json F × List Char) :=
  match intPart s with
  | none => none
  | some (int, t) =>
    let frac := fracPart t
    let exp := expPart frac.2
    if frac.1 = [] ∧ exp.1 = [] then some (.int (intOfText negative int), exp.2)
    else some (.float (FloatText.ofText
      ((if negative then ['-'] else []) ++ (int ++ (frac.1 ++ exp.1)))), exp.2)

def matchNumber (s : List Char) : Option (Json F × List Char) :=
  match s with
  | '-' :: t => unsignedNumber true t
  | s => unsignedNumber false s

/-- The message of a reader that has no fuel left. -/
def outOfFuel : String := "out of fuel"

/-- The constants and their values. -/
def constants : List (List Char × Json F) :=
  [("null".toList, .null), ("true".toList, .bool true), ("false".toList, .bool false),
    ("NaN".toList, .float FloatText.nan), ("Infinity".toList, .float FloatText.posInf),
    ("-Infinity".toList, .float FloatText.negInf)]

/-- The constant or number at the start of the text. -/
def scanAtom (s : List Char) : Parsed (Json F) :=
  match constants.find? fun c ↦ c.1.isPrefixOf s with
  | some c => .ok (c.2, s.drop c.1.length)
  | none =>
    match matchNumber s with
    | some r => .ok r
    | none => .error "Expecting value"

section Containers

variable (value : List Char → Parsed (Json F))

def arrayLoop : Nat → List Char → List (Json F) → Parsed (Json F)
  | 0, _, _ => .error outOfFuel
  | fuel + 1, s, items =>
    match value s with
    | .error e => .error e
    | .ok (item, s) =>
      match skipWs s with
      | [] => .error "Expecting ',' delimiter"
      | c :: t =>
        if c = ']' then .ok (.list (items ++ [item]), t)
        else if c = ',' then arrayLoop fuel (skipWs t) (items ++ [item])
        else .error "Expecting ',' delimiter"

/-- `JSONArray`, from behind the bracket on. -/
def parseArray (fuel : Nat) (s : List Char) : Parsed (Json F) :=
  match skipWs s with
  | ']' :: t => .ok (.list [], t)
  | s => arrayLoop value fuel s []

def objectLoop : Nat → List Char → List (String × Json F) → Parsed (Json F)
  | 0, _, _ => .error outOfFuel
  | fuel + 1, s, entries =>
    match s with
    | '"' :: s =>
      match scanString s [] with
      | .error e => .error e
      | .ok (key, s) =>
        match skipWs s with
        | ':' :: s =>
          match value (skipWs s) with
          | .error e => .error e
          | .ok (item, s) =>
            let entries := Dict.replace (String.ofList key) item entries
            match skipWs s with
            | [] => .error "Expecting ',' delimiter"
            | c :: t =>
              if c = '}' then .ok (.dict entries, t)
              else if c = ',' then objectLoop fuel (skipWs t) entries
              else .error "Expecting ',' delimiter"
        | _ => .error "Expecting ':' delimiter"
    | _ => .error "Expecting property name enclosed in double quotes"

/-- `JSONObject`, from behind the brace on. -/
def parseObject (fuel : Nat) (s : List Char) : Parsed (Json F) :=
  match skipWs s with
  | '}' :: t => .ok (.dict [], t)
  | s => objectLoop value fuel s []

end Containers

def scanOnce : Nat → List Char → Parsed (Json F)
  | 0, _ => .error outOfFuel
  | fuel + 1, s =>
    match s with
    | [] => .error "Expecting value"
    | c :: t =>
      if c = '"' then (scanString t []).map fun r ↦ (.str (String.ofList r.1), r.2)
      else if c = '{' then parseObject (scanOnce fuel) fuel t
      else if c = '[' then parseArray (scanOnce fuel) fuel t
      else scanAtom (c :: t)

def loads (s : List Char) : Except String (Json F) :=
  if s.head? = some '\uFEFF' then .error "Unexpected UTF-8 BOM (decode using utf-8-sig)"
  else match scanOnce (s.length + 1) (skipWs s) with
    | .error e => .error e
    | .ok (j, rest) => if skipWs rest = [] then .ok j else .error "Extra data"

end Parser

end Qros.Python
