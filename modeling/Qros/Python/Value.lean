import Qros.Python.JsonRoundTrip

/-!
# Python values and their encoding

The values that `json.dumps` encodes with `sort_keys=True` and `default=str`: those of
JSON, tuples, dictionaries with other keys than strings, and objects of other types,
of which only `str` is known.  Dictionaries are sorted before their keys are turned into
strings, so keys that cannot be compared are an error.

The value of a JSON value is encoded as that value with sorted keys (`encode_toValue`).
-/

namespace Qros.Python

open List

inductive Number (F : Type) where
  | int (n : Int)
  | float (x : F)

/-- The comparisons of two numbers one of which is a float. -/
class NumberOps (F : Type) where
  lt : Number F → Number F → Bool
  eq : Number F → Number F → Bool

def Number.lt {F : Type} [NumberOps F] : Number F → Number F → Bool
  | .int m, .int n => decide (m < n)
  | a, b => NumberOps.lt a b

/-- `a == b`. -/
def Number.eq {F : Type} [NumberOps F] : Number F → Number F → Bool
  | .int m, .int n => decide (m = n)
  | a, b => NumberOps.eq a b

/-- The keys that `json` takes. -/
inductive Key (F : Type) where
  | str (s : String)
  | int (n : Int)
  | float (x : F)
  | bool (b : Bool)
  | none

inductive Value (F : Type) where
  | none
  | bool (b : Bool)
  | int (n : Int)
  | float (x : F)
  | str (s : String)
  | list (items : List (Value F))
  | tuple (items : List (Value F))
  | dict (entries : List (Key F × Value F))
  /-- An object of another type, of which `str` makes the text. -/
  | other (text : String)

section Encode

variable {F : Type}

def Key.number : Key F → Option (Number F)
  | .str _ => .none
  | .int n => some (.int n)
  | .float x => some (.float x)
  | .bool b => some (.int b.toNat)
  | .none => .none

variable [NumberOps F]

/-- `a < b`, or a `TypeError`. -/
def Key.lt? (a b : Key F) : Option Bool :=
  match a, b with
  | .str s, .str t => some (decide (s < t))
  | a, b =>
    match a.number, b.number with
    | some m, some n => some (m.lt n)
    | _, _ => .none

/-- `sorted(dct.items())`, of which only the keys are compared. -/
def sortKeyed {α : Type} (entries : List (Key F × α)) : Except String (List (Key F × α)) :=
  if entries.Pairwise fun e e' ↦ (e.1.lt? e'.1).isSome = true then
    .ok (entries.insertionSort fun e e' ↦ e'.1.lt? e.1 ≠ some true)
  else .error "'<' not supported between instances"

variable [FloatText F]

def Key.text : Key F → String
  | .str s => s
  | .int n => String.ofList (intText n)
  | .float x => String.ofList (floatText x)
  | .bool b => String.ofList (boolText b)
  | .none => "null"

namespace Value

mutual

/-- What is encoded with `sort_keys=True` and `default=str`. -/
def encode : Value F → Except String (Json F)
  | .none => .ok .null
  | .bool b => .ok (.bool b)
  | .int n => .ok (.int n)
  | .float x => .ok (.float x)
  | .str s => .ok (.str s)
  | .list items => do return .list (← encodeItems items)
  | .tuple items => do return .list (← encodeItems items)
  | .dict entries => do
    let entries ← sortKeyed (← encodeValues entries)
    return .dict (entries.map fun e ↦ (e.1.text, e.2))
  | .other text => .ok (.str text)

def encodeItems : List (Value F) → Except String (List (Json F))
  | [] => .ok []
  | v :: items => do return (← encode v) :: (← encodeItems items)

def encodeValues : List (Key F × Value F) → Except String (List (Key F × Json F))
  | [] => .ok []
  | (k, v) :: entries => do return (k, ← encode v) :: (← encodeValues entries)

end

end Value

end Encode

/-! ## JSON values -/

namespace Json

variable {F : Type}

mutual

def toValue : Json F → Value F
  | .null => .none
  | .bool b => .bool b
  | .int n => .int n
  | .float x => .float x
  | .str s => .str s
  | .list items => .list (toValues items)
  | .dict entries => .dict (toEntries entries)

def toValues : List (Json F) → List (Value F)
  | [] => []
  | j :: items => toValue j :: toValues items

def toEntries : List (String × Json F) → List (Key F × Value F)
  | [] => []
  | (k, j) :: entries => (.str k, toValue j) :: toEntries entries

end

theorem toEntries_eq_map (entries : List (String × Json F)) :
    toEntries entries = entries.map fun e ↦ (.str e.1, toValue e.2) := by
  induction entries with
  | nil => rfl
  | cons e entries ih => rw [toEntries, ih, map_cons]

variable [NumberOps F]

theorem sortKeyed_str {α : Type} (entries : List (String × α)) :
    sortKeyed (entries.map fun e ↦ ((.str e.1 : Key F), e.2)) =
      .ok ((sortEntries entries).map fun e ↦ (.str e.1, e.2)) := by
  unfold sortKeyed
  rw [if_pos]
  · refine congrArg Except.ok (map_insertionSort _ _ _ _ ?_).symm
    intro e _ e' _
    show e.1 ≤ e'.1 ↔ some (decide (e'.1 < e.1)) ≠ some true
    rw [ne_eq, Option.some_inj, decide_eq_true_iff, not_lt]
  · rw [pairwise_map]
    exact pairwise_of_forall fun _ _ ↦ rfl

variable [FloatText F]

theorem encodeItems_toValues {items : List (Json F)}
    (h : ∀ j ∈ items, j.toValue.encode = .ok j.sortKeys) :
    Value.encodeItems (toValues items) = .ok (sortItems items) := by
  induction items with
  | nil => rfl
  | cons j items ih =>
    rw [toValues, Value.encodeItems, h j mem_cons_self,
      ih fun k hk ↦ h k (mem_cons_of_mem _ hk)]
    rfl

theorem encodeValues_toEntries {entries : List (String × Json F)}
    (h : ∀ e ∈ entries, e.2.toValue.encode = .ok e.2.sortKeys) :
    Value.encodeValues (toEntries entries) = .ok
    ((sortValues entries).map fun e ↦ (.str e.1, e.2)) := by
  induction entries with
  | nil => rfl
  | cons e entries ih =>
    rw [toEntries, Value.encodeValues, h e mem_cons_self,
      ih fun k hk ↦ h k (mem_cons_of_mem _ hk)]
    rfl

theorem encode_toValue (j : Json F) : j.toValue.encode = .ok j.sortKeys := by
  induction j using Json.induction with
  | null => rfl
  | bool b => rfl
  | int n => rfl
  | float x => rfl
  | str s => rfl
  | list items ih =>
    rw [toValue, Value.encode, encodeItems_toValues ih]
    rfl
  | dict entries ih =>
    rw [toValue, Value.encode, encodeValues_toEntries ih, sortKeys]
    show (sortKeyed _ >>= fun entries ↦ _) = _
    rw [sortKeyed_str]
    refine congrArg (fun es ↦ Except.ok (Json.dict es)) ?_
    rw [map_map]
    exact map_id _

end Json

end Qros.Python

/-!
## Comparisons of JSON values

`==`, `<` and `sorted` of the values that `json.loads` returns.  Within a list or a
dictionary an object equals itself whatever `==` says of it; of the floats that matter
here only the `nan` of the decoder can be met twice.
-/

namespace Qros.Python

variable {F : Type} [FloatText F] [NumberOps F] [DecidableEq F]

namespace Json

/-- The number that a value is compared as. -/
def number : Json F → Option (Number F)
  | .bool b => some (.int b.toNat)
  | .int n => some (.int n)
  | .float x => some (.float x)
  | .null => none
  | .str _ => none
  | .list _ => none
  | .dict _ => none

/-- `a == b` for values without items. -/
def eqAtom (a b : Json F) : Bool :=
  match a, b with
  | .null, .null => true
  | .str s, .str t => decide (s = t)
  | a, b =>
    match a.number, b.number with
    | some m, some n => m.eq n
    | _, _ => false

/-- Both are the `nan` of the decoder. -/
def isSameNan (a b : Json F) : Bool :=
  match a, b with
  | .float x, .float y => decide (x = FloatText.nan) && decide (y = FloatText.nan)
  | _, _ => false

mutual

/-- `a == b`. -/
def eq : Json F → Json F → Bool
  | .list items, b =>
    match b with
    | .list items' => eqItems items items'
    | _ => false
  | .dict entries, b =>
    match b with
    | .dict entries' => decide (entries.length = entries'.length) && eqEntries entries entries'
    | _ => false
  | .null, b => eqAtom .null b
  | .bool x, b => eqAtom (.bool x) b
  | .int n, b => eqAtom (.int n) b
  | .float x, b => eqAtom (.float x) b
  | .str s, b => eqAtom (.str s) b

def eqItems : List (Json F) → List (Json F) → Bool
  | [], items' => items'.isEmpty
  | j :: items, items' =>
    match items' with
    | [] => false
    | j' :: items' => (isSameNan j j' || eq j j') && eqItems items items'

/-- Each entry of the first dictionary is in the second. -/
def eqEntries : List (String × Json F) → List (String × Json F) → Bool
  | [], _ => true
  | (k, j) :: entries, entries' =>
    (match Lib.Dict.find k entries' with
      | none => false
      | some j' => isSameNan j j' || eq j j') && eqEntries entries entries'

end

/-- `a < b` for values without items, or a `TypeError`. -/
def ltAtom (a b : Json F) : Option Bool :=
  match a, b with
  | .str s, .str t => some (decide (s < t))
  | a, b =>
    match a.number, b.number with
    | some m, some n => some (m.lt n)
    | _, _ => none

mutual

/-- `a < b`, or a `TypeError`. -/
def lt? : Json F → Json F → Option Bool
  | .list items, b =>
    match b with
    | .list items' => ltItems items items'
    | _ => none
  | .dict _, _ => none
  | .null, b => ltAtom .null b
  | .bool x, b => ltAtom (.bool x) b
  | .int n, b => ltAtom (.int n) b
  | .float x, b => ltAtom (.float x) b
  | .str s, b => ltAtom (.str s) b

/-- The first items that differ decide. -/
def ltItems : List (Json F) → List (Json F) → Option Bool
  | [], items' => some (!items'.isEmpty)
  | j :: items, items' =>
    match items' with
    | [] => some false
    | j' :: items' => if isSameNan j j' || eq j j' then ltItems items items' else lt? j j'

end

/-- What a loop over the value gives. -/
def iterate : Json F → Except String (List (Json F))
  | .list items => .ok items
  | .dict entries => .ok (entries.map fun e ↦ .str e.1)
  | .str s => .ok (s.toList.map fun c ↦ .str (String.singleton c))
  | .null => .error "'NoneType' object is not iterable"
  | .bool _ => .error "'bool' object is not iterable"
  | .int _ => .error "'int' object is not iterable"
  | .float _ => .error "'float' object is not iterable"

/-- `sorted(items)`: items two of which cannot be compared are an error. -/
def sortedItems (items : List (Json F)) : Except String (List (Json F)) :=
  if items.Pairwise fun a b ↦ (lt? a b).isSome = true ∧ (lt? b a).isSome = true then
    .ok (items.insertionSort fun a b ↦ lt? b a ≠ some true)
  else .error "'<' not supported between instances"

def sorted (j : Json F) : Except String (List (Json F)) := do
  sortedItems (← j.iterate)

end Json

def sortStrings (xs : List String) : List String := xs.insertionSort (· ≤ ·)

theorem sortStrings_sortStrings (xs : List String) :
    sortStrings (sortStrings xs) = sortStrings xs :=
  (List.pairwise_insertionSort (· ≤ ·) xs).insertionSort_eq

namespace Json

theorem sortedItems_str (xs : List String) :
    sortedItems (xs.map fun s ↦ (.str s : Json F)) = .ok ((sortStrings xs).map fun s ↦ .str s) := by
  unfold sortedItems
  rw [if_pos]
  · refine congrArg Except.ok (List.map_insertionSort _ _ _ _ ?_).symm
    intro s _ t _
    show s ≤ t ↔ some (decide (t < s)) ≠ some true
    rw [ne_eq, Option.some_inj, decide_eq_true_iff, not_lt]
  · rw [List.pairwise_map]
    exact List.pairwise_of_forall fun _ _ ↦ ⟨rfl, rfl⟩

end Json

end Qros.Python

/-!
## Floats with one decimal

An instance of the text of floats: the numbers `n / 10`, whose `repr` has one decimal,
and the three constants.
-/

namespace Qros.Python

inductive Tenths where
  | tenths (n : Int)
  | nan
  | posInf
  | negInf
deriving DecidableEq

namespace Tenths

def kind : Tenths → FloatKind
  | tenths _ => .finite
  | nan => .nan
  | posInf => .posInf
  | negInf => .negInf

def repr : Tenths → List Char
  | tenths n => (if decide (n < 0) = true then ['-'] else []) ++
      (Nat.toDigits 10 (n.natAbs / 10) ++ ['.', Nat.digitChar (n.natAbs % 10)])
  | nan => "nan".toList
  | posInf => "inf".toList
  | negInf => "-inf".toList

/-- The number without a sign. -/
def ofUnsigned (negative : Bool) (s : List Char) : Tenths :=
  match s.dropWhile Char.isDigit with
  | ['.', d] => tenths (intOfText negative (s.takeWhile Char.isDigit ++ [d]))
  | _ => nan

def ofText : List Char → Tenths
  | '-' :: s => ofUnsigned true s
  | s => ofUnsigned false s

instance : FloatText Tenths := ⟨kind, repr, ofText, nan, posInf, negInf⟩

def value : Number Tenths → Option Int
  | .int n => some (10 * n)
  | .float (tenths n) => some n
  | .float _ => none

/-- Whether both numbers are finite and their tenths are related. -/
def compare (r : Int → Int → Bool) (a b : Number Tenths) : Bool :=
  match value a, value b with
  | some m, some n => r m n
  | _, _ => false

instance : NumberOps Tenths where
  lt a b :=
    match a, b with
    | .float nan, _ => false
    | _, .float nan => false
    | .float posInf, _ => false
    | _, .float posInf => true
    | _, .float negInf => false
    | .float negInf, _ => true
    | a, b => compare (fun m n ↦ decide (m < n)) a b
  eq a b :=
    match a, b with
    | .float nan, _ => false
    | .float posInf, .float posInf => true
    | .float negInf, .float negInf => true
    | a, b => compare (fun m n ↦ decide (m = n)) a b

theorem isFloatLiteral_tenths (n : Int) : IsFloatLiteral (tenths n).repr := by
  refine ⟨decide (n < 0), Nat.toDigits 10 (n.natAbs / 10), ['.', Nat.digitChar (n.natAbs % 10)], [],
    rfl, isIntPart_toDigits _, .inr ⟨_, rfl, List.cons_ne_nil _ _, ?_⟩, .inl rfl, nofun⟩
  intro c hc
  rw [List.mem_singleton.mp hc]
  exact isDigit_digitChar _ (Nat.mod_lt _ (by decide))

theorem ofUnsigned_digits (negative : Bool) (n : Nat) :
    ofUnsigned negative (Nat.toDigits 10 (n / 10) ++ ['.', Nat.digitChar (n % 10)]) =
      tenths (if negative then -n else n) := by
  have hdigits : IsDigits (Nat.toDigits 10 (n / 10)) := fun c hc ↦
    Nat.isDigit_of_mem_toDigits (by decide) (by decide) hc
  have hrest : NoDigit ['.', Nat.digitChar (n % 10)] := fun c hc ↦ by cases hc; rfl
  obtain ⟨htake, hdrop⟩ := span_digits hdigits hrest
  have hmod : n % 10 < 10 := Nat.mod_lt _ (by decide)
  have hvalue : Nat.ofDigitChars 10 (Nat.toDigits 10 (n / 10) ++ [Nat.digitChar (n % 10)]) 0 = n := by
    rw [Nat.ofDigitChars_append, Nat.ofDigitChars_ten_toDigits,
      Nat.ofDigitChars_cons_digitChar_of_lt_ten hmod, Nat.ofDigitChars_nil]
    omega
  unfold ofUnsigned
  rw [hdrop, htake]
  simp only [intOfText, hvalue]

theorem ofText_repr (n : Int) : ofText (tenths n).repr = tenths n := by
  obtain ⟨c, t, hdigits, hc⟩ := (isIntPart_toDigits (n.natAbs / 10)).start
  have hstart : ∀ s, ofText ('-' :: s) = ofUnsigned true s := fun _ ↦ rfl
  have hdigit : ∀ s, ofText (Nat.toDigits 10 (n.natAbs / 10) ++ s) =
      ofUnsigned false (Nat.toDigits 10 (n.natAbs / 10) ++ s) := by
    intro s
    rw [hdigits, List.cons_append]
    unfold ofText
    split
    · rename_i heq
      cases heq
      exact absurd hc (by decide)
    · rfl
  rw [repr.eq_1]
  by_cases hn : n < 0
  · rw [if_pos (decide_eq_true hn), List.singleton_append, hstart, ofUnsigned_digits, if_pos rfl]
    congr 1
    omega
  · rw [if_neg (fun h ↦ hn (of_decide_eq_true h)), List.nil_append, hdigit, ofUnsigned_digits,
      if_neg Bool.false_ne_true]
    congr 1
    omega

instance : LawfulFloatText Tenths where
  literal := by
    intro x hx
    cases x with
    | tenths n => exact isFloatLiteral_tenths n
    | nan => cases hx
    | posInf => cases hx
    | negInf => cases hx
  ofText_repr := by
    intro x hx
    cases x with
    | tenths n => exact ofText_repr n
    | nan => cases hx
    | posInf => cases hx
    | negInf => cases hx
  posInf := by
    intro x hx
    cases x with
    | posInf => rfl
    | tenths n => cases hx
    | nan => cases hx
    | negInf => cases hx
  negInf := by
    intro x hx
    cases x with
    | negInf => rfl
    | tenths n => cases hx
    | nan => cases hx
    | posInf => cases hx

instance : SingleNan Tenths where
  nan := by
    intro x hx
    cases x with
    | nan => rfl
    | tenths n => cases hx
    | posInf => cases hx
    | negInf => cases hx

end Tenths

end Qros.Python
