import Qros.Python.JsonRoundTrip

/-!
# JSON in ASCII

`json.dumps` with `ensure_ascii=True`: what is not printable ASCII is written as `\uXXXX`.
Outside of strings a text has only printable characters, so this is done character by
character to the text that `ensure_ascii=False` gives.  `unescape` undoes it, whence texts
determine values here too (`decoded_eq_of_asciiText_eq`).
-/

namespace Qros.Python

open List

def uEscape (n : Nat) : List Char :=
  ['\\', 'u', Nat.digitChar (n / 0x1000 % 16), Nat.digitChar (n / 0x100 % 16),
    Nat.digitChar (n / 0x10 % 16), Nat.digitChar (n % 16)]

/-- What `ESCAPE_ASCII` matches beyond `ESCAPE` is replaced by its code units. -/
def asciiEscape (c : Char) : List Char :=
  if 0x20 ≤ c.toNat ∧ c.toNat < 0x7F then [c]
  else if c.toNat < 0x10000 then uEscape c.toNat
  else
    uEscape (0xD800 + (c.toNat - 0x10000) / 0x400) ++ uEscape (0xDC00 + (c.toNat - 0x10000) % 0x400)

/-- `json.dumps(..., ensure_ascii=True)`. -/
def Json.asciiText {F : Type} [FloatText F] (s : Separators) (j : Json F) : List Char :=
  (j.text s).flatMap asciiEscape

/-- The text before `asciiEscape`. -/
def unescape : List Char → List Char
  | [] => []
  | '\\' :: 'u' :: a :: b :: c :: d :: t =>
    match decodeU a b c d with
    | none => []
    | some n =>
      if n < 0x7F then '\\' :: 'u' :: a :: b :: c :: d :: unescape t
      else if IsHigh n then
        match t with
        | '\\' :: 'u' :: e :: f :: g :: h :: t =>
          match decodeU e f g h with
          | none => []
          | some m => Char.ofNat (0x10000 + (n - 0xD800) * 0x400 + (m - 0xDC00)) :: unescape t
        | _ => []
      else Char.ofNat n :: unescape t
  | '\\' :: e :: t => '\\' :: e :: unescape t
  | c :: t => c :: unescape t

theorem decodeU_digits {n : Nat} (hn : n < 0x10000) :
    decodeU (Nat.digitChar (n / 0x1000 % 16)) (Nat.digitChar (n / 0x100 % 16))
      (Nat.digitChar (n / 0x10 % 16)) (Nat.digitChar (n % 16)) = some n := by
  unfold decodeU
  rw [hexValue_digitChar _ (by omega), hexValue_digitChar _ (by omega),
    hexValue_digitChar _ (by omega), hexValue_digitChar _ (by omega)]
  show some _ = some n
  congr 1
  omega

theorem unescape_cons {c : Char} (hc : c ≠ '\\') (t : List Char) :
    unescape (c :: t) = c :: unescape t := by
  rw [unescape.eq_def]
  split <;> simp_all

theorem unescape_backslash {e : Char} (he : e ≠ 'u') (t : List Char) :
    unescape ('\\' :: e :: t) = '\\' :: e :: unescape t := by
  rw [unescape.eq_def]
  split
  case h_4 hno heq =>
    obtain ⟨rfl, rfl⟩ := List.cons.inj heq
    exact absurd rfl (hno e t rfl)
  all_goals simp_all

theorem unescape_uEscape_control {n : Nat} (hn : n < 0x7F) (t : List Char) :
    unescape (uEscape n ++ t) = uEscape n ++ unescape t := by
  unfold uEscape
  simp only [cons_append, nil_append]
  rw [unescape, decodeU_digits (by omega)]
  simp only [if_pos hn]

theorem unescape_uEscape {n : Nat} (hlow : 0x7F ≤ n) (hhigh : n < 0x10000) (hplain : ¬ IsHigh n)
    (t : List Char) : unescape (uEscape n ++ t) = Char.ofNat n :: unescape t := by
  unfold uEscape
  simp only [cons_append, nil_append]
  rw [unescape, decodeU_digits hhigh]
  simp only [if_neg (not_lt.mpr hlow), if_neg hplain]

theorem unescape_uEscape_pair {n m : Nat} (hn : IsHigh n) (hm : m < 0x10000) (t : List Char) :
    unescape (uEscape n ++ (uEscape m ++ t)) =
      Char.ofNat (0x10000 + (n - 0xD800) * 0x400 + (m - 0xDC00)) :: unescape t := by
  have hlt : n < 0xDC00 := hn.2
  have hge : 0xD800 ≤ n := hn.1
  unfold uEscape
  simp only [cons_append, nil_append]
  rw [unescape, decodeU_digits (by omega)]
  simp only [if_neg (show ¬ n < 0x7F by omega), if_pos hn, decodeU_digits hm]

/-! ## Texts that are recovered -/

/-- The escaping of `t` is undone, whatever follows. -/
def Recovered (t : List Char) : Prop :=
  ∀ r, unescape (t.flatMap asciiEscape ++ r) = t ++ unescape r

theorem Recovered.nil : Recovered [] := fun _ ↦ rfl

theorem Recovered.append {t u : List Char} (ht : Recovered t) (hu : Recovered u) :
    Recovered (t ++ u) := by
  intro r
  rw [flatMap_append, append_assoc, ht, hu, append_assoc]

theorem Recovered.flatMap {α : Type} {f : α → List Char} {as : List α}
    (h : ∀ a ∈ as, Recovered (f a)) : Recovered (as.flatMap f) := by
  induction as with
  | nil => exact .nil
  | cons a as ih =>
    rw [flatMap_cons]
    exact (h a mem_cons_self).append (ih fun b hb ↦ h b (mem_cons_of_mem _ hb))

theorem Recovered.char {c : Char} (hc : c ≠ '\\') (hlow : 0x20 ≤ c.toNat) : Recovered [c] := by
  intro r
  have hvalid : c.toNat < 0xD800 ∨ 0xDFFF < c.toNat ∧ c.toNat < 0x110000 := c.valid
  rw [flatMap_singleton, asciiEscape, singleton_append]
  split_ifs with hprint hbmp
  · exact unescape_cons hc r
  · have hplain : ¬ IsHigh c.toNat := fun h ↦ by
      have := h.1
      have := h.2
      omega
    rw [unescape_uEscape (by omega) hbmp hplain, Char.ofNat_toNat]
  · have hhigh : IsHigh (0xD800 + (c.toNat - 0x10000) / 0x400) :=
      ⟨Nat.le_add_right _ _, by omega⟩
    rw [append_assoc, unescape_uEscape_pair hhigh (by omega)]
    have hnat : 0x10000 + (0xD800 + (c.toNat - 0x10000) / 0x400 - 0xD800) * 0x400 +
        (0xDC00 + (c.toNat - 0x10000) % 0x400 - 0xDC00) = c.toNat := by omega
    rw [hnat, Char.ofNat_toNat]

variable {t : List Char}

theorem Recovered.of_forall (h : ∀ c ∈ t, c ≠ '\\' ∧ 0x20 ≤ c.toNat) :
    Recovered t := by
  have hflat := Recovered.flatMap (f := fun c ↦ [c]) fun c hc ↦ Recovered.char (h c hc).1 (h c hc).2
  rwa [flatMap_singleton'] at hflat

theorem Recovered.of_all (h : t.all (fun c ↦ decide (c ≠ '\\' ∧ 0x20 ≤ c.toNat)) = true) :
    Recovered t :=
  Recovered.of_forall (Lib.forall_mem_of_all h)

theorem digitChar_range : ∀ n < 16, Nat.digitChar n ≠ '\\' ∧ 0x20 ≤ (Nat.digitChar n).toNat ∧
    (Nat.digitChar n).toNat < 0x7F := by decide

theorem Recovered.escapeChar (c : Char) : Recovered (escapeChar c) := by
  have hbackslash : ∀ e : Char, e ≠ 'u' → 0x20 ≤ e.toNat ∧ e.toNat < 0x7F → Recovered ['\\', e] := by
    intro e hne he r
    have hescape : ['\\', e].flatMap asciiEscape = ['\\', e] := by
      simp [asciiEscape, he]
    rw [hescape]
    exact unescape_backslash hne r
  unfold Python.escapeChar
  split_ifs with h₁ h₂ h₃ h₄ h₅ h₆ h₇ h₈
  · exact hbackslash _ (by decide) (by decide)
  · exact hbackslash _ (by decide) (by decide)
  · exact hbackslash _ (by decide) (by decide)
  · exact hbackslash _ (by decide) (by decide)
  · exact hbackslash _ (by decide) (by decide)
  · exact hbackslash _ (by decide) (by decide)
  · exact hbackslash _ (by decide) (by decide)
  · intro r
    have hu : ['\\', 'u', '0', '0', Nat.digitChar (c.toNat / 16), Nat.digitChar (c.toNat % 16)] =
        uEscape c.toNat := by
      unfold uEscape
      rw [show c.toNat / 0x1000 % 16 = 0 by omega, show c.toNat / 0x100 % 16 = 0 by omega,
        show c.toNat / 0x10 % 16 = c.toNat / 16 by omega]
      rfl
    have hascii : (uEscape c.toNat).flatMap asciiEscape = uEscape c.toNat := by
      have hdigit : ∀ n < 16, asciiEscape (Nat.digitChar n) = [Nat.digitChar n] :=
        fun n hn ↦ if_pos (digitChar_range n hn).2
      simp only [uEscape, flatMap_cons, flatMap_nil, hdigit _ (Nat.mod_lt _ (by decide))]
      rfl
    rw [hu, hascii]
    exact unescape_uEscape_control (by omega) r
  · exact Recovered.char h₂ (not_lt.mp h₈)

theorem Recovered.strText (s : String) : Recovered (strText s) := by
  have hquote : Recovered ['"'] := Recovered.char (by decide) (by decide)
  exact hquote.append ((Recovered.flatMap fun c _ ↦ Recovered.escapeChar c).append hquote)

theorem Recovered.intercalate {sep : List Char} {texts : List (List Char)} (hsep : Recovered sep)
    (h : ∀ t ∈ texts, Recovered t) : Recovered (List.intercalate sep texts) := by
  induction texts with
  | nil => exact .nil
  | cons t texts ih =>
    have ht := h t mem_cons_self
    cases texts with
    | nil => rwa [intercalate_singleton]
    | cons u texts =>
      rw [intercalate_cons_cons]
      exact (ht.append hsep).append (ih fun v hv ↦ h v (mem_cons_of_mem _ hv))

theorem Recovered.digits {ds : List Char} (h : IsDigits ds) : Recovered ds := by
  refine Recovered.of_forall fun c hc ↦ ?_
  have hdigit := h c hc
  constructor
  · rintro rfl
    cases hdigit
  · have := (Char.isDigit_iff_toNat.mp hdigit).1
    exact le_trans (by decide) this

theorem Recovered.sign (negative : Bool) : Recovered (if negative = true then ['-'] else []) := by
  cases negative with
  | true => exact Recovered.char (by decide) (by decide)
  | false => exact .nil

theorem IsIntPart.isDigits (h : IsIntPart t) : IsDigits t := by
  rcases h with rfl | ⟨c, ds, rfl, -, hc, hds⟩
  · intro c hc
    rw [mem_singleton.mp hc]
    rfl
  · intro d hd
    rcases mem_cons.mp hd with rfl | hd
    · exact hc
    · exact hds d hd

theorem Recovered.intText (n : Int) : Recovered (intText n) := by
  rw [intText_eq]
  exact (Recovered.sign _).append (Recovered.digits (isIntPart_toDigits n.natAbs).isDigits)

theorem Recovered.floatLiteral (h : IsFloatLiteral t) : Recovered t := by
  obtain ⟨negative, int, frac, exp, rfl, hint, hfrac, hexp, -⟩ := h
  have hplain : ∀ c : Char, c ≠ '\\' → 0x20 ≤ c.toNat → Recovered [c] :=
    fun c hc hlow ↦ Recovered.char hc hlow
  have hfrac' : Recovered frac := by
    rcases hfrac with rfl | ⟨ds, rfl, -, hds⟩
    · exact .nil
    · exact (hplain '.' (by decide) (by decide)).append (Recovered.digits hds)
  have hexp' : Recovered exp := by
    rcases hexp with rfl | ⟨e, sign, ds, rfl, he, hsign, -, hds⟩
    · exact .nil
    · have he' : Recovered [e] := by
        rcases he with rfl | rfl
        · exact hplain 'e' (by decide) (by decide)
        · exact hplain 'E' (by decide) (by decide)
      have hsign' : Recovered sign := by
        rcases hsign with rfl | rfl | rfl
        · exact .nil
        · exact hplain '+' (by decide) (by decide)
        · exact hplain '-' (by decide) (by decide)
      exact he'.append (hsign'.append (Recovered.digits hds))
  exact (Recovered.sign negative).append
    ((Recovered.digits hint.isDigits).append (hfrac'.append hexp'))

section Texts

variable {F : Type} [FloatText F] [LawfulFloatText F]

theorem Recovered.floatText (x : F) : Recovered (floatText x) := by
  unfold Python.floatText
  cases hkind : FloatText.kind x with
  | finite => exact Recovered.floatLiteral (LawfulFloatText.literal x hkind)
  | nan => exact Recovered.of_all (t := "NaN".toList) (by decide)
  | posInf => exact Recovered.of_all (t := "Infinity".toList) (by decide)
  | negInf => exact Recovered.of_all (t := "-Infinity".toList) (by decide)

theorem Recovered.text {s : Separators} (hitem : Recovered s.item) (hkey : Recovered s.key)
    (j : Json F) : Recovered (j.text s) := by
  have hplain : ∀ c : Char, c ≠ '\\' → 0x20 ≤ c.toNat → Recovered [c] :=
    fun c hc hlow ↦ Recovered.char hc hlow
  induction j using Json.induction with
  | null => exact Recovered.of_all (t := "null".toList) (by decide)
  | bool b =>
    cases b with
    | true => exact Recovered.of_all (t := "true".toList) (by decide)
    | false => exact Recovered.of_all (t := "false".toList) (by decide)
  | int n => exact Recovered.intText n
  | float x => exact Recovered.floatText x
  | str t => exact Recovered.strText t
  | list items ih =>
    rw [Json.text, Json.texts_eq_map]
    refine (hplain '[' (by decide) (by decide)).append
      ((Recovered.intercalate hitem ?_).append (hplain ']' (by decide) (by decide)))
    exact forall_mem_map.mpr ih
  | dict entries ih =>
    rw [Json.text, Json.entryTexts_eq_map]
    refine (hplain '\x7b' (by decide) (by decide)).append
      ((Recovered.intercalate hitem ?_).append (hplain '\x7d' (by decide) (by decide)))
    exact forall_mem_map.mpr fun e he ↦
      (Recovered.strText e.1).append (hkey.append (ih e he))

theorem Separators.recovered_compact :
    Recovered Separators.compact.item ∧ Recovered Separators.compact.key :=
  ⟨Recovered.of_all (by decide), Recovered.of_all (by decide)⟩

theorem text_eq_of_asciiText_eq {s : Separators} (hitem : Recovered s.item)
    (hkey : Recovered s.key) {j k : Json F} (h : j.asciiText s = k.asciiText s) :
    j.text s = k.text s := by
  have hj := Recovered.text hitem hkey j []
  have hk := Recovered.text hitem hkey k []
  rw [append_nil] at hj hk
  unfold Json.asciiText at h
  rw [h, hk] at hj
  exact (append_cancel_right hj).symm

theorem decoded_eq_of_asciiText_eq {j k : Json F} (hj : j.Distinct) (hk : k.Distinct)
    (h : j.asciiText .compact = k.asciiText .compact) : j.decoded = k.decoded := by
  obtain ⟨hitem, hkey⟩ := Separators.recovered_compact
  exact decoded_eq_of_text_eq Separators.plain_compact hj hk (text_eq_of_asciiText_eq hitem hkey h)

end Texts

end Qros.Python
