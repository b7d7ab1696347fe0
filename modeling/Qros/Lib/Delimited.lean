import Mathlib.Data.List.Basic

/-!
# Texts that end by themselves

A text built from nested brackets and separators can be read back without knowing
its length: it ends at the first separator or closing bracket that none of its
own brackets encloses.  `cut` is that reader.  A `Token` is a text on which it
works, whatever follows; `Inside` is the same for the text between two brackets,
where separators are allowed.

`Token.split` is the point of it: of two texts that continue with an end, equal
texts have equal first tokens.  `sepBy_inj` extends this to separated lists.

The alphabet is arbitrary; `kind` says what each character does.
-/

universe u

namespace Qros.Lib.Delimited

open List

/-- What a character does to the nesting of a text. -/
inductive Kind where
  | plain
  | separator
  | opening
  | closing
deriving DecidableEq

variable {χ : Type u} (kind : χ → Kind)

/-- Reads up to the first end at nesting depth zero, starting at depth `d`. -/
def cut : Nat → List χ → List χ × List χ
  | _, [] => ([], [])
  | d, c :: t =>
    match kind c, d with
    | .plain, d => (c :: (cut d t).1, (cut d t).2)
    | .opening, d => (c :: (cut (d + 1) t).1, (cut (d + 1) t).2)
    | .separator, 0 => ([], c :: t)
    | .closing, 0 => ([], c :: t)
    | .separator, d + 1 => (c :: (cut (d + 1) t).1, (cut (d + 1) t).2)
    | .closing, d + 1 => (c :: (cut d t).1, (cut d t).2)

/-- The reader takes all of `v`, at any depth and whatever follows. -/
def Token (v : List χ) : Prop :=
  ∀ d r, cut kind d (v ++ r) = (v ++ (cut kind d r).1, (cut kind d r).2)

/-- The reader takes all of `v` between brackets. -/
def Inside (v : List χ) : Prop :=
  ∀ d r, cut kind (d + 1) (v ++ r) = (v ++ (cut kind (d + 1) r).1, (cut kind (d + 1) r).2)

/-- The reader stops at once. -/
def Ends (r : List χ) : Prop := cut kind 0 r = ([], r)

variable {kind}

section Cut

variable {c : χ} (d : Nat) (t : List χ)

theorem cut_cons : cut kind d (c :: t) =
    match kind c, d with
    | .plain, d => (c :: (cut kind d t).1, (cut kind d t).2)
    | .opening, d => (c :: (cut kind (d + 1) t).1, (cut kind (d + 1) t).2)
    | .separator, 0 => ([], c :: t)
    | .closing, 0 => ([], c :: t)
    | .separator, d + 1 => (c :: (cut kind (d + 1) t).1, (cut kind (d + 1) t).2)
    | .closing, d + 1 => (c :: (cut kind d t).1, (cut kind d t).2) := by
  rw [cut.eq_def]

theorem cut_plain (h : kind c = .plain) :
    cut kind d (c :: t) = (c :: (cut kind d t).1, (cut kind d t).2) := by
  simp only [cut_cons, h]

theorem cut_opening (h : kind c = .opening) :
    cut kind d (c :: t) = (c :: (cut kind (d + 1) t).1, (cut kind (d + 1) t).2) := by
  simp only [cut_cons, h]

theorem cut_separator (h : kind c = .separator) :
    cut kind (d + 1) (c :: t) = (c :: (cut kind (d + 1) t).1, (cut kind (d + 1) t).2) := by
  simp only [cut_cons, h]

theorem cut_closing (h : kind c = .closing) :
    cut kind (d + 1) (c :: t) = (c :: (cut kind d t).1, (cut kind d t).2) := by
  simp only [cut_cons, h]

/-- At depth zero the reader stops at separators and closing brackets. -/
theorem Ends.cons (h : kind c = .separator ∨ kind c = .closing) : Ends kind (c :: t) := by
  rw [Ends, cut_cons]
  rcases h with h | h <;> simp only [h]

end Cut

/-! ## Tokens -/

variable {v : List χ}

theorem Token.inside (h : Token kind v) : Inside kind v := fun d r ↦ h (d + 1) r

theorem Token.nil : Token kind ([] : List χ) := fun _ _ ↦ rfl

theorem Token.append {v w : List χ} (hv : Token kind v) (hw : Token kind w) :
    Token kind (v ++ w) := by
  intro d r
  rw [append_assoc, hv, hw, append_assoc]

theorem Inside.append {v w : List χ} (hv : Inside kind v) (hw : Inside kind w) :
    Inside kind (v ++ w) := by
  intro d r
  rw [append_assoc, hv, hw, append_assoc]

theorem Token.cons {c : χ} (hc : kind c = .plain) (hv : Token kind v) :
    Token kind (c :: v) := by
  intro d r
  rw [cons_append, cut_plain _ _ hc, hv d r]
  rfl

theorem Token.of_plain (h : ∀ c ∈ v, kind c = .plain) : Token kind v := by
  induction v with
  | nil => exact Token.nil
  | cons c v ih =>
    exact Token.cons (h c mem_cons_self) (ih fun b hb ↦ h b (mem_cons_of_mem _ hb))

theorem Inside.separator {s : χ} (hs : kind s = .separator) : Inside kind [s] := by
  intro d r
  rw [singleton_append, cut_separator _ _ hs]
  rfl

/-- What stands between brackets is a token together with them. -/
theorem Inside.bracket {o c : χ} (ho : kind o = .opening) (hc : kind c = .closing)
    (hv : Inside kind v) : Token kind (o :: (v ++ [c])) := by
  intro d r
  rw [cons_append, cut_opening _ _ ho, append_assoc, hv d, singleton_append,
    cut_closing _ _ hc]
  simp

/-! ## Reading back -/

/-- **Unique reading.** -/
theorem Token.split {v v' r r' : List χ} (hv : Token kind v) (hv' : Token kind v')
    (hr : Ends kind r) (hr' : Ends kind r') (h : v ++ r = v' ++ r') : v = v' ∧ r = r' := by
  have hcut := hv 0 r
  rw [h, hv' 0 r', hr, hr'] at hcut
  simp only [append_nil, Prod.mk.injEq] at hcut
  exact ⟨hcut.1.symm, hcut.2.symm⟩

/-- A token that an end continues is not the start of that end. -/
theorem Token.append_ne_end {v r r' : List χ} (hv : Token kind v) (hne : v ≠ [])
    (hr' : Ends kind r') : v ++ r ≠ r' := by
  intro h
  have hcut := hv 0 r
  rw [h, hr'] at hcut
  have hnil : [] = v ++ (cut kind 0 r).1 := (Prod.ext_iff.mp hcut).1
  exact hne (append_eq_nil_iff.mp hnil.symm).1

/-! ## Separated lists -/

/-- The texts of `l` with `s` between them. -/
def sepBy (s : χ) : List (List χ) → List χ
  | [] => []
  | [v] => v
  | v :: w :: l => v ++ s :: sepBy s (w :: l)

theorem inside_sepBy {s : χ} (hs : kind s = .separator) {l : List (List χ)}
    (h : ∀ v ∈ l, Token kind v) : Inside kind (sepBy s l) := by
  induction l with
  | nil => exact Token.nil.inside
  | cons v l ih =>
    have hv : Token kind v := h v mem_cons_self
    have hl : Inside kind (sepBy s l) := ih fun w hw ↦ h w (mem_cons_of_mem _ hw)
    cases l with
    | nil => exact hv.inside
    | cons w l => exact hv.inside.append ((Inside.separator hs).append hl)

/-- The rest of a separated list after its first text. -/
private def sepTail (s : χ) (l : List (List χ)) (r : List χ) : List χ :=
  if l.isEmpty then r else s :: (sepBy s l ++ r)

private theorem sepBy_cons (s : χ) (v : List χ) (l : List (List χ)) (r : List χ) :
    sepBy s (v :: l) ++ r = v ++ sepTail s l r := by
  cases l with
  | nil => rfl
  | cons w l => simp [sepBy, sepTail]

private theorem ends_sepTail {s : χ} (hs : kind s = .separator) (l : List (List χ)) {r : List χ}
    (hr : Ends kind r) : Ends kind (sepTail s l r) := by
  unfold sepTail
  split
  · exact hr
  · exact Ends.cons _ (.inl hs)

/-- **Separated lists are read back** up to a closing bracket. -/
theorem sepBy_inj {s c : χ} (hs : kind s = .separator) (hc : kind c = .closing)
    {l l' : List (List χ)} (h : ∀ v ∈ l, Token kind v ∧ v ≠ [])
    (h' : ∀ v ∈ l', Token kind v ∧ v ≠ []) {r r' : List χ}
    (heq : sepBy s l ++ c :: r = sepBy s l' ++ c :: r') : l = l' ∧ r = r' := by
  have hend (t : List χ) : Ends kind (c :: t) := Ends.cons t (.inr hc)
  have hsc : s ≠ c := by
    intro hsc
    rw [hsc, hc] at hs
    cases hs
  induction l generalizing l' with
  | nil =>
    cases l' with
    | nil => exact ⟨rfl, (List.cons.inj heq).2⟩
    | cons v l' =>
      obtain ⟨hv, hne⟩ := h' v mem_cons_self
      rw [sepBy_cons] at heq
      exact absurd heq.symm (hv.append_ne_end hne (hend r))
  | cons v l ih =>
    obtain ⟨hv, hne⟩ := h v mem_cons_self
    cases l' with
    | nil =>
      rw [sepBy_cons] at heq
      exact absurd heq (hv.append_ne_end hne (hend r'))
    | cons v' l' =>
      obtain ⟨hv', -⟩ := h' v' mem_cons_self
      rw [sepBy_cons, sepBy_cons] at heq
      obtain ⟨rfl, htail⟩ := hv.split hv' (ends_sepTail hs l (hend r))
        (ends_sepTail hs l' (hend r')) heq
      have hrest : l = l' ∧ r = r' := by
        cases l with
        | nil =>
          cases l' with
          | nil => exact ⟨rfl, (List.cons.inj htail).2⟩
          | cons w' l' => exact absurd (List.cons.inj htail).1.symm hsc
        | cons w l =>
          cases l' with
          | nil => exact absurd (List.cons.inj htail).1 hsc
          | cons w' l' =>
            exact ih (fun u hu ↦ h u (mem_cons_of_mem _ hu))
              (fun u hu ↦ h' u (mem_cons_of_mem _ hu)) (List.cons.inj htail).2
      exact ⟨by rw [hrest.1], hrest.2⟩

end Qros.Lib.Delimited
