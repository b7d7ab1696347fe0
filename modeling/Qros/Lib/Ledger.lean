import Mathlib.Algebra.BigOperators.Group.List.Basic
import Mathlib.Tactic.Abel

/-!
# Books of accounts

A `Book` holds an amount of cash and two lists of accounts, the open and the
closed ones, each account being a tag `ι` with a balance.  A `Move` posts an
amount to an open account, or posts a last amount to it and closes it; either
way the same amount goes to the cash.  `enroll` opens an account.

Two facts are what a book is for.  Every posting is counted once, in cash and in
one account, so that cash is the opening balance plus all balances (`Balanced`).
And no account is lost or duplicated by a move (`Moves.tags_perm`).

Amounts need only an addition for the definitions; `Balanced` is stated over an
additive commutative monoid.
-/

universe u v

namespace Qros.Lib.Ledger

structure Book (ι : Type u) (G : Type v) where
  cash : G
  opened : List (ι × G)
  closed : List (ι × G)

namespace Book

variable {ι : Type u} {G : Type v}

/-- The tags of all accounts, open and closed. -/
def tags (b : Book ι G) : List ι := b.opened.map Prod.fst ++ b.closed.map Prod.fst

/-- Opens an account with a first posting. -/
def enroll [Add G] (b : Book ι G) (i : ι) (x : G) : Book ι G :=
  { b with cash := b.cash + x, opened := b.opened ++ [(i, x)] }

inductive Move [Add G] : Book ι G → Book ι G → Prop
  | /-- The account stays open. -/
    post {c d x : G} {i : ι} {before after closed : List (ι × G)} :
      Move ⟨c, before ++ (i, x) :: after, closed⟩ ⟨c + d, before ++ (i, x + d) :: after, closed⟩
  | /-- The account is closed. -/
    settle {c d x : G} {i : ι} {before after closed : List (ι × G)} :
      Move ⟨c, before ++ (i, x) :: after, closed⟩ ⟨c + d, before ++ after, closed ++ [(i, x + d)]⟩

/-- Any number of postings. -/
abbrev Moves [Add G] : Book ι G → Book ι G → Prop := Relation.ReflTransGen Move

/-- Moves keep every account. -/
theorem Moves.tags_perm [Add G] {b b' : Book ι G} (h : Moves b b') : b'.tags.Perm b.tags := by
  induction h with
  | refl => exact List.Perm.refl _
  | tail _ hmove ih =>
    refine List.Perm.trans ?_ ih
    cases hmove with
    | post => simp [tags]
    | settle =>
      simp only [tags, List.map_append, List.map_cons, List.map_nil, List.append_assoc,
        List.cons_append]
      refine List.Perm.append_left _ ?_
      rw [← List.append_assoc]
      exact List.perm_append_comm

/-- The sum of the balances of a list of accounts. -/
def total [AddCommMonoid G] (l : List (ι × G)) : G := (l.map Prod.snd).sum

section Balance

variable [AddCommMonoid G]

@[simp] theorem total_nil : total ([] : List (ι × G)) = 0 := rfl

@[simp] theorem total_cons (a : ι × G) (l : List (ι × G)) : total (a :: l) = a.2 + total l := by
  simp [total]

@[simp] theorem total_append (l l' : List (ι × G)) : total (l ++ l') = total l + total l' := by
  simp [total]

/-- Cash is the opening balance plus what all accounts hold. -/
def Balanced (base : G) (b : Book ι G) : Prop := b.cash = base + total b.closed + total b.opened

theorem Balanced.move {base : G} {b b' : Book ι G} (hb : Balanced base b) (h : Move b b') :
    Balanced base b' := by
  cases h <;> simp only [Balanced, total_append, total_cons, total_nil] at hb ⊢ <;>
    rw [hb] <;> abel

/-- **Double entry.**  Any run of postings keeps a book balanced. -/
theorem Balanced.moves {base : G} {b b' : Book ι G} (hb : Balanced base b) (h : Moves b b') :
    Balanced base b' := by
  induction h with
  | refl => exact hb
  | tail _ hmove ih => exact ih.move hmove

theorem Balanced.enroll {base : G} {b : Book ι G} (hb : Balanced base b) (i : ι) (x : G) :
    Balanced base (b.enroll i x) := by
  simp only [Balanced, Book.enroll, total_append, total_cons, total_nil] at hb ⊢
  rw [hb]
  abel

end Balance

end Book

end Qros.Lib.Ledger
