import Mathlib.Data.List.Nodup
import Qros.Lib.Machine
import Qros.Quant.Market

/-!
# Order books

`include/quant/market/order_book.h`, `src/market/order_book.cpp`: the levels of the two
sides, best price first.  The two sides differ in their order alone, so each of their
functions is one definition over the order `r` in which prices come.

Prices are a linear order, since `std::sort` needs one.  Of volumes no law is assumed, so
that they may be negative or no number at all.
-/

universe u v

namespace Qros.Quant

open Qros.Lib List

structure Level (P : Type u) (V : Type v) where
  price : P
  volume : V
  orderCount : UInt32
deriving DecidableEq

structure OrderBook (P : Type u) (V : Type v) where
  symbol : List Char
  bids : List (Level P V)
  asks : List (Level P V)
deriving DecidableEq

variable {P : Type u} {V : Type v}

/-! ## One side -/

section

variable (r : P → P → Prop) [DecidableRel r]

/-- `std::sort` of the levels by their prices. -/
def sortLevels (levels : List (Level P V)) : List (Level P V) :=
  levels.mergeSort fun a b ↦ !decide (r b.price a.price)

variable [DecidableEq P] [Zero V] [LT V] [DecidableLT V] [BEq V]

/-- `update_bid` and `update_ask`: the first level at the price is erased or has its volume
set; without one a positive volume makes a new level. -/
def updateLevels (price : P) (volume : V) (levels : List (Level P V)) : List (Level P V) :=
  match levels.findIdx? fun l ↦ l.price = price with
  | some i =>
    if volume == 0 then levels.eraseIdx i
    else levels.modify i fun l ↦ { l with volume := volume }
  | none => if 0 < volume then sortLevels r (levels ++ [⟨price, volume, 1⟩]) else levels

end

namespace OrderBook

section Updates

variable [LinearOrder P]

def new (symbol : List Char) : OrderBook P V := ⟨symbol, [], []⟩

def setBids (book : OrderBook P V) (bids : List (Level P V)) : OrderBook P V :=
  { book with bids := sortLevels (· > ·) bids }

def setAsks (book : OrderBook P V) (asks : List (Level P V)) : OrderBook P V :=
  { book with asks := sortLevels (· < ·) asks }

def clear (book : OrderBook P V) : OrderBook P V := { book with bids := [], asks := [] }

variable [Zero V] [LT V] [DecidableLT V] [BEq V]

def updateBid (book : OrderBook P V) (price : P) (volume : V) : OrderBook P V :=
  { book with bids := updateLevels (· > ·) price volume book.bids }

def updateAsk (book : OrderBook P V) (price : P) (volume : V) : OrderBook P V :=
  { book with asks := updateLevels (· < ·) price volume book.asks }

end Updates

end OrderBook

/-! ## Sorted sides -/

section

variable {r : P → P → Prop} [DecidableRel r]

structure SideSound (r : P → P → Prop) [Zero V] [LT V] (levels : List (Level P V)) : Prop where
  ordered : levels.Pairwise fun a b ↦ r a.price b.price
  positive : ∀ l ∈ levels, 0 < l.volume

structure Admissible [Zero V] [LT V] (levels : List (Level P V)) : Prop where
  distinct : (levels.map Level.price).Nodup
  positive : ∀ l ∈ levels, 0 < l.volume

theorem sortLevels_perm (levels : List (Level P V)) : (sortLevels r levels).Perm levels :=
  mergeSort_perm levels _

variable [IsStrictTotalOrder P r]

variable {levels : List (Level P V)}

omit [DecidableRel r] in
theorem nodup_of_ordered (h : levels.Pairwise fun a b ↦ r a.price b.price) :
    (levels.map Level.price).Nodup := by
  refine pairwise_map.mpr (h.imp fun {a b} hab heq ↦ ?_)
  rw [heq] at hab
  exact irrefl_of r _ hab

theorem ordered_sortLevels_iff :
    (sortLevels r levels).Pairwise (fun a b ↦ r a.price b.price) ↔
      (levels.map Level.price).Nodup := by
  have hperm := (sortLevels_perm (r := r) levels).map Level.price
  constructor
  · intro h
    exact hperm.nodup_iff.mp (nodup_of_ordered h)
  · intro h
    have hnodup : (sortLevels r levels).Pairwise fun a b ↦ a.price ≠ b.price :=
      pairwise_map.mp (hperm.nodup_iff.mpr h)
    have hsorted : (sortLevels r levels).Pairwise
        fun a b ↦ (!decide (r b.price a.price)) = true := by
      refine pairwise_mergeSort (fun a b c hab hbc ↦ ?_) (fun a b ↦ ?_) levels
      · simp only [Bool.not_eq_true', decide_eq_false_iff_not] at hab hbc ⊢
        intro hca
        rcases trichotomous_of r a.price b.price with h | h | h
        · exact hbc (trans_of r hca h)
        · exact hbc (h ▸ hca)
        · exact hab h
      · simp only [Bool.or_eq_true, Bool.not_eq_true', decide_eq_false_iff_not]
        by_contra hboth
        rw [not_or, not_not, not_not] at hboth
        exact irrefl_of r _ (trans_of r hboth.1 hboth.2)
    refine (hsorted.and hnodup).imp fun {a b} hab ↦ ?_
    simp only [Bool.not_eq_true', decide_eq_false_iff_not] at hab
    rcases trichotomous_of r a.price b.price with h | h | h
    · exact h
    · exact absurd h hab.2
    · exact absurd h hab.1

variable [Zero V] [LT V]

theorem sideSound_sortLevels_iff :
    SideSound r (sortLevels r levels) ↔ Admissible levels := by
  have hmem : ∀ l, l ∈ sortLevels r levels ↔ l ∈ levels := fun l ↦ (sortLevels_perm levels).mem_iff
  constructor
  · intro h
    exact ⟨ordered_sortLevels_iff.mp h.ordered, fun l hl ↦ h.positive l ((hmem l).mpr hl)⟩
  · intro h
    exact ⟨ordered_sortLevels_iff.mpr h.distinct, fun l hl ↦ h.positive l ((hmem l).mp hl)⟩

/-! ## Updates -/

variable [DecidableEq P] [DecidableLT V] [BEq V] {price : P} {volume : V}

omit [Zero V] [LT V] [DecidableEq P] [DecidableLT V] [BEq V] in
theorem map_price_modify (levels : List (Level P V)) (i : Nat) :
    (levels.modify i fun l ↦ { l with volume := volume }).map Level.price =
      levels.map Level.price := by
  refine ext_getElem? fun j ↦ ?_
  rw [getElem?_map, getElem?_map, getElem?_modify,
    Option.map_eq_map, Option.map_map]
  congr 1
  funext l
  dsimp only [Function.comp_apply]
  split <;> rfl

/-- A side stays sound under an update just when the update does not store a volume that
is not positive at a level that is there. -/
theorem sideSound_updateLevels_iff (h : SideSound r levels) :
    SideSound r (updateLevels r price volume levels) ↔
      (price ∈ levels.map Level.price → (volume == 0) = true ∨ 0 < volume) := by
  unfold updateLevels
  cases hfind : levels.findIdx? fun l ↦ decide (l.price = price) with
  | none =>
    have hprice : price ∉ levels.map Level.price := by
      rintro hmem
      obtain ⟨l, hl, rfl⟩ := mem_map.mp hmem
      simpa using findIdx?_eq_none_iff.mp hfind l hl
    refine iff_of_true ?_ fun hmem ↦ absurd hmem hprice
    dsimp only
    split
    · rename_i hpos
      refine sideSound_sortLevels_iff.mpr ⟨?_, fun l hl ↦ ?_⟩
      · rw [map_append, map_singleton]
        exact nodup_append.mpr ⟨nodup_of_ordered h.ordered, nodup_singleton _,
          fun a ha b hb ↦ by
            rw [mem_singleton.mp hb]
            rintro rfl
            exact hprice ha⟩
      · rcases mem_append.mp hl with hl | hl
        · exact h.positive l hl
        · rw [mem_singleton.mp hl]
          exact hpos
    · exact h
  | some i =>
    obtain ⟨hi, hprice, -⟩ := findIdx?_eq_some_iff_getElem.mp hfind
    rw [decide_eq_true_iff] at hprice
    have hmem : price ∈ levels.map Level.price :=
      mem_map.mpr ⟨levels[i], getElem_mem hi, hprice⟩
    rw [imp_iff_right hmem]
    dsimp only
    split
    · rename_i hzero
      have hsub := eraseIdx_sublist levels i
      exact iff_of_true ⟨h.ordered.sublist hsub, fun l hl ↦ h.positive l (hsub.subset hl)⟩
        (.inl hzero)
    · rename_i hzero
      rw [or_iff_right hzero]
      constructor
      · intro hsound
        refine hsound.positive { levels[i] with volume := volume } ?_
        refine mem_iff_getElem?.mpr ⟨i, ?_⟩
        rw [getElem?_modify_eq, getElem?_eq_getElem hi]
        rfl
      · intro hpos
        refine ⟨?_, fun l hl ↦ ?_⟩
        · rw [← pairwise_map, map_price_modify, pairwise_map]
          exact h.ordered
        · obtain ⟨j, hj⟩ := mem_iff_getElem?.mp hl
          rw [getElem?_modify] at hj
          obtain ⟨l', hl', rfl⟩ := Option.map_eq_some_iff.mp hj
          split
          · exact hpos
          · exact h.positive l' (mem_of_getElem? hl')

end

/-! ## Runs -/

namespace OrderBook

/-- The calls that write to a book. -/
inductive Call (P : Type u) (V : Type v) where
  | setBids (bids : List (Level P V))
  | setAsks (asks : List (Level P V))
  | updateBid (price : P) (volume : V)
  | updateAsk (price : P) (volume : V)
  | clear

variable [LinearOrder P] [Zero V] [LT V]

/-- Bids descend and asks ascend strictly in price, and every volume is positive. -/
structure Sound (book : OrderBook P V) : Prop where
  bids : SideSound (· > ·) book.bids
  asks : SideSound (· < ·) book.asks

variable [DecidableLT V] [BEq V]

def call (book : OrderBook P V) : Call P V → OrderBook P V
  | .setBids bids => book.setBids bids
  | .setAsks asks => book.setAsks asks
  | .updateBid price volume => book.updateBid price volume
  | .updateAsk price volume => book.updateAsk price volume
  | .clear => book.clear

variable (P V) in
def calls (symbol : List Char) : Machine (OrderBook P V) (Call P V) Unit where
  init := new symbol
  step := fun c book ↦ ((), book.call c)

/-- A side is set to levels at distinct prices with positive volumes, and an update of a
level that is there erases it or gives it a positive volume. -/
def Keeps (book : OrderBook P V) : Call P V → Prop
  | .setBids bids => Admissible bids
  | .setAsks asks => Admissible asks
  | .updateBid price volume =>
    price ∈ book.bids.map Level.price → (volume == 0) = true ∨ 0 < volume
  | .updateAsk price volume =>
    price ∈ book.asks.map Level.price → (volume == 0) = true ∨ 0 < volume
  | .clear => True

omit [DecidableLT V] [BEq V] in
theorem sound_new (symbol : List Char) : Sound (new symbol : OrderBook P V) :=
  ⟨⟨List.Pairwise.nil, fun _ h ↦ absurd h not_mem_nil⟩,
    ⟨List.Pairwise.nil, fun _ h ↦ absurd h not_mem_nil⟩⟩

theorem sound_call_iff {book : OrderBook P V} (h : Sound book) (c : Call P V) :
    Sound (book.call c) ↔ book.Keeps c := by
  cases c with
  | setBids bids =>
    refine ⟨fun hs ↦ sideSound_sortLevels_iff.mp hs.bids, fun hk ↦ ⟨?_, h.asks⟩⟩
    exact sideSound_sortLevels_iff.mpr hk
  | setAsks asks =>
    refine ⟨fun hs ↦ sideSound_sortLevels_iff.mp hs.asks, fun hk ↦ ⟨h.bids, ?_⟩⟩
    exact sideSound_sortLevels_iff.mpr hk
  | updateBid price volume =>
    refine ⟨fun hs ↦ (sideSound_updateLevels_iff h.bids).mp hs.bids, fun hk ↦ ⟨?_, h.asks⟩⟩
    exact (sideSound_updateLevels_iff h.bids).mpr hk
  | updateAsk price volume =>
    refine ⟨fun hs ↦ (sideSound_updateLevels_iff h.asks).mp hs.asks, fun hk ↦ ⟨h.bids, ?_⟩⟩
    exact (sideSound_updateLevels_iff h.asks).mpr hk
  | clear => exact iff_of_true (sound_new book.symbol : Sound _) trivial

/-- A book is sound throughout a run just when every call keeps it so. -/
theorem sound_iff_keeps (symbol : List Char) (is : List (Call P V)) :
    (∀ pre, pre <+: is → Sound ((calls P V symbol).after pre)) ↔
      Meets (fun pre c ↦ ((calls P V symbol).after pre).Keeps c) is := by
  refine safe_iff_meets (B := fun _ _ ↦ True) (fun _ _ _ ↦ trivial) (sound_new symbol) ?_
  intro is c _ _ hsound _
  rw [Machine.after_concat]
  exact sound_call_iff (hsound is (List.prefix_refl is)) c

/-- Levels at one price are all kept, and so is a volume that is not positive. -/
theorem unsound_books :
    ¬ Sound ((calls ℤ ℤ []).after [.setBids [⟨1, 2, 1⟩, ⟨1, 3, 1⟩]]) ∧
      ¬ Sound ((calls ℤ ℤ []).after [.setAsks [⟨1, 0, 1⟩]]) ∧
        ¬ Sound ((calls ℤ ℤ []).after [.updateBid 1 2, .updateBid 1 (-2)]) := by
  have hnew : Sound (new [] : OrderBook ℤ ℤ) := sound_new []
  refine ⟨fun h ↦ ?_, fun h ↦ ?_, fun h ↦ ?_⟩
  · exact absurd ((sound_call_iff hnew (.setBids _)).mp h).distinct (by decide)
  · exact absurd (((sound_call_iff hnew (.setAsks _)).mp h).positive _ (mem_singleton_self _))
      (lt_irrefl 0)
  · have hbid : Sound ((new [] : OrderBook ℤ ℤ).updateBid 1 2) :=
      (sound_call_iff hnew (.updateBid 1 2)).mpr fun hmem ↦ absurd hmem not_mem_nil
    have hmem : (1 : ℤ) ∈ ((new [] : OrderBook ℤ ℤ).updateBid 1 2).bids.map Level.price := by
      rw [show ((new [] : OrderBook ℤ ℤ).updateBid 1 2).bids = sortLevels (· > ·) [⟨1, 2, 1⟩] from rfl,
        ((sortLevels_perm _).map _).mem_iff]
      decide
    exact absurd ((sound_call_iff hbid (.updateBid 1 (-2))).mp h hmem) (by decide)

end OrderBook

end Qros.Quant
