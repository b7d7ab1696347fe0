import Qros.Lib.Bisect
import Qros.Lib.Chunks
import Qros.Quant.Market

/-!
# The time index

`include/quant/market/time_index.h`, `src/market/time_index.cpp`: time stamps with
the positions they stand at.  The keys of an index are distinct wherever the
engine builds one, so that `std::sort`, which is not stable, has only one result.
-/

universe u

namespace Qros.Quant

open Qros.Lib

structure TimeIndex where
  entries : List (TimePoint × Nat)
  sorted : Bool
deriving DecidableEq

namespace TimeIndex

def empty : TimeIndex := ⟨[], true⟩

def rebuild (idx : TimeIndex) : TimeIndex where
  entries := idx.entries.mergeSort (fun a b ↦ decide (a.1 ≤ b.1))
  sorted := true

def build (timestamps : List TimePoint) : TimeIndex :=
  rebuild ⟨timestamps.zipIdx, true⟩

def add (idx : TimeIndex) (tp : TimePoint) (index : Nat) : TimeIndex where
  entries := idx.entries ++ [(tp, index)]
  sorted := false

/-- `TimeIndex::find` on the entries it has sorted. -/
def lookup (idx : TimeIndex) (tp : TimePoint) : Option Nat :=
  (bisectFind Prod.fst idx.entries tp).map Prod.snd

def find (idx : TimeIndex) (tp : TimePoint) : Option Nat × TimeIndex :=
  let idx := if idx.sorted then idx else idx.rebuild
  (idx.lookup tp, idx)

/-- What the searches of the index look at: the index, sorted if it has to be. -/
def ready (idx : TimeIndex) : TimeIndex := if idx.sorted then idx else idx.rebuild

def lowerBound (idx : TimeIndex) (tp : TimePoint) : Nat × TimeIndex :=
  let idx := idx.ready
  (partitionPoint (keyBelow Prod.fst idx.entries tp) idx.entries.length, idx)

def upperBound (idx : TimeIndex) (tp : TimePoint) : Nat × TimeIndex :=
  let idx := idx.ready
  (partitionPoint (keyUpTo Prod.fst idx.entries tp) idx.entries.length, idx)

def range (idx : TimeIndex) (start stop : TimePoint) : (Nat × Nat) × TimeIndex :=
  let (lo, idx) := idx.lowerBound start
  let (hi, idx) := idx.upperBound stop
  ((lo, hi), idx)

def clear (idx : TimeIndex) : TimeIndex := { idx with entries := [] }

variable {idx : TimeIndex} {timestamps : List TimePoint}

theorem rebuild_entries (h : idx.entries.Pairwise (fun a b ↦ a.1 < b.1)) :
    idx.rebuild.entries = idx.entries :=
  List.mergeSort_of_pairwise (h.imp fun hlt ↦ decide_eq_true (le_of_lt hlt))

theorem ready_entries (h : idx.entries.Pairwise (fun a b ↦ a.1 < b.1)) :
    idx.ready.entries = idx.entries := by
  unfold ready
  split
  · rfl
  · exact rebuild_entries h

theorem pairwise_zipIdx (h : timestamps.Pairwise (· < ·)) :
    timestamps.zipIdx.Pairwise (fun a b ↦ a.1 < b.1) := by
  rw [← List.pairwise_map, List.zipIdx_map_fst]
  exact h

theorem build_entries (h : timestamps.Pairwise (· < ·)) :
    (build timestamps).entries = timestamps.zipIdx :=
  (rebuild_entries (pairwise_zipIdx h) : (rebuild ⟨timestamps.zipIdx, true⟩).entries = _)

/-- Over increasing time stamps, `find` gives the position of the time stamp it is
asked for, and nothing if it is not there. -/
theorem lookup_eq_some_iff {tp : TimePoint} {i : Nat} (hidx : idx.entries = timestamps.zipIdx)
    (h : timestamps.Pairwise (· < ·)) :
    idx.lookup tp = some i ↔ timestamps[i]? = some tp := by
  have hsorted : idx.entries.Pairwise (fun a b ↦ a.1 < b.1) := hidx ▸ pairwise_zipIdx h
  constructor
  · intro hfind
    obtain ⟨⟨s, j⟩, hfound, rfl⟩ := Option.map_eq_some_iff.mp hfind
    obtain ⟨hmem, hs⟩ := (bisectFind_eq_some_iff hsorted).mp hfound
    rw [hidx] at hmem
    rw [← hs]
    exact List.mem_zipIdx_iff_getElem?.mp hmem
  · intro hget
    refine Option.map_eq_some_iff.mpr ⟨(tp, i), (bisectFind_eq_some_iff hsorted).mpr ⟨?_, rfl⟩, rfl⟩
    rw [hidx]
    exact List.mem_zipIdx_iff_getElem?.mpr hget

theorem range_entries (h : idx.entries.Pairwise (fun a b ↦ a.1 < b.1)) (start stop : TimePoint) :
    (idx.range start stop).2.entries = idx.entries := by
  have hready := ready_entries h
  change idx.ready.ready.entries = _
  rw [ready_entries (hready.symm ▸ h), hready]

theorem find_entries (h : idx.entries.Pairwise (fun a b ↦ a.1 < b.1)) (tp : TimePoint) :
    (idx.find tp).2.entries = idx.entries := ready_entries h

/-- Over increasing time stamps, `range` delimits the positions whose time stamps lie
in `[start, stop]`. -/
theorem slice_range {α : Type u} {xs : List α} {time : α → TimePoint}
    (hidx : idx.entries = (xs.map time).zipIdx) (h : (xs.map time).Pairwise (· < ·))
    (start stop : TimePoint) :
    (xs.drop (idx.range start stop).1.1).take
        ((idx.range start stop).1.2 - (idx.range start stop).1.1) =
      xs.filter (fun x ↦ decide (start ≤ time x) && decide (time x ≤ stop)) := by
  have hsorted : idx.entries.Pairwise (fun a b ↦ a.1 < b.1) := hidx ▸ pairwise_zipIdx h
  have hready := ready_entries hsorted
  have hagain : idx.ready.ready.entries = idx.entries := by
    rw [ready_entries (hready.symm ▸ hsorted), hready]
  have hlen : idx.entries.length = xs.length := by
    rw [hidx, List.length_zipIdx, List.length_map]
  refine (filter_eq_slice fun i hi ↦ ?_).symm
  have hi' : i < idx.entries.length := hlen ▸ hi
  have hkey : idx.entries[i].1 = time xs[i] := by
    simp [hidx]
  have hlo := lt_lowerBound_iff (k := start) hsorted hi'
  have hhi := lt_upperBound_iff (k := stop) hsorted hi'
  rw [hkey] at hlo hhi
  rw [Bool.and_eq_true, decide_eq_true_iff, decide_eq_true_iff, ← not_lt, ← hlo, ← hhi, not_lt]
  change _ ↔ partitionPoint (keyBelow Prod.fst idx.ready.entries start) idx.ready.entries.length ≤ i ∧
    i < partitionPoint (keyUpTo Prod.fst idx.ready.ready.entries stop) idx.ready.ready.entries.length
  rw [hready, hagain]

end TimeIndex

end Qros.Quant
