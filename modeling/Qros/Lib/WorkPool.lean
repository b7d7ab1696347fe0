import Mathlib.Algebra.BigOperators.Group.List.Basic
import Mathlib.Algebra.Ring.Nat
import Mathlib.Data.List.Nodup
import Qros.Lib.Machine
import Qros.Lib.Numerals

/-!
# Workers that share a cursor

Every worker takes the next slot off a shared cursor, works on the cell of that slot and comes back
for another one, until the cursor has passed the last slot.  The input of the machine is the worker
that moves next, so a run is an interleaving of the workers, and its answers are the slots that were
worked on.
-/

universe u

namespace Qros.Lib

open List

/-- Where a worker is in its loop. -/
inductive Phase where
  | fetching
  | working (slot : Nat)
  | finished
deriving DecidableEq

namespace Phase

def slot? : Phase → Option Nat
  | .working slot => some slot
  | _ => none

/-- The moves to the end of the round. -/
def weight : Phase → Nat
  | .fetching => 1
  | .working _ => 2
  | .finished => 0

theorem weight_eq_zero {p : Phase} : p.weight = 0 ↔ p = .finished := by
  cases p <;> simp [weight]

end Phase

structure Pool (R : Type u) where
  next : Nat
  cells : List R
  workers : List Phase

namespace Pool

variable {R : Type u} (write : Nat → R → R)

def start (cells : List R) (workers : Nat) : Pool R := ⟨0, cells, List.replicate workers .fetching⟩

/-- The move of a worker: the slot it has worked on, if any, and the new state. -/
def move (w : Nat) (s : Pool R) : Option Nat × Pool R :=
  match s.workers[w]? with
  | some .fetching =>
    let phase := if s.next < s.cells.length then .working s.next else .finished
    (none, ⟨s.next + 1, s.cells, s.workers.set w phase⟩)
  | some (.working slot) =>
    (some slot, ⟨s.next, s.cells.modify slot (write slot), s.workers.set w .fetching⟩)
  | _ => (none, s)

def machine (cells : List R) (workers : Nat) : Machine (Pool R) Nat (Option Nat) :=
  ⟨start cells workers, move write⟩

/-- The worker is there and has not finished. -/
def live (s : Pool R) (w : Nat) : Bool :=
  match s.workers[w]? with
  | some .finished => false
  | some _ => true
  | none => false

/-- The slots that are being worked on. -/
def held (s : Pool R) : List Nat := s.workers.filterMap Phase.slot?

def Finished (s : Pool R) : Prop := ∀ p ∈ s.workers, p = .finished

instance finishedDecidable (s : Pool R) : Decidable s.Finished :=
  inferInstanceAs (Decidable (∀ p ∈ s.workers, p = .finished))

/-- The moves that are left. -/
def remaining (s : Pool R) : Nat :=
  2 * (s.cells.length - s.next) + (s.workers.map Phase.weight).sum

/-! ## One move -/

/-- What a move can do.  The workers are told apart up to their order. -/
inductive Moves (s : Pool R) : Bool → Option Nat → Pool R → Prop
  | take {others ws} : s.workers.Perm (.fetching :: others) → s.next < s.cells.length →
      ws.Perm (.working s.next :: others) → Moves s true none ⟨s.next + 1, s.cells, ws⟩
  | leave {others ws} : s.workers.Perm (.fetching :: others) → s.cells.length ≤ s.next →
      ws.Perm (.finished :: others) → Moves s true none ⟨s.next + 1, s.cells, ws⟩
  | work {slot others ws} : s.workers.Perm (.working slot :: others) →
      ws.Perm (.fetching :: others) →
      Moves s true (some slot) ⟨s.next, s.cells.modify slot (write slot), ws⟩
  | idle : Moves s false none s

variable {write}

variable {p : Phase}

theorem perm_of_getElem? {ws : List Phase} {w : Nat} (h : ws[w]? = some p) :
    ∃ others, ws.Perm (p :: others) ∧ ∀ q, (ws.set w q).Perm (q :: others) := by
  obtain ⟨hw, rfl⟩ := List.getElem?_eq_some_iff.mp h
  exact ⟨ws.eraseIdx w, (getElem_cons_eraseIdx_perm hw).symm,
    fun q ↦ set_perm_cons_eraseIdx hw q⟩

theorem moves_move (w : Nat) (s : Pool R) :
    Moves write s (s.live w) (s.move write w).1 (s.move write w).2 := by
  unfold move live
  cases hphase : s.workers[w]? with
  | none => exact .idle
  | some phase =>
    cases phase with
    | fetching =>
      obtain ⟨others, hws, hset⟩ := perm_of_getElem? hphase
      by_cases hnext : s.next < s.cells.length
      · simp only [if_pos hnext]
        exact .take hws hnext (hset _)
      · simp only [if_neg hnext]
        exact .leave hws (Nat.le_of_not_lt hnext) (hset _)
    | working slot =>
      obtain ⟨others, hws, hset⟩ := perm_of_getElem? hphase
      exact .work hws (hset _)
    | finished => exact .idle

theorem sum_weight {ws others : List Phase} (h : ws.Perm (p :: others)) :
    (ws.map Phase.weight).sum = p.weight + (others.map Phase.weight).sum := by
  rw [(h.map Phase.weight).sum_eq, map_cons, sum_cons]

/-- Every move of a live worker counts. -/
theorem Moves.remaining {s s' : Pool R} {live : Bool} {slot : Option Nat}
    (h : Moves write s live slot s') : s'.remaining + (if live then 1 else 0) = s.remaining := by
  unfold Pool.remaining
  cases h with
  | take hws hnext hws' =>
    rw [sum_weight hws, sum_weight hws', if_pos rfl]
    simp only [Phase.weight]
    omega
  | leave hws hnext hws' =>
    rw [sum_weight hws, sum_weight hws', if_pos rfl]
    simp only [Phase.weight]
    omega
  | work hws hws' =>
    rw [sum_weight hws, sum_weight hws', if_pos rfl, length_modify]
    simp only [Phase.weight]
    omega
  | idle => rfl

/-! ## Runs -/

/-- After a run that worked on the slots `done`. -/
structure Inv (write : Nat → R → R) (cells : List R) (workers : Nat) (done : List Nat)
    (s : Pool R) : Prop where
  length_workers : s.workers.length = workers
  length_cells : s.cells.length = cells.length
  /-- Every slot that was taken is done or held, and only once. -/
  taken : (done ++ s.held).Perm (List.range (min s.next cells.length))
  cell : ∀ i, s.cells[i]? = if i ∈ done then cells[i]?.map (write i) else cells[i]?
  passed : .finished ∈ s.workers → cells.length ≤ s.next

theorem held_of_perm {s : Pool R} {others : List Phase} (h : s.workers.Perm (p :: others)) :
    s.held.Perm (p.slot?.toList ++ others.filterMap Phase.slot?) := by
  have hheld := h.filterMap Phase.slot?
  cases p <;> exact hheld

variable {cells : List R} {workers : Nat} {done : List Nat} {s s' : Pool R} {live : Bool}
  {slot : Option Nat}

theorem Inv.start : Inv write cells workers [] (start cells workers) where
  length_workers := length_replicate
  length_cells := rfl
  taken := by
    have hheld : (Pool.start cells workers).held = [] := by
      refine filterMap_eq_nil_iff.mpr fun p hp ↦ ?_
      rw [eq_of_mem_replicate hp]
      rfl
    rw [hheld]
    exact (List.Perm.of_eq (by simp [Pool.start]))
  cell := fun i ↦ by simp [Pool.start]
  passed := fun h ↦ absurd (eq_of_mem_replicate h) (by simp)

theorem Inv.nodup (h : Inv write cells workers done s) : (done ++ s.held).Nodup :=
  h.taken.nodup_iff.mpr nodup_range

theorem Inv.move (h : Inv write cells workers done s) (hmove : Moves write s live slot s') :
    Inv write cells workers (done ++ slot.toList) s' := by
  have hdisjoint := disjoint_of_nodup_append h.nodup
  obtain ⟨hworkers, hcells, htaken, hcell, hpassed⟩ := h
  -- A finished worker other than the one that moves had finished before.
  have hothers {others : List Phase} {p : Phase} (hws : s.workers.Perm (p :: others))
      (h : .finished ∈ others) : cells.length ≤ s.next :=
    hpassed (hws.mem_iff.mpr (mem_cons_of_mem _ h))
  have hlength {ws others : List Phase} {p q : Phase} (hws : s.workers.Perm (p :: others))
      (hws' : ws.Perm (q :: others)) : ws.length = workers := by
    rw [hws'.length_eq, ← hworkers, hws.length_eq]
    rfl
  cases hmove with
  | @take others ws hws hnext hws' =>
    have hheld := held_of_perm hws
    have hheld' : (held ⟨s.next + 1, s.cells, ws⟩).Perm _ := held_of_perm hws'
    refine ⟨hlength hws hws', hcells, ?_, by simpa using hcell, fun hfinished ↦ ?_⟩
    · rw [hcells] at hnext
      rw [Nat.min_eq_left hnext.le] at htaken
      rw [Nat.min_eq_left hnext, range_succ, Option.toList_none, append_nil]
      calc (done ++ held ⟨s.next + 1, s.cells, ws⟩).Perm
            (done ++ ([s.next] ++ others.filterMap Phase.slot?)) := hheld'.append_left done
        List.Perm _ (done ++ (others.filterMap Phase.slot? ++ [s.next])) :=
          perm_append_comm.append_left done
        List.Perm _ (done ++ s.held ++ [s.next]) := by
          rw [← append_assoc]
          exact (hheld.symm.append_left done).append_right _
        List.Perm _ (List.range s.next ++ [s.next]) := htaken.append_right _
    · have hold := (mem_cons.mp (hws'.mem_iff.mp hfinished)).resolve_left (by simp)
      exact (hothers hws hold).trans (Nat.le_succ _)
  | @leave others ws hws hnext hws' =>
    have hheld' : (held ⟨s.next + 1, s.cells, ws⟩).Perm _ := held_of_perm hws'
    rw [hcells] at hnext
    refine ⟨hlength hws hws', hcells, ?_, by simpa using hcell,
      fun _ ↦ hnext.trans (Nat.le_succ _)⟩
    · rw [Nat.min_eq_right hnext] at htaken
      rw [Nat.min_eq_right (hnext.trans (Nat.le_succ _)), Option.toList_none, append_nil]
      exact ((hheld'.trans (held_of_perm hws).symm).append_left done).trans htaken
  | @work slot others ws hws hws' =>
    have hheld := held_of_perm hws
    have hheld' : (held ⟨s.next, s.cells.modify slot (write slot), ws⟩).Perm _ := held_of_perm hws'
    have hnew : slot ∉ done := fun hmem ↦
      hdisjoint hmem (hheld.mem_iff.mpr (mem_cons_self ..))
    refine ⟨hlength hws hws', by rw [length_modify, hcells], ?_, fun i ↦ ?_,
      fun hfinished ↦ ?_⟩
    · refine List.Perm.trans ?_ htaken
      rw [Option.toList_some, append_assoc]
      exact ((hheld'.append_left [slot]).trans hheld.symm).append_left done
    · rw [getElem?_modify, hcell i, Option.toList_some]
      by_cases hi : slot = i
      · subst hi
        simp [hnew]
      · have hmem : i ∈ done ++ [slot] ↔ i ∈ done := by simp [Ne.symm hi]
        simp only [if_neg hi, hmem, id_map']
    · exact hothers hws ((mem_cons.mp (hws'.mem_iff.mp hfinished)).resolve_left (by simp))
  | idle => simpa using ⟨hworkers, hcells, htaken, hcell, hpassed⟩

variable (write cells workers)

/-- The slots that a run works on. -/
def evaluated (schedule : List Nat) : List Nat :=
  ((machine write cells workers).trace schedule).filterMap Prod.snd

/-- The moves of live workers in a run. -/
def moves (schedule : List Nat) : Nat :=
  (machine write cells workers).charge (fun s w ↦ if s.live w then 1 else 0) schedule

/-- **The invariant of the workers.** -/
theorem inv_after (schedule : List Nat) : Inv write cells workers
    (evaluated write cells workers schedule) ((machine write cells workers).after schedule) := by
  induction schedule using reverseRecOn with
  | nil => exact Inv.start
  | append_singleton schedule w ih =>
    have hmove := ih.move (moves_move w _)
    rw [Machine.after_concat, evaluated, Machine.trace_concat, filterMap_append]
    have hlast (answer : Option Nat) : [(w, answer)].filterMap Prod.snd = answer.toList := by
      cases answer <;> rfl
    rw [hlast]
    exact hmove

theorem moves_add_remaining (schedule : List Nat) :
    moves write cells workers schedule +
      ((machine write cells workers).after schedule).remaining = 2 * cells.length + workers := by
  induction schedule using reverseRecOn with
  | nil =>
    show 0 + (2 * cells.length + ((List.replicate workers Phase.fetching).map Phase.weight).sum) = _
    rw [map_replicate, sum_replicate_nat, Phase.weight, Nat.mul_one, Nat.zero_add]
  | append_singleton schedule w ih =>
    have hmove : Moves write ((machine write cells workers).after schedule) _ _
        ((machine write cells workers).step w ((machine write cells workers).after schedule)).2 :=
      moves_move w _
    rw [moves, Machine.charge_concat, Machine.after_concat, ← moves, ← ih, ← hmove.remaining]
    omega

variable {write cells workers}

/-- A pool with a worker is finished just when no move is left. -/
theorem Inv.finished_iff (h : Inv write cells workers done s) (hpos : 0 < workers) :
    s.Finished ↔ s.remaining = 0 := by
  have hsum : (s.workers.map Phase.weight).sum = 0 ↔ s.Finished := by
    rw [List.sum_eq_zero_iff_forall_eq_nat, List.forall_mem_map]
    exact forall₂_congr fun p _ ↦ Phase.weight_eq_zero
  unfold remaining
  constructor
  · intro hfinished
    obtain ⟨p, hp⟩ := exists_mem_of_length_pos (h.length_workers ▸ hpos)
    have hpassed := h.passed (hfinished p hp ▸ hp)
    rw [hsum.mpr hfinished, h.length_cells, Nat.sub_eq_zero_of_le hpassed]
  · intro hzero
    exact hsum.mp (Nat.eq_zero_of_add_eq_zero_left hzero)

theorem moves_lt_iff (hpos : 0 < workers) (schedule : List Nat) :
    moves write cells workers schedule < 2 * cells.length + workers ↔
      ¬ ((machine write cells workers).after schedule).Finished := by
  rw [(inv_after write cells workers schedule).finished_iff hpos,
    ← moves_add_remaining write cells workers schedule]
  omega

theorem evaluated_nil (schedule : List Nat) : evaluated write [] workers schedule = [] := by
  have htaken := (inv_after write [] workers schedule).taken
  rw [length_nil, Nat.min_zero, range_zero] at htaken
  exact (append_eq_nil_iff.mp htaken.eq_nil).1

/-- When all workers have finished, every slot was done once. -/
theorem Inv.results (h : Inv write cells workers done s) (hpos : 0 < workers)
    (hfinished : s.Finished) :
    done.Perm (List.range cells.length) ∧ s.cells = cells.mapIdx write := by
  obtain ⟨p, hp⟩ := exists_mem_of_length_pos (h.length_workers ▸ hpos)
  have hheld : s.held = [] := by
    refine filterMap_eq_nil_iff.mpr fun p hp ↦ ?_
    rw [hfinished p hp]
    rfl
  have hdone : done.Perm (List.range cells.length) := by
    have htaken := h.taken
    rwa [hheld, append_nil, Nat.min_eq_right (h.passed (hfinished p hp ▸ hp))] at htaken
  refine ⟨hdone, ext_getElem? fun i ↦ ?_⟩
  rw [h.cell, getElem?_mapIdx]
  split
  · rfl
  · rename_i hi
    rw [hdone.mem_iff, mem_range, Nat.not_lt] at hi
    rw [getElem?_eq_none hi]
    rfl

end Pool

end Qros.Lib
