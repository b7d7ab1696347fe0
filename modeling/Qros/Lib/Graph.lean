import Mathlib.Data.Finset.Card
import Mathlib.Data.List.Chain
import Qros.Lib.Dict

/-!
# Graphs

A relation is acyclic if no element can be reached from itself in one or more
steps.  One more edge keeps it acyclic just when the edge closes no path
(`acyclic_addEdge_iff`); any number of edges into an element without successors
do (`Acyclic.addSink`).

A search of a finite graph marks what it takes from its queue (`sweep`), or what it puts
into it (`predecessors`).  The first visits what is reachable (`mem_sweep`); from what the second
records a shortest walk is read (`exists_shortestWalk`).
-/

universe u

namespace Qros.Lib

open List

/-! ## Relations without cycles -/

open Relation

variable {α : Type u} {E E' : α → α → Prop}

/-- Nothing is reached from itself. -/
def Acyclic (E : α → α → Prop) : Prop := ∀ x, ¬ TransGen E x x

theorem Acyclic.mono (h : Acyclic E') (hsub : ∀ x y, E x y → E' x y) : Acyclic E :=
  fun x hx ↦ h x (TransGen.mono hsub x x hx)

theorem acyclic_congr (h : ∀ x y, E x y ↔ E' x y) : Acyclic E ↔ Acyclic E' :=
  ⟨fun hE ↦ hE.mono fun x y hxy ↦ (h x y).mpr hxy, fun hE' ↦ hE'.mono fun x y hxy ↦ (h x y).mp hxy⟩

/-- Where all walks end there is no cycle. -/
theorem not_transGen_of_acc {x : α} (h : Acc (fun y x ↦ E x y) x) : ¬ TransGen E x x := by
  induction h with
  | intro x _ ih =>
    intro hx
    obtain ⟨y, hxy, hyx⟩ := TransGen.head'_iff.mp hx
    exact ih y hxy (TransGen.tail'_iff.mpr ⟨x, hyx, hxy⟩)

/-- A walk along a partial function passes everything that is reached, if it goes on to the end. -/
theorem mem_of_reflTransGen {next : α → Option α} {walk : List α} {x y : α}
    (hwalk : walk.IsChain fun a b ↦ next a = some b) (hhead : walk.head? = some x)
    (hlast : ∀ z ∈ walk.getLast?, next z = none)
    (hxy : ReflTransGen (fun a b ↦ next a = some b) x y) : y ∈ walk := by
  induction walk generalizing x with
  | nil => cases hhead
  | cons a walk ih =>
    obtain rfl := Option.some.inj hhead
    rcases ReflTransGen.cases_head_iff.mp hxy with rfl | ⟨b, hab, hby⟩
    · exact mem_cons_self
    · cases walk with
      | nil => exact absurd hab (by rw [hlast a rfl]; exact Option.some_ne_none b |>.symm)
      | cons c walk =>
        obtain ⟨hac, hwalk⟩ := isChain_cons_cons.mp hwalk
        obtain rfl := Option.some.inj (hac.symm.trans hab)
        exact mem_cons_of_mem _ (ih hwalk rfl hlast hby)

/-- The relation with one more edge. -/
def AddEdge (E : α → α → Prop) (p c : α) (x y : α) : Prop := E x y ∨ (x = p ∧ y = c)

/-- A path with one more edge is one without, or leads through the edge. -/
theorem transGen_addEdge {p c x y : α} (h : TransGen (AddEdge E p c) x y) :
    TransGen E x y ∨ (ReflTransGen E x p ∧ ReflTransGen E c y) := by
  induction h with
  | single h =>
    rcases h with h | ⟨rfl, rfl⟩
    · exact .inl (.single h)
    · exact .inr ⟨.refl, .refl⟩
  | tail _ h ih =>
    rcases h with h | ⟨rfl, rfl⟩
    · rcases ih with ih | ⟨hp, hc⟩
      · exact .inl (ih.tail h)
      · exact .inr ⟨hp, hc.tail h⟩
    · rcases ih with ih | ⟨hp, _⟩
      · exact .inr ⟨ih.to_reflTransGen, .refl⟩
      · exact .inr ⟨hp, .refl⟩

/-- An edge keeps a relation acyclic just when it does not close a path. -/
theorem acyclic_addEdge_iff {p c : α} :
    Acyclic (AddEdge E p c) ↔ Acyclic E ∧ ¬ ReflTransGen E c p := by
  constructor
  · intro h
    refine ⟨h.mono fun x y hxy ↦ .inl hxy, fun hpath ↦ h p ?_⟩
    exact TransGen.head' (.inr ⟨rfl, rfl⟩) (ReflTransGen.mono (fun x y hxy ↦ Or.inl hxy) c p hpath)
  · rintro ⟨h, hpath⟩ x hx
    rcases transGen_addEdge hx with hx | ⟨hp, hc⟩
    · exact h x hx
    · exact hpath (hc.trans hp)

/-- Edges into an element without successors close no path. -/
theorem Acyclic.addSink {n : α} (h : Acyclic E) (hnew : ∀ x y, E' x y → E x y ∨ y = n)
    (hsink : ∀ y, ¬ E' n y) : Acyclic E' := by
  have hpath : ∀ {x y}, TransGen E' x y → y ≠ n → TransGen E x y := by
    intro x y hxy
    induction hxy with
    | single hxy =>
      intro hne
      exact .single ((hnew _ _ hxy).resolve_right hne)
    | tail _ hyz ih =>
      intro hne
      refine (ih ?_).tail ((hnew _ _ hyz).resolve_right hne)
      rintro rfl
      exact hsink _ hyz
  intro x hx
  obtain ⟨y, hxy, _⟩ := TransGen.head'_iff.mp hx
  refine h x (hpath hx ?_)
  rintro rfl
  exact hsink y hxy

/-! ## Walks -/

/-- A list of elements from `source` to `target`, each adjacent to the next. -/
structure IsWalk (R : α → α → Prop) (source target : α) (walk : List α) : Prop where
  head : walk.head? = some source
  last : walk.getLast? = some target
  chain : walk.IsChain R

section Walks

variable {R R' : α → α → Prop} {source target : α} {walk : List α}

theorem isWalk_singleton (R : α → α → Prop) (source : α) : IsWalk R source source [source] :=
  ⟨rfl, rfl, .singleton source⟩

theorem IsWalk.concat {y : α} (h : IsWalk R source target walk) (hy : R target y) :
    IsWalk R source y (walk ++ [y]) := by
  refine ⟨?_, getLast?_concat, isChain_append.mpr ⟨h.chain, .singleton y, ?_⟩⟩
  · rw [head?_append, h.head]
    rfl
  · intro x hx z hz
    obtain rfl := Option.some.inj (hx.symm.trans h.last)
    obtain rfl := Option.some.inj hz
    exact hy

theorem IsWalk.induction {P : α → List α → Prop} (single : P source [source])
    (concat : ∀ x y walk, IsWalk R source x walk → R x y → P x walk → P y (walk ++ [y]))
    (h : IsWalk R source target walk) : P target walk := by
  induction walk using reverseRecOn generalizing target with
  | nil => cases h.head
  | append_singleton walk y ih =>
    obtain rfl : y = target := Option.some.inj (getLast?_concat.symm.trans h.last)
    obtain ⟨hchain, -, hlink⟩ := isChain_append.mp h.chain
    cases hlast : walk.getLast? with
    | none =>
      obtain rfl := getLast?_eq_none_iff.mp hlast
      obtain rfl : y = source := Option.some.inj h.head
      exact single
    | some x =>
      have hne : walk ≠ [] := by
        rintro rfl
        cases hlast
      have hwalk : IsWalk R source x walk := by
        refine ⟨?_, hlast, hchain⟩
        rw [← h.head, head?_append_of_ne_nil _ hne]
      exact concat x y walk hwalk (hlink x hlast y rfl) (ih hwalk)

theorem IsWalk.reflTransGen (h : IsWalk R source target walk) : ReflTransGen R source target := by
  refine IsWalk.induction (P := fun y _ ↦ ReflTransGen R source y) .refl ?_ h
  intro x y walk _ hxy ih
  exact ih.tail hxy

theorem exists_isWalk_iff :
    (∃ walk, IsWalk R source target walk) ↔ ReflTransGen R source target := by
  constructor
  · rintro ⟨walk, h⟩
    exact h.reflTransGen
  · intro h
    induction h with
    | refl => exact ⟨[source], isWalk_singleton R source⟩
    | tail _ hxy ih =>
      obtain ⟨walk, hwalk⟩ := ih
      exact ⟨walk ++ [_], hwalk.concat hxy⟩

/-- A relation that agrees on what is reached has the same walks. -/
theorem IsWalk.congr (h : IsWalk R source target walk)
    (hsame : ∀ x y, ReflTransGen R source x → R x y → R' x y) : IsWalk R' source target walk := by
  refine IsWalk.induction (P := IsWalk R' source) (isWalk_singleton R' source) ?_ h
  intro x y walk hwalk hxy ih
  exact ih.concat (hsame x y hwalk.reflTransGen hxy)

end Walks

/-! ## Lists in a strict order -/

section

variable {R : α → α → Prop} {l : List α} {x y z : α}

theorem pair_sublist_of_pairwise (h : l.Pairwise R) (hx : x ∈ l) (hy : y ∈ l) (hne : x ≠ y)
    (hyx : ¬ R y x) : [x, y].Sublist l := by
  induction h with
  | nil => cases hx
  | @cons z l hz _ ih =>
    rcases mem_cons.mp hx with rfl | hxl
    · have hyl := (mem_cons.mp hy).resolve_left (Ne.symm hne)
      exact (singleton_sublist.mpr hyl).cons_cons x
    · rcases mem_cons.mp hy with rfl | hyl
      · exact absurd (hz x hxl) hyx
      · exact (ih hxl hyl).cons z

/-- Everything else comes before the last element. -/
theorem eq_or_rel_of_getLast? (h : l.Pairwise R) (hz : l.getLast? = some z) (hy : y ∈ l) :
    y = z ∨ R y z := by
  obtain ⟨init, rfl⟩ := getLast?_eq_some_iff.mp hz
  rcases mem_append.mp hy with hy | hy
  · exact .inr ((pairwise_append.mp h).2.2 y hy z (mem_singleton_self z))
  · exact .inl (mem_singleton.mp hy)

end

/-! ## Finite graphs -/

/-- Successors, of finitely many elements. -/
structure FiniteGraph (α : Type u) where
  next : α → List α
  nodes : Finset α
  mem_nodes : ∀ {x y}, y ∈ next x → x ∈ nodes ∧ y ∈ nodes

namespace FiniteGraph

def Adj (G : FiniteGraph α) (x y : α) : Prop := y ∈ G.next x

theorem next_eq_nil (G : FiniteGraph α) {x : α} (h : x ∉ G.nodes) : G.next x = [] :=
  eq_nil_iff_forall_not_mem.mpr fun _ hy ↦ h (G.mem_nodes hy).1

variable [DecidableEq α]

theorem card_sdiff_append_lt {nodes : Finset α} {visited new : List α} {x : α} (hnode : x ∈ nodes)
    (hx : x ∉ visited) (hnew : x ∈ new) :
    (nodes \ (visited ++ new).toFinset).card < (nodes \ visited.toFinset).card := by
  have hsub : nodes \ (visited ++ new).toFinset ⊆ nodes \ visited.toFinset := by
    rw [toFinset_append]
    exact Finset.sdiff_subset_sdiff (Finset.Subset.refl nodes) Finset.subset_union_left
  refine Finset.card_lt_card ((Finset.ssubset_iff_of_subset hsub).mpr ⟨x, ?_, ?_⟩)
  · exact Finset.mem_sdiff.mpr ⟨hnode, fun h ↦ hx (mem_toFinset.mp h)⟩
  · intro h
    exact (Finset.mem_sdiff.mp h).2 (mem_toFinset.mpr (mem_append_right _ hnew))

theorem sdiff_append_singleton {nodes : Finset α} {visited : List α} {x : α} (hnode : x ∉ nodes) :
    nodes \ (visited ++ [x]).toFinset = nodes \ visited.toFinset := by
  ext y
  simp only [Finset.mem_sdiff, mem_toFinset, mem_append, mem_singleton]
  refine and_congr_right fun hy ↦ not_congr (or_iff_left ?_)
  rintro rfl
  exact hnode hy

variable (G : FiniteGraph α)

/-! ### Sweeps -/

/-- The successors that `keep` lets pass. -/
def queued (keep : List α → α → Bool) (visited : List α) (x : α) : List α :=
  (G.next x).filter (keep visited)

/-- Takes elements from the queue until it is empty, and visits each that was not visited: those of
its successors that `keep` lets pass come to the end of the queue. -/
def sweep (keep : List α → α → Bool) : List α → List α → List α
  | [], visited => visited
  | x :: queue, visited =>
    if x ∈ visited then sweep keep queue visited
    else sweep keep (queue ++ G.queued keep (visited ++ [x]) x) (visited ++ [x])
termination_by queue visited => ((G.nodes \ visited.toFinset).card, queue.length)
decreasing_by
  · exact Prod.Lex.right _ (Nat.lt_succ_self _)
  · rename_i hx
    by_cases hnode : x ∈ G.nodes
    · exact Prod.Lex.left _ _ (card_sdiff_append_lt hnode hx (mem_singleton_self x))
    · rw [sdiff_append_singleton hnode, queued, G.next_eq_nil hnode]
      exact Prod.Lex.right _ (by simp)

variable {G} {keep : List α → α → Bool} {queue visited : List α} {x : α}

theorem nodup_sweep (h : visited.Nodup) : (G.sweep keep queue visited).Nodup := by
  fun_induction sweep G keep queue visited with
  | case1 visited => exact h
  | case2 x queue visited hx ih => exact ih h
  | case3 x queue visited hx ih =>
    refine ih (nodup_append.mpr ⟨h, nodup_singleton x, ?_⟩)
    rintro y hy z hz rfl
    exact hx (mem_singleton.mp hz ▸ hy)

theorem reached_of_mem_sweep (h : x ∈ G.sweep keep queue visited) :
    x ∈ visited ∨ ∃ y ∈ queue, ReflTransGen G.Adj y x := by
  fun_induction sweep G keep queue visited with
  | case1 visited => exact .inl h
  | case2 y queue visited hy ih =>
    refine (ih h).imp_right ?_
    rintro ⟨z, hz, hpath⟩
    exact ⟨z, mem_cons_of_mem _ hz, hpath⟩
  | case3 y queue visited hy ih =>
    rcases ih h with hx | ⟨z, hz, hpath⟩
    · rcases mem_append.mp hx with hx | hx
      · exact .inl hx
      · obtain rfl := mem_singleton.mp hx
        exact .inr ⟨x, mem_cons_self, .refl⟩
    · rcases mem_append.mp hz with hz | hz
      · exact .inr ⟨z, mem_cons_of_mem _ hz, hpath⟩
      · exact .inr ⟨y, mem_cons_self, .head (mem_filter.mp hz).1 hpath⟩

def Pending (G : FiniteGraph α) (queue visited : List α) : Prop :=
  ∀ x ∈ visited, ∀ y, G.Adj x y → y ∈ visited ∨ y ∈ queue

theorem sweep_closed (hkeep : ∀ visited x, x ∉ visited → keep visited x = true)
    (h : G.Pending queue visited) :
    (∀ x, x ∈ visited ∨ x ∈ queue → x ∈ G.sweep keep queue visited) ∧
      G.Pending [] (G.sweep keep queue visited) := by
  fun_induction sweep G keep queue visited with
  | case1 visited =>
    refine ⟨fun x hx ↦ hx.resolve_right not_mem_nil, h⟩
  | case2 y queue visited hy ih =>
    have hpending : G.Pending queue visited := by
      intro x hx z hz
      refine (h x hx z hz).elim .inl fun hz ↦ ?_
      rcases mem_cons.mp hz with rfl | hz
      · exact .inl hy
      · exact .inr hz
    obtain ⟨hall, hclosed⟩ := ih hpending
    refine ⟨fun x hx ↦ hall x ?_, hclosed⟩
    refine hx.elim .inl fun hx ↦ ?_
    rcases mem_cons.mp hx with rfl | hx
    · exact .inl hy
    · exact .inr hx
  | case3 y queue visited hy ih =>
    have hpending : G.Pending (queue ++ G.queued keep (visited ++ [y]) y)
        (visited ++ [y]) := by
      intro x hx z hz
      by_cases hvisited : z ∈ visited ++ [y]
      · exact .inl hvisited
      refine .inr ?_
      rcases mem_append.mp hx with hx | hx
      · rcases h x hx z hz with hz | hz
        · exact absurd (mem_append_left _ hz) hvisited
        · rcases mem_cons.mp hz with rfl | hz
          · exact absurd (mem_append_right _ (mem_singleton_self _)) hvisited
          · exact mem_append_left _ hz
      · obtain rfl := mem_singleton.mp hx
        exact mem_append_right _ (mem_filter.mpr ⟨hz, hkeep _ _ hvisited⟩)
    obtain ⟨hall, hclosed⟩ := ih hpending
    refine ⟨fun x hx ↦ hall x ?_, hclosed⟩
    rcases hx with hx | hx
    · exact .inl (mem_append_left _ hx)
    · rcases mem_cons.mp hx with rfl | hx
      · exact .inl (mem_append_right _ (mem_singleton_self _))
      · exact .inr (mem_append_left _ hx)

/-- **A sweep visits what can be reached**, whatever successors that were visited it leaves out. -/
theorem mem_sweep (hkeep : ∀ visited x, x ∉ visited → keep visited x = true) :
    x ∈ G.sweep keep queue [] ↔ ∃ y ∈ queue, ReflTransGen G.Adj y x := by
  constructor
  · intro h
    exact (reached_of_mem_sweep h).resolve_left not_mem_nil
  · rintro ⟨y, hy, hpath⟩
    have hpending : G.Pending queue [] := fun x hx ↦ absurd hx not_mem_nil
    obtain ⟨hall, hclosed⟩ := sweep_closed hkeep hpending
    induction hpath with
    | refl => exact hall y (.inr hy)
    | tail _ hadj ih => exact (hclosed _ ih _ hadj).resolve_right not_mem_nil

/-! ### Shortest walks -/

/-- The elements of the second list that are new, each once. -/
def fresh (seen : List α) : List α → List α
  | [] => []
  | y :: ys => if y ∈ seen then fresh seen ys else y :: fresh (seen ++ [y]) ys

theorem mem_fresh {seen ys : List α} {y : α} : y ∈ fresh seen ys ↔ y ∈ ys ∧ y ∉ seen := by
  induction ys generalizing seen with
  | nil => exact iff_of_false not_mem_nil fun h ↦ not_mem_nil h.1
  | cons z ys ih =>
    rw [fresh, mem_cons]
    by_cases hz : z ∈ seen
    · rw [if_pos hz, ih]
      refine ⟨fun h ↦ ⟨.inr h.1, h.2⟩, fun h ↦ ⟨h.1.resolve_left ?_, h.2⟩⟩
      rintro rfl
      exact h.2 hz
    · rw [if_neg hz, mem_cons, ih, mem_append, mem_singleton]
      constructor
      · rintro (rfl | ⟨hy, hseen⟩)
        · exact ⟨.inl rfl, hz⟩
        · exact ⟨.inr hy, fun h ↦ hseen (.inl h)⟩
      · rintro ⟨hy, hseen⟩
        by_cases hyz : y = z
        · exact .inl hyz
        · exact .inr ⟨hy.resolve_left hyz, fun h ↦ h.elim hseen hyz⟩

variable (G)

/-- Takes elements from the queue until `target` comes, and puts their new successors to its end;
from where each came is recorded. -/
def predecessors (target : α) : List α → List α → Dict α α → Option (Dict α α)
  | [], _, _ => none
  | x :: queue, seen, prev =>
    if x = target then some prev
    else
      predecessors target (queue ++ fresh seen (G.next x)) (seen ++ fresh seen (G.next x))
        ((fresh seen (G.next x)).foldl (fun prev y ↦ prev.set y x) prev)
termination_by queue seen => ((G.nodes \ seen.toFinset).card, queue.length)
decreasing_by
  cases hfresh : fresh seen (G.next x) with
  | nil =>
    rw [append_nil, append_nil]
    exact Prod.Lex.right _ (Nat.lt_succ_self _)
  | cons y ys =>
    obtain ⟨hadj, hseen⟩ := mem_fresh.mp (hfresh ▸ mem_cons_self : y ∈ fresh seen (G.next x))
    exact Prod.Lex.left _ _ (card_sdiff_append_lt (G.mem_nodes hadj).2 hseen mem_cons_self)

/-- From `x` back to `source`, if that takes fewer than `fuel` steps. -/
def walkBack (prev : Dict α α) (source : α) : Nat → α → Option (List α)
  | 0, _ => none
  | fuel + 1, x => if x = source then some [x] else do
      let y ← prev.get? x
      return x :: (← walkBack prev source fuel y)

/-- A breadth-first search for `target`; empty if it cannot be reached. -/
def shortestWalk (fuel : Nat) (source target : α) : Option (List α) :=
  match G.predecessors target [source] [source] ∅ with
  | none => some []
  | some prev => (walkBack prev source fuel target).map List.reverse

/-- The state of a search: `depth` is how far each element seen is from the source. -/
structure Layered (source target : α) (processed queue : List α) (prev : Dict α α) (depth : α → Nat) :
    Prop where
  source_mem : source ∈ processed ++ queue
  depth_source : depth source = 0
  parent : ∀ x ∈ processed ++ queue, x ≠ source → ∃ y ∈ processed ++ queue,
    prev.get? x = some y ∧ G.Adj y x ∧ depth x = depth y + 1
  closed : ∀ x ∈ processed, ∀ y, G.Adj x y → y ∈ processed ++ queue ∧ depth y ≤ depth x + 1
  target_notMem : target ∉ processed
  sorted : (processed ++ queue).Pairwise fun x y ↦ depth x ≤ depth y
  near : ∀ x ∈ queue.head?, ∀ y ∈ queue, depth y ≤ depth x + 1

variable {G} {source target : α} {processed : List α} {prev : Dict α α} {depth : α → Nat}

theorem get?_foldl_set (new : List α) (prev : Dict α α) (x y : α) :
    (new.foldl (fun prev y ↦ prev.set y x) prev).get? y =
      if y ∈ new then some x else prev.get? y := by
  induction new generalizing prev with
  | nil => exact (if_neg not_mem_nil).symm
  | cons z new ih =>
    rw [foldl_cons, ih, Dict.get?_set]
    by_cases hy : y ∈ new
    · rw [if_pos hy, if_pos (mem_cons_of_mem z hy)]
    · rw [if_neg hy]
      by_cases hz : z = y
      · rw [if_pos hz, if_pos (hz ▸ mem_cons_self)]
      · rw [if_neg hz, if_neg fun h ↦ (mem_cons.mp h).elim (fun h ↦ hz h.symm) hy]

theorem layered_start (source target : α) : G.Layered source target [] [source] ∅ fun _ ↦ 0 where
  source_mem := mem_singleton_self source
  depth_source := rfl
  parent := fun _ hx hne ↦ absurd (mem_singleton.mp hx) hne
  closed := fun _ hx ↦ absurd hx not_mem_nil
  target_notMem := not_mem_nil
  sorted := pairwise_singleton _ source
  near := fun _ _ _ _ ↦ Nat.zero_le _

/-- No element seen is further away than the successors of the one that is taken. -/
theorem Layered.depth_le (h : G.Layered source target processed (x :: queue) prev depth) :
    ∀ y ∈ processed ++ x :: queue, depth y ≤ depth x + 1 := by
  intro y hy
  rcases mem_append.mp hy with hy | hy
  · exact (pairwise_append.mp h.sorted).2.2 y hy x mem_cons_self |>.trans
      (Nat.le_succ _)
  · exact h.near x rfl y hy

/-- **One step** takes an element and adds its new successors, one further away. -/
theorem Layered.step (h : G.Layered source target processed (x :: queue) prev depth)
    (hx : x ≠ target) : ∃ depth', G.Layered source target (processed ++ [x])
      (queue ++ fresh (processed ++ x :: queue) (G.next x))
      ((fresh (processed ++ x :: queue) (G.next x)).foldl (fun prev y ↦ prev.set y x) prev)
      depth' := by
  have hfresh (y : α) : y ∈ fresh (processed ++ x :: queue) (G.next x) ↔
      G.Adj x y ∧ y ∉ processed ++ x :: queue := mem_fresh
  generalize fresh (processed ++ x :: queue) (G.next x) = new at hfresh
  have happend : (processed ++ [x]) ++ (queue ++ new) = (processed ++ x :: queue) ++ new := by simp
  have hxseen : x ∈ processed ++ x :: queue := mem_append_right _ mem_cons_self
  refine ⟨fun y ↦ if y ∈ new then depth x + 1 else depth y, ?_⟩
  have hold (y : α) (hy : y ∈ processed ++ x :: queue) :
      (if y ∈ new then depth x + 1 else depth y) = depth y :=
    if_neg fun hnew ↦ ((hfresh y).mp hnew).2 hy
  obtain ⟨-, hlater, -⟩ := pairwise_append.mp h.sorted
  constructor
  · rw [happend]
    exact mem_append_left _ h.source_mem
  · rw [hold source h.source_mem]
    exact h.depth_source
  · rw [happend]
    intro y hy hne
    rw [get?_foldl_set]
    by_cases hnew : y ∈ new
    · refine ⟨x, mem_append_left _ hxseen, if_pos hnew, ((hfresh y).mp hnew).1, ?_⟩
      rw [if_pos hnew, hold x hxseen]
    · have hy := (mem_append.mp hy).resolve_right hnew
      obtain ⟨z, hz, hprev, hadj, hdepth⟩ := h.parent y hy hne
      refine ⟨z, mem_append_left _ hz, (if_neg hnew).trans hprev, hadj, ?_⟩
      rw [hold y hy, hold z hz]
      exact hdepth
  · rw [happend]
    intro y hy z hadj
    rcases mem_append.mp hy with hy | hy
    · obtain ⟨hz, hle⟩ := h.closed y hy z hadj
      rw [hold z hz, hold y (mem_append_left _ hy)]
      exact ⟨mem_append_left _ hz, hle⟩
    · obtain rfl := mem_singleton.mp hy
      rw [hold y hxseen]
      by_cases hz : z ∈ processed ++ y :: queue
      · rw [hold z hz]
        exact ⟨mem_append_left _ hz, h.depth_le z hz⟩
      · have hnew := (hfresh z).mpr ⟨hadj, hz⟩
        rw [if_pos hnew]
        exact ⟨mem_append_right _ hnew, le_rfl⟩
  · intro htarget
    rcases mem_append.mp htarget with htarget | htarget
    · exact h.target_notMem htarget
    · exact hx (mem_singleton.mp htarget).symm
  · rw [happend]
    refine pairwise_append.mpr ⟨?_, ?_, ?_⟩
    · exact h.sorted.imp_of_mem fun hy hz hle ↦ by rwa [hold _ hy, hold _ hz]
    · refine pairwise_of_forall_mem_list fun y hy z hz ↦ ?_
      rw [if_pos hy, if_pos hz]
    · intro y hy z hz
      rw [hold y hy, if_pos hz]
      exact h.depth_le y hy
  · have hbound (y : α) (hy : y ∈ queue ++ new) :
        (if y ∈ new then depth x + 1 else depth y) ≤ depth x + 1 ∧
          depth x ≤ if y ∈ new then depth x + 1 else depth y := by
      by_cases hnew : y ∈ new
      · rw [if_pos hnew]
        exact ⟨le_rfl, Nat.le_succ _⟩
      · have hqueue := (mem_append.mp hy).resolve_right hnew
        rw [if_neg hnew]
        exact ⟨h.near x rfl y (mem_cons_of_mem x hqueue), rel_of_pairwise_cons hlater hqueue⟩
    intro y hy z hz
    exact (hbound z hz).1.trans (Nat.succ_le_succ (hbound y (mem_of_mem_head? hy)).2)

/-- The walk that is recorded has as many steps as its end is deep. -/
theorem Layered.exists_walkBack {queue : List α}
    (h : G.Layered source target processed queue prev depth) (hx : x ∈ processed ++ queue) :
    ∃ walk, (∀ fuel, depth x < fuel → walkBack prev source fuel x = some walk) ∧
      walk.length = depth x + 1 ∧ IsWalk G.Adj source x walk.reverse := by
  induction hd : depth x generalizing x with
  | zero =>
    have hsource : x = source := by
      by_contra hne
      obtain ⟨y, -, -, -, hdepth⟩ := h.parent x hx hne
      exact absurd (hd.symm.trans hdepth) (Nat.succ_ne_zero _).symm
    subst hsource
    refine ⟨[x], fun fuel hfuel ↦ ?_, rfl, isWalk_singleton G.Adj x⟩
    obtain ⟨fuel, rfl⟩ := Nat.exists_eq_succ_of_ne_zero hfuel.ne'
    rw [walkBack, if_pos rfl]
  | succ d ih =>
    have hsource : x ≠ source := by
      rintro rfl
      exact absurd (h.depth_source.symm.trans hd) (Nat.succ_ne_zero d).symm
    obtain ⟨y, hy, hprev, hadj, hdepth⟩ := h.parent x hx hsource
    obtain ⟨walk, hwalk, hlength, his⟩ := ih hy (Nat.succ.inj (hdepth.symm.trans hd))
    refine ⟨x :: walk, fun fuel hfuel ↦ ?_, congrArg (· + 1) hlength, ?_⟩
    · obtain ⟨fuel, rfl⟩ := Nat.exists_eq_succ_of_ne_zero (Nat.ne_zero_of_lt hfuel)
      rw [walkBack, if_neg hsource, hprev]
      exact congrArg (fun w ↦ w >>= fun walk ↦ some (x :: walk))
        (hwalk fuel (Nat.lt_of_succ_lt_succ hfuel))
    · rw [reverse_cons]
      exact his.concat hadj

/-- When the target is taken from the queue, no walk to it has fewer steps than it is deep. -/
theorem Layered.depth_lt_length {queue walk : List α}
    (h : G.Layered source target processed (target :: queue) prev depth)
    (hwalk : IsWalk G.Adj source target walk) : depth target < walk.length := by
  have hall := IsWalk.induction (P := fun y walk ↦
    (y ∈ processed ++ target :: queue ∧ depth y < walk.length) ∨ depth target < walk.length)
      ?_ ?_ hwalk
  · exact hall.elim And.right id
  · refine .inl ⟨h.source_mem, ?_⟩
    rw [h.depth_source]
    exact Nat.one_pos
  · intro y z walk _ hadj ih
    rw [length_append, length_singleton]
    rcases ih with ⟨hy, hdepth⟩ | hdepth
    · rcases mem_append.mp hy with hy | hy
      · obtain ⟨hz, hle⟩ := h.closed y hy z hadj
        exact .inl ⟨hz, by omega⟩
      · -- nothing that is still in the queue is nearer than the target
        have hle : depth target ≤ depth y := by
          rcases mem_cons.mp hy with rfl | hy
          · exact le_rfl
          · exact rel_of_pairwise_cons (pairwise_append.mp h.sorted).2.1 hy
        exact .inr (by omega)
    · exact .inr (by omega)

/-- A search ends with the target next, or without any way to it. -/
theorem Layered.predecessors {queue : List α}
    (h : G.Layered source target processed queue prev depth) :
    match G.predecessors target queue (processed ++ queue) prev with
    | none => ¬ ReflTransGen G.Adj source target
    | some prev' => ∃ processed' queue' depth',
        G.Layered source target processed' (target :: queue') prev' depth' := by
  generalize hseen : processed ++ queue = seen
  fun_induction FiniteGraph.predecessors G target queue seen prev generalizing processed depth with
  | case1 seen prev =>
    intro hpath
    have hall : ∀ {y}, ReflTransGen G.Adj source y → y ∈ processed := by
      intro y hy
      induction hy with
      | refl => simpa using h.source_mem
      | tail _ hadj ih => simpa using (h.closed _ ih _ hadj).1
    exact h.target_notMem (hall hpath)
  | case2 queue seen prev => exact ⟨processed, queue, depth, h⟩
  | case3 x queue seen prev hx ih =>
    subst hseen
    obtain ⟨depth', hstep⟩ := h.step hx
    exact ih hstep (by simp)

/-- **Breadth-first search** finds a shortest walk, and none only where there is none. -/
theorem exists_shortestWalk (G : FiniteGraph α) (source target : α) :
    ∃ walk, (∃ n, ∀ fuel, n ≤ fuel → G.shortestWalk fuel source target = some walk) ∧
      (walk = [] ↔ ¬ ReflTransGen G.Adj source target) ∧
      (walk ≠ [] → IsWalk G.Adj source target walk ∧
        ∀ other, IsWalk G.Adj source target other → walk.length ≤ other.length) := by
  have hsearch := (G.layered_start source target).predecessors
  rw [nil_append] at hsearch
  unfold shortestWalk
  cases hprev : G.predecessors target [source] [source] ∅ with
  | none =>
    rw [hprev] at hsearch
    exact ⟨[], ⟨0, fun _ _ ↦ rfl⟩, iff_of_true rfl hsearch, fun h ↦ absurd rfl h⟩
  | some prev =>
    rw [hprev] at hsearch
    obtain ⟨processed, queue, depth, h⟩ := hsearch
    have htarget : target ∈ processed ++ target :: queue :=
      mem_append_right _ mem_cons_self
    obtain ⟨walk, hwalk, hlength, his⟩ := h.exists_walkBack htarget
    refine ⟨walk.reverse, ⟨depth target + 1, fun fuel hfuel ↦ ?_⟩, ?_, fun _ ↦ ⟨his, ?_⟩⟩
    · exact congrArg (Option.map List.reverse) (hwalk fuel hfuel)
    · have hne : walk.reverse ≠ [] := by
        intro hnil
        cases hnil ▸ his.head
      exact iff_of_false hne fun hnot ↦ hnot his.reflTransGen
    · intro other hother
      rw [length_reverse, hlength]
      exact h.depth_lt_length hother

end FiniteGraph

end Qros.Lib
