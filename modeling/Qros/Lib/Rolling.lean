import Mathlib.Data.List.Chain
import Mathlib.Tactic.Ring
import Mathlib.Tactic.FieldSimp

/-!
# Functions that roll along a list

`rolling k pad g xs` is `g` of the last `k` entries at every position of `xs`,
and `pad` where there are fewer.  The result at a position depends on the
entries up to it only: `take_rolling` says that rolling along a prefix gives the
prefix of the result.

`countsTo` counts the flags up to each position, and `crosses` compares two such
counts.  `countsTo_lt_iff` says what the comparison finds.
-/

universe u v w

namespace Qros.Lib

variable {α : Type u} {β : Type v}

/-! ## Windows -/

def window (k : Nat) (xs : List α) (i : Nat) : List α := (xs.drop i).take k

/-- The windows of `k` consecutive entries, in order. -/
def windows (k : Nat) (xs : List α) : List (List α) :=
  (List.range (xs.length + 1 - k)).map (window k xs)

variable {k i : Nat} {xs : List α}

@[simp]
theorem length_windows : (windows k xs).length = xs.length + 1 - k := by
  rw [windows, List.length_map, List.length_range]

theorem length_window : (window k xs i).length = min k (xs.length - i) := by
  rw [window, List.length_take, List.length_drop]

theorem getElem?_windows :
    (windows k xs)[i]? = if i < xs.length + 1 - k then some (window k xs i) else none := by
  rw [windows, List.getElem?_map]
  by_cases h : i < xs.length + 1 - k
  · rw [if_pos h, List.getElem?_range h]
    rfl
  · rw [if_neg h, List.getElem?_eq_none (by rw [List.length_range]; omega)]
    rfl

theorem window_map (f : α → β) : window k (xs.map f) i = (window k xs i).map f := by
  rw [window, window, List.map_take, List.map_drop]

/-- A window within a prefix. -/
theorem window_take {t : Nat} (h : i + k ≤ t) : window k (xs.take t) i = window k xs i := by
  rw [window, window, List.drop_take, List.take_take, Nat.min_eq_left (by omega)]

/-- The window behind the first entry of a window. -/
theorem tail_window : (window (k + 1) xs i).tail = window k xs (i + 1) := by
  rw [window, window, ← List.drop_one, List.drop_take, List.drop_drop, Nat.add_sub_cancel]

theorem dropLast_window (h : i + k < xs.length) :
    (window (k + 1) xs i).dropLast = window k xs i := by
  rw [List.dropLast_eq_take, length_window, Nat.min_eq_left (by omega), Nat.add_sub_cancel, window,
    window, List.take_take, Nat.min_eq_left (by omega)]

theorem window_zipWith {γ : Type*} (f : α → β → γ) (ys : List β) :
    window k (List.zipWith f xs ys) i = List.zipWith f (window k xs i) (window k ys i) := by
  rw [window, List.drop_zipWith, List.take_zipWith]
  rfl

/-! ## Rolling functions -/

def rolling (k : Nat) (pad : β) (g : List α → β) (xs : List α) : List β :=
  List.replicate (min (k - 1) xs.length) pad ++ (windows k xs).map g

section Rolling

variable {pad : β} {g : List α → β}

/-- Where a rolling function is defined, it is a function of the last entries. -/
theorem getElem?_rolling (hk : 0 < k) :
    (rolling k pad g xs)[i]? =
      if i < xs.length then some (if i + 1 < k then pad else g (window k xs (i + 1 - k)))
      else none := by
  rw [rolling, List.getElem?_append, List.length_replicate]
  by_cases hi : i < min (k - 1) xs.length
  · rw [if_pos hi, List.getElem?_replicate, if_pos hi, if_pos (by omega), if_pos (by omega)]
  · rw [if_neg hi, List.getElem?_map, getElem?_windows]
    by_cases hlen : i < xs.length
    · have hsub : i - min (k - 1) xs.length = i + 1 - k := by omega
      rw [hsub, if_pos (by omega), if_pos hlen, if_neg (by omega)]
      rfl
    · rw [if_neg (by omega), if_neg hlen]
      rfl

@[simp]
theorem length_rolling (hk : 0 < k) : (rolling k pad g xs).length = xs.length := by
  rw [rolling, List.length_append, List.length_replicate, List.length_map, length_windows]
  omega

/-- A rolling function does not look ahead. -/
theorem take_rolling (hk : 0 < k) (t : Nat) :
    (rolling k pad g xs).take t = rolling k pad g (xs.take t) := by
  apply List.ext_getElem?
  intro i
  rw [List.getElem?_take, getElem?_rolling hk, getElem?_rolling hk, List.length_take]
  by_cases hi : i < t
  · rw [if_pos hi]
    by_cases hlen : i < xs.length
    · rw [if_pos hlen, if_pos (show i < min t xs.length by omega)]
      by_cases hpad : i + 1 < k
      · rw [if_pos hpad, if_pos hpad]
      · rw [if_neg hpad, if_neg hpad, window_take (by omega)]
    · rw [if_neg hlen, if_neg (by omega)]
  · rw [if_neg hi, if_neg (by omega)]

end Rolling

/-! ## Counting flags -/

/-- The number of flags up to each position. -/
def countsTo (flags : List Bool) : List Int :=
  (List.range flags.length).map fun i ↦ ((flags.take (i + 1)).count true : Int)

theorem getD_countsTo {flags : List Bool} (h : i < flags.length) :
    (countsTo flags).getD i 0 = ((flags.take (i + 1)).count true : Int) := by
  rw [List.getD_eq_getElem?_getD, countsTo, List.getElem?_map, List.getElem?_range h]
  rfl

/-- Two counts differ when there is a flag between them. -/
theorem countsTo_lt_iff {flags : List Bool} {j m : Nat} (h : j + m < flags.length) :
    0 < (countsTo flags).getD (j + m) 0 - (countsTo flags).getD j 0 ↔
      true ∈ window m flags (j + 1) := by
  rw [getD_countsTo h, getD_countsTo (by omega), window, ← List.count_pos_iff]
  have hsplit : j + m + 1 = j + 1 + m := by omega
  rw [hsplit, List.take_add, List.count_append]
  omega

/-! ## Neighbours in a window -/

variable {R : α → α → Prop} [DecidableRel R]

/-- The flags raised between neighbours that are not related, one position for each entry. -/
def breaks (R : α → α → Prop) [DecidableRel R] (xs : List α) : List Bool :=
  false :: List.zipWith (fun b a ↦ decide (¬ R a b)) xs.tail xs

theorem length_breaks (h : xs ≠ []) : (breaks R xs).length = xs.length := by
  have : 0 < xs.length := List.length_pos_iff.mpr h
  rw [breaks, List.length_cons, List.length_zipWith, List.length_tail]
  omega

/-- Neighbours are related throughout when no flag is raised. -/
theorem mem_zipWith_tail_iff :
    true ∈ List.zipWith (fun b a ↦ decide (¬ R a b)) xs.tail xs ↔ ¬ xs.IsChain R := by
  induction xs with
  | nil => simp
  | cons a xs ih =>
    cases xs with
    | nil => simp
    | cons b xs =>
      rw [List.tail_cons, List.zipWith_cons_cons, List.mem_cons, List.isChain_cons_cons,
        Classical.not_and_iff_not_or_not]
      rw [List.tail_cons] at ih
      rw [ih]
      simp

/-- The flags within a window. -/
theorem mem_window_breaks_iff {m j : Nat} :
    true ∈ window m (breaks R xs) (j + 1) ↔ ¬ (window (m + 1) xs j).IsChain R := by
  rw [← mem_zipWith_tail_iff, tail_window, breaks, window, List.drop_succ_cons]
  have hshort : List.zipWith (fun b a ↦ decide (¬ R a b)) (window m xs (j + 1))
      (window (m + 1) xs j) = window m (List.zipWith (fun b a ↦ decide (¬ R a b)) xs.tail xs) j := by
    rw [window_zipWith]
    apply List.ext_getElem?
    intro i
    simp only [List.getElem?_zipWith, window, List.getElem?_take, List.getElem?_drop, ← List.drop_one]
    by_cases hi : i < m
    · rw [if_pos hi, if_pos (by omega), if_pos hi, if_pos hi, Nat.add_comm 1, Nat.add_right_comm]
    · rw [if_neg hi, if_neg hi]
  rw [hshort]
  rfl

end Qros.Lib

/-!
## Sliding accumulators

A state that is accumulated over the first `k` entries of a list, and then takes one entry in and
drops one at each step.  If dropping undoes what the first entry added, the state is what the window
accumulates by itself (`slide_eq_map_windows`), whatever the list.

The sum of the squared deviations of a list from its mean is the difference of two such sums
(`sum_sq_dev_eq`).
-/

namespace Qros.Lib

variable {α : Type u} {σ : Type v}

/-- One step of a slide, which takes the first entry of the pair in and drops the second. -/
def slideStep (add drop : σ → α → σ) (s : σ) (p : α × α) : σ := drop (add s p.1) p.2

/-- The states of a slide: the first `k` entries are added, then the entry `k` places ahead comes in
and the oldest one goes. -/
def slide (add drop : σ → α → σ) (start : σ) (k : Nat) (xs : List α) : List σ :=
  ((xs.drop k).zip xs).scanl (slideStep add drop) ((xs.take k).foldl add start)

/-- Dropping the first entry of what was accumulated undoes what it added. -/
def Drops (add drop : σ → α → σ) (start : σ) : Prop :=
  ∀ a xs, drop ((a :: xs).foldl add start) a = xs.foldl add start

variable {add drop : σ → α → σ} {start : σ} {k : Nat} {xs : List α} {a : α}

theorem window_zero_append {ys : List α} (h : xs.length = k) : window k (xs ++ ys) 0 = xs := by
  rw [window, List.drop_zero, ← h, List.take_left]

theorem windows_cons (h : k ≤ xs.length) :
    windows k (a :: xs) = window k (a :: xs) 0 :: windows k xs := by
  have hlen : (a :: xs).length + 1 - k = (xs.length + 1 - k) + 1 := by
    rw [List.length_cons]
    omega
  rw [windows, hlen, List.range_succ_eq_map, List.map_cons, List.map_map]
  rfl

theorem slideStep_foldl (h : Drops add drop start) (b : α) :
    slideStep add drop ((a :: xs).foldl add start) (b, a) = (xs ++ [b]).foldl add start := by
  rw [← h a (xs ++ [b]), ← List.cons_append, List.foldl_append]
  rfl

theorem scanl_slideStep (h : Drops add drop start) (ys : List α) (hx : xs.length = k) (hk : 0 < k) :
    (ys.zip (xs ++ ys)).scanl (slideStep add drop) (xs.foldl add start) =
      (windows k (xs ++ ys)).map (List.foldl add start) := by
  induction ys generalizing xs with
  | nil =>
    have hlast : windows k (xs ++ []) = [window k (xs ++ []) 0] := by
      rw [List.append_nil, windows, hx, Nat.add_sub_cancel_left]
      rfl
    rw [hlast, window_zero_append hx]
    exact List.scanl_nil
  | cons b ys ih =>
    cases xs with
    | nil => exact absurd hx (Nat.ne_of_lt hk)
    | cons a xs =>
      have hlen : (xs ++ [b]).length = k := by rw [← hx, List.length_append]; rfl
      have hsplit : (a :: xs) ++ b :: ys = a :: ((xs ++ [b]) ++ ys) := by
        rw [List.append_assoc]
        rfl
      have hle : k ≤ ((xs ++ [b]) ++ ys).length := by
        rw [List.length_append, hlen]
        exact Nat.le_add_right k _
      have hfirst : window k (a :: ((xs ++ [b]) ++ ys)) 0 = a :: xs := by
        rw [← hsplit]
        exact window_zero_append hx
      rw [hsplit, windows_cons hle, List.map_cons, List.zip_cons_cons, List.scanl_cons,
        slideStep_foldl h, ih hlen, hfirst]

/-- **A slide accumulates every window.** -/
theorem slide_eq_map_windows (h : Drops add drop start) (hk : 0 < k) (hle : k ≤ xs.length) :
    slide add drop start k xs = (windows k xs).map (List.foldl add start) := by
  have hscan := scanl_slideStep h (xs.drop k) (List.length_take_of_le hle) hk
  rw [List.take_append_drop] at hscan
  exact hscan

/-! ## Squared deviations -/

section

variable {F : Type u} [Field F]

/-- The squares of the deviations from the mean are a difference of sums. -/
theorem sum_sq_dev_eq (xs : List F) (hx : (xs.length : F) ≠ 0) :
    (xs.map fun x ↦ (x - xs.sum / xs.length) * (x - xs.sum / xs.length)).sum =
      (xs.map fun x ↦ x * x).sum - xs.sum * xs.sum / xs.length := by
  have hsum : ∀ (m : F) (ys : List F), (ys.map fun x ↦ (x - m) * (x - m)).sum =
      (ys.map fun x ↦ x * x).sum - 2 * m * ys.sum + ys.length * (m * m) := by
    intro m ys
    induction ys with
    | nil => simp
    | cons y ys ih =>
      rw [List.map_cons, List.sum_cons, ih, List.map_cons, List.sum_cons, List.sum_cons,
        List.length_cons, Nat.cast_succ]
      ring
  rw [hsum]
  field_simp
  ring

end

end Qros.Lib

/-!
## Bounded queues

A queue of at most `k` entries that are pushed one by one holds the last `k` of them
(`push_lastN`), and a sum kept along with it, less what is evicted, is the sum of what it
holds (`sum_push`).  A rolling function at the end of a list is a function of such a queue
(`rolling_concat`).
-/

namespace Qros.Lib

variable {α : Type u} {β : Type v}

def lastN (k : Nat) (xs : List α) : List α := xs.drop (xs.length - k)

/-- What the next push evicts. -/
def evicted (k : Nat) (q : List α) : Option α := if q.length = k then q.head? else none

def push (k : Nat) (q : List α) (a : α) : List α := (if q.length = k then q.tail else q) ++ [a]

variable {k : Nat}

@[simp]
theorem lastN_nil : lastN k ([] : List α) = [] := List.drop_nil

theorem length_lastN (xs : List α) : (lastN k xs).length = min k xs.length := by
  rw [lastN, List.length_drop]
  omega

variable {xs : List α}

theorem lastN_of_le (h : xs.length ≤ k) : lastN k xs = xs := by
  rw [lastN, Nat.sub_eq_zero_of_le h, List.drop_zero]

theorem length_lastN_eq_iff : (lastN k xs).length = k ↔ k ≤ xs.length := by
  rw [length_lastN]
  omega

theorem lastN_map (f : α → β) (xs : List α) : lastN k (xs.map f) = (lastN k xs).map f := by
  rw [lastN, lastN, List.length_map, List.map_drop]

/-- A queue holds the last entries pushed. -/
theorem push_lastN (hk : 0 < k) (xs : List α) (a : α) :
    push k (lastN k xs) a = lastN k (xs ++ [a]) := by
  unfold push
  by_cases h : k ≤ xs.length
  · rw [if_pos (length_lastN_eq_iff.mpr h), lastN, lastN, List.tail_drop, List.length_append,
      List.length_singleton, List.drop_append_of_le_length (by omega)]
    have hsub : xs.length - k + 1 = xs.length + 1 - k := by omega
    rw [hsub]
  · have hshort : xs.length + 1 ≤ k := by omega
    rw [if_neg (mt length_lastN_eq_iff.mp h), lastN_of_le (by omega),
      lastN_of_le (by rw [List.length_append]; exact hshort)]

/-- The sum kept along with a queue. -/
theorem sum_push {F : Type*} [AddCommGroup F] (f : α → F) (hk : 0 < k) (q : List α) (a : α) :
    ((push k q a).map f).sum =
      (match evicted k q with
        | none => (q.map f).sum
        | some e => (q.map f).sum - f e) + f a := by
  unfold push evicted
  rw [List.map_append, List.sum_append, List.map_singleton, List.sum_singleton]
  congr 1
  by_cases hfull : q.length = k
  · rw [if_pos hfull, if_pos hfull]
    cases q with
    | nil => exact absurd hfull hk.ne
    | cons e q => simp
  · rw [if_neg hfull, if_neg hfull]

/-- A rolling function of one more entry. -/
theorem rolling_concat {pad : β} {g : List α → β} (hk : 0 < k) (xs : List α) (a : α) :
    rolling k pad g (xs ++ [a]) =
      rolling k pad g xs ++ [if xs.length + 1 < k then pad else g (lastN k (xs ++ [a]))] := by
  have hearlier : (rolling k pad g (xs ++ [a])).take xs.length =
      rolling k pad g ((xs ++ [a]).take xs.length) := take_rolling hk _
  rw [List.take_left] at hearlier
  have hlength : (rolling k pad g (xs ++ [a])).length = xs.length + 1 := by
    rw [length_rolling hk, List.length_append, List.length_singleton]
  have hlast : (rolling k pad g (xs ++ [a]))[xs.length]? = _ := getElem?_rolling hk
  rw [List.length_append, List.length_singleton, if_pos (Nat.lt_succ_self _)] at hlast
  have hwindow : ¬ xs.length + 1 < k →
      window k (xs ++ [a]) (xs.length + 1 - k) = lastN k (xs ++ [a]) := by
    intro hlong
    rw [window, lastN, List.length_append, List.length_singleton, List.take_of_length_le]
    rw [List.length_drop, List.length_append, List.length_singleton]
    omega
  rw [← List.take_append_drop xs.length (rolling k pad g (xs ++ [a])), hearlier]
  congr 1
  rw [List.drop_eq_getElem?_toList_append, hlast, List.drop_of_length_le (by omega)]
  by_cases hshort : xs.length + 1 < k
  · rw [if_pos hshort, if_pos hshort]
    rfl
  · rw [if_neg hshort, if_neg hshort, hwindow hshort]
    rfl

/-- A series that appends an entry for each element has at every position the entry of the
prefix that ends there. -/
theorem getElem?_of_concat {s : List α → List β} {entry : List α → β} (hnil : s [] = [])
    (hconcat : ∀ xs x, s (xs ++ [x]) = s xs ++ [entry (xs ++ [x])]) {i : Nat} (hi : i < xs.length) :
    (s xs)[i]? = some (entry (xs.take (i + 1))) := by
  have hlength (xs : List α) : (s xs).length = xs.length := by
    induction xs using List.reverseRecOn with
    | nil => rw [hnil]; rfl
    | append_singleton xs x ih =>
      rw [hconcat, List.length_append, List.length_append, ih]
      rfl
  induction xs using List.reverseRecOn with
  | nil => cases hi
  | append_singleton xs x ih =>
    rw [List.length_append, List.length_singleton] at hi
    rw [hconcat]
    by_cases hlast : i < xs.length
    · rw [List.getElem?_append_left (by rwa [hlength]), ih hlast,
        List.take_append_of_le_length (Nat.succ_le_of_lt hlast)]
    · have heq : i = xs.length := by omega
      rw [heq, ← hlength xs, List.getElem?_concat_length, hlength, List.take_of_length_le]
      rw [List.length_append, List.length_singleton]

end Qros.Lib

/-!
## Online computations

A function of a series is causal if what it makes of a prefix is a prefix of what it makes of
the series.  A loop over the positions of a series, which logs events with the position at
which they occur, logs for a prefix what it logs for the series up to there
(`log_loop_eq_filter`), if each step reads the prefix only.
-/

namespace Qros.Lib.Online

variable {α : Type u} {β : Type v} {σ : Type w}

/-! ## Slices -/

def slice (xs : List α) (a b : Nat) : List α := (xs.take b).drop a

theorem length_slice {xs : List α} {a b : Nat} (hb : b ≤ xs.length) :
    (slice xs a b).length = b - a := by
  rw [slice, List.length_drop, List.length_take, Nat.min_eq_left hb]

theorem getElem?_slice {xs : List α} {a b i : Nat} (ha : a ≤ i) (hb : i < b)
    (hi : i < xs.length) (x : α) : (slice xs a b)[i - a]? = some (xs.getD i x) := by
  rw [slice, List.getElem?_drop, List.getElem?_take, if_pos (by omega), Nat.add_sub_cancel' ha,
    List.getD_eq_getElem?_getD, List.getElem?_eq_getElem hi]
  rfl

theorem getD_mem_slice {xs : List α} {a b i : Nat} (ha : a ≤ i) (hb : i < b)
    (hi : i < xs.length) (x : α) : xs.getD i x ∈ slice xs a b :=
  List.mem_of_getElem? (getElem?_slice ha hb hi x)

theorem slice_map (f : α → β) (xs : List α) (a b : Nat) :
    slice (xs.map f) a b = (slice xs a b).map f := by
  rw [slice, slice, ← List.map_take, ← List.map_drop]

theorem slice_take {xs : List α} {a b k : Nat} (h : b ≤ k) :
    slice (xs.take k) a b = slice xs a b := by
  unfold slice
  rw [List.take_take, Nat.min_eq_left h]

theorem getD_take {xs : List α} {i k : Nat} (h : i < k) (a : α) :
    (xs.take k).getD i a = xs.getD i a := by
  rw [List.getD_eq_getElem?_getD, List.getD_eq_getElem?_getD, List.getElem?_take, if_pos h]

theorem take_zip (xs : List α) (ys : List β) (k : Nat) :
    (xs.zip ys).take k = (xs.take k).zip (ys.take k) := by
  rw [List.zip_eq_zipWith, List.take_zipWith, List.zip_eq_zipWith]

/-- A function of a series does not look ahead. -/
def Causal (f : List α → List β) : Prop := ∀ xs k, (f xs).take k = f (xs.take k)

/-! ## Loops -/

/-- `for i in range(n)`. -/
def loop (step : Nat → σ → σ) (n : Nat) (s : σ) : σ := (List.range n).foldl (fun s i ↦ step i s) s

variable {step step' : Nat → σ → σ} {n k : Nat} {s : σ}

@[simp]
theorem loop_zero : loop step 0 s = s := rfl

theorem loop_succ : loop step (n + 1) s = step n (loop step n s) := by
  unfold loop
  rw [List.range_succ, List.foldl_append, List.foldl_cons, List.foldl_nil]

/-- Steps that do the same up to `n`. -/
theorem loop_congr (h : ∀ i < n, ∀ s, step i s = step' i s) : loop step n s = loop step' n s := by
  induction n with
  | zero => rfl
  | succ n ih =>
    rw [loop_succ, loop_succ, ih fun i hi ↦ h i (Nat.lt_succ_of_lt hi), h n (Nat.lt_succ_self n)]

section Log

variable {ε : Type*} (log : σ → List ε) (time : ε → Nat)

def Adds (i : Nat) (old all : List ε) : Prop := ∃ new, all = old ++ new ∧ ∀ e ∈ new, time e = i

/-- A step adds events of its own position to the log. -/
def Logs (step : Nat → σ → σ) : Prop := ∀ i s, Adds time i (log s) (log (step i s))

variable {log time}

theorem Adds.refl (i : Nat) (old : List ε) : Adds time i old old :=
  ⟨[], (List.append_nil old).symm, List.forall_mem_nil _⟩

theorem adds_concat {i : Nat} {e : ε} (h : time e = i) (old : List ε) :
    Adds time i old (old ++ [e]) :=
  ⟨[e], rfl, List.forall_mem_singleton.mpr h⟩

theorem Adds.trans {i : Nat} {a b c : List ε} (h : Adds time i a b) (h' : Adds time i b c) :
    Adds time i a c := by
  obtain ⟨new, rfl, hnew⟩ := h
  obtain ⟨new', rfl, hnew'⟩ := h'
  refine ⟨new ++ new', List.append_assoc a new new', fun e he ↦ ?_⟩
  rcases List.mem_append.mp he with he | he
  · exact hnew e he
  · exact hnew' e he

/-- The events of a loop occur while it runs. -/
theorem Logs.time_lt (h : Logs log time step) (hs : log s = []) (n : Nat) :
    ∀ e ∈ log (loop step n s), time e < n := by
  induction n with
  | zero =>
    rw [loop_zero, hs]
    exact fun e he ↦ absurd he List.not_mem_nil
  | succ n ih =>
    obtain ⟨new, hnew, htime⟩ := h n (loop step n s)
    rw [loop_succ, hnew]
    intro e he
    rcases List.mem_append.mp he with he | he
    · exact Nat.lt_succ_of_lt (ih e he)
    · rw [htime e he]
      exact Nat.lt_succ_self n

/-- **Events are final.**  The log up to `k` is the part of the whole log before `k`. -/
theorem Logs.log_loop_eq_filter (h : Logs log time step) (hs : log s = []) (hk : k ≤ n) :
    log (loop step k s) = (log (loop step n s)).filter (fun e ↦ decide (time e < k)) := by
  induction n, hk using Nat.le_induction with
  | base =>
    rw [eq_comm, List.filter_eq_self]
    exact fun e he ↦ decide_eq_true (h.time_lt hs k e he)
  | succ n hn ih =>
    obtain ⟨new, hnew, htime⟩ := h n (loop step n s)
    have hlater : new.filter (fun e ↦ decide (time e < k)) = [] := by
      rw [List.filter_eq_nil_iff]
      intro e he
      rw [htime e he, decide_eq_true_iff]
      exact Nat.not_lt.mpr hn
    rw [loop_succ, hnew, List.filter_append, hlater, List.append_nil, ih]

end Log

end Qros.Lib.Online
