import Mathlib.Data.List.Nodup

/-!
# Chunks of a list

`chunks k xs` cuts `xs` after every `k` elements; the last chunk may be shorter.
`slice_eq_filter_iff` says when a piece of a list without repetitions is what a
predicate selects from it.
-/

universe u v

namespace Qros.Lib

open List

variable {α : Type u}

/-- The elements of `xs` at the positions from `j * k` on, `k` of them. -/
def chunk (k : Nat) (xs : List α) (j : Nat) : List α := (xs.drop (j * k)).take k

def chunks (k : Nat) (xs : List α) : List (List α) :=
  (List.range ((xs.length + k - 1) / k)).map (chunk k xs)

variable {k : Nat} {xs : List α}

/-- A chunk for every position of its first element. -/
theorem lt_chunkCount_iff (hk : 0 < k) {j : Nat} :
    j < (xs.length + k - 1) / k ↔ j * k < xs.length := by
  rw [Nat.lt_iff_add_one_le, Nat.le_div_iff_mul_le hk, Nat.add_mul, Nat.one_mul]
  omega

theorem getElem?_chunk {j i : Nat} :
    (chunk k xs j)[i]? = if i < k then xs[j * k + i]? else none := by
  rw [chunk, getElem?_take]
  split
  · rw [getElem?_drop]
  · rfl

theorem head?_chunk (hk : 0 < k) {j : Nat} : (chunk k xs j).head? = xs[j * k]? := by
  rw [head?_eq_getElem?, getElem?_chunk, if_pos hk, Nat.add_zero]

theorem mem_chunks_iff (hk : 0 < k) {c : List α} :
    c ∈ chunks k xs ↔ ∃ j, j * k < xs.length ∧ chunk k xs j = c := by
  simp only [chunks, mem_map, mem_range, lt_chunkCount_iff hk]

theorem chunk_ne_nil (hk : 0 < k) {j : Nat} (hj : j * k < xs.length) : chunk k xs j ≠ [] := by
  intro hnil
  have : (chunk k xs j).head? = xs[j * k]? := head?_chunk hk
  rw [hnil, getElem?_eq_getElem hj] at this
  cases this

/-- The first `m` chunks are the elements before the next one. -/
theorem flatten_map_chunk (k m : Nat) (xs : List α) :
    ((List.range m).map (chunk k xs)).flatten = xs.take (m * k) := by
  induction m with
  | zero => simp
  | succ m ih =>
    rw [range_succ, map_append, flatten_append, ih, map_singleton,
      flatten_singleton, chunk, Nat.succ_mul, take_add]

theorem flatten_chunks (hk : 0 < k) : (chunks k xs).flatten = xs := by
  rw [chunks, flatten_map_chunk]
  refine take_of_length_le ?_
  have := (@lt_chunkCount_iff _ k xs hk _).not.mp (Nat.lt_irrefl _)
  omega

/-- What a predicate selects when it holds just at the positions `a ≤ i < b`. -/
theorem filter_eq_slice {p : α → Bool} {a b : Nat}
    (h : ∀ i (hi : i < xs.length), p xs[i] = true ↔ a ≤ i ∧ i < b) :
    xs.filter p = (xs.drop a).take (b - a) := by
  have hbefore : (xs.take a).filter p = [] := by
    refine filter_eq_nil_iff.mpr fun x hx ↦ ?_
    obtain ⟨i, hi, rfl⟩ := mem_iff_getElem.mp hx
    rw [getElem_take, h i]
    rw [length_take] at hi
    omega
  have hwithin : ((xs.drop a).take (b - a)).filter p = (xs.drop a).take (b - a) := by
    refine filter_eq_self.mpr fun x hx ↦ ?_
    obtain ⟨i, hi, rfl⟩ := mem_iff_getElem.mp hx
    rw [getElem_take, getElem_drop, h (a + i)]
    rw [length_take, length_drop] at hi
    omega
  have hafter : ((xs.drop a).drop (b - a)).filter p = [] := by
    refine filter_eq_nil_iff.mpr fun x hx ↦ ?_
    obtain ⟨i, hi, rfl⟩ := mem_iff_getElem.mp hx
    simp only [getElem_drop, length_drop] at hi ⊢
    rw [h (a + (b - a + i)) (by omega)]
    omega
  conv_lhs => rw [← take_append_drop a xs, ← take_append_drop (b - a) (xs.drop a)]
  rw [filter_append, filter_append, hbefore, hwithin, hafter, append_nil,
    nil_append]

theorem slice_eq_filter_iff (hnodup : xs.Nodup) {p : α → Bool} {a b : Nat} :
    (xs.drop a).take (b - a) = xs.filter p ↔
      ∀ i (hi : i < xs.length), p xs[i] = true ↔ a ≤ i ∧ i < b := by
  refine ⟨fun heq i hi ↦ ⟨fun hp ↦ ?_, fun hab ↦ ?_⟩, fun h ↦ (filter_eq_slice h).symm⟩
  · have hmem : xs[i] ∈ (xs.drop a).take (b - a) := by
      rw [heq]
      exact mem_filter.mpr ⟨getElem_mem hi, hp⟩
    obtain ⟨m, hm, hsame⟩ := mem_iff_getElem.mp hmem
    rw [getElem_take, getElem_drop] at hsame
    rw [length_take, length_drop] at hm
    have := (List.Nodup.getElem_inj_iff hnodup).mp hsame
    omega
  · have hmem : xs[i] ∈ xs.filter p := by
      rw [← heq]
      refine mem_iff_getElem.mpr ⟨i - a, by simp; omega, ?_⟩
      simp [Nat.add_sub_cancel' hab.1]
    exact (mem_filter.mp hmem).2

/-- A chunk is what `p` selects just when `p` holds at the positions of the chunk. -/
theorem chunk_eq_filter_iff (hk : 0 < k) (hnodup : xs.Nodup) {p : α → Bool} {j : Nat} :
    chunk k xs j = xs.filter p ↔ ∀ i (hi : i < xs.length), p xs[i] = true ↔ i / k = j := by
  have h := slice_eq_filter_iff (a := j * k) (b := j * k + k) hnodup (p := p)
  rw [Nat.add_sub_cancel_left] at h
  rw [chunk, h]
  refine forall_congr' fun i ↦ forall_congr' fun _ ↦ iff_congr Iff.rfl ?_
  rw [Nat.div_eq_iff hk]
  omega

end Qros.Lib

/-!
## Streams absorbed block by block

A stream is compressed into a state a block of `n` elements at a time; what does not fill a block
waits in a buffer.  `Absorbs` says that a state and a buffer are what the stream `xs` leaves, however
it was cut into pieces: the buffer grows (`Absorbs.buffer`) and is compressed when full
(`Absorbs.flush`).  Once the buffer is empty the state is that of compressing the chunks of the whole
stream in order (`Absorbs.state_eq`).
-/

namespace Qros.Lib

variable {α : Type u} {σ : Type v} {n : Nat} {xs ys : List α}

theorem chunk_append_succ (h : xs.length = n) (j : Nat) :
    chunk n (xs ++ ys) (j + 1) = chunk n ys j := by
  rw [chunk, chunk, Nat.succ_mul, Nat.add_comm, ← List.drop_drop, ← h, List.drop_left]

theorem chunk_append_zero (h : xs.length = n) : chunk n (xs ++ ys) 0 = xs := by
  rw [chunk, Nat.zero_mul, List.drop_zero, ← h, List.take_left]

theorem chunks_append (hn : 0 < n) (h : xs.length = n) :
    chunks n (xs ++ ys) = xs :: chunks n ys := by
  have hcount : ((xs ++ ys).length + n - 1) / n = (ys.length + n - 1) / n + 1 := by
    have hlen : (xs ++ ys).length + n - 1 = ys.length + n - 1 + n := by
      rw [List.length_append]
      omega
    rw [hlen, Nat.add_div_right _ hn]
  rw [chunks, hcount, List.range_succ_eq_map, List.map_cons, List.map_map, chunk_append_zero h]
  refine congrArg _ (List.map_congr_left fun j _ ↦ ?_)
  exact chunk_append_succ h j

theorem chunks_nil (hn : 0 < n) : chunks n ([] : List α) = [] := by
  have hcount : (([] : List α).length + n - 1) / n = 0 :=
    Nat.div_eq_of_lt (by rw [List.length_nil]; omega)
  rw [chunks, hcount]
  rfl

/-- Blocks of the full size are the chunks of what they make up. -/
theorem chunks_flatten (hn : 0 < n) {blocks : List (List α)} (h : ∀ b ∈ blocks, b.length = n) :
    chunks n blocks.flatten = blocks := by
  induction blocks with
  | nil => exact chunks_nil hn
  | cons b blocks ih =>
    rw [List.flatten_cons, chunks_append hn (h b List.mem_cons_self),
      ih fun b' hb' ↦ h b' (List.mem_cons_of_mem b hb')]

/-- The state and the buffer are what the stream leaves. -/
def Absorbs (n : Nat) (compress : σ → List α → σ) (start : σ) (xs : List α) (s : σ)
    (rest : List α) : Prop :=
  ∃ blocks : List (List α), (∀ b ∈ blocks, b.length = n) ∧ xs = blocks.flatten ++ rest ∧
    s = blocks.foldl compress start

namespace Absorbs

variable {compress : σ → List α → σ} {start s : σ} {rest : List α}

theorem nil (start : σ) : Absorbs n compress start [] start [] :=
  ⟨[], nofun, rfl, rfl⟩

theorem buffer (h : Absorbs n compress start xs s rest) (ys : List α) :
    Absorbs n compress start (xs ++ ys) s (rest ++ ys) := by
  obtain ⟨blocks, hblocks, hxs, hs⟩ := h
  refine ⟨blocks, hblocks, ?_, hs⟩
  rw [hxs, List.append_assoc]

theorem flush (h : Absorbs n compress start xs s rest) (hfull : rest.length = n) :
    Absorbs n compress start xs (compress s rest) [] := by
  obtain ⟨blocks, hblocks, hxs, hs⟩ := h
  refine ⟨blocks ++ [rest], ?_, ?_, ?_⟩
  · intro b hb
    rcases List.mem_append.mp hb with hb | hb
    · exact hblocks b hb
    · rw [List.mem_singleton.mp hb]
      exact hfull
  · rw [hxs, List.flatten_append, List.flatten_singleton, List.append_nil]
  · rw [List.foldl_append, ← hs]
    rfl

/-- The number of elements seen, modulo the size of a block, is that of the buffer. -/
theorem length_mod (h : Absorbs n compress start xs s rest) (hlt : rest.length < n) :
    xs.length % n = rest.length := by
  obtain ⟨blocks, hblocks, rfl, -⟩ := h
  have hflat : ∀ bs : List (List α), (∀ b ∈ bs, b.length = n) → bs.flatten.length % n = 0 := by
    intro bs
    induction bs with
    | nil => exact fun _ ↦ Nat.zero_mod n
    | cons b bs ih =>
      intro hbs
      rw [List.flatten_cons, List.length_append, hbs b List.mem_cons_self, Nat.add_mod_left]
      exact ih fun b' hb' ↦ hbs b' (List.mem_cons_of_mem b hb')
  rw [List.length_append, Nat.add_mod, hflat blocks hblocks, Nat.zero_add, Nat.mod_mod,
    Nat.mod_eq_of_lt hlt]

/-- A stream that leaves no buffer is compressed chunk by chunk. -/
theorem state_eq (hn : 0 < n) (h : Absorbs n compress start xs s []) :
    s = (chunks n xs).foldl compress start := by
  obtain ⟨blocks, hblocks, hxs, hs⟩ := h
  rw [hxs, List.append_nil, chunks_flatten hn hblocks]
  exact hs

end Absorbs

end Qros.Lib

/-!
## Listings in pages

A listing answers the number of a page with a slice of a list and the number of
pages.  A reader follows it from page one until it has read the last page;
`follow_slices` says that the slices put together are the list, without loss or
repetition, whatever the size of a page.
-/

namespace Qros.Lib

variable {α : Type u} {ε : Type v}

def slice (l : List α) (offset limit : Nat) : List α := (l.drop offset).take limit

@[simp]
theorem slice_nil (offset limit : Nat) : slice ([] : List α) offset limit = [] := by
  rw [slice, List.drop_nil, List.take_nil]

def pageCount (total size : Nat) : Nat := (total + size - 1) / size

/-- Reads pages from `page` on, as long as the last one says that there are more; `none`
means that the fuel did not suffice. -/
def follow (fetch : Nat → Except ε (List α × Nat)) : Nat → Nat → Option (Except ε (List α))
  | 0, _ => none
  | fuel + 1, page =>
    match fetch page with
    | .error e => some (.error e)
    | .ok (data, totalPages) =>
      if page < totalPages then
        (follow fetch fuel (page + 1)).map (Except.map fun rest ↦ data ++ rest)
      else some (.ok data)

/-- There are no more pages just when the list ends on this one. -/
theorem pageCount_le_iff {total size page : Nat} (hsize : 0 < size) :
    pageCount total size ≤ page ↔ total ≤ page * size := by
  unfold pageCount
  rw [← Nat.lt_succ_iff, Nat.div_lt_iff_lt_mul hsize, Nat.succ_mul]
  omega

theorem slice_append_drop (l : List α) (offset limit : Nat) :
    slice l offset limit ++ l.drop (offset + limit) = l.drop offset := by
  unfold slice
  rw [← List.drop_drop, List.take_append_drop]

theorem follow_slices_from {fetch : Nat → Except ε (List α × Nat)} {l : List α} {size : Nat}
    (hsize : 0 < size) (hfetch : ∀ page,
      fetch (page + 1) = .ok (slice l (page * size) size, pageCount l.length size))
    (fuel page : Nat) (hfuel : pageCount l.length size < fuel + page) (hpage : 0 < fuel) :
    follow fetch fuel (page + 1) = some (.ok (l.drop (page * size))) := by
  induction fuel generalizing page with
  | zero => cases hpage
  | succ fuel ih =>
    rw [follow, hfetch]
    dsimp only
    split
    · rename_i hmore
      rw [ih (page + 1) (by omega) (by omega), Nat.succ_mul]
      exact congrArg (some ∘ Except.ok) (slice_append_drop l (page * size) size)
    · rename_i hlast
      have hend := (pageCount_le_iff hsize).mp (Nat.not_lt.mp hlast)
      rw [Nat.succ_mul] at hend
      unfold slice
      rw [List.take_of_length_le]
      rw [List.length_drop]
      omega

/-- **Pages partition.**  A listing whose pages are the slices of a list is read to the end
and gives the list. -/
theorem follow_slices (fetch : Nat → Except ε (List α × Nat)) (l : List α) {size : Nat}
    (hsize : 0 < size) (hfetch : ∀ page,
      fetch (page + 1) = .ok (slice l (page * size) size, pageCount l.length size)) :
    ∃ fuel, follow fetch fuel 1 = some (.ok l) := by
  refine ⟨pageCount l.length size + 1, ?_⟩
  have h := follow_slices_from hsize hfetch (pageCount l.length size + 1) 0 (by omega) (by omega)
  rwa [Nat.zero_mul, List.drop_zero] at h

/-- A listing whose first page fails is not read. -/
theorem follow_error {fetch : Nat → Except ε (List α × Nat)} {page : Nat} {e : ε}
    (h : fetch page = .error e) (fuel : Nat) (rows : List α) :
    follow fetch fuel page ≠ some (.ok rows) := by
  cases fuel with
  | zero => exact nofun
  | succ fuel =>
    rw [follow, h]
    exact nofun

end Qros.Lib
