import Mathlib.Data.List.Chain
import Mathlib.Order.Lattice
import Qros.Lib.Checks

/-!
# Steps that may fail

`steps next n a` takes `n` steps from `a`, of which any may fail.  `seek` steps until a test
holds, and `collect` lists the places that are passed up to a bound.  Both are described by where
the steps lead (`seek_eq_ok`), and the list by a formula for the places (`exists_collect`,
`getElem?_collect`).
-/

universe u v w

namespace Qros.Lib.Stepping

variable {ε : Type u} {α : Type v} {next : α → Except ε α}

def steps (next : α → Except ε α) : Nat → α → Except ε α
  | 0, a => .ok a
  | n + 1, a => next a >>= steps next n

theorem steps_succ_eq_ok {n : Nat} {a c : α} :
    steps next (n + 1) a = .ok c ↔ ∃ b, next a = .ok b ∧ steps next n b = .ok c :=
  bind_eq_ok

theorem exists_steps_of_le {m n : Nat} (hmn : m ≤ n) {a c : α} (h : steps next n a = .ok c) :
    ∃ b, steps next m a = .ok b := by
  induction m generalizing n a with
  | zero => exact ⟨a, rfl⟩
  | succ m ih =>
    obtain ⟨n, rfl⟩ := Nat.exists_eq_add_of_le' (m.succ_pos.trans_le hmn)
    obtain ⟨b, hb, hc⟩ := steps_succ_eq_ok.mp h
    obtain ⟨b', hb'⟩ := ih (Nat.succ_le_succ_iff.mp hmn) hc
    exact ⟨b', steps_succ_eq_ok.mpr ⟨b, hb, hb'⟩⟩

/-! ## Search -/

/-- The first place after `a` where the test holds, if no step and no test before it fails. -/
def seek (next : α → Except ε α) (test : α → Except ε Bool) (rank : α → Nat)
    (hrank : ∀ {a b}, next a = .ok b → rank b < rank a) (a : α) : Except ε α :=
  match _h : next a with
  | .error e => .error e
  | .ok b =>
    match test b with
    | .error e => .error e
    | .ok true => .ok b
    | .ok false => seek next test rank hrank b
termination_by rank a
decreasing_by exact hrank _h

variable {test : α → Except ε Bool} {rank : α → Nat}
  {hrank : ∀ {a b}, next a = .ok b → rank b < rank a}

/-- **What a search finds.** -/
theorem seek_eq_ok {a c : α} :
    seek next test rank hrank a = .ok c ↔ ∃ n, steps next (n + 1) a = .ok c ∧ test c = .ok true ∧
      ∀ m < n, ∀ b, steps next (m + 1) a = .ok b → test b = .ok false := by
  fun_induction seek next test rank hrank a with
  | case1 a e h =>
    refine iff_of_false (fun h ↦ by cases h) ?_
    rintro ⟨n, hsteps, -⟩
    obtain ⟨b, hb, -⟩ := steps_succ_eq_ok.mp hsteps
    cases h.symm.trans hb
  | case2 a b h e htest =>
    refine iff_of_false (fun h ↦ by cases h) ?_
    rintro ⟨n, hsteps, hc, hbefore⟩
    cases n with
    | zero =>
      obtain ⟨b', hb, hc'⟩ := steps_succ_eq_ok.mp hsteps
      obtain rfl := Except.ok.inj (h.symm.trans hb)
      cases hc'
      cases htest.symm.trans hc
    | succ n =>
      cases htest.symm.trans (hbefore 0 n.succ_pos b (steps_succ_eq_ok.mpr ⟨b, h, rfl⟩))
  | case3 a b h htest =>
    constructor
    · intro hc
      obtain rfl := Except.ok.inj hc
      exact ⟨0, steps_succ_eq_ok.mpr ⟨b, h, rfl⟩, htest, fun m hm ↦ absurd hm m.not_lt_zero⟩
    · rintro ⟨n, hsteps, hc, hbefore⟩
      cases n with
      | zero =>
        obtain ⟨b', hb, hc'⟩ := steps_succ_eq_ok.mp hsteps
        obtain rfl := Except.ok.inj (h.symm.trans hb)
        exact hc'
      | succ n =>
        cases htest.symm.trans (hbefore 0 n.succ_pos b (steps_succ_eq_ok.mpr ⟨b, h, rfl⟩))
  | case4 a b h htest ih =>
    rw [ih]
    constructor
    · rintro ⟨n, hsteps, hc, hbefore⟩
      refine ⟨n + 1, steps_succ_eq_ok.mpr ⟨b, h, hsteps⟩, hc, fun m hm b' hb' ↦ ?_⟩
      obtain ⟨b'', hb, hb'⟩ := steps_succ_eq_ok.mp hb'
      obtain rfl := Except.ok.inj (h.symm.trans hb)
      cases m with
      | zero =>
        cases hb'
        exact htest
      | succ m => exact hbefore m (by omega) b' hb'
    · rintro ⟨n, hsteps, hc, hbefore⟩
      obtain ⟨b', hb, hsteps⟩ := steps_succ_eq_ok.mp hsteps
      obtain rfl := Except.ok.inj (h.symm.trans hb)
      cases n with
      | zero =>
        cases hsteps
        cases htest.symm.trans hc
      | succ n =>
        exact ⟨n, hsteps, hc, fun m hm b' hb' ↦
          hbefore (m + 1) (by omega) b' (steps_succ_eq_ok.mpr ⟨b, h, hb'⟩)⟩

/-! ## Lists of places -/

/-- At most `n` places from `a` on, as long as they are within a bound. -/
def collect (next : α → Except ε α) (within : α → Bool) : Nat → α → Except ε (List α)
  | 0, _ => .ok []
  | n + 1, a =>
    if within a = true then do
      let b ← next a
      let l ← collect next within n b
      return a :: l
    else .ok []

theorem collect_succ {within : α → Bool} {n : Nat} {a : α} {l : List α} (h : within a = true) :
    collect next within (n + 1) a = .ok l ↔
      ∃ b l', next a = .ok b ∧ collect next within n b = .ok l' ∧ a :: l' = l := by
  rw [collect, if_pos h, bind_eq_ok]
  refine exists_congr fun b ↦ ?_
  rw [bind_eq_ok, exists_and_left]
  refine and_congr_right fun _ ↦ exists_congr fun l' ↦ and_congr_right fun _ ↦ ?_
  exact ⟨Except.ok.inj, congrArg Except.ok⟩

variable {β : Type w} [LinearOrder β] {value : α → β} {place : Nat → β} {stop : β} {n : Nat} {a : α}
  {l : List α}

/-- **When a list is collected**, for a formula of the places. -/
theorem exists_collect (hmono : Monotone place) (hplace : value a = place 0)
    (hnext : ∀ j t u, value t = place j → (next t = .ok u ↔ value u = place (j + 1))) :
    (∃ l, collect next (fun t ↦ decide (value t ≤ stop)) n a = .ok l) ↔
      ∀ j < n, place j ≤ stop → ∃ u, value u = place (j + 1) := by
  induction n generalizing a place with
  | zero => exact iff_of_true ⟨[], rfl⟩ fun j hj ↦ absurd hj j.not_lt_zero
  | succ n ih =>
    by_cases hstop : place 0 ≤ stop
    · have hmono' : Monotone fun j ↦ place (j + 1) := hmono.comp fun _ _ ↦ Nat.succ_le_succ
      have hrest := fun {b : α} (hb : value b = place 1) ↦
        ih (a := b) hmono' hb fun j ↦ hnext (j + 1)
      have hcollect := fun l ↦ @collect_succ _ _ next (fun t ↦ decide (value t ≤ stop)) n a l
        (decide_eq_true (hplace ▸ hstop))
      simp only [hcollect]
      constructor
      · rintro ⟨-, b, l', hb, hl', -⟩ j hj hle
        cases j with
        | zero => exact ⟨b, (hnext 0 a b hplace).mp hb⟩
        | succ j =>
          exact (hrest ((hnext 0 a b hplace).mp hb)).mp ⟨l', hl'⟩ j (by omega) hle
      · intro h
        obtain ⟨b, hb⟩ := h 0 n.succ_pos hstop
        obtain ⟨l', hl'⟩ := (hrest hb).mpr fun j hj hle ↦ h (j + 1) (by omega) hle
        exact ⟨a :: l', b, l', (hnext 0 a b hplace).mpr hb, hl', rfl⟩
    · refine iff_of_true ⟨[], ?_⟩ fun j _ hj ↦ absurd ((hmono j.zero_le).trans hj) hstop
      rw [collect, if_neg]
      rw [decide_eq_true_eq, hplace]
      exact hstop

/-- **What is collected.** -/
theorem getElem?_collect (hmono : Monotone place) (hinj : Function.Injective value)
    (hplace : value a = place 0)
    (hnext : ∀ j t u, value t = place j → (next t = .ok u ↔ value u = place (j + 1)))
    (h : collect next (fun t ↦ decide (value t ≤ stop)) n a = .ok l) {j : Nat} {u : α} :
    l[j]? = some u ↔ j < n ∧ place j ≤ stop ∧ value u = place j := by
  induction n generalizing a place l j with
  | zero =>
    cases h
    exact iff_of_false (by simp) fun h ↦ absurd h.1 j.not_lt_zero
  | succ n ih =>
    by_cases hstop : place 0 ≤ stop
    · obtain ⟨b, l', hb, hl', rfl⟩ :=
        (@collect_succ _ _ next (fun t ↦ decide (value t ≤ stop)) n a l
          (decide_eq_true (hplace ▸ hstop))).mp h
      cases j with
      | zero =>
        rw [List.getElem?_cons_zero, Option.some.injEq]
        constructor
        · rintro rfl
          exact ⟨n.succ_pos, hstop, hplace⟩
        · rintro ⟨-, -, hu⟩
          exact hinj (hplace.trans hu.symm)
      | succ j =>
        have hmono' : Monotone fun j ↦ place (j + 1) := hmono.comp fun _ _ ↦ Nat.succ_le_succ
        rw [List.getElem?_cons_succ, ih hmono' ((hnext 0 a b hplace).mp hb) (fun j ↦ hnext (j + 1)) hl',
          Nat.succ_lt_succ_iff]
    · rw [collect, if_neg (by rw [decide_eq_true_eq, hplace]; exact hstop)] at h
      cases h
      exact iff_of_false (by simp) fun h ↦ absurd ((hmono j.zero_le).trans h.2.1) hstop

/-- A relation between neighbours of the list, for a formula of the places. -/
theorem isChain_collect (hmono : Monotone place) (hinj : Function.Injective value)
    (hplace : value a = place 0)
    (hnext : ∀ j t u, value t = place j → (next t = .ok u ↔ value u = place (j + 1)))
    (h : collect next (fun t ↦ decide (value t ≤ stop)) n a = .ok l) {R : α → α → Prop} :
    l.IsChain R ↔ ∀ j t u, j + 1 < n → place (j + 1) ≤ stop → value t = place j →
      value u = place (j + 1) → R t u := by
  have hget := fun {j : Nat} {u : α} ↦ getElem?_collect hmono hinj hplace hnext h (j := j) (u := u)
  rw [List.isChain_iff_getElem]
  constructor
  · intro hchain j t u hj hle ht hu
    obtain ⟨hj₀, ht⟩ := List.getElem?_eq_some_iff.mp
      (hget.mpr ⟨by omega, (hmono (by omega : j ≤ j + 1)).trans hle, ht⟩)
    obtain ⟨hj₁, hu⟩ := List.getElem?_eq_some_iff.mp (hget.mpr ⟨hj, hle, hu⟩)
    rw [← ht, ← hu]
    exact hchain j hj₁
  · intro hall j hj
    obtain ⟨-, -, ht⟩ := hget.mp (List.getElem?_eq_getElem (by omega : j < l.length))
    obtain ⟨hj, hle, hu⟩ := hget.mp (List.getElem?_eq_getElem hj)
    exact hall j _ _ hj hle ht hu

end Qros.Lib.Stepping
