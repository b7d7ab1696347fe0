import Mathlib.Tactic.Linarith

/-!
# A stop that follows a price

A `Guard` watches a price that is good when it is high.  It was set up at
`entry`, and triggers when the price falls to `stop`.  Two rules move the stop
at a new best price: `lockIn` moves it to the entry once the gain has reached
`lock`, whatever the stop was before; `ratchet` moves it to the best price less
`trail`, but only up, and only once the gain has reached `arm`.

`stop_step_lt_iff` says exactly when the two rules together lower the stop.
`Guard.Sound` is the invariant under which they never do: a stop above the
entry was put there by the ratchet, at a price that had not yet gained `lock`.
A guard whose stop starts below the entry is sound, and stays so.
-/

universe u

namespace Qros.Lib.StopGuard

structure Guard (α : Type u) where
  entry : α
  stop : α
  trail : α
  arm : α
  lock : α
  armed : Bool
  locked : Bool

variable {α : Type u} [AddCommGroup α] [LinearOrder α]

namespace Guard

/-- The lock is due: not yet done, asked for, and earned at the price `best`. -/
def LockDue (g : Guard α) (best : α) : Prop :=
  g.locked = false ∧ 0 < g.lock ∧ g.lock ≤ best - g.entry

/-- The ratchet is in force once the price `best` has been seen. -/
def Trails (g : Guard α) (best : α) : Prop :=
  0 < g.trail ∧ (g.armed = true ∨ g.arm ≤ 0 ∨ g.arm ≤ best - g.entry)

instance (g : Guard α) (best : α) : Decidable (g.LockDue best) :=
  inferInstanceAs (Decidable (_ ∧ _ ∧ _))

instance (g : Guard α) (best : α) : Decidable (g.Trails best) :=
  inferInstanceAs (Decidable (_ ∧ (_ ∨ _ ∨ _)))

def lockIn (g : Guard α) (best : α) : Guard α :=
  if g.LockDue best then { g with stop := g.entry, locked := true } else g

def ratchet (g : Guard α) (best : α) : Guard α :=
  if g.Trails best then { g with stop := max g.stop (best - g.trail), armed := true } else g

/-- The two rules at a new best price. -/
def step (g : Guard α) (best : α) : Guard α := (g.lockIn best).ratchet best

section Fields

variable (g : Guard α) (best : α)

@[simp] theorem entry_step : (g.step best).entry = g.entry := by
  unfold step ratchet lockIn
  split <;> split <;> rfl

@[simp] theorem trail_step : (g.step best).trail = g.trail := by
  unfold step ratchet lockIn
  split <;> split <;> rfl

@[simp] theorem lock_step : (g.step best).lock = g.lock := by
  unfold step ratchet lockIn
  split <;> split <;> rfl

theorem trails_lockIn : (g.lockIn best).Trails best ↔ g.Trails best := by
  unfold lockIn
  split <;> exact Iff.rfl

theorem armed_step : (g.step best).armed = true ↔ g.armed = true ∨ g.Trails best := by
  unfold step ratchet
  rw [if_congr (g.trails_lockIn best) rfl rfl]
  split
  · rename_i h
    exact ⟨fun _ ↦ .inr h, fun _ ↦ rfl⟩
  · rename_i h
    have harmed : (g.lockIn best).armed = g.armed := by
      unfold lockIn
      split <;> rfl
    rw [harmed]
    exact ⟨.inl, fun h' ↦ h'.resolve_right h⟩

theorem locked_step : (g.step best).locked = true ↔ g.locked = true ∨ g.LockDue best := by
  have hlocked : (g.step best).locked = (g.lockIn best).locked := by
    unfold step ratchet
    split <;> rfl
  rw [hlocked]
  unfold lockIn
  split
  · rename_i h
    exact ⟨fun _ ↦ .inr h, fun _ ↦ rfl⟩
  · rename_i h
    exact ⟨.inl, fun h' ↦ h'.resolve_right h⟩

/-- The stop after a step: the lock first, then the ratchet. -/
theorem stop_step : (g.step best).stop =
    (if g.Trails best then max (if g.LockDue best then g.entry else g.stop) (best - g.trail)
      else if g.LockDue best then g.entry else g.stop) := by
  unfold step ratchet
  rw [if_congr (g.trails_lockIn best) rfl rfl]
  unfold lockIn
  split <;> split <;> rfl

end Fields

variable {g : Guard α} {best : α}

/-- A step that neither locks nor trails leaves the stop where it was. -/
theorem stop_step_of_idle (hl : (g.step best).locked = false) (ha : (g.step best).armed = false) :
    (g.step best).stop = g.stop := by
  have hlock : ¬g.LockDue best := by
    intro h
    rw [(g.locked_step best).mpr (.inr h)] at hl
    cases hl
  have htrail : ¬g.Trails best := by
    intro h
    rw [(g.armed_step best).mpr (.inr h)] at ha
    cases ha
  rw [stop_step, if_neg htrail, if_neg hlock]

/-- **When a step lowers the stop.**  The lock is due with the stop above the
entry, and the ratchet does not make up for it. -/
theorem stop_step_lt_iff : (g.step best).stop < g.stop ↔
    g.LockDue best ∧ g.entry < g.stop ∧ ¬(g.Trails best ∧ g.stop ≤ best - g.trail) := by
  rw [stop_step]
  by_cases hl : g.LockDue best
  · by_cases ht : g.Trails best
    · rw [if_pos ht, if_pos hl, max_lt_iff]
      constructor
      · intro ⟨he, hb⟩
        exact ⟨hl, he, fun h ↦ not_le.mpr hb h.2⟩
      · intro ⟨_, he, hn⟩
        exact ⟨he, not_le.mp fun h ↦ hn ⟨ht, h⟩⟩
    · rw [if_neg ht, if_pos hl]
      exact ⟨fun he ↦ ⟨hl, he, fun h ↦ ht h.1⟩, fun h ↦ h.2.1⟩
  · have hkeep : g.stop ≤ (if g.Trails best then max g.stop (best - g.trail) else g.stop) := by
      split
      · exact le_max_left _ _
      · exact le_refl _
    rw [if_neg hl]
    exact ⟨fun h ↦ absurd h (not_lt.mpr hkeep), fun h ↦ absurd h.1 hl⟩

/-- The stop is at most the entry, or has been locked, or was put where it is by
the ratchet at a price `b` that had not earned the lock. -/
def Sound (g : Guard α) : Prop :=
  g.stop ≤ g.entry ∨ g.locked = true ∨
    g.armed = true ∧ 0 < g.trail ∧ ∃ b, g.stop ≤ b - g.trail ∧ (g.lock ≤ 0 ∨ b - g.entry < g.lock)

/-- A price that does not earn the lock is recorded by the ratchet. -/
theorem Sound.step (h : g.Sound) : (g.step best).Sound := by
  by_cases hlocked : (g.step best).locked = true
  · exact .inr (.inl hlocked)
  have hnot := mt (g.locked_step best).mpr hlocked
  push Not at hnot
  obtain ⟨hunlocked, hdue⟩ := hnot
  have hshort : g.lock ≤ 0 ∨ best - g.entry < g.lock := by
    by_contra hno
    push Not at hno
    exact hdue ⟨by simpa using hunlocked, hno.1, hno.2⟩
  have harmed := g.armed_step best
  unfold Sound
  rw [stop_step, if_neg hdue, entry_step, trail_step, lock_step]
  by_cases ht : g.Trails best
  · rw [if_pos ht]
    rcases le_total (best - g.trail) g.stop with hle | hle
    · rw [max_eq_left hle]
      exact h.imp_right (Or.imp (fun hl ↦ absurd hl hunlocked)
        fun ⟨ha, hrest⟩ ↦ ⟨harmed.mpr (.inl ha), hrest⟩)
    · rw [max_eq_right hle]
      exact .inr (.inr ⟨harmed.mpr (.inr ht), ht.1, best, le_refl _, hshort⟩)
  · rw [if_neg ht]
    exact h.imp_right (Or.imp (fun hl ↦ absurd hl hunlocked)
      fun ⟨ha, hrest⟩ ↦ ⟨harmed.mpr (.inl ha), hrest⟩)

/-- **A sound guard only tightens.** -/
theorem Sound.stop_le_step [IsOrderedAddMonoid α] (h : g.Sound) : g.stop ≤ (g.step best).stop := by
  refine not_lt.mp fun hlt ↦ ?_
  obtain ⟨⟨hunlocked, hpos, hgain⟩, habove, hratchet⟩ := stop_step_lt_iff.mp hlt
  rcases h with hle | hlocked | ⟨harmed, htrail, b, hstop, hshort⟩
  · exact absurd hle (not_le.mpr habove)
  · rw [hlocked] at hunlocked
    cases hunlocked
  · -- The price that earns the lock is above `b`, so the ratchet goes above the stop.
    have hb : b - g.entry < best - g.entry :=
      (hshort.resolve_left (not_le.mpr hpos)).trans_le hgain
    refine hratchet ⟨⟨htrail, .inl harmed⟩, hstop.trans (sub_le_sub_right ?_ _)⟩
    exact le_of_lt ((sub_lt_sub_iff_right g.entry).mp hb)

end Guard

end Qros.Lib.StopGuard
