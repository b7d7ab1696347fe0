import Qros.Saas.Store

/-!
# The shared rate limiter

`consume_api_rate_limit` of `202609180011_saas_shared_rate_limit.sql`, which
`SupabaseRateLimiter` calls, and the in-process `FixedWindowRateLimiter` of
`researchos/saas/rate_limit.py`.

Both open a window at a call that finds none or an expired one, and both stop
counting at the limit.  The in-process limiter decides on the count before the call;
the SQL function decides on the count after it, which never exceeds the limit, so
that it allows every call (`consume_ok`).  The two agree, and the limit holds, just
as long as no window gets more calls than the limit: `shared_rate_limit_iff`.
-/

namespace Qros.Saas

open Qros.Lib List

/-! ## The in-process limiter -/

structure RateWindow where
  startedAt : DateTime
  count : Nat
deriving DecidableEq

/-- The constructor raises unless both arguments are positive. -/
structure FixedWindowRateLimiter where
  limit : Int
  windowSeconds : Int
  limit_pos : 0 < limit
  windowSeconds_pos : 0 < windowSeconds

namespace FixedWindowRateLimiter

def allow (limiter : FixedWindowRateLimiter) (key : String) (now : DateTime)
    (windows : Dict String RateWindow) : Bool × Dict String RateWindow :=
  match windows.get? key with
  | none => (true, windows.set key ⟨now, 1⟩)
  | some window =>
    if limiter.windowSeconds * 1000000 ≤ now - window.startedAt then
      (true, windows.set key ⟨now, 1⟩)
    else if limiter.limit ≤ window.count then (false, windows)
    else (true, windows.set key ⟨window.startedAt, window.count + 1⟩)

end FixedWindowRateLimiter

/-! ## The SQL function -/

structure ApiRateLimit where
  windowStartedAt : DateTime
  requestCount : Nat
  expiresAt : DateTime
deriving DecidableEq

/-- The row that `insert … on conflict (rate_key) do update` leaves. -/
def ApiRateLimit.upsert (limit windowSeconds : Int) (now : DateTime) :
    Option ApiRateLimit → ApiRateLimit
  | none => ⟨now, 1, now + windowSeconds * 1000000⟩
  | some row =>
    { windowStartedAt := if row.expiresAt ≤ now then now else row.windowStartedAt
      requestCount :=
        if row.expiresAt ≤ now then 1
        else if row.requestCount < limit then row.requestCount + 1
        else row.requestCount
      expiresAt :=
        if row.expiresAt ≤ now then now + windowSeconds * 1000000 else row.expiresAt }

/-- The keys that the check of the table admits. -/
def IsRateKey (key : String) : Prop := 1 ≤ key.length ∧ key.length ≤ 128

instance (key : String) : Decidable (IsRateKey key) := inferInstanceAs (Decidable (_ ∧ _))

def consumeApiRateLimit (key : String) (limit windowSeconds : Int) (now : DateTime)
    (table : Dict String ApiRateLimit) : Except String Bool × Dict String ApiRateLimit :=
  if ¬ IsRateKey key ∨ limit < 1 ∨ windowSeconds < 1 then
    (.error "invalid rate limit arguments", table)
  else
    let row := ApiRateLimit.upsert limit windowSeconds now (table.get? key)
    (.ok (decide (row.requestCount ≤ limit)), table.set key row)

/-! ## Runs -/

structure RateCall where
  key : String
  now : DateTime
deriving DecidableEq

variable (limiter : FixedWindowRateLimiter)

def localLimiter : Machine (Dict String RateWindow) RateCall Bool where
  init := ∅
  step := fun c windows ↦ limiter.allow c.key c.now windows

def sharedLimiter : Machine (Dict String ApiRateLimit) RateCall (Except String Bool) where
  init := ∅
  step := fun c table ↦
    consumeApiRateLimit c.key limiter.limit limiter.windowSeconds c.now table

def answers {α : Type} (key : String) (trace : List (RateCall × α)) : List α :=
  (trace.filter fun e ↦ decide (e.1.key = key)).map Prod.snd

def allowedIn (key : String) (row : ApiRateLimit) (trace : List (RateCall × Except String Bool)) :
    List (RateCall × Except String Bool) :=
  trace.filter fun e ↦
    decide (e.1.key = key) && decide (row.windowStartedAt ≤ e.1.now) &&
      decide (e.1.now < row.expiresAt) && e.2.toOption == some true

/-- At most `limit` calls with the key were allowed in its current window. -/
def WithinLimit (key : String) (is : List RateCall) : Prop :=
  ∀ row ∈ ((sharedLimiter limiter).after is).get? key,
    (allowedIn key row ((sharedLimiter limiter).trace is)).length ≤ limiter.limit

/-- The two limiters have given the same answers to the calls with the key. -/
def SameAnswers (key : String) (is : List RateCall) : Prop :=
  answers key ((sharedLimiter limiter).trace is) =
    (answers key ((localLimiter limiter).trace is)).map .ok

/-- The call opens a window, or finds one with fewer calls than the limit. -/
def HasRoom (key : String) (is : List RateCall) (c : RateCall) : Prop :=
  c.key = key → ∀ row ∈ ((sharedLimiter limiter).after is).get? key,
    c.now < row.expiresAt → row.requestCount < limiter.limit

instance (key : String) (is : List RateCall) (c : RateCall) :
    Decidable (HasRoom limiter key is c) :=
  inferInstanceAs (Decidable (_ = _ → ∀ row ∈ ((sharedLimiter limiter).after is).get? key, _))

/-! ## The rows and the windows -/

/-- The row and the window of a key count the same calls. -/
structure InStep (row : ApiRateLimit) (window : RateWindow) : Prop where
  startedAt : row.windowStartedAt = window.startedAt
  expiresAt : row.expiresAt = window.startedAt + limiter.windowSeconds * 1000000
  count : row.requestCount = window.count
  count_le : row.requestCount ≤ limiter.limit

variable {limiter} {key : String}

variable {now : DateTime} {is : List RateCall}

theorem InStep.expired_iff {row : ApiRateLimit} {window : RateWindow}
    (h : InStep limiter row window) :
    row.expiresAt ≤ now ↔ limiter.windowSeconds * 1000000 ≤ now - window.startedAt := by
  rw [h.expiresAt, Int.add_comm]
  exact Int.add_le_iff_le_sub

theorem consume_of_isRateKey (hk : IsRateKey key) (now : DateTime)
    (table : Dict String ApiRateLimit) :
    consumeApiRateLimit key limiter.limit limiter.windowSeconds now table =
      (.ok (decide ((ApiRateLimit.upsert limiter.limit limiter.windowSeconds now
          (table.get? key)).requestCount ≤ limiter.limit)),
        table.set key (.upsert limiter.limit limiter.windowSeconds now (table.get? key))) := by
  have hl := limiter.limit_pos
  have hw := limiter.windowSeconds_pos
  unfold consumeApiRateLimit
  rw [if_neg]
  rintro (h | h | h)
  · exact h hk
  · omega
  · omega

theorem consume_get?_of_ne {key' : String} (h : key' ≠ key) (limit windowSeconds : Int)
    (now : DateTime) (table : Dict String ApiRateLimit) :
    (consumeApiRateLimit key' limit windowSeconds now table).2.get? key = table.get? key := by
  unfold consumeApiRateLimit
  split
  · rfl
  · exact table.get?_set_of_ne _ h

theorem allow_get?_of_ne {key' : String} (h : key' ≠ key) (now : DateTime)
    (windows : Dict String RateWindow) :
    (limiter.allow key' now windows).2.get? key = windows.get? key := by
  unfold FixedWindowRateLimiter.allow
  split
  · exact windows.get?_set_of_ne _ h
  · split
    · exact windows.get?_set_of_ne _ h
    · split
      · rfl
      · exact windows.get?_set_of_ne _ h

theorem inStep_open (now : DateTime) :
    InStep limiter ⟨now, 1, now + limiter.windowSeconds * 1000000⟩ ⟨now, 1⟩ where
  startedAt := rfl
  expiresAt := rfl
  count := rfl
  count_le := limiter.limit_pos

theorem inStep_call {table : Dict String ApiRateLimit} {windows : Dict String RateWindow}
    (now : DateTime) (h : Option.Rel (InStep limiter) (table.get? key) (windows.get? key)) :
    ∃ window, (limiter.allow key now windows).2.get? key = some window ∧
      InStep limiter (.upsert limiter.limit limiter.windowSeconds now (table.get? key)) window := by
  unfold FixedWindowRateLimiter.allow
  cases hw : windows.get? key with
  | none =>
    rw [hw] at h
    cases ht : table.get? key with
    | some row =>
      rw [ht] at h
      cases h
    | none => exact ⟨_, windows.get?_set_self key _, inStep_open now⟩
  | some window =>
    rw [hw] at h
    cases ht : table.get? key with
    | none =>
      rw [ht] at h
      cases h
    | some row =>
      rw [ht] at h
      cases h with
      | some h =>
        have hcount := h.count
        have hle := h.count_le
        simp only [ApiRateLimit.upsert]
        by_cases hopen : row.expiresAt ≤ now
        · rw [if_pos (h.expired_iff.mp hopen), if_pos hopen, if_pos hopen, if_pos hopen]
          exact ⟨_, windows.get?_set_self key _, inStep_open now⟩
        · rw [if_neg (mt h.expired_iff.mpr hopen), if_neg hopen, if_neg hopen, if_neg hopen]
          by_cases hfull : limiter.limit ≤ window.count
          · rw [if_pos hfull, if_neg (show ¬ (row.requestCount : Int) < limiter.limit by omega)]
            exact ⟨window, hw, h⟩
          · rw [if_neg hfull, if_pos (show (row.requestCount : Int) < limiter.limit by omega)]
            refine ⟨_, windows.get?_set_self key _, h.startedAt, h.expiresAt, ?_, ?_⟩
            · show row.requestCount + 1 = window.count + 1
              rw [hcount]
            · show ((row.requestCount + 1 : Nat) : Int) ≤ limiter.limit
              omega

theorem inStep_after (hk : IsRateKey key) (is : List RateCall) :
    Option.Rel (InStep limiter) (((sharedLimiter limiter).after is).get? key)
      (((localLimiter limiter).after is).get? key) := by
  induction is using reverseRecOn with
  | nil => exact .none
  | append_singleton is c ih =>
    rw [Machine.after_concat, Machine.after_concat]
    show Option.Rel (InStep limiter)
      ((consumeApiRateLimit c.key _ _ c.now ((sharedLimiter limiter).after is)).2.get? key)
      ((limiter.allow c.key c.now ((localLimiter limiter).after is)).2.get? key)
    by_cases hc : c.key = key
    · obtain ⟨window, hw, h⟩ := inStep_call c.now ih
      rw [hc, hw, consume_of_isRateKey hk, Dict.get?_set_self]
      exact .some h
    · rw [consume_get?_of_ne hc, allow_get?_of_ne hc]
      exact ih

/-! ## The answers -/

theorem answers_concat {α : Type} (trace : List (RateCall × α)) (c : RateCall) (a : α) :
    answers key (trace ++ [(c, a)]) =
      if c.key = key then answers key trace ++ [a] else answers key trace := by
  unfold answers
  rw [filter_append, map_append]
  by_cases hc : c.key = key <;> simp [hc]

theorem consume_ok (hk : IsRateKey key) (is : List RateCall) (now : DateTime) :
    ((sharedLimiter limiter).step ⟨key, now⟩ ((sharedLimiter limiter).after is)).1 = .ok true := by
  obtain ⟨window, -, h⟩ := inStep_call now (@inStep_after limiter key hk is)
  show (consumeApiRateLimit key _ _ now _).1 = _
  rw [consume_of_isRateKey hk, decide_eq_true h.count_le]

theorem allow_iff_hasRoom (hk : IsRateKey key) (is : List RateCall) (now : DateTime) :
    ((localLimiter limiter).step ⟨key, now⟩ ((localLimiter limiter).after is)).1 = true ↔
      HasRoom limiter key is ⟨key, now⟩ := by
  have h := @inStep_after limiter key hk is
  show (limiter.allow key now _).1 = true ↔ _
  unfold HasRoom FixedWindowRateLimiter.allow
  cases hw : ((localLimiter limiter).after is).get? key with
  | none =>
    rw [hw] at h
    cases ht : ((sharedLimiter limiter).after is).get? key with
    | some row =>
      rw [ht] at h
      cases h
    | none => simp
  | some window =>
    rw [hw] at h
    cases ht : ((sharedLimiter limiter).after is).get? key with
    | none =>
      rw [ht] at h
      cases h
    | some row =>
      rw [ht] at h
      cases h with
      | some h =>
        by_cases hopen : row.expiresAt ≤ now
        · simp [if_pos (h.expired_iff.mp hopen), hopen]
        · have hlt : now < row.expiresAt := Int.not_le.mp hopen
          by_cases hfull : limiter.limit ≤ window.count
          · simp [if_neg (mt h.expired_iff.mpr hopen), hlt, hfull, h.count]
          · have hroom : (window.count : Int) < limiter.limit := Int.not_le.mp hfull
            simp [if_neg (mt h.expired_iff.mpr hopen), hfull, h.count, hroom]

theorem sameAnswers_concat (hk : IsRateKey key) (is : List RateCall) (c : RateCall) :
    SameAnswers limiter key (is ++ [c]) ↔
      SameAnswers limiter key is ∧ HasRoom limiter key is c := by
  unfold SameAnswers
  rw [Machine.trace_concat, Machine.trace_concat, answers_concat, answers_concat]
  by_cases hc : c.key = key
  · obtain ⟨k, now⟩ := c
    cases hc
    rw [if_pos rfl, if_pos rfl, map_append, map_singleton, append_singleton_inj,
      consume_ok hk, Except.ok.injEq, eq_comm (a := true), allow_iff_hasRoom hk]
  · rw [if_neg hc, if_neg hc]
    exact ⟨fun h ↦ ⟨h, fun hkey ↦ absurd hkey hc⟩, And.left⟩

/-! ## The limit -/

variable (limiter key) in
/-- How the row of a key relates to the calls so far. -/
structure RowInv (is : List RateCall) : Prop where
  opened : ∀ row ∈ ((sharedLimiter limiter).after is).get? key,
    ∃ c ∈ is, c.now = row.windowStartedAt
  seen : ∀ c ∈ is, c.key = key →
    ∃ row ∈ ((sharedLimiter limiter).after is).get? key, c.now < row.expiresAt
  counted : ∀ row ∈ ((sharedLimiter limiter).after is).get? key,
    (allowedIn key row ((sharedLimiter limiter).trace is)).length = row.requestCount

theorem allowedIn_concat_of_ne (row : ApiRateLimit) (trace : List (RateCall × Except String Bool))
    {c : RateCall} (hc : c.key ≠ key) (a : Except String Bool) :
    allowedIn key row (trace ++ [(c, a)]) = allowedIn key row trace := by
  unfold allowedIn
  rw [filter_append]
  simp [hc]

theorem allowedIn_concat_of_mem (row : ApiRateLimit)
    (trace : List (RateCall × Except String Bool)) (hstart : row.windowStartedAt ≤ now)
    (hend : now < row.expiresAt) :
    allowedIn key row (trace ++ [(⟨key, now⟩, .ok true)]) =
      allowedIn key row trace ++ [(⟨key, now⟩, .ok true)] := by
  unfold allowedIn
  rw [filter_append]
  simp [hstart, hend, Except.toOption]

theorem allowedIn_eq_nil {row : ApiRateLimit}
    (h : ∀ c ∈ is, c.key = key → c.now < row.windowStartedAt) :
    allowedIn key row ((sharedLimiter limiter).trace is) = [] := by
  unfold allowedIn
  rw [filter_eq_nil_iff]
  rintro ⟨c, a⟩ he
  have hc : c ∈ is := (sharedLimiter limiter).mem_of_mem_trace he
  by_cases hkey : c.key = key
  · have hlt : ¬ row.windowStartedAt ≤ c.now := Int.not_le.mpr (h c hc hkey)
    simp [hlt]
  · simp [hkey]

theorem get?_after_call (hk : IsRateKey key) (is : List RateCall) (now : DateTime) :
    ((sharedLimiter limiter).after (is ++ [⟨key, now⟩])).get? key =
      some (.upsert limiter.limit limiter.windowSeconds now
        (((sharedLimiter limiter).after is).get? key)) := by
  rw [Machine.after_concat]
  show (consumeApiRateLimit key _ _ now _).2.get? key = _
  rw [consume_of_isRateKey hk, Dict.get?_set_self]

theorem trace_call (hk : IsRateKey key) (is : List RateCall) (now : DateTime) :
    (sharedLimiter limiter).trace (is ++ [⟨key, now⟩]) =
      (sharedLimiter limiter).trace is ++ [(⟨key, now⟩, .ok true)] := by
  rw [Machine.trace_concat, consume_ok hk]

theorem now_lt_expires (now : DateTime) : now < now + limiter.windowSeconds * 1000000 := by
  have hw := limiter.windowSeconds_pos
  exact Int.lt_add_of_pos_right now (by omega)

theorem rowInv_open (hk : IsRateKey key) (hold : ∀ c ∈ is, c.key = key → c.now < now)
    (hrow : ApiRateLimit.upsert limiter.limit limiter.windowSeconds now
      (((sharedLimiter limiter).after is).get? key) =
      ⟨now, 1, now + limiter.windowSeconds * 1000000⟩) :
    RowInv limiter key (is ++ [⟨key, now⟩]) := by
  have hafter := @get?_after_call limiter key hk is now
  rw [hrow] at hafter
  constructor
  · intro row hmem
    rw [hafter] at hmem
    cases hmem
    exact ⟨⟨key, now⟩, mem_append_right _ (mem_singleton_self _), rfl⟩
  · intro c hc hkey
    refine ⟨_, hafter, ?_⟩
    rcases mem_append.mp hc with hc | hc
    · exact Int.lt_trans (hold c hc hkey) (now_lt_expires now)
    · cases mem_singleton.mp hc
      exact now_lt_expires now
  · intro row hmem
    rw [hafter] at hmem
    cases hmem
    rw [trace_call hk, allowedIn_concat_of_mem _ _ (Int.le_refl now) (now_lt_expires now),
      allowedIn_eq_nil hold]
    rfl

theorem rowInv_call (hk : IsRateKey key) (hclock : ∀ c ∈ is, c.now ≤ now)
    (h : RowInv limiter key is) (hroom : HasRoom limiter key is ⟨key, now⟩) :
    RowInv limiter key (is ++ [⟨key, now⟩]) := by
  cases hget : ((sharedLimiter limiter).after is).get? key with
  | none =>
    refine rowInv_open hk (fun c hc hkey ↦ ?_) (by rw [hget]; rfl)
    obtain ⟨row, hrow, -⟩ := h.seen c hc hkey
    rw [hget] at hrow
    cases hrow
  | some row =>
    by_cases hopen : row.expiresAt ≤ now
    · refine rowInv_open hk (fun c hc hkey ↦ ?_) (by simp [hget, ApiRateLimit.upsert, hopen])
      obtain ⟨row', hrow, hlt⟩ := h.seen c hc hkey
      rw [hget] at hrow
      cases hrow
      exact Int.lt_of_lt_of_le hlt hopen
    · -- The window goes on, and one more of its calls is allowed.
      have hlt : now < row.expiresAt := Int.not_le.mp hopen
      have hcount : (row.requestCount : Int) < limiter.limit := hroom rfl row hget hlt
      have hafter := @get?_after_call limiter key hk is now
      rw [hget, ApiRateLimit.upsert, if_neg hopen, if_neg hopen, if_pos hcount,
        if_neg hopen] at hafter
      obtain ⟨first, hfirst, hstart⟩ := h.opened row hget
      constructor
      · intro row' hmem
        rw [hafter] at hmem
        cases hmem
        exact ⟨first, mem_append_left _ hfirst, hstart⟩
      · intro c hc hkey
        refine ⟨_, hafter, ?_⟩
        rcases mem_append.mp hc with hc | hc
        · obtain ⟨row', hrow, hlt⟩ := h.seen c hc hkey
          rw [hget] at hrow
          cases hrow
          exact hlt
        · cases mem_singleton.mp hc
          exact hlt
      · intro row' hmem
        rw [hafter] at hmem
        cases hmem
        have hle : row.windowStartedAt ≤ now := hstart ▸ hclock first hfirst
        rw [trace_call hk, allowedIn_concat_of_mem ⟨_, row.requestCount + 1, _⟩ _ hle hlt,
          length_append]
        exact congrArg (· + 1) (h.counted row hget)

theorem rowInv_of_meets (hk : IsRateKey key) (hclock : is.Pairwise fun c d ↦ c.now ≤ d.now)
    (hroom : Meets (HasRoom limiter key) is) : RowInv limiter key is := by
  induction is using reverseRecOn with
  | nil => exact ⟨nofun, nofun, nofun⟩
  | append_singleton is c ih =>
    obtain ⟨hclock, -, hlast⟩ := pairwise_append.mp hclock
    obtain ⟨hroom, hc⟩ := meets_concat.mp hroom
    have h := ih hclock hroom
    obtain ⟨k, now⟩ := c
    by_cases hkey : k = key
    · cases hkey
      exact rowInv_call hk (fun c hc ↦ hlast c hc _ (mem_singleton_self _)) h hc
    · have hafter : ((sharedLimiter limiter).after (is ++ [⟨k, now⟩])).get? key =
          ((sharedLimiter limiter).after is).get? key := by
        rw [Machine.after_concat]
        exact consume_get?_of_ne hkey _ _ now _
      constructor
      · intro row hmem
        rw [hafter] at hmem
        obtain ⟨c, hc, hstart⟩ := h.opened row hmem
        exact ⟨c, mem_append_left _ hc, hstart⟩
      · intro c hc hckey
        rw [hafter]
        rcases mem_append.mp hc with hc | hc
        · exact h.seen c hc hckey
        · cases mem_singleton.mp hc
          exact absurd hckey hkey
      · intro row hmem
        rw [hafter] at hmem
        rw [Machine.trace_concat, allowedIn_concat_of_ne row _ hkey]
        exact h.counted row hmem

theorem withinLimit_of_meets (hk : IsRateKey key) (hclock : is.Pairwise fun c d ↦ c.now ≤ d.now)
    (hroom : Meets (HasRoom limiter key) is) : WithinLimit limiter key is := by
  intro row hrow
  rw [(rowInv_of_meets hk hclock hroom).counted row hrow]
  have h := @inStep_after limiter key hk is
  rw [Option.mem_def.mp hrow] at h
  generalize ((localLimiter limiter).after is).get? key = window at h
  cases h with
  | some h => exact h.count_le

/-! ## Exactness -/

/-- Throughout a run the SQL function keeps to the limit and answers like the in-process
limiter, just when no call comes to a window that has had as many calls as the limit. -/
theorem shared_rate_limit_iff (limiter : FixedWindowRateLimiter) (key : String)
    (hk : IsRateKey key) (is : List RateCall) (hclock : is.Pairwise fun c d ↦ c.now ≤ d.now) :
    (∀ pre, pre <+: is → WithinLimit limiter key pre ∧ SameAnswers limiter key pre) ↔
      Meets (HasRoom limiter key) is := by
  refine safe_iff_meets (meets_iff_pairwise.mpr hclock) ⟨nofun, rfl⟩ ?_
  intro is c hclock hroom hsafe hc
  have hconcat : (is ++ [c]).Pairwise fun c d ↦ c.now ≤ d.now :=
    meets_iff_pairwise.mp (meets_concat.mpr ⟨hclock, hc⟩)
  rw [sameAnswers_concat hk]
  constructor
  · exact fun h ↦ h.2.2
  · exact fun h ↦ ⟨withinLimit_of_meets hk hconcat (meets_concat.mpr ⟨hroom, h⟩),
      (hsafe is (List.prefix_refl is)).2, h⟩

/-- Two calls within a minute, with room for both. -/
theorem shared_rate_limit_two :
    let limiter : FixedWindowRateLimiter := ⟨2, 60, by decide, by decide⟩
    let calls : List RateCall := [⟨"workspace", 0⟩, ⟨"workspace", 1000000⟩]
    (∀ pre, pre <+: calls → WithinLimit limiter "workspace" pre ∧
      SameAnswers limiter "workspace" pre) ∧ Meets (HasRoom limiter "workspace") calls := by
  intro limiter calls
  have hroom : Meets (HasRoom limiter "workspace") calls := by decide
  exact ⟨(shared_rate_limit_iff limiter "workspace" (by decide) calls (by decide)).mpr hroom, hroom⟩

/-- With a limit of one call a minute the SQL function allows two. -/
theorem shared_rate_limit_exceeded :
    let limiter : FixedWindowRateLimiter := ⟨1, 60, by decide, by decide⟩
    let calls : List RateCall := [⟨"workspace", 0⟩, ⟨"workspace", 1000000⟩]
    (sharedLimiter limiter).trace calls =
        [(⟨"workspace", 0⟩, .ok true), (⟨"workspace", 1000000⟩, .ok true)] ∧
      (localLimiter limiter).trace calls =
        [(⟨"workspace", 0⟩, true), (⟨"workspace", 1000000⟩, false)] ∧
      ¬ WithinLimit limiter "workspace" calls ∧ ¬ SameAnswers limiter "workspace" calls := by
  intro limiter calls
  refine ⟨by rfl, by rfl, fun h ↦ ?_, fun h ↦ ?_⟩
  · exact absurd (h ⟨0, 1, 60000000⟩ rfl) (by decide)
  · cases h

end Qros.Saas
