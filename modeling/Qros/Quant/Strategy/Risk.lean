import Qros.Quant.Strategy.Moment

/-!
# Risk limits

`Limits env i` is the invariant of bar `i` from its daily reset on.  It bounds
the open positions and the entries of every UTC day, ties the day's entries to
the counter of the day, and records where and when each entry was filled.  A
signal may have been queued on an earlier day or before a limit was reached:
only the state at its fill matters, and that is what `Limits.openPosition`
reads off `tradingAllowed`.

`AfterHit env h i` follows a run past a bar `h` on which the daily loss limit was
reached: the flag stays up until the UTC day is over, and under the flag no entry
is filled.

Nothing here depends on the arithmetic.
-/

universe u

set_option linter.unusedSectionVars false

namespace Qros.Quant.Strategy

open List

variable {F : Type u} [Zero F] [One F] [NatCast F] [Add F] [Sub F] [Mul F] [Div F] [Neg F]
  [LT F] [LE F] [DecidableLT F] [DecidableLE F] [CMath F]

/-- The entries filled on the UTC day `d`. -/
def entriesOn (d : Int) (ctx : Context F) : List Ticket :=
  ctx.entries.filter fun t ↦ decide (utcDay t.entryTime = d)

def dayOf (bars : List (OHLCV F)) (i : Nat) : Int := utcDay (barAt bars i).timestamp

def FilledBy (bars : List (OHLCV F)) (i : Nat) (t : Ticket) : Prop :=
  ∃ j ≤ i, t.entryBar = (j : Int) ∧ t.entryTime = (barAt bars j).timestamp

structure WithinLimits (rc : RiskConfig F) (ctx : Context F) : Prop where
  openPositions : 0 < rc.maxOpenPositions → ctx.positions.length ≤ rc.maxOpenPositions
  perDay : 0 < rc.maxTradesPerDay → ∀ d, (entriesOn d ctx).length ≤ rc.maxTradesPerDay
  session : rc.session.enabled = true → ∀ t ∈ ctx.entries, inSession rc t.entryTime = true

structure Counts (env : Env F) (i : Nat) (ctx : Context F) : Prop
    extends WithinLimits env.cfg.risk ctx where
  filled : ∀ t ∈ ctx.entries, FilledBy env.bars i t
  dayKey : needDaily env.cfg.risk = true →
    ctx.lastDayKey = (utcParts (barAt env.bars i).timestamp).dayKey
  counted : 0 < env.cfg.risk.maxTradesPerDay →
    (entriesOn (dayOf env.bars i) ctx).length = ctx.dailyTrades

/-- What holds during bar `i`. -/
structure Limits (env : Env F) (i : Nat) (ctx : Context F) : Prop extends Counts env i ctx where
  closedOut : ctx.lossLimitHit = true → ctx.positions = []

/-! ## Entries -/

theorem entries_openPosition (env : Env F) (ctx : Context F) (sig : StrategySignal F)
    (bar : OHLCV F) (i : Int) : (openPosition env ctx sig bar i).entries.Perm
      ((newPosition env ctx sig bar i).ticket :: ctx.entries) := by
  simp only [Context.entries, openPosition, map_append, map_cons, map_nil,
    append_assoc, singleton_append]
  exact perm_middle

theorem Steps.length_entriesOn {tc : TradeConfig F} {ok : ExitReason → Prop} {i : Int}
    {ts : TimePoint} {ctx ctx' : Context F} (h : Steps tc ok i ts ctx ctx') (d : Int) :
    (entriesOn d ctx').length = (entriesOn d ctx).length :=
  (h.entries_perm.filter _).length_eq

theorem length_entriesOn_openPosition (env : Env F) (ctx : Context F) (sig : StrategySignal F)
    (bar : OHLCV F) (i : Int) (d : Int) : (entriesOn d (openPosition env ctx sig bar i)).length =
      (entriesOn d ctx).length + if utcDay bar.timestamp = d then 1 else 0 := by
  rw [entriesOn, ((entries_openPosition env ctx sig bar i).filter _).length_eq, filter_cons]
  have htime : (newPosition env ctx sig bar i).ticket.entryTime = bar.timestamp := rfl
  rw [htime]
  by_cases h : utcDay bar.timestamp = d
  · simp [h, entriesOn]
  · simp [h, entriesOn]

variable {ctx : Context F} {env : Env F}

theorem opens_allowed {sig : StrategySignal F} {bar : OHLCV F} (h : opens env ctx sig bar = true) :
    (env.cfg.risk.session.enabled = true → inSession env.cfg.risk bar.timestamp = true) ∧
      ctx.lossLimitHit = false ∧
      (0 < env.cfg.risk.maxOpenPositions → ctx.positions.length < env.cfg.risk.maxOpenPositions) ∧
      (0 < env.cfg.risk.maxTradesPerDay → ctx.dailyTrades < env.cfg.risk.maxTradesPerDay) := by
  have ha : tradingAllowed env ctx bar = true := by
    simp only [opens, Bool.and_eq_true] at h
    exact h.1.2
  unfold tradingAllowed at ha
  split at ha
  · cases ha
  · rename_i hs
    split at ha
    · cases ha
    · rename_i hl
      split at ha
      · cases ha
      · rename_i ho
        split at ha
        · cases ha
        · rename_i hd
          simp only [Bool.and_eq_true, Bool.not_eq_true', decide_eq_true_eq, not_and] at hs ho hd
          refine ⟨fun he ↦ by simpa using hs he, by simpa using hl, fun hp ↦ ?_, fun hp ↦ ?_⟩
          · exact Nat.lt_of_not_le (ho hp)
          · exact Nat.lt_of_not_le (hd hp)

/-! ## The invariant of a bar -/

section

variable {env : Env F} {i : Nat} {ctx ctx' : Context F}

theorem Counts.steps {tc : TradeConfig F} {ok : ExitReason → Prop} {b : Int} {ts : TimePoint}
    (h : Counts env i ctx) (hs : Steps tc ok b ts ctx ctx') : Counts env i ctx' where
  openPositions := fun hp ↦ le_trans hs.length_le (h.openPositions hp)
  perDay := by
    intro hp d
    rw [hs.length_entriesOn]
    exact h.perDay hp d
  session := fun he t ht ↦ h.session he t (hs.entries_perm.mem_iff.mp ht)
  filled := fun t ht ↦ h.filled t (hs.entries_perm.mem_iff.mp ht)
  dayKey := by
    intro hn
    rw [hs.frame]
    exact h.dayKey hn
  counted := by
    intro hp
    rw [hs.length_entriesOn, h.counted hp, hs.frame]

theorem Limits.steps {tc : TradeConfig F} {ok : ExitReason → Prop} {b : Int} {ts : TimePoint}
    (h : Limits env i ctx) (hs : Steps tc ok b ts ctx ctx') : Limits env i ctx' where
  toCounts := h.toCounts.steps hs
  closedOut := by
    intro hl
    rw [hs.frame] at hl
    have hlen := hs.length_le
    rw [h.closedOut hl] at hlen
    exact eq_nil_of_length_eq_zero (Nat.le_zero.mp hlen)

theorem Limits.openPosition (h : Limits env i ctx) {sig : StrategySignal F}
    (ho : opens env ctx sig (barAt env.bars i) = true) :
    Limits env i (openPosition env ctx sig (barAt env.bars i) i) := by
  obtain ⟨hs, hl, hopen, hday⟩ := opens_allowed ho
  have hmem {t : Ticket} (ht : t ∈ (Strategy.openPosition env ctx sig (barAt env.bars i) i).entries) :
      t = (newPosition env ctx sig (barAt env.bars i) i).ticket ∨ t ∈ ctx.entries :=
    mem_cons.mp ((entries_openPosition env ctx sig _ _).mem_iff.mp ht)
  refine ⟨⟨⟨fun hp ↦ ?_, fun hp d ↦ ?_, fun he t ht ↦ ?_⟩, fun t ht ↦ ?_, h.dayKey, fun hp ↦ ?_⟩,
    fun hl' ↦ ?_⟩
  · simp only [Strategy.openPosition, length_append, length_singleton]
    exact hopen hp
  · rw [length_entriesOn_openPosition]
    split
    · rename_i hd
      have hcount := h.counted hp
      rw [dayOf, hd] at hcount
      rw [hcount]
      exact hday hp
    · exact h.perDay hp d
  · rcases hmem ht with rfl | ht
    · exact hs he
    · exact h.session he t ht
  · rcases hmem ht with rfl | ht
    · exact ⟨i, le_refl _, rfl, rfl⟩
    · exact h.filled t ht
  · rw [length_entriesOn_openPosition, h.counted hp, dayOf, if_pos rfl]
    rfl
  · exact absurd (hl'.symm.trans hl) (by decide)

end

/-- What holds when bar `i` begins. -/
def LimitsBefore (env : Env F) : Nat → Context F → Prop
  | 0, ctx => ctx = initialContext env.cfg.risk
  | i + 1, ctx => Limits env i ctx

/-- Time stamps never decrease: what acceptance promises of the bars. -/
def Ordered (bars : List (OHLCV F)) : Prop :=
  ∀ i j, i ≤ j → j < bars.length → (barAt bars i).timestamp ≤ (barAt bars j).timestamp

theorem Accepted.inOrder {bars : List (OHLCV F)} {signals : List (StrategySignal F)}
    (h : Accepted bars signals) : Ordered bars := fun _ _ hij hj ↦ h.timestamp_mono hij hj

variable {i : Nat}

theorem entriesOn_newDay (h : Limits env i ctx) (hord : Ordered env.bars)
    (hi : i + 1 < env.bars.length) (hnew : dayOf env.bars i ≠ dayOf env.bars (i + 1)) :
    entriesOn (dayOf env.bars (i + 1)) ctx = [] := by
  apply filter_eq_nil_iff.mpr
  intro t ht
  obtain ⟨j, hj, -, htime⟩ := h.filled t ht
  have hle : utcDay t.entryTime ≤ dayOf env.bars i := by
    rw [htime]
    exact utcDay_mono (hord j i hj (by omega))
  have hlt : dayOf env.bars i < dayOf env.bars (i + 1) :=
    lt_of_le_of_ne (utcDay_mono (hord i (i + 1) (Nat.le_succ i) hi)) hnew
  simp only [decide_eq_true_eq]
  omega

theorem limits_dailyReset (hord : Ordered env.bars) (hi : i < env.bars.length)
    (h : LimitsBefore env i ctx) :
    Limits env i (dailyReset env.cfg.risk (barAt env.bars i) ctx) := by
  have hneed (hp : 0 < env.cfg.risk.maxTradesPerDay) : needDaily env.cfg.risk = true := by
    simp [needDaily, hp]
  cases i with
  | zero =>
    subst h
    unfold dailyReset
    split
    · exact ⟨⟨⟨fun _ ↦ Nat.zero_le _, fun _ _ ↦ Nat.zero_le _, fun _ _ ht ↦ by cases ht⟩,
        fun _ ht ↦ (by cases ht), fun _ ↦ rfl, fun _ ↦ rfl⟩, fun hl ↦ (by cases hl)⟩
    · rename_i hno
      -- No day key is the initial one, so the reset is skipped only when it is not needed.
      have hoff : needDaily env.cfg.risk ≠ true := by
        intro hn
        refine hno ?_
        rw [hn, Bool.true_and, bne_iff_ne]
        exact dayKey_ne_zero _
      exact ⟨⟨⟨fun _ ↦ Nat.zero_le _, fun _ _ ↦ Nat.zero_le _, fun _ _ ht ↦ by cases ht⟩,
        fun _ ht ↦ (by cases ht), fun hn ↦ absurd hn hoff, fun _ ↦ rfl⟩,
        fun hl ↦ (by cases hl)⟩
  | succ i =>
    have h : Limits env i ctx := h
    have hfilled : ∀ t ∈ ctx.entries, FilledBy env.bars (i + 1) t := by
      intro t ht
      obtain ⟨j, hj, hbar, htime⟩ := h.filled t ht
      exact ⟨j, by omega, hbar, htime⟩
    unfold dailyReset
    split
    · rename_i hreset
      simp only [Bool.and_eq_true, bne_iff_ne] at hreset
      have hnew : dayOf env.bars i ≠ dayOf env.bars (i + 1) := fun hd ↦
        hreset.2 ((h.dayKey hreset.1).symm ▸ (dayKey_eq_iff.mpr hd.symm))
      exact ⟨⟨⟨h.openPositions, h.perDay, h.session⟩, hfilled, fun _ ↦ rfl, fun _ ↦
        congrArg List.length (entriesOn_newDay h hord hi hnew)⟩, fun hl ↦ (by cases hl)⟩
    · rename_i hno
      -- Without a reset the day has not changed, or nothing daily is kept.
      have hsame : needDaily env.cfg.risk = true →
          ctx.lastDayKey = (utcParts (barAt env.bars (i + 1)).timestamp).dayKey := by
        intro hn
        rw [hn, Bool.true_and, bne_iff_ne, ne_eq, not_not] at hno
        exact hno.symm
      refine ⟨⟨h.toWithinLimits, hfilled, hsame, fun hp ↦ ?_⟩, h.closedOut⟩
      have hday : dayOf env.bars (i + 1) = dayOf env.bars i :=
        dayKey_eq_iff.mp ((hsame (hneed hp)).symm.trans (h.dayKey (hneed hp)))
      rw [hday, h.counted hp]

theorem barInv_limits (hord : Ordered env.bars) (hi : i < env.bars.length) :
    BarInv env i (LimitsBefore env i) (Limits env i) where
  reset := fun _ h ↦ limits_dailyReset hord hi h
  steps := fun _ _ hs h ↦ h.steps hs
  fill := fun _ _ ho h ↦ h.openPosition ho
  session := fun _ _ _ h ↦
    ⟨⟨⟨h.openPositions, h.perDay, h.session⟩, h.filled, h.dayKey, h.counted⟩, h.closedOut⟩
  breaker := fun ctx _ hs hnil h ↦
    have h' : Counts env i { ctx with lossLimitHit := true } :=
      ⟨⟨h.openPositions, h.perDay, h.session⟩, h.filled, h.dayKey, h.counted⟩
    ⟨h'.steps hs, fun _ ↦ hnil⟩
  book := fun _ _ _ _ h ↦
    ⟨⟨⟨h.openPositions, h.perDay, h.session⟩, h.filled, h.dayKey, h.counted⟩, h.closedOut⟩

theorem limitsBefore_stateAfter (hord : Ordered env.bars) (ordered : List (StrategySignal F))
    {n : Nat} (hn : n ≤ env.bars.length) :
    LimitsBefore env n (stateAfter env ordered n).ctx :=
  stateAfter_induction (I := LimitsBefore env) rfl fun _ hi ih ↦
    (barInv_limits hord (lt_of_lt_of_le hi hn)).loopBody ih

/-! ## After the daily loss limit -/

/-- The equity at the close of bar `i`, entered with `ctx`, is down to the daily
loss limit. -/
def LossLimitReached (env : Env F) (ctx : Context F) (i : Nat) : Prop :=
  markToMarket (managed env ctx i) (barAt env.bars i).close ≤
    (managed env ctx i).dailyStartEquity * (1 - env.cfg.risk.dailyLossLimitPct / 100)

/-- No ticket filled after bar `h` is of the UTC day of `h`. -/
def NoEntryUntilNextDay (bars : List (OHLCV F)) (h : Nat) (entries : List Ticket) : Prop :=
  ∀ t ∈ entries, (h : Int) < t.entryBar → dayOf bars h < utcDay t.entryTime

/-- What holds during bar `i` when the limit was reached on bar `h`: the flag is
up, or the day is over. -/
structure AfterHit (env : Env F) (h i : Nat) (ctx : Context F) : Prop where
  entries : NoEntryUntilNextDay env.bars h ctx.entries
  flag : ctx.lossLimitHit = true ∨ dayOf env.bars h < dayOf env.bars i

/-- The bar on which the limit is reached ends without positions and under the
flag. -/
theorem closeBar_lossLimitReached (hpct : 0 < env.cfg.risk.dailyLossLimitPct)
    (hlim : Limits env i (managed env ctx i)) (hhit : LossLimitReached env ctx i) :
    (closeBar env ctx i).1.positions = [] ∧ (closeBar env ctx i).1.lossLimitHit = true := by
  simp only [closeBar, lossLimitBreaker]
  split
  · refine ⟨rfl, ?_⟩
    rw [(steps_closeAll _ _ _ _ _).frame]
  · rename_i hno
    -- The breaker is silent only because it has already fired today.
    have hl : (managed env ctx i).lossLimitHit = true := by
      by_contra hl
      refine hno ?_
      simp only [breakerTrips, Bool.and_eq_true, decide_eq_true_eq]
      exact ⟨⟨hpct, by simpa using hl⟩, hhit⟩
    exact ⟨hlim.closedOut hl, hl⟩

theorem barInv_afterHit (hord : Ordered env.bars) {h i : Nat} (hhi : h ≤ i)
    (hi : i + 1 < env.bars.length) :
    BarInv env (i + 1) (fun ctx ↦ Limits env i ctx ∧ AfterHit env h i ctx)
      (AfterHit env h (i + 1)) where
  reset := by
    intro ctx hI
    obtain ⟨hlim, hafter⟩ := hI
    have hstep : dayOf env.bars i ≤ dayOf env.bars (i + 1) :=
      utcDay_mono (hord i (i + 1) (Nat.le_succ i) hi)
    unfold dailyReset
    split
    · rename_i hreset
      simp only [Bool.and_eq_true, bne_iff_ne] at hreset
      have hnew : dayOf env.bars i ≠ dayOf env.bars (i + 1) := fun hd ↦
        hreset.2 ((hlim.dayKey hreset.1).symm ▸ (dayKey_eq_iff.mpr hd.symm))
      have hpast : dayOf env.bars h ≤ dayOf env.bars i := utcDay_mono (hord h i hhi (by omega))
      exact ⟨hafter.entries, .inr (lt_of_le_of_lt hpast (lt_of_le_of_ne hstep hnew))⟩
    · exact ⟨hafter.entries, hafter.flag.imp_right fun hd ↦ lt_of_lt_of_le hd hstep⟩
  steps := fun ctx ctx' hs hJ ↦
    ⟨fun t ht ↦ hJ.entries t (hs.entries_perm.mem_iff.mp ht), by rw [hs.frame]; exact hJ.flag⟩
  fill := by
    intro ctx sig ho hJ
    have hday : dayOf env.bars h < dayOf env.bars (i + 1) :=
      hJ.flag.resolve_left (by simp [(opens_allowed ho).2.1])
    refine ⟨fun t ht hlt ↦ ?_, .inr hday⟩
    rcases mem_cons.mp ((entries_openPosition env ctx sig _ _).mem_iff.mp ht) with rfl | ht
    · exact hday
    · exact hJ.entries t ht hlt
  session := fun _ _ _ hJ ↦ ⟨hJ.entries, hJ.flag⟩
  breaker := fun ctx ctx' hs _ hJ ↦
    ⟨fun t ht ↦ hJ.entries t (hs.entries_perm.mem_iff.mp ht), by rw [hs.frame]; exact .inl rfl⟩
  book := fun _ _ _ _ hJ ↦ ⟨hJ.entries, hJ.flag⟩

theorem afterHit_stateAfter (hord : Ordered env.bars) (hpct : 0 < env.cfg.risk.dailyLossLimitPct)
    (ordered : List (StrategySignal F)) {h i : Nat} (hhi : h ≤ i) (hi : i < env.bars.length)
    (hhit : LossLimitReached env (stateAfter env ordered h).ctx h) :
    AfterHit env h i (stateAfter env ordered (i + 1)).ctx := by
  have hbefore {n : Nat} (hn : n ≤ env.bars.length) := limitsBefore_stateAfter hord ordered hn
  induction i, hhi using Nat.le_induction with
  | base =>
    have hlim : Limits env h (stateAfter env ordered (h + 1)).ctx := hbefore hi
    refine ⟨fun t ht hlt ↦ ?_, .inl ?_⟩
    · obtain ⟨j, hj, hbar, -⟩ := hlim.filled t ht
      omega
    · show (loopBody env h _).ctx.lossLimitHit = true
      rw [loopBody_frame]
      exact (closeBar_lossLimitReached hpct
        ((barInv_limits hord hi).managed (hbefore (le_of_lt hi))) hhit).2
  | succ i hhi ih =>
    exact (barInv_afterHit hord hhi hi).loopBody ⟨hbefore (le_of_lt hi), ih (by omega)⟩

/-! ## Whole runs -/

theorem tickets_run_perm [IntCast F] [BEq F] {cfg : StrategyConfig F} {bars : List (OHLCV F)}
    {signals : List (StrategySignal F)} {r : SimulationResult F}
    (h : run cfg bars signals = .ok r) : (r.trades.map TradeResult.ticket).Perm
      (contextBefore cfg bars signals bars.length).entries := by
  obtain ⟨-, rfl⟩ := run_eq_ok.mp h
  exact (steps_closeAll _ _ _ _ _).entries_perm

/-- **Risk limits of `run`.**  At every moment the limits hold, for the entries
made so far and the positions open; and a bar on which the daily loss limit is
reached ends without positions, with no entry after it before the next UTC day. -/
theorem run_riskLimits [IntCast F] [BEq F] {cfg : StrategyConfig F} {bars : List (OHLCV F)}
    {signals : List (StrategySignal F)} {r : SimulationResult F}
    (h : run cfg bars signals = .ok r) :
    (∀ i < bars.length, ∀ ctx,
      Moment (runEnv cfg bars) i (contextBefore cfg bars signals i) ctx →
        WithinLimits cfg.risk ctx ∧ ∀ t ∈ ctx.entries, FilledBy bars i t) ∧
      (∀ i < bars.length, 0 < cfg.risk.dailyLossLimitPct →
        LossLimitReached (runEnv cfg bars) (contextBefore cfg bars signals i) i →
          openAfter cfg bars signals i = [] ∧
          NoEntryUntilNextDay bars i (r.trades.map TradeResult.ticket) ∧
          ∀ j, i < j → j < bars.length → ∀ ctx,
            Moment (runEnv cfg bars) j (contextBefore cfg bars signals j) ctx →
              NoEntryUntilNextDay bars i ctx.entries) := by
  have hord : Ordered (runEnv cfg bars).bars := (run_eq_ok.mp h).1.inOrder
  have hbefore {n : Nat} (hn : n ≤ bars.length) :=
    limitsBefore_stateAfter hord (orderSignals signals) hn
  refine ⟨fun i hi ctx hm ↦ ?_, fun i hi hpct hhit ↦ ⟨?_, fun t ht ↦ ?_, fun j hij hj ctx hm ↦ ?_⟩⟩
  · have hlim := (barInv_limits hord hi).moment (hbefore (le_of_lt hi)) hm
    exact ⟨hlim.toWithinLimits, hlim.filled⟩
  · show (loopBody (runEnv cfg bars) i _).ctx.positions = []
    rw [loopBody_frame]
    exact (closeBar_lossLimitReached hpct
      ((barInv_limits hord hi).managed (hbefore (le_of_lt hi))) hhit).1
  · have hlast := (run_eq_ok.mp h).1.nonempty
    obtain ⟨n, hn⟩ : ∃ n, bars.length = n + 1 := ⟨bars.length - 1, by omega⟩
    have hmem := (tickets_run_perm h).mem_iff.mp ht
    rw [hn] at hmem
    exact (afterHit_stateAfter hord hpct (orderSignals signals)
      (by omega) (hn ▸ Nat.lt_succ_self n) hhit).entries t hmem
  · obtain ⟨j, rfl⟩ : ∃ j', j = j' + 1 := ⟨j - 1, by omega⟩
    have hafter := afterHit_stateAfter hord hpct (orderSignals signals)
      (Nat.le_of_lt_succ hij) (Nat.lt_of_succ_lt hj) hhit
    exact ((barInv_afterHit hord (Nat.le_of_lt_succ hij) hj).moment
      ⟨hbefore (le_of_lt hj), hafter⟩ hm).entries

/-- A long position loses two percent on the bar it is opened on; the signal
queued on the same day is not filled. -/
theorem run_riskLimits_sample :
    let cfg : StrategyConfig ℚ :=
      { trade := { TradeConfig.defaults with sizing := .fixedLot, fixedLot := 100 }
        risk := { RiskConfig.defaults with
          dailyLossLimitPct := 1, maxOpenPositions := 1, maxTradesPerDay := 5 } }
    let bars : List (OHLCV ℚ) :=
      [⟨0, 100, 101, 99, 100, 1⟩, ⟨60000000000, 100, 100, 80, 80, 1⟩,
        ⟨120000000000, 80, 82, 79, 81, 1⟩]
    let signals := [{ StrategySignal.defaults with barIndex := 0, action := .open },
      { StrategySignal.defaults with barIndex := 1, action := .open }]
    ∃ r, run cfg bars signals = .ok r ∧
      LossLimitReached (runEnv cfg bars) (contextBefore cfg bars signals 1) 1 ∧
      openAfter cfg bars signals 1 = [] := by
  intro cfg bars signals
  obtain ⟨r, hr⟩ : ∃ r, run cfg bars signals = .ok r := exists_run (by decide +kernel)
  have hhit : LossLimitReached (runEnv cfg bars) (contextBefore cfg bars signals 1) 1 := by
    unfold LossLimitReached
    decide +kernel
  exact ⟨r, hr, hhit, ((run_riskLimits hr).2 1 (by decide) (by decide +kernel) hhit).1⟩

end Qros.Quant.Strategy
