import Qros.Lib.Gaps
import Qros.Quant.Backtest.EventReplay

/-!
# Sessions

The stream of a replay with sessions, as a list of marks: one session for each day,
with the candles of the day in it.  `WellFormedStream` says what a stream should
be, `buildEventSequence_spec` what the engine makes of the candles.  The two differ
where cutting a time stamp off towards the epoch does not give its day, and where a
candle starts before the one before it has closed.
-/

universe u

namespace Qros.Quant

open Qros.Lib List

variable {F : Type u}

inductive Mark (F : Type u) where
  | sessionOpen (i : Nat)
  | candle (i : Nat) (c : Candle F)
  | timestamp (i : Nat)
  | sessionClose (i : Nat)

def ReplayEvent.mark (e : ReplayEvent F) : Mark F :=
  match e.type, e.sessionStatus with
  | .candle, _ => .candle e.barIndex e.candle
  | .timestamp, _ => .timestamp e.barIndex
  | .session, .open => .sessionOpen e.barIndex
  | .session, .close => .sessionClose e.barIndex

/-! ## The stream that is expected -/

/-- The day of a time stamp: days begin at midnight UTC, before the epoch as well. -/
def calendarDay (tp : Int) : Int := tp / dayLength

def barMarks (a : Candle F × Nat) : List (Mark F) := [.candle a.2 a.1, .timestamp a.2]

def session : List (Candle F × Nat) → List (Mark F)
  | [] => []
  | a :: as =>
    .sessionOpen a.2 :: ((a :: as).flatMap barMarks ++
      [.sessionClose ((a :: as).getLast (cons_ne_nil a as)).2])

/-- The candles fall into days, no two of them the same, and each day has one session. -/
def OneSessionADay (data : MarketData F) (ms : List (Mark F)) : Prop :=
  ∃ days : List (List (Candle F × Nat)),
    days.flatten = data.candles.zipIdx ∧
    (∀ day ∈ days, day ≠ [] ∧ ∀ a ∈ day, ∀ b ∈ day,
      calendarDay a.1.timestamp = calendarDay b.1.timestamp) ∧
    days.Pairwise (fun day day' ↦ ∀ a ∈ day, ∀ b ∈ day',
      calendarDay a.1.timestamp ≠ calendarDay b.1.timestamp) ∧
    ms = days.flatMap session

/-- **A well-formed stream**: one session a day, the events numbered from 1 on, and none
earlier than the one before. -/
structure WellFormedStream (data : MarketData F) (es : List (ReplayEvent F)) : Prop where
  sessions : OneSessionADay data (es.map ReplayEvent.mark)
  numbered : es.map ReplayEvent.sequence = List.range' 1 es.length
  ordered : (es.map ReplayEvent.timestamp).IsChain (· ≤ ·)

/-! ## Days by a key -/

section

variable (key : TimePoint → Int)

/-- The marks from the candle `a` on, when a session ends where the key changes. -/
def marksFrom : Candle F × Nat → List (Candle F × Nat) → List (Mark F)
  | a, [] => barMarks a ++ [.sessionClose a.2]
  | a, b :: bs =>
    barMarks a ++ (if key a.1.timestamp = key b.1.timestamp then []
      else [.sessionClose a.2, .sessionOpen b.2]) ++ marksFrom b bs

def marks : List (Candle F × Nat) → List (Mark F)
  | [] => []
  | a :: as => .sessionOpen a.2 :: marksFrom key a as

variable {key}

theorem marksFrom_eq_cons (key : TimePoint → Int) (a : Candle F × Nat)
    (as : List (Candle F × Nat)) :
    ∃ rest, marksFrom key a as = .candle a.2 a.1 :: rest := by
  cases as with
  | nil => exact ⟨_, rfl⟩
  | cons b bs => exact ⟨_, rfl⟩

theorem marksFrom_eq_iff {key' : TimePoint → Int} (a : Candle F × Nat)
    (as : List (Candle F × Nat)) :
    marksFrom key a as = marksFrom key' a as ↔
      (a :: as).IsChain (fun a b ↦ key a.1.timestamp = key b.1.timestamp ↔
        key' a.1.timestamp = key' b.1.timestamp) := by
  induction as generalizing a with
  | nil => exact iff_of_true rfl (isChain_singleton a)
  | cons b bs ih =>
    obtain ⟨rest, hrest⟩ := marksFrom_eq_cons key b bs
    obtain ⟨rest', hrest'⟩ := marksFrom_eq_cons key' b bs
    rw [isChain_cons_cons, ← ih b, marksFrom, marksFrom, append_assoc,
      append_assoc, append_cancel_left_eq]
    by_cases hk : key a.1.timestamp = key b.1.timestamp <;>
      by_cases hk' : key' a.1.timestamp = key' b.1.timestamp
    · simp [hk, hk']
    · simp [hk, hk', hrest]
    · simp [hk, hk', hrest']
    · simp [hk, hk']

theorem marksFrom_append {a : Candle F × Nat} {day : List (Candle F × Nat)}
    (hday : ∀ b ∈ a :: day, key b.1.timestamp = key a.1.timestamp) (rest : List (Candle F × Nat)) :
    marksFrom key a (day ++ rest) =
      (a :: day).dropLast.flatMap barMarks ++
        marksFrom key ((a :: day).getLast (cons_ne_nil a day)) rest := by
  induction day generalizing a with
  | nil => rfl
  | cons b bs ih =>
    have hb := hday b (by simp)
    have hbs : ∀ c ∈ b :: bs, key c.1.timestamp = key b.1.timestamp := by
      intro c hc
      rw [hday c (mem_cons_of_mem a hc), hb]
    rw [cons_append, marksFrom, if_pos hb.symm, append_nil, ih hbs,
      dropLast_cons_cons, flatMap_cons, append_assoc, getLast_cons_cons]

theorem session_eq (a : Candle F × Nat) (day : List (Candle F × Nat)) :
    session (a :: day) = .sessionOpen a.2 :: ((a :: day).dropLast.flatMap barMarks ++
      (barMarks ((a :: day).getLast (cons_ne_nil a day)) ++
        [.sessionClose ((a :: day).getLast (cons_ne_nil a day)).2])) := by
  have hlast : (a :: day).flatMap barMarks = (a :: day).dropLast.flatMap barMarks ++
      barMarks ((a :: day).getLast (cons_ne_nil a day)) := by
    conv_lhs => rw [← dropLast_append_getLast (cons_ne_nil a day), flatMap_append]
    rw [flatMap_singleton]
  rw [session, hlast, append_assoc]

theorem marks_flatten {days : List (List (Candle F × Nat))}
    (hdays : ∀ day ∈ days, day ≠ [] ∧ ∀ a ∈ day, ∀ b ∈ day, key a.1.timestamp = key b.1.timestamp)
    (hne : days.IsChain (fun day day' ↦ ∀ a ∈ day, ∀ b ∈ day',
      key a.1.timestamp ≠ key b.1.timestamp)) :
    marks key days.flatten = days.flatMap session := by
  induction days with
  | nil => rfl
  | cons day rest ih =>
    have ih := ih (fun d hd ↦ hdays d (mem_cons_of_mem day hd)) hne.tail
    obtain ⟨hday, hsame⟩ := hdays day mem_cons_self
    obtain ⟨a, as, rfl⟩ := exists_cons_of_ne_nil hday
    have hkey : ∀ b ∈ a :: as, key b.1.timestamp = key a.1.timestamp :=
      fun b hb ↦ hsame b hb a mem_cons_self
    rw [flatMap_cons, ← ih, session_eq, flatten_cons, cons_append, marks,
      marksFrom_append hkey]
    cases rest with
    | nil => simp [marksFrom, marks]
    | cons day' rest' =>
      obtain ⟨b, bs, rfl⟩ := exists_cons_of_ne_nil (hdays day' (by simp)).1
      have hchange := (isChain_cons_cons.mp hne).1
        ((a :: as).getLast (cons_ne_nil a as)) (getLast_mem _) b mem_cons_self
      rw [flatten_cons, cons_append, marks, marksFrom, if_neg hchange]
      simp

theorem exists_days {as : List (Candle F × Nat)}
    (has : as.Pairwise (fun a b ↦ key a.1.timestamp ≤ key b.1.timestamp)) :
    ∃ days : List (List (Candle F × Nat)), days.flatten = as ∧
      (∀ day ∈ days, day ≠ [] ∧ ∀ a ∈ day, ∀ b ∈ day, key a.1.timestamp = key b.1.timestamp) ∧
      days.Pairwise
      (fun day day' ↦ ∀ a ∈ day, ∀ b ∈ day', key a.1.timestamp < key b.1.timestamp) := by
  induction as with
  | nil => exact ⟨[], rfl, by simp, List.Pairwise.nil⟩
  | cons a as ih =>
    obtain ⟨ha, has⟩ := pairwise_cons.mp has
    obtain ⟨days, rfl, hsame, hlt⟩ := ih has
    have hone : [a] ≠ [] ∧ ∀ b ∈ [a], ∀ c ∈ [a], key b.1.timestamp = key c.1.timestamp :=
      ⟨cons_ne_nil a [], fun b hb c hc ↦ by
        rw [mem_singleton.mp hb, mem_singleton.mp hc]⟩
    cases days with
    | nil =>
      refine ⟨[[a]], rfl, fun day hday ↦ ?_, pairwise_singleton _ _⟩
      rwa [mem_singleton.mp hday]
    | cons day days =>
      obtain ⟨hday, hkey⟩ := hsame day mem_cons_self
      obtain ⟨b, bs, rfl⟩ := exists_cons_of_ne_nil hday
      obtain ⟨hday', hlt'⟩ := pairwise_cons.mp hlt
      by_cases hab : key a.1.timestamp = key b.1.timestamp
      · have hall : ∀ c ∈ a :: b :: bs, key c.1.timestamp = key b.1.timestamp := by
          intro c hc
          rcases mem_cons.mp hc with rfl | hc
          · exact hab
          · exact hkey c hc b mem_cons_self
        refine ⟨(a :: b :: bs) :: days, rfl, fun d hd ↦ ?_, pairwise_cons.mpr ⟨?_, hlt'⟩⟩
        · rcases mem_cons.mp hd with rfl | hd
          · exact ⟨cons_ne_nil _ _, fun c hc d hd ↦ (hall c hc).trans (hall d hd).symm⟩
          · exact hsame d (mem_cons_of_mem _ hd)
        · intro d hd c hc e he
          rw [hall c hc]
          exact hday' d hd b mem_cons_self e he
      · have hlt_b : key a.1.timestamp < key b.1.timestamp :=
          lt_of_le_of_ne (ha b (by simp)) hab
        refine ⟨[a] :: (b :: bs) :: days, rfl, fun d hd ↦ ?_, pairwise_cons.mpr ⟨?_, hlt⟩⟩
        · rcases mem_cons.mp hd with rfl | hd
          · exact hone
          · exact hsame d hd
        · intro d hd c hc e he
          obtain rfl := mem_singleton.mp hc
          rcases mem_cons.mp hd with rfl | hd
          · rwa [hkey e he b mem_cons_self]
          · exact hlt_b.trans (hday' d hd b mem_cons_self e he)

end

/-! ## Days of the engine and days of the calendar -/

/-- Where the engine and the calendar disagree whether two time stamps, `s` before `t`,
share a day: one on either side of the epoch and less than a day from it, or one of them
at a midnight before the epoch and the other less than a day from that. -/
def Misdated (s t : Int) : Prop :=
  (-dayLength < s ∧ s < 0 ∧ 0 ≤ t ∧ t < dayLength) ∨
    (t < 0 ∧ t % dayLength = 0 ∧ t - dayLength < s) ∨
    (t < 0 ∧ s % dayLength = 0 ∧ t < s + dayLength)

instance (s t : Int) : Decidable (Misdated s t) := by unfold Misdated; infer_instance

theorem dayOf_eq (tp : Int) :
    dayOf tp = if 0 ≤ tp ∨ tp % dayLength = 0 then calendarDay tp else calendarDay tp + 1 := by
  rw [dayOf, calendarDay, Int.tdiv_eq_ediv, show Int.sign dayLength = 1 from rfl]
  simp only [Int.dvd_iff_emod_eq_zero]
  split <;> simp

theorem dayOf_agrees_iff {s t : Int} (h : s < t) :
    (dayOf s = dayOf t ↔ calendarDay s = calendarDay t) ↔ ¬ Misdated s t := by
  rw [dayOf_eq, dayOf_eq]
  unfold Misdated calendarDay
  simp only [dayLength]
  split <;> split <;> omega

theorem calendarDay_mono {s t : Int} (h : s < t) : calendarDay s ≤ calendarDay t :=
  Int.ediv_le_ediv (by decide) (le_of_lt h)

/-! ## What the engine makes of the candles -/

theorem le_barClose {data : MarketData F} (c : Candle F) : c.timestamp ≤ data.barClose c := by
  have := timeframeMinutes_pos data.config.timeframe
  unfold MarketData.barClose minutes
  exact Int.le_add_of_nonneg_right (by omega)

section Engine

variable [Zero F] {data : MarketData F}

def Mark.time (data : MarketData F) : Mark F → TimePoint
  | .sessionOpen i => (data.bar i).timestamp
  | .candle i _ => (data.bar i).timestamp
  | .timestamp i => data.barClose (data.bar i)
  | .sessionClose i => data.barClose (data.bar i)

structure Announces (data : MarketData F) (es : List (ReplayEvent F)) (ms : List (Mark F))
    (seq : Nat) : Prop where
  marks : es.map ReplayEvent.mark = ms
  times : es.map ReplayEvent.timestamp = ms.map (Mark.time data)
  numbers : es.map ReplayEvent.sequence = List.range' (seq + 1) es.length

theorem Announces.nil {seq : Nat} : Announces data [] [] seq := ⟨rfl, rfl, rfl⟩

variable {m : Mark F} {a : Candle F × Nat}

theorem Announces.cons {e : ReplayEvent F} {es : List (ReplayEvent F)} {ms : List (Mark F)}
    {seq : Nat} (hmark : e.mark = m) (htime : e.timestamp = m.time data)
    (hseq : e.sequence = seq + 1) (h : Announces data es ms (seq + 1)) :
    Announces data (e :: es) (m :: ms) seq := by
  refine ⟨?_, ?_, ?_⟩
  · rw [map_cons, hmark, h.marks]
  · rw [map_cons, map_cons, htime, h.times]
  · rw [map_cons, hseq, h.numbers]
    rfl

structure At (e : EventReplayEngine F) (i : Nat) (φ : Phase) (seq : Nat) : Prop where
  mode : e.mode = .fullWithSessions
  candleIndex : e.candleIndex = i
  phase : e.phase = φ
  seq : e.seq = seq
  done : e.done = false

structure Shows (data : MarketData F) (e : EventReplayEngine F) (m : Mark F) (seq : Nat) : Prop where
  mark : e.current.mark = m
  time : e.current.timestamp = m.time data
  sequence : e.current.sequence = seq

def Left (data : MarketData F) (e : EventReplayEngine F) (i : Nat) (seq : Nat) : Prop :=
  if i + 1 < data.candles.length then
    At e (i + 1) (if isSessionOpen data (i + 1) then .sessionOpen else .candle) seq
  else e.done = true

theorem setNextCandle_current (e : EventReplayEngine F) :
    (e.setNextCandle data).current = e.current := by
  unfold EventReplayEngine.setNextCandle
  dsimp only
  split <;> rfl

variable {e : EventReplayEngine F} {i seq : Nat}

theorem Shows.setNextCandle {seq : Nat} (h : Shows data e m seq) :
    Shows data (e.setNextCandle data) m seq :=
  ⟨by rw [setNextCandle_current, h.mark], by rw [setNextCandle_current, h.time],
    by rw [setNextCandle_current, h.sequence]⟩

theorem left_setNextCandle {φ : Phase} (h : At e i φ seq) :
    Left data (e.setNextCandle data) i seq := by
  unfold Left EventReplayEngine.setNextCandle
  rw [h.candleIndex]
  by_cases hi : i + 1 < data.candles.length
  · rw [if_pos hi, if_neg (Nat.not_le.mpr hi)]
    refine ⟨h.mode, rfl, ?_, h.seq, h.done⟩
    simp only [firstPhase, h.mode, true_and]
  · rw [if_neg hi, if_pos (Nat.not_lt.mp hi)]

theorem advance_sessionOpen (data : MarketData F) (h : At e i .sessionOpen seq) :
    ∃ e', e.advance data = (true, e') ∧ At e' i .candle (seq + 1) ∧
      Shows data e' (.sessionOpen i) (seq + 1) := by
  obtain ⟨hmode, rfl, hphase, rfl, hdone⟩ := h
  refine ⟨_, by rw [EventReplayEngine.advance, hdone]; rfl, ?_⟩
  simp only [EventReplayEngine.emitNext, hphase]
  exact ⟨⟨hmode, rfl, rfl, rfl, hdone⟩, ⟨rfl, rfl, rfl⟩⟩

theorem advance_candle (data : MarketData F) (h : At e i .candle seq) :
    ∃ e', e.advance data = (true, e') ∧ At e' i .timestamp (seq + 1) ∧
      Shows data e' (.candle i (data.bar i)) (seq + 1) := by
  obtain ⟨hmode, rfl, hphase, rfl, hdone⟩ := h
  refine ⟨_, by rw [EventReplayEngine.advance, hdone]; rfl, ?_⟩
  simp only [EventReplayEngine.emitNext, hphase, hmode, ne_eq, reduceCtorEq, not_false_eq_true, if_true]
  exact ⟨⟨rfl, rfl, rfl, rfl, hdone⟩, ⟨rfl, rfl, rfl⟩⟩

theorem advance_timestamp (data : MarketData F) (h : At e i .timestamp seq) :
    ∃ e', e.advance data = (true, e') ∧ Shows data e' (.timestamp i) (seq + 1) ∧
      (if isSessionClose data i then At e' i .sessionClose (seq + 1) else Left data e' i
        (seq + 1)) := by
  obtain ⟨hmode, rfl, hphase, rfl, hdone⟩ := h
  refine ⟨_, by rw [EventReplayEngine.advance, hdone]; rfl, ?_⟩
  simp only [EventReplayEngine.emitNext, hphase, hmode, true_and]
  by_cases hclose : isSessionClose data e.candleIndex = true
  · rw [if_pos hclose, if_pos hclose]
    exact ⟨⟨rfl, rfl, rfl⟩, ⟨rfl, rfl, rfl, rfl, hdone⟩⟩
  · rw [if_neg hclose, if_neg hclose]
    exact ⟨Shows.setNextCandle ⟨rfl, rfl, rfl⟩, left_setNextCandle ⟨rfl, rfl, rfl, rfl, hdone⟩⟩

theorem advance_sessionClose (data : MarketData F) (h : At e i .sessionClose seq) :
    ∃ e', e.advance data = (true, e') ∧ Shows data e' (.sessionClose i) (seq + 1) ∧
      Left data e' i (seq + 1) := by
  obtain ⟨hmode, rfl, hphase, rfl, hdone⟩ := h
  refine ⟨_, by rw [EventReplayEngine.advance, hdone]; rfl, ?_⟩
  simp only [EventReplayEngine.emitNext, hphase]
  exact ⟨Shows.setNextCandle ⟨rfl, rfl, rfl⟩, left_setNextCandle ⟨hmode, rfl, rfl, rfl, hdone⟩⟩

theorem Announces.collect {e e' : EventReplayEngine F} {ms : List (Mark F)} {fuel seq : Nat}
    (hadvance : e.advance data = (true, e')) (hshows : Shows data e' m (seq + 1))
    (h : Announces data (e'.collect data fuel) ms (seq + 1)) :
    Announces data (e.collect data (fuel + 1)) (m :: ms) seq := by
  rw [EventReplayEngine.collect, hadvance]
  exact h.cons hshows.mark hshows.time hshows.sequence

theorem collect_done (h : e.done = true) (fuel : Nat) :
    e.collect data fuel = [] := by
  cases fuel with
  | zero => rfl
  | succ fuel => rw [EventReplayEngine.collect, EventReplayEngine.advance, if_pos h]

theorem zipIdx_drop {i : Nat} (hi : i < data.candles.length) :
    data.candles.zipIdx.drop i = (data.bar i, i) :: data.candles.zipIdx.drop (i + 1) := by
  rw [drop_eq_getElem_cons (by simpa using hi)]
  simp [MarketData.bar, hi]

theorem isSessionClose_last {i : Nat} (hi : i + 1 = data.candles.length) :
    isSessionClose data i = true := by
  simp [isSessionClose, hi]

theorem isSessionClose_eq {i : Nat} (hi : i + 1 < data.candles.length) :
    isSessionClose data i = isSessionOpen data (i + 1) := by
  rw [isSessionClose, isSessionOpen, decide_eq_false (Nat.not_le.mpr hi), Nat.add_sub_cancel,
    beq_false_of_ne (Nat.succ_ne_zero i), bne_comm]

theorem isSessionOpen_succ_iff {i : Nat} :
    isSessionOpen data (i + 1) = true ↔
      ¬ dayOf (data.bar i).timestamp = dayOf (data.bar (i + 1)).timestamp := by
  rw [isSessionOpen, beq_false_of_ne (Nat.succ_ne_zero i), Bool.false_or, Nat.add_sub_cancel,
    bne_iff_ne]
  exact ne_comm

/-- From the event of the candle `i` on.  The induction is on the number `k` of candles
that follow it; each of them has at most four events. -/
theorem collect_candle {k i seq fuel : Nat} (hi : i + 1 + k = data.candles.length)
    (hfuel : 4 * k + 3 ≤ fuel) (h : At e i .candle seq) :
    Announces data (e.collect data fuel)
      (marksFrom dayOf (data.bar i, i) (data.candles.zipIdx.drop (i + 1))) seq := by
  induction k generalizing i seq fuel e with
  | zero =>
    obtain ⟨fuel, rfl⟩ := Nat.exists_eq_add_of_le' hfuel
    obtain ⟨e₁, hadvance₁, h₁, hshows₁⟩ := advance_candle data h
    obtain ⟨e₂, hadvance₂, hshows₂, h₂⟩ := advance_timestamp data h₁
    rw [if_pos (isSessionClose_last hi)] at h₂
    obtain ⟨e₃, hadvance₃, hshows₃, h₃⟩ := advance_sessionClose data h₂
    rw [Left, if_neg (by omega)] at h₃
    rw [drop_eq_nil_of_le (by simp; omega)]
    refine .collect hadvance₁ hshows₁ (.collect hadvance₂ hshows₂ (.collect hadvance₃ hshows₃ ?_))
    rw [collect_done h₃]
    exact .nil
  | succ k ih =>
    have hnext : i + 1 < data.candles.length := by omega
    obtain ⟨fuel, rfl⟩ := Nat.exists_eq_add_of_le' (Nat.le_trans (by omega : 4 ≤ _) hfuel)
    obtain ⟨e₁, hadvance₁, h₁, hshows₁⟩ := advance_candle data h
    obtain ⟨e₂, hadvance₂, hshows₂, h₂⟩ := advance_timestamp data h₁
    rw [zipIdx_drop hnext, marksFrom]
    refine .collect hadvance₁ hshows₁ (.collect hadvance₂ hshows₂ ?_)
    rw [isSessionClose_eq hnext] at h₂
    by_cases hopen : isSessionOpen data (i + 1) = true
    · rw [if_pos hopen] at h₂
      rw [if_neg (isSessionOpen_succ_iff.mp hopen)]
      obtain ⟨e₃, hadvance₃, hshows₃, h₃⟩ := advance_sessionClose data h₂
      rw [Left, if_pos hnext, if_pos hopen] at h₃
      obtain ⟨e₄, hadvance₄, h₄, hshows₄⟩ := advance_sessionOpen data h₃
      refine .collect hadvance₃ hshows₃ (.collect hadvance₄ hshows₄ ?_)
      exact ih (by omega) (by omega) h₄
    · rw [if_neg hopen, Left, if_pos hnext, if_neg hopen] at h₂
      rw [if_pos (by_contra fun hne ↦ hopen (isSessionOpen_succ_iff.mpr hne))]
      exact ih (by omega) (by omega) h₂

theorem collect_spec {fuel : Nat} (hfuel : 4 * data.candles.length ≤ fuel) :
    Announces data ((EventReplayEngine.new data .fullWithSessions).collect data fuel)
      (marks dayOf data.candles.zipIdx) 0 := by
  cases hlen : data.candles.length with
  | zero =>
    have hnil : data.candles = [] := length_eq_zero_iff.mp hlen
    rw [collect_done (by rw [EventReplayEngine.new, EventReplayEngine.reset, if_pos hnil]), hnil]
    exact .nil
  | succ k =>
    have hne : data.candles ≠ [] := fun hnil ↦ by rw [hnil] at hlen; cases hlen
    have h₀ : At (EventReplayEngine.new data .fullWithSessions) 0 .sessionOpen 0 := by
      rw [EventReplayEngine.new, EventReplayEngine.reset, if_neg hne]
      exact ⟨rfl, rfl, by simp [firstPhase, isSessionOpen], rfl, rfl⟩
    obtain ⟨fuel, rfl⟩ := Nat.exists_eq_add_of_le' (Nat.le_trans (by omega : 1 ≤ _) hfuel)
    obtain ⟨e₁, hadvance₁, h₁, hshows₁⟩ := advance_sessionOpen data h₀
    rw [← drop_zero (l := data.candles.zipIdx), zipIdx_drop (by omega), marks]
    exact .collect hadvance₁ hshows₁ (collect_candle (k := k) (by omega) (by omega) h₁)

theorem buildEventSequence_spec (data : MarketData F) :
    Announces data (buildEventSequence data .fullWithSessions)
    (marks dayOf data.candles.zipIdx) 0 :=
  collect_spec le_rfl

theorem collect_grows (e : EventReplayEngine F) (fuel : Nat) :
    e.collect data fuel <+: e.collect data (fuel + 1) := by
  induction fuel generalizing e with
  | zero => exact List.nil_prefix
  | succ fuel ih =>
    rw [EventReplayEngine.collect, EventReplayEngine.collect]
    split
    · exact List.nil_prefix
    · exact (List.prefix_cons_inj _).mpr (ih _)

theorem collect_eq_buildEventSequence {fuel : Nat} (hfuel : 4 * data.candles.length ≤ fuel) :
    (EventReplayEngine.new data .fullWithSessions).collect data fuel =
      buildEventSequence data .fullWithSessions := by
  induction fuel, hfuel using Nat.le_induction with
  | base => rfl
  | succ fuel hfuel ih =>
    rw [← ih]
    refine ((collect_grows _ fuel).eq_of_length ?_).symm
    rw [← length_map ReplayEvent.mark, (collect_spec hfuel).marks,
      ← length_map ReplayEvent.mark, (collect_spec (Nat.le_succ_of_le hfuel)).marks]

/-! ## The order of the events -/

theorem barMarks_time (ha : data.bar a.2 = a.1) :
    (barMarks a).map (Mark.time data) = [a.1.timestamp, data.barClose a.1] := by
  simp only [barMarks, map_cons, map_nil, Mark.time, ha]

theorem marksFrom_ordered_iff (key : TimePoint → Int) {as : List (Candle F × Nat)}
    (has : ∀ b ∈ a :: as, data.bar b.2 = b.1) :
    ((marksFrom key a as).map (Mark.time data)).IsChain (· ≤ ·) ↔
      (a :: as).IsChain (fun a b ↦ data.barClose a.1 ≤ b.1.timestamp) := by
  induction as generalizing a with
  | nil =>
    refine iff_of_true ?_ (isChain_singleton a)
    rw [marksFrom, map_append, barMarks_time (has a mem_cons_self)]
    simp [Mark.time, has a mem_cons_self, le_barClose]
  | cons b bs ih =>
    have ha := has a mem_cons_self
    have hb := has b (by simp)
    have ih := ih fun c hc ↦ has c (mem_cons_of_mem a hc)
    obtain ⟨rest, hrest⟩ := marksFrom_eq_cons key b bs
    rw [isChain_cons_cons, ← ih, marksFrom, hrest]
    simp only [map_append, barMarks_time ha, map_cons, Mark.time, hb]
    split
    · simp [le_barClose]
    · simp [Mark.time, ha, hb, le_barClose]

/-! ## The result -/

theorem bar_of_mem_zipIdx (ha : a ∈ data.candles.zipIdx) :
    data.bar a.2 = a.1 := by
  have := mem_zipIdx_iff_getElem?.mp ha
  rw [MarketData.bar, getD_eq_getElem?_getD, this, Option.getD_some]

theorem replay_ordered_iff (data : MarketData F) :
    ((buildEventSequence data .fullWithSessions).map ReplayEvent.timestamp).IsChain (· ≤ ·) ↔
      data.candles.IsChain (fun a b ↦ data.barClose a ≤ b.timestamp) := by
  rw [(buildEventSequence_spec data).times, ← isChain_zipIdx_iff (l := data.candles) (n := 0)]
  have hbar := fun a (ha : a ∈ data.candles.zipIdx) ↦ bar_of_mem_zipIdx ha
  revert hbar
  cases data.candles.zipIdx with
  | nil => exact fun _ ↦ iff_of_true .nil .nil
  | cons a as =>
    intro hbar
    obtain ⟨rest, hrest⟩ := marksFrom_eq_cons dayOf a as
    rw [← marksFrom_ordered_iff dayOf hbar, marks, hrest]
    simp [Mark.time]

theorem replay_sessions_iff (data : MarketData F)
    (h : data.candles.Pairwise (fun a b ↦ a.timestamp < b.timestamp)) :
    OneSessionADay data ((buildEventSequence data .fullWithSessions).map ReplayEvent.mark) ↔
      data.candles.IsChain (fun a b ↦ ¬ Misdated a.timestamp b.timestamp) := by
  have hsame : marks dayOf data.candles.zipIdx = marks calendarDay data.candles.zipIdx ↔
      data.candles.IsChain (fun a b ↦ ¬ Misdated a.timestamp b.timestamp) := by
    rw [← isChain_congr h.isChain fun a b hlt ↦ dayOf_agrees_iff hlt, ← isChain_zipIdx_iff (n := 0)]
    cases data.candles.zipIdx with
    | nil => exact iff_of_true rfl .nil
    | cons a as => rw [marks, marks, cons_inj_right, marksFrom_eq_iff]
  rw [(buildEventSequence_spec data).marks, ← hsame]
  constructor
  · rintro ⟨days, hflatten, hdays, hdistinct, hmarks⟩
    rw [hmarks, ← marks_flatten hdays hdistinct.isChain, hflatten]
  · intro hmarks
    have hmono : data.candles.zipIdx.Pairwise
        (fun a b ↦ calendarDay a.1.timestamp ≤ calendarDay b.1.timestamp) := by
      rw [← pairwise_map (f := Prod.fst) (R := fun a b : Candle F ↦
        calendarDay a.timestamp ≤ calendarDay b.timestamp), zipIdx_map_fst]
      exact h.imp fun hlt ↦ calendarDay_mono hlt
    obtain ⟨days, hflatten, hdays, hlt⟩ := exists_days hmono
    have hdistinct := hlt.imp fun hlt a ha b hb ↦ (hlt a ha b hb).ne
    refine ⟨days, hflatten, hdays, hdistinct, ?_⟩
    rw [hmarks, ← hflatten, marks_flatten hdays hdistinct.isChain]

/-- **When a replay with sessions is well formed.**  For candles in the order of their time
stamps: just when each of them has closed, by the nominal length of the timeframe, before the
next one starts, and no two neighbours lie where cutting off towards the epoch misses the day. -/
theorem eventReplay_wellFormed_iff (data : MarketData F)
    (h : data.candles.Pairwise (fun a b ↦ a.timestamp < b.timestamp)) :
    WellFormedStream data (buildEventSequence data .fullWithSessions) ↔
      data.candles.IsChain (fun a b ↦
        a.timestamp + minutes (timeframeMinutes data.config.timeframe) ≤ b.timestamp ∧
          ¬ Misdated a.timestamp b.timestamp) := by
  rw [isChain_and_iff, ← replay_sessions_iff data h]
  constructor
  · rintro ⟨hsessions, -, hordered⟩
    exact ⟨(replay_ordered_iff data).mp hordered, hsessions⟩
  · rintro ⟨hclosed, hsessions⟩
    exact ⟨hsessions, (buildEventSequence_spec data).numbers, (replay_ordered_iff data).mpr hclosed⟩

end Engine

section Sample

private def dailyBar (t : TimePoint) : Candle ℚ := ⟨t, 1, 1, 1, 1, 0, 0, 0, .d1⟩

private def dailyData (tf : Timeframe) (times : List TimePoint) : MarketData ℚ :=
  ⟨⟨['X', 'A', 'U'], tf, none, none⟩, times.map dailyBar, .empty, true⟩

/-- Two bars of one minute, an hour before the epoch and an hour after it, are put into one
session; two daily bars twelve hours apart give events that go back in time. -/
theorem replay_not_wellFormed :
    let hour := 3600000000000
    ¬ WellFormedStream (dailyData .m1 [-hour, hour])
        (buildEventSequence (dailyData .m1 [-hour, hour]) .fullWithSessions) ∧
      ¬ WellFormedStream (dailyData .d1 [0, 12 * hour])
        (buildEventSequence (dailyData .d1 [0, 12 * hour]) .fullWithSessions) := by
  constructor
  · intro h
    exact absurd ((replay_sessions_iff _ (by decide)).mp h.sessions) (by decide)
  · intro h
    exact absurd ((replay_ordered_iff _).mp h.ordered) (by decide)

/-- Two bars on either side of the end of a day. -/
theorem eventReplay_wellFormed_sample :
    WellFormedStream (dailyData .h1 [82800000000000, 86400000000000])
      (buildEventSequence (dailyData .h1 [82800000000000, 86400000000000]) .fullWithSessions) :=
  (eventReplay_wellFormed_iff _ (by decide)).mpr (by decide)

end Sample

end Qros.Quant
