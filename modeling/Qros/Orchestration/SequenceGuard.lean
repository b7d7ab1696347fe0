import Mathlib.Data.Finset.Sort
import Mathlib.Data.String.Basic
import Qros.Lib.Interleave
import Qros.Orchestration.MarketState

/-!
# The sequence guard

`assess_sequence_integrity` of `researchos/orchestration/market_state_sequence_guard.py`.
One pass keeps the last sequence of every source.  What it says of a source comes from the
events of that source alone, so the report does not depend on how the sources are
interleaved (`sequence_integrity`).
-/

namespace Qros.Orchestration.SequenceGuard

open Qros.Lib Qros.Lib.Interleave Qros.Python List
open Qros.Orchestration.MarketState (EventClock)

/-! ## The pass over the events -/

inductive SequenceValue where
  | none
  | bool (b : Bool)
  | int (n : Int)
  | other

structure SequencedClock extends EventClock where
  sequence : SequenceValue

/-- A positive `int` that is no `bool`. -/
def SequenceValue.counter : SequenceValue → Option Int
  | .int n => if n ≤ 0 then Option.none else some n
  | _ => Option.none

structure Tables where
  seenSources : Finset String
  lastSequence : Dict String Int
  issues : Finset String
  sourceIssues : Finset (String ×ₗ String)

def Tables.empty : Tables := ⟨∅, ∅, ∅, ∅⟩

def missingOrInvalid : String := "SEQUENCE_MISSING_OR_INVALID"

def Tables.addIssue (t : Tables) (source code : String) : Tables :=
  { t with
    issues := insert code t.issues
    sourceIssues := insert (toLex (source, code)) t.sourceIssues }

/-- The break between two sequences of a source, if any. -/
def breakCode (previous sequence : Int) : Option String :=
  if sequence = previous then some "SEQUENCE_DUPLICATE"
  else if sequence < previous then some "SEQUENCE_REGRESSION"
  else if sequence > previous + 1 then some "SEQUENCE_GAP"
  else none

def SequencedClock.key (event : SequencedClock) : String := strip event.source

def Tables.read (t : Tables) (event : SequencedClock) : Tables :=
  let source := event.key
  let t := { t with seenSources := insert source t.seenSources }
  match event.sequence.counter with
  | none => t.addIssue source missingOrInvalid
  | some sequence =>
    let t' := match (t.lastSequence.get? source).bind (breakCode · sequence) with
      | none => t
      | some code => t.addIssue source code
    { t' with lastSequence := t'.lastSequence.set source sequence }

structure SequenceIntegrityReport where
  valid : Bool
  eventCount : Nat
  sourceCount : Nat
  issueCodes : List String
  sourceIssueCodes : List (String ×ₗ String)

def Tables.report (t : Tables) (eventCount : Nat) : SequenceIntegrityReport where
  valid := decide (t.issues = ∅)
  eventCount := eventCount
  sourceCount := t.seenSources.card
  issueCodes := t.issues.sort
  sourceIssueCodes := t.sourceIssues.sort

def assessSequenceIntegrity (events : List SequencedClock) :
    Except String SequenceIntegrityReport := do
  let t ← events.foldlM (fun t event ↦ do event.validate; return t.read event) Tables.empty
  return t.report events.length

/-! ## One source -/

/-- What the pass keeps of one source. -/
structure SourceView where
  last : Option Int
  codes : Set String

def SourceView.empty : SourceView := ⟨none, ∅⟩

def SourceView.addCode (v : SourceView) (code : String) : SourceView :=
  { v with codes := insert code v.codes }

def SourceView.read (v : SourceView) (event : SequencedClock) : SourceView :=
  match event.sequence.counter with
  | none => v.addCode missingOrInvalid
  | some sequence =>
    match v.last.bind (breakCode · sequence) with
    | none => { v with last := some sequence }
    | some code => { v.addCode code with last := some sequence }

def viewOf (history : List SequencedClock) : SourceView := history.foldl .read .empty

def Tables.view (t : Tables) (source : String) : SourceView where
  last := t.lastSequence.get? source
  codes := {code | toLex (source, code) ∈ t.sourceIssues}

theorem view_addIssue (t : Tables) (source code k : String) :
    (t.addIssue source code).view k =
      if source = k then (t.view k).addCode code else t.view k := by
  by_cases hk : source = k
  · subst hk
    rw [if_pos rfl, Tables.view, SourceView.addCode, Tables.addIssue]
    refine congrArg (SourceView.mk _) ?_
    ext c
    simp [Tables.view]
  · rw [if_neg hk, Tables.view, Tables.addIssue]
    refine congrArg (SourceView.mk _) ?_
    ext c
    simp [Ne.symm hk]

theorem view_setLast (t : Tables) (source k : String) (n : Int) :
    { t with lastSequence := t.lastSequence.set source n }.view k =
      if source = k then { t.view k with last := some n } else t.view k := by
  rw [Tables.view, Dict.get?_set]
  by_cases hk : source = k
  · rw [if_pos hk, if_pos hk]
    rfl
  · rw [if_neg hk, if_neg hk]
    rfl

/-- **One step.**  An event changes what is known of its own source. -/
theorem view_read (t : Tables) (event : SequencedClock) (k : String) :
    (t.read event).view k =
      if event.key = k then (t.view k).read event else t.view k := by
  have hlast : (t.view event.key).last = t.lastSequence.get? event.key := rfl
  unfold Tables.read SourceView.read
  cases event.sequence.counter with
  | none =>
    simp only [view_addIssue]
    rfl
  | some sequence =>
    simp only [view_setLast]
    by_cases hk : event.key = k
    · subst hk
      rw [if_pos rfl, if_pos rfl, hlast]
      cases (t.lastSequence.get? event.key).bind (breakCode · sequence) with
      | none => rfl
      | some code =>
        simp only [view_addIssue, if_pos]
        rfl
    · rw [if_neg hk, if_neg hk]
      cases (t.lastSequence.get? event.key).bind (breakCode · sequence) with
      | none => rfl
      | some code =>
        simp only [view_addIssue, if_neg hk]
        rfl

/-! ## The whole pass -/

def pass (events : List SequencedClock) : Tables := events.foldl .read .empty

variable {events : List SequencedClock}

theorem assess_eq_ok {report : SequenceIntegrityReport} :
    assessSequenceIntegrity events = .ok report ↔
      (∀ event ∈ events, event.validate = .ok ()) ∧
        (pass events).report events.length = report := by
  rw [assessSequenceIntegrity, bind_eq_ok]
  simp only [foldlM_check_eq_ok]
  constructor
  · rintro ⟨t, ⟨hvalid, rfl⟩, hreport⟩
    exact ⟨hvalid, Except.ok.inj hreport⟩
  · rintro ⟨hvalid, rfl⟩
    exact ⟨_, ⟨hvalid, rfl⟩, rfl⟩

/-- **The run.**  What is known of a source comes from its own events. -/
theorem view_pass (events : List SequencedClock) (k : String) :
    (pass events).view k = viewOf (Interleave.history SequencedClock.key k events) := by
  rw [pass, view_foldl view_read]
  refine congrArg (List.foldl _ · _) (congrArg (SourceView.mk _) ?_)
  ext c
  simp [Tables.empty]

theorem seenSources_read (t : Tables) (event : SequencedClock) :
    (t.read event).seenSources = insert event.key t.seenSources := by
  unfold Tables.read
  cases event.sequence.counter with
  | none => rfl
  | some sequence =>
    simp only
    cases (t.lastSequence.get? event.key).bind (breakCode · sequence) <;> rfl

theorem mem_seenSources_pass {k : String} :
    k ∈ (pass events).seenSources ↔ ∃ event ∈ events, event.key = k := by
  induction events using reverseRecOn with
  | nil => simp [pass, Tables.empty]
  | append_singleton events event ih =>
    rw [pass, foldl_append, foldl_cons, foldl_nil, seenSources_read,
      Finset.mem_insert, ← pass, ih]
    simp only [mem_append, mem_singleton]
    constructor
    · rintro (rfl | ⟨e, he, rfl⟩)
      · exact ⟨event, .inr rfl, rfl⟩
      · exact ⟨e, .inl he, rfl⟩
    · rintro ⟨e, he | rfl, rfl⟩
      · exact .inr ⟨e, he, rfl⟩
      · exact .inl rfl

/-- The issues are those that are found of some source. -/
def Tables.Sound (t : Tables) : Prop := t.issues = t.sourceIssues.image fun i ↦ (ofLex i).2

theorem sound_addIssue {t : Tables} (h : t.Sound) (source code : String) :
    (t.addIssue source code).Sound := by
  rw [Tables.Sound, Tables.addIssue, Finset.image_insert, ← h]
  rfl

theorem sound_read {t : Tables} (h : t.Sound) (event : SequencedClock) :
    (t.read event).Sound := by
  have hseen : { t with seenSources := insert event.key t.seenSources }.Sound := h
  unfold Tables.read
  cases event.sequence.counter with
  | none => exact sound_addIssue hseen _ _
  | some sequence =>
    simp only
    cases (t.lastSequence.get? event.key).bind (breakCode · sequence) with
    | none => exact hseen
    | some code => exact sound_addIssue hseen _ code

theorem sound_pass (events : List SequencedClock) : (pass events).Sound := by
  induction events using reverseRecOn with
  | nil => rfl
  | append_singleton events event ih =>
    rw [pass, foldl_append]
    exact sound_read ih event

theorem mem_sourceIssues_pass {k code : String} :
    toLex (k, code) ∈ (pass events).sourceIssues ↔
      code ∈ (viewOf (Interleave.history SequencedClock.key k events)).codes := by
  rw [← view_pass]
  rfl

/-! ## Interleavings -/

theorem report_pass_eq {events events' : List SequencedClock}
    (h : Interleaves SequencedClock.key events events') :
    (pass events').report events'.length = (pass events).report events.length := by
  have hsource : (pass events').sourceIssues = (pass events).sourceIssues := by
    ext ⟨k, code⟩
    exact mem_sourceIssues_pass.trans (by rw [h k]; exact mem_sourceIssues_pass.symm)
  have hissues : (pass events').issues = (pass events).issues := by
    rw [sound_pass events', sound_pass events, hsource]
  have hseen : (pass events').seenSources = (pass events).seenSources := by
    ext k
    rw [mem_seenSources_pass, mem_seenSources_pass]
    exact exists_congr fun e ↦ and_congr_left' h.mem_iff
  rw [Tables.report, Tables.report, hsource, hissues, hseen, h.perm.length_eq]

/-! ## Continuity -/

def CountsFrom (first : Int) (sequences : List SequenceValue) : Prop :=
  sequences = (List.range sequences.length).map fun i ↦ .int (first + (i : Int))

/-- Positive consecutive integers. -/
def Consecutive (sequences : List SequenceValue) : Prop :=
  ∃ first : Int, 0 < first ∧ CountsFrom first sequences

theorem countsFrom_concat {first : Int} {sequences : List SequenceValue} {v : SequenceValue} :
    CountsFrom first (sequences ++ [v]) ↔
      CountsFrom first sequences ∧ v = .int (first + (sequences.length : Int)) := by
  rw [CountsFrom, length_append, length_singleton, range_succ, map_append,
    map_singleton]
  constructor
  · intro h
    obtain ⟨hinit, hlast⟩ := append_inj' h rfl
    exact ⟨hinit, singleton_inj.mp hlast⟩
  · rintro ⟨hinit, rfl⟩
    exact congrArg (· ++ _) hinit

theorem counter_eq_some {v : SequenceValue} {n : Int} :
    v.counter = some n ↔ v = .int n ∧ 0 < n := by
  cases v with
  | int m =>
    by_cases hm : m ≤ 0
    · rw [SequenceValue.counter, if_pos hm]
      refine iff_of_false (fun h ↦ by cases h) ?_
      rintro ⟨h, hn⟩
      cases h
      omega
    · rw [SequenceValue.counter, if_neg hm]
      constructor
      · rintro ⟨⟩
        exact ⟨rfl, by omega⟩
      · rintro ⟨h, -⟩
        cases h
        rfl
  | _ => exact iff_of_false (fun h ↦ by cases h) fun h ↦ by cases h.1

theorem breakCode_eq_none {previous sequence : Int} :
    breakCode previous sequence = none ↔ sequence = previous + 1 := by
  unfold breakCode
  split_ifs <;> simp <;> omega

theorem codes_read_eq_empty {v : SourceView} {event : SequencedClock} :
    (v.read event).codes = ∅ ↔ v.codes = ∅ ∧
      ∃ n, event.sequence.counter = some n ∧ ∀ p, v.last = some p → n = p + 1 := by
  unfold SourceView.read
  cases hcounter : event.sequence.counter with
  | none =>
    refine iff_of_false ?_ ?_
    · exact (Set.insert_nonempty _ _).ne_empty
    · rintro ⟨-, n, hn, -⟩
      cases hn
  | some n =>
    have hbreak : v.last.bind (breakCode · n) = none ↔ ∀ p, v.last = some p → n = p + 1 := by
      cases v.last with
      | none => simp
      | some p => simpa using breakCode_eq_none
    simp only
    cases hcode : v.last.bind (breakCode · n) with
    | none =>
      have hfollows : ∃ m, some n = some m ∧ ∀ p, v.last = some p → m = p + 1 :=
        ⟨n, rfl, hbreak.mp hcode⟩
      exact (and_iff_left hfollows).symm
    | some code =>
      refine iff_of_false (Set.insert_nonempty _ _).ne_empty ?_
      rintro ⟨-, m, hm, hfollows⟩
      cases hm
      rw [hbreak.mpr hfollows] at hcode
      cases hcode

theorem last_read {v : SourceView} {event : SequencedClock} {n : Int}
    (h : event.sequence.counter = some n) : (v.read event).last = some n := by
  unfold SourceView.read
  rw [h]
  simp only
  cases v.last.bind (breakCode · n) <;> rfl

theorem viewOf_concat (events : List SequencedClock) (event : SequencedClock) :
    viewOf (events ++ [event]) = (viewOf events).read event := by
  rw [viewOf, foldl_append]
  rfl

theorem last_viewOf {first p : Int} (hfirst : 0 < first)
    (h : CountsFrom first (events.map SequencedClock.sequence)) :
    (viewOf events).last = some p ↔ events ≠ [] ∧ p + 1 = first + (events.length : Int) := by
  cases events using reverseRecOn with
  | nil => exact iff_of_false (fun h ↦ by cases h) fun h ↦ h.1 rfl
  | append_singleton events event =>
    rw [map_append, map_singleton, countsFrom_concat, length_map] at h
    have hcounter : event.sequence.counter = some (first + (events.length : Int)) :=
      counter_eq_some.mpr ⟨h.2, by omega⟩
    rw [viewOf_concat, last_read hcounter, Option.some_inj, length_append,
      length_singleton, and_iff_right (append_ne_nil_of_right_ne_nil _ (by simp))]
    omega

theorem codes_viewOf :
    (viewOf events).codes = ∅ ↔ Consecutive (events.map SequencedClock.sequence) := by
  induction events using reverseRecOn with
  | nil => exact iff_of_true rfl ⟨1, Int.one_pos, rfl⟩
  | append_singleton events event ih =>
    rw [viewOf_concat, codes_read_eq_empty, ih, map_append, map_singleton]
    constructor
    · rintro ⟨⟨first, hfirst, hcounts⟩, n, hn, hfollows⟩
      obtain ⟨hv, hpos⟩ := counter_eq_some.mp hn
      by_cases hnil : events = []
      · subst hnil
        exact ⟨n, hpos, countsFrom_concat.mpr ⟨rfl, by simpa using hv⟩⟩
      · have hlast := (last_viewOf hfirst hcounts).mpr
          ⟨hnil, Int.sub_add_cancel (first + (events.length : Int)) 1⟩
        refine ⟨first, hfirst, countsFrom_concat.mpr ⟨hcounts, ?_⟩⟩
        rw [hv, hfollows _ hlast, length_map, Int.sub_add_cancel]
    · rintro ⟨first, hfirst, hcounts⟩
      obtain ⟨hinit, hv⟩ := countsFrom_concat.mp hcounts
      rw [length_map] at hv
      refine ⟨⟨first, hfirst, hinit⟩, first + (events.length : Int), ?_, fun p hp ↦ ?_⟩
      · exact counter_eq_some.mpr ⟨hv, by omega⟩
      · exact ((last_viewOf hfirst hinit).mp hp).2.symm

theorem report_valid_iff :
    ((pass events).report events.length).valid = true ↔
      ∀ source, Consecutive
        ((Interleave.history SequencedClock.key source events).map SequencedClock.sequence) := by
  simp only [← codes_viewOf]
  rw [Tables.report, decide_eq_true_iff, sound_pass, Finset.image_eq_empty]
  constructor
  · intro h source
    ext code
    rw [← mem_sourceIssues_pass, h]
    simp
  · intro h
    rw [Finset.eq_empty_iff_forall_notMem]
    rintro ⟨source, code⟩ hmem
    have : code ∈ (viewOf (Interleave.history SequencedClock.key source events)).codes :=
      mem_sourceIssues_pass.mp hmem
    rw [h source] at this
    exact this

/-- **Continuity is decided per source.**  There is a report when every event is well formed,
it is valid when the sequences of each source are positive and consecutive in the order of
arrival, and another interleaving of the sources gives the same report. -/
theorem sequence_integrity (events : List SequencedClock) :
    ((∃ report, assessSequenceIntegrity events = .ok report) ↔
        ∀ event ∈ events, event.validate = .ok ()) ∧
      ∀ report, assessSequenceIntegrity events = .ok report →
        (report.valid = true ↔ ∀ source, Consecutive
          ((Interleave.history SequencedClock.key source events).map SequencedClock.sequence)) ∧
        ∀ events', Interleaves SequencedClock.key events events' →
          assessSequenceIntegrity events' = .ok report := by
  refine ⟨⟨?_, ?_⟩, ?_⟩
  · rintro ⟨report, h⟩
    exact (assess_eq_ok.mp h).1
  · intro h
    exact ⟨_, assess_eq_ok.mpr ⟨h, rfl⟩⟩
  · intro report h
    obtain ⟨hvalid, rfl⟩ := assess_eq_ok.mp h
    refine ⟨report_valid_iff, fun events' hinter ↦ assess_eq_ok.mpr ⟨?_, ?_⟩⟩
    · exact fun event hevent ↦ hvalid event (hinter.mem_iff.mp hevent)
    · exact report_pass_eq hinter

end Qros.Orchestration.SequenceGuard
