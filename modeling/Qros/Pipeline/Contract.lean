import Qros.Lib.Machine
import Qros.Pipeline.References
import Mathlib.Algebra.Ring.Int.Defs

/-!
# Atomic and sound operations

An operation keeps its `Contract` if it raises with the repository as it was, or returns
with every reference it has stored leading to an object of its class.  The operations
of the pipeline check that an id is there before they save, and its class afterwards, if
at all.  So the contract is kept on `Careful` calls: every id that is passed as a
reference names an object of its class (an id that the first checks reject may be
anything), no generated id is in use for an object of another class, the object has
a text, and a research is reported and validated before it is archived.

`contract_of_careful` is the step and `run_contract` is the run.
-/

set_option linter.unusedSectionVars false

namespace Qros.Pipeline

open Qros.Lib List

variable {F T V : Type} [Zero F] [One F]

/-! ## Creations -/

section

variable {host : Host F T V} {call : Call F T V} {repo repo' : Repository F T V}

/-- The id of the entry about an object. -/
def auditId (host : Host F T V) (action : String) (c : Cls) (id : String) : String :=
  host.generateId (seedOf ["AuditEntry", "pipeline", action, id, c.name])

/-- The objects that a creation makes, by class and id. -/
def Creation.generates (host : Host F T V) (repo : Repository F T V) (c : Creation F T V)
    (r : Record F T V) : List (Cls × String) :=
  (r.content.cls, r.base.id) :: (c.link.generates host repo ++
    [(.auditEntry, auditId host c.action r.content.cls r.base.id)])

theorem references_auditOf (action : String) (o : Obj F T V) (text : String) :
    (Obj.record (auditOf host call action o text)).references = [(o.cls, o.id)] := by
  have hname : (Cls.ofName o.cls.name).map (fun c ↦ (c, o.id)) = some (o.cls, o.id) := by
    rw [Cls.ofName_name]
    rfl
  exact congrArg Option.toList hname

variable (call) in
theorem saves_audit (h : Consistent repo) {action : String} {o : Obj F T V} (text : String)
    (ho : Resolves repo (o.cls, o.id))
    (hfits : Fits repo (auditId host action o.cls o.id) .auditEntry) :
    Saves repo [(.auditEntry, auditId host action o.cls o.id)]
      (repo.set (auditOf host call action o text).base.id
        (.record (auditOf host call action o text))) := by
  refine h.saves_new (o := .record (auditOf host call action o text)) hfits fun ref href ↦ ?_
  rw [references_auditOf] at href
  cases mem_singleton.mp href
  exact ho.set hfits

variable {r : Record F T V}

theorem generatesSet_save (hfits : Fits repo r.base.id r.content.cls) (kind : CollectionKind)
    (researchId : String) :
    generatesSet host (repo.set r.base.id (.record r)) kind researchId =
      generatesSet host repo kind researchId := by
  unfold generatesSet
  rw [Dict.get?_set]
  by_cases hid : r.base.id = researchId
  · subst hid
    rw [if_pos rfl]
    symm
    split
    · rename_i research h
      exact absurd (hfits _ h).symm r.content.cls_ne_research
    · rfl
  · rw [if_neg hid]

theorem generates_save (hfits : Fits repo r.base.id r.content.cls) (link : Link) :
    link.generates host (repo.set r.base.id (.record r)) = link.generates host repo := by
  cases link with
  | member kind researchId => exact generatesSet_save hfits kind researchId
  | memberIfGiven kind researchId =>
    dsimp only [Link.generates]
    rw [generatesSet_save hfits]
  | none => rfl
  | observation researchId => rfl
  | report researchId => rfl
  | validation researchId => rfl

theorem saves_record (h : Consistent repo)
    (hrefs : ∀ ref ∈ r.content.references, Resolves repo ref)
    (hfits : Fits repo r.base.id r.content.cls) :
    Saves repo [(r.content.cls, r.base.id)] (repo.set r.base.id (.record r)) :=
  h.saves_new (o := .record r) hfits fun ref href ↦ (hrefs ref href).set hfits

/-- **Creations.**  One that returns keeps the repository consistent if its references
lead somewhere and what it makes fits. -/
theorem saves_created (h : Consistent repo) {c : Creation F T V}
    (hcreated : Created host call c repo r repo') (haccepts : c.link.Accepts r.content.cls)
    (hrefs : ∀ ref ∈ r.content.references, Resolves repo ref)
    (hfits : TypedStore.Admits (schema F T V) repo (c.generates host repo r)) :
    Saves repo (c.generates host repo r) repo' := by
  obtain ⟨repo₁, text, hlinked, -, rfl⟩ := hcreated.saved
  have hfit : Fits repo r.base.id r.content.cls := hfits.fits _ mem_cons_self
  have hfirst := saves_record h hrefs hfit
  have hrest : TypedStore.Admits (schema F T V) (repo.set r.base.id (.record r))
      (c.link.generates host repo ++
        [(.auditEntry, auditId host c.action r.content.cls r.base.id)]) :=
    hfits.tail hfirst.grows
  have hstored : Resolves (repo.set r.base.id (.record r)) (r.content.cls, r.base.id) :=
    ⟨_, Dict.get?_set_self _ _ _, rfl⟩
  have hlink := saves_link hfirst.consistent hlinked haccepts hstored
    (generates_save hfit c.link ▸ hrest.left)
  rw [generates_save hfit] at hlink
  have haudit := saves_audit call hlink.consistent (o := .record r) text
    (hlink.grows.kept _ hstored)
    ((hrest.grows hlink.grows).fits _ (mem_singleton_self _))
  exact hfirst.trans (hlink.trans haudit)

variable (host call) in
/-- The call meets no slip: its references lead somewhere, its research takes the
transition, what it makes fits, and its object has a text. -/
structure Creation.Careful (c : Creation F T V) (repo : Repository F T V) (r : Record F T V) :
    Prop where
  refs : ∀ ref ∈ r.content.references, Resolves repo ref
  ready : c.link.Ready repo
  fits : TypedStore.Admits (schema F T V) repo (c.generates host repo r)
  text : ∃ text, call.toJson (.record r) = .ok text

theorem Link.Ready.save {link : Link} (h : link.Ready repo)
    (hfits : Fits repo r.base.id r.content.cls) :
    link.Ready (repo.set r.base.id (.record r)) := by
  have hactive : ∀ researchId, (∃ research, repo.get? researchId = some (.research research) ∧
      research.Active) → ∃ research,
        (repo.set r.base.id (.record r)).get? researchId = some (.research research) ∧
          research.Active := by
    rintro researchId ⟨research, hr, hactive⟩
    exact ⟨research, TypedStore.get?_set_of_fits (S := schema F T V) hr hfits
      fun heq ↦ r.content.cls_ne_research heq.symm, hactive⟩
  cases link with
  | none => trivial
  | observation researchId => exact TypedStore.Names.set h hfits
  | member kind researchId => exact TypedStore.Names.set h hfits
  | memberIfGiven kind researchId => exact h.imp_right fun h ↦ TypedStore.Names.set h hfits
  | report researchId => exact hactive researchId h
  | validation researchId => exact hactive researchId h

theorem exists_created (h : Consistent repo) {c : Creation F T V}
    (hchecks : c.checks repo = .ok ()) (hobject : c.object = .ok r)
    (hcareful : c.Careful host call repo r) : ∃ repo', Created host call c repo r repo' := by
  have hfit : Fits repo r.base.id r.content.cls := hcareful.fits.fits _ mem_cons_self
  obtain ⟨repo₁, hlinked⟩ := exists_linked host call
    (saves_record h hcareful.refs hfit).consistent r (hcareful.ready.save hfit)
  obtain ⟨text, htext⟩ := hcareful.text
  exact ⟨_, hchecks, hobject, repo₁, text, hlinked, htext, rfl⟩

end

/-! ## Starting a research -/

section

variable {host : Host F T V} {call : Call F T V} {repo repo' : Repository F T V}

def generatesStart (host : Host F T V) (now : T) (a : ResearchArgs) : List (Cls × String) :=
  let id := (newResearch host now a).base.id
  [(.research, id), (.researchCycle, (researchCycle host now id).base.id),
    (.auditEntry, auditId host "RESEARCH_STARTED" .research id)]

variable (host call) in
structure CarefulStart (a : ResearchArgs) (repo : Repository F T V) : Prop where
  fits : TypedStore.Admits (schema F T V) repo (generatesStart host call.now a)
  text : ∃ text, call.toJson (.research (newResearch host call.now a)) = .ok text

theorem saves_started (h : Consistent repo) {a : ResearchArgs}
    (hstarted : Started host call a repo repo')
    (hfits : TypedStore.Admits (schema F T V) repo (generatesStart host call.now a)) :
    Saves repo (generatesStart host call.now a) repo' := by
  obtain ⟨text, -, rfl⟩ := hstarted.saved
  set research := newResearch host call.now a with hresearch
  set cycle := researchCycle host call.now research.base.id with hcycle
  have hfirst : Saves repo [(.research, research.base.id)]
      (repo.set research.base.id (.research research)) :=
    h.saves_new (o := .research research) (hfits.fits _ mem_cons_self)
      fun ref href ↦ nomatch href
  have hrest := hfits.tail hfirst.grows
  have hr : Resolves (repo.set research.base.id (.research research))
      (Cls.research, research.base.id) := ⟨_, Dict.get?_set_self _ _ _, rfl⟩
  have hsecond : Saves (repo.set research.base.id (.research research))
      [(.researchCycle, cycle.base.id)]
      ((repo.set research.base.id (.research research)).set cycle.base.id (.cycle cycle)) := by
    refine hfirst.consistent.saves_new (o := .cycle cycle) (hrest.fits _ mem_cons_self)
      fun ref href ↦ ?_
    cases mem_singleton.mp href
    exact hr.set (hrest.fits _ mem_cons_self)
  have hlast := hrest.tail hsecond.grows
  have haudit := saves_audit call hsecond.consistent (o := .research research) text
    (hsecond.grows.kept _ hr) (hlast.fits _ (mem_singleton_self _))
  set entry := auditOf host call "RESEARCH_STARTED" (.research research) text with hentry
  have hkept : (((repo.set research.base.id (.research research)).set cycle.base.id
      (.cycle cycle)).set entry.base.id (.record entry)).get? cycle.base.id =
        some (.cycle cycle) :=
    TypedStore.get?_set_of_fits (S := schema F T V) (Dict.get?_set_self _ _ _)
      (hlast.fits _ (mem_singleton_self _)) fun heq ↦ nomatch heq
  have hstage := haudit.consistent.saves_update (o := .cycle cycle)
    (p := .cycle (cycle.addStage
      ⟨"start_research", 0, "Complete", [("research_id", research.base.id)]⟩))
    hkept rfl fun ref href ↦ .inl href
  exact ((hfirst.trans hsecond).trans haudit).trans hstage

theorem exists_started {a : ResearchArgs} (hcareful : CarefulStart host call a repo) :
    ∃ repo', Started host call a repo repo' := by
  obtain ⟨text, htext⟩ := hcareful.text
  exact ⟨_, ⟨text, htext, rfl⟩⟩

end

/-! ## Operations -/

section

variable [LT F] [LE F] [DecidableLT F] [DecidableLE F]

variable {r : Record F T V}

variable {now : T} {c : Creation F T V}

theorem content_of_hypothesis {host : Host F T V} {a : HypothesisArgs F}
    (h : hypothesis host now a = .ok r) : r.content = .hypothesis a := by
  unfold hypothesis at h
  split at h
  · cases h
  · cases h
    rfl

theorem content_of_scenario {host : Host F T V} {a : ScenarioArgs F V}
    (h : scenario host now a = .ok r) : r.content = .scenario a := by
  unfold scenario at h
  split at h
  · cases h
  · cases h
    rfl

theorem content_of_confidence {host : Host F T V} {a : ConfidenceArgs F}
    (h : confidence host now a = .ok r) : r.content = .confidence a := by
  unfold confidence at h
  split at h
  · cases h
  · cases h
    rfl

theorem content_of_contradiction {host : Host F T V} {a : ContradictionArgs V}
    (h : contradiction host now a = .ok r) : r.content = .contradiction a := by
  unfold contradiction at h
  split at h
  · cases h
  · cases h
    rfl

variable {host : Host F T V} {call : Call F T V} {repo repo' : Repository F T V}
  {op : Operation F T V}

def Operation.cls : Operation F T V → Cls
  | .startResearch _ => .research
  | .addObservation _ _ => .observation
  | .createEvidence _ _ => .evidence
  | .createInterpretation _ => .interpretation
  | .createNarrative _ => .narrative
  | .createHypothesis _ => .hypothesis
  | .createScenario _ _ => .scenario
  | .registerConfidence _ _ => .confidence
  | .detectContradiction _ => .contradiction
  | .generateReport _ => .researchReport
  | .validateResearch _ => .validation
  | .createFailureAnalysis _ => .failureAnalysis
  | .extractKnowledge _ => .knowledge
  | .extractLesson _ => .lesson
  | .assessCognitive _ => .cognitiveAssessment
  | .recordReasoningChain _ => .reasoningChain

theorem cls_of_creation (hop : op.creation host now = .inr c) (hobject : c.object = .ok r) :
    r.content.cls = op.cls := by
  cases op with
  | startResearch a => cases hop
  | createHypothesis a =>
    cases hop
    rw [content_of_hypothesis hobject]
    rfl
  | createScenario researchId a =>
    cases hop
    rw [content_of_scenario hobject]
    rfl
  | registerConfidence a researchId =>
    cases hop
    rw [content_of_confidence hobject]
    rfl
  | detectContradiction a =>
    cases hop
    rw [content_of_contradiction hobject]
    rfl
  | _ =>
    cases hop
    cases hobject
    rfl

theorem accepts_creation (hop : op.creation host now = .inr c) (hobject : c.object = .ok r) :
    c.link.Accepts r.content.cls := by
  rw [cls_of_creation hop hobject]
  cases op with
  | startResearch a => cases hop
  | createInterpretation a | createNarrative a | validateResearch a | createFailureAnalysis a
  | extractKnowledge a | extractLesson a | assessCognitive a | recordReasoningChain a =>
    cases hop
    trivial
  | _ =>
    cases hop
    rfl

theorem exec_start {a : ResearchArgs} (hop : op.creation host call.now = .inl a) {o : Obj F T V} :
    exec (op.run host call) repo = (.ok o, repo') ↔
      o = .research (newResearch host call.now a) ∧ Started host call a repo repo' := by
  unfold Operation.run
  rw [hop]
  dsimp only
  rw [exec_bind_eq_ok]
  constructor
  · rintro ⟨research, repo₁, hstart, h⟩
    obtain ⟨rfl, hstarted⟩ := exec_startResearch_iff.mp hstart
    cases h
    exact ⟨rfl, hstarted⟩
  · rintro ⟨rfl, hstarted⟩
    exact ⟨_, repo', exec_startResearch_iff.mpr ⟨rfl, hstarted⟩, rfl⟩

theorem exec_creation (hop : op.creation host call.now = .inr c) {o : Obj F T V} :
    exec (op.run host call) repo = (.ok o, repo') ↔
      ∃ r, o = .record r ∧ Created host call c repo r repo' := by
  unfold Operation.run
  rw [hop]
  dsimp only
  rw [exec_bind_eq_ok]
  constructor
  · rintro ⟨r, repo₁, hrun, h⟩
    cases h
    exact ⟨r, rfl, exec_creation_iff.mp hrun⟩
  · rintro ⟨r, rfl, hcreated⟩
    exact ⟨r, repo', exec_creation_iff.mpr hcreated, rfl⟩

/-- What an operation owes its caller. -/
structure Contract (host : Host F T V) (call : Call F T V) (repo : Repository F T V)
    (op : Operation F T V) : Prop where
  atomic : ∀ e repo', exec (op.run host call) repo = (.error e, repo') → repo' = repo
  sound : ∀ o repo', exec (op.run host call) repo = (.ok o, repo') →
    ∀ k stored, repo'.get? k = some stored → repo.get? k ≠ some stored →
      ∀ ref ∈ stored.references, ref.1.referable → Resolves repo' ref

/-- A call that meets no slip.  One that a check or the constructor rejects has none to
meet. -/
def Operation.Careful (host : Host F T V) (call : Call F T V) (repo : Repository F T V)
    (op : Operation F T V) : Prop :=
  match op.creation host call.now with
  | .inl a => CarefulStart host call a repo
  | .inr c => ∀ r, c.checks repo = .ok () → c.object = .ok r → c.Careful host call repo r

theorem careful_cases (h : Consistent repo) (hcareful : op.Careful host call repo) :
    (∃ e, exec (op.run host call) repo = (.error e, repo)) ∨
      ∃ o repo', exec (op.run host call) repo = (.ok o, repo') ∧ Consistent repo' := by
  unfold Operation.Careful at hcareful
  cases hop : op.creation host call.now with
  | inl a =>
    rw [hop] at hcareful
    obtain ⟨repo', hstarted⟩ := exists_started hcareful
    exact .inr ⟨_, repo', (exec_start hop).mpr ⟨rfl, hstarted⟩,
      (saves_started h hstarted hcareful.fits).consistent⟩
  | inr c =>
    rw [hop] at hcareful
    by_cases hok : c.checks repo = .ok () ∧ ∃ r, c.object = .ok r
    · obtain ⟨hchecks, r, hobject⟩ := hok
      have hcareful := hcareful r hchecks hobject
      obtain ⟨repo', hcreated⟩ := exists_created h hchecks hobject hcareful
      exact .inr ⟨_, repo', (exec_creation hop).mpr ⟨r, rfl, hcreated⟩,
        (saves_created h hcreated (accepts_creation hop hobject) hcareful.refs
          hcareful.fits).consistent⟩
    · have hrejected : ∃ e, exec (c.run host call) repo = (.error e, repo) :=
        exec_creation_of_rejected hok
      obtain ⟨e, he⟩ := hrejected
      left
      refine ⟨e, ?_⟩
      unfold Operation.run
      rw [hop]
      exact exec_bind_of_error he

/-- **One operation.** -/
theorem contract_of_careful (h : Consistent repo) (hcareful : op.Careful host call repo) :
    Contract host call repo op ∧ Consistent (exec (op.run host call) repo).2 := by
  rcases careful_cases h hcareful with ⟨e, he⟩ | ⟨o, repo', ho, hcons⟩
  · rw [he]
    refine ⟨⟨fun e' repo' h' ↦ ?_, fun o repo' h' ↦ ?_⟩, h⟩
    · rw [he] at h'
      cases h'
      rfl
    · rw [he] at h'
      cases h'
  · rw [ho]
    refine ⟨⟨fun e' repo'' h' ↦ ?_, fun o' repo'' h' k stored hk _ ref href _ ↦ ?_⟩, hcons⟩
    · rw [ho] at h'
      cases h'
    · rw [ho] at h'
      cases h'
      exact hcons.sound k stored hk ref href

theorem Contract.get?_eq (h : Contract host call repo op)
    (hraises : (exec (op.run host call) repo).1.isOk = false) (k : String) :
    (exec (op.run host call) repo).2.get? k = repo.get? k := by
  rcases hrun : exec (op.run host call) repo with ⟨_ | o, repo'⟩
  · rw [h.atomic _ repo' hrun]
  · rw [hrun] at hraises
    cases hraises

variable (host) in
/-- The pipeline, from an empty repository. -/
def machine : Machine (Repository F T V) (Call F T V × Operation F T V)
    (Except PyError (Obj F T V)) where
  init := ∅
  step := fun s repo ↦ exec (s.2.run host s.1) repo

/-- **Sequences of operations.**  While every call is careful, every operation keeps its
contract. -/
theorem run_contract {is : List (Call F T V × Operation F T V)}
    (h : Meets (fun pre s ↦ s.2.Careful host s.1 ((machine host).after pre)) is) :
    Meets (fun pre s ↦ Contract host s.1 ((machine host).after pre) s.2) is := by
  refine (h.induction (I := fun is ↦ Consistent ((machine host).after is) ∧
    Meets (fun pre s ↦ Contract host s.1 ((machine host).after pre) s.2) is)
    ⟨consistent_empty, meets_nil⟩ fun is s _ ih hs ↦ ?_).2
  obtain ⟨hcontract, hcons⟩ := contract_of_careful ih.1 hs
  rw [Machine.after_concat]
  exact ⟨hcons, meets_concat.mpr ⟨ih.2, hcontract⟩⟩

end

/-! ## A session -/

def sampleIds : List (String × String) :=
  [("Research|What is inflation?|Daily|", "43800826-7585-5d2a-847f-da6b2df5561f"),
    ("ResearchCycle|43800826-7585-5d2a-847f-da6b2df5561f", "c4942a18-0f0e-5fde-ad70-1a7650c00968"),
    ("AuditEntry|pipeline|RESEARCH_STARTED|43800826-7585-5d2a-847f-da6b2df5561f|Research",
      "30ec7095-79ef-585a-976d-508153907fa9"),
    ("MACRO:CPI|2026-01-01T00:00:00|3", "6860965c-6096-553f-8f19-de145751b6a3"),
    ("AuditEntry|pipeline|OBSERVATION_ADDED|6860965c-6096-553f-8f19-de145751b6a3|Observation",
      "812f017c-2bc8-59f9-a12d-475b35093ec8"),
    ("Hypothesis|43800826-7585-5d2a-847f-da6b2df5561f|Directional|Inflation slows||[]",
      "9b81bb8d-ef40-5309-ac27-e33a371462c8"),
    ("HypothesisSet|43800826-7585-5d2a-847f-da6b2df5561f", "4daabbf9-5659-585b-8668-946c07a8114a"),
    ("AuditEntry|pipeline|HYPOTHESIS_CREATED|9b81bb8d-ef40-5309-ac27-e33a371462c8|Hypothesis",
      "8dbf61a5-a6d3-5d40-b076-5d1b5358c90a")]

/-- `uuid5` by a table of the seeds below. -/
def sampleHost : Host Int Nat String where
  generateId seed := ((sampleIds.find? fun p ↦ p.1 = seed).map Prod.snd).getD seed
  isoformat _ := "2026-01-01T00:00:00"
  strFloat x := toString x ++ ".0"
  strValue := id
  repr s := "'" ++ s ++ "'"

def sampleCall (now : Nat) : Call Int Nat String where
  now := now
  toJson o := .ok o.id

def sampleStart : Call Int Nat String × Operation Int Nat String :=
  (sampleCall 0, .startResearch { question := "What is inflation?" })

def sampleObservation (researchId : String) : Call Int Nat String × Operation Int Nat String :=
  (sampleCall 1, .addObservation researchId
    { source := "MACRO:CPI", timestamp := 0, value := "3", retrievalMethod := "" })

theorem run_contract_sample :
    Meets (fun pre s ↦ Contract sampleHost s.1 ((machine sampleHost).after pre) s.2)
      ([sampleStart] ++ [sampleObservation "43800826-7585-5d2a-847f-da6b2df5561f"]) := by
  refine run_contract (meets_concat.mpr ⟨?_, ?_⟩)
  · show Meets _ ([] ++ [sampleStart])
    exact meets_concat.mpr ⟨meets_nil, ⟨by decide +kernel, _, rfl⟩⟩
  · intro r _ hobject
    cases hobject
    refine ⟨(fun _ href ↦ nomatch href), ?_, ?_, _, rfl⟩
    · show Resolves _ _
      decide +kernel
    · decide +kernel

/-- A research cycle's id is in the repository, so the observation is saved; that it is
no research comes out afterwards. -/
theorem misplaced_observation_saved :
    ¬Meets (fun pre s ↦ Contract sampleHost s.1 ((machine sampleHost).after pre) s.2)
      ([sampleStart] ++ [sampleObservation "c4942a18-0f0e-5fde-ad70-1a7650c00968"]) := by
  intro h
  have hsame := ((meets_concat.mp h).2.get?_eq (by decide +kernel)
    "6860965c-6096-553f-8f19-de145751b6a3")
  have hsaved := congrArg Option.isSome hsame
  revert hsaved
  decide +kernel

end Qros.Pipeline
