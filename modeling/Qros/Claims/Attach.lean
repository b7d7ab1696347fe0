import Qros.Claims.EvidenceGraph

/-!
# Runs of `attach`

Runs of `attach`, of which SQLite may fail any statement, commit or rollback, keep the store in
agreement and remove no hash just when

* a projection that takes effect after its claim is made of a list with all hashes of the
  claim that was given and all that are stored, and neither row replaces one of another claim;
* a claim that is stored without its projection, or a projection without its claim, has just
  the hashes that are stored.
-/

namespace Qros.Claims

open Qros.Lib Qros.Python Qros.Storage List

/-! ## Conditions -/

namespace AttachCall

variable (call : AttachCall)

/-- The hashes of the claim that was given. -/
def given : Finset String := call.claim.evidenceHashes.toFinset

def listed : Finset String := call.evidenceHashes.toFinset

/-- No check of `attach` raises. -/
structure Accepted (t : ClaimTables) : Prop where
  locked : call.claim.IsPlanLocked
  planned : call.claim.planHash.getD "" ≠ ""
  answered : ∀ e ∈ call.lookups.take (normalized call.evidenceHashes).length, e = none
  known : ∀ h ∈ call.evidenceHashes, h ∈ t.evidence
  not_blank : ∀ h ∈ call.evidenceHashes, strip h ≠ ""

structure Accumulates (t : ClaimTables) : Prop where
  given : call.given ⊆ call.listed
  stored : ∀ s ∈ t.claimHashes call.claim.id, s ⊆ call.listed
  apart : t.Apart call.claim.id

/-- The claim that is saved has the stored hashes. -/
def ClaimStays (t : ClaimTables) : Prop :=
  t.claimHashes call.claim.id = some (call.given ∪ call.listed)

/-- The projection that is saved has the stored hashes. -/
def GraphStays (t : ClaimTables) : Prop := t.claimHashes call.claim.id = some call.listed

/-- The saves, given what SQLite answers, leave a store that agrees and has every hash. -/
structure Safe (t : ClaimTables) : Prop where
  both : call.answers.firstAttempt.first = none → call.answers'.HasEffect → call.Accumulates t
  /-- The claim is saved without its projection. -/
  claim : call.answers.firstAttempt.first = none ∧ ¬ call.answers'.Stores ∨
    call.answers.firstAttempt.first ≠ none ∧ ¬ call.answers.firstAttempt.Undoes → call.ClaimStays t
  /-- The claim is dropped without an error. -/
  graph : call.answers.firstAttempt.Dropped → call.answers'.HasEffect → call.GraphStays t

def Keeps (r : Repository ClaimTables) : Prop :=
  call.Accepted r.session.current → r.Succeeds call.answers (call.answers.Executes 1) →
    call.Safe r.session.current

end AttachCall

/-! ## What is saved -/

theorem mem_normalized {hashes : List String} {h : String} :
    h ∈ normalized hashes ↔ h ∈ hashes := by
  unfold normalized sortStrings
  rw [mem_insertionSort, mem_dedup]

theorem toFinset_normalized (hashes : List String) :
    (normalized hashes).toFinset = hashes.toFinset := by
  ext h
  rw [mem_toFinset, mem_toFinset, mem_normalized]

theorem requireArtifacts_eq_ok {evidence hashes : List String} {answers : List (Option Exc)}
    {u : Unit} : requireArtifacts evidence answers hashes = .ok u ↔
      (∀ e ∈ answers.take hashes.length, e = none) ∧ ∀ h ∈ hashes, h ∈ evidence := by
  induction hashes generalizing answers with
  | nil => exact iff_of_true rfl ⟨fun e he ↦ absurd he not_mem_nil, forall_mem_nil _⟩
  | cons h hashes ih =>
    unfold requireArtifacts
    rw [forall_mem_cons, length_cons]
    cases answers with
    | nil =>
      rw [headD_nil, tail_nil, bind_eq_ok, take_nil]
      simp only [require_eq_ok, ih, take_nil]
      exact ⟨fun ⟨_, hmem, hanswers, hhashes⟩ ↦ ⟨hanswers, hmem, hhashes⟩,
        fun ⟨hanswers, hmem, hhashes⟩ ↦ ⟨(), hmem, hanswers, hhashes⟩⟩
    | cons answer answers =>
      rw [headD_cons, tail_cons, take_succ_cons, forall_mem_cons]
      cases answer with
      | none =>
        rw [bind_eq_ok]
        simp only [require_eq_ok, ih]
        exact ⟨fun ⟨_, hmem, hanswers, hhashes⟩ ↦ ⟨⟨trivial, hanswers⟩, hmem, hhashes⟩,
          fun ⟨⟨_, hanswers⟩, hmem, hhashes⟩ ↦ ⟨(), hmem, hanswers, hhashes⟩⟩
      | some e => exact iff_of_false nofun fun h ↦ absurd h.1.1 (Option.some_ne_none e)

section Prepare

variable {F : Type} [FloatText F] [Hashlib] {t : ClaimTables}
  {call : AttachCall} {claim : ResearchClaim} {graph : ClaimEvidenceGraph}

/-- `attach` saves a claim with the hashes of both, and a projection with those of the list. -/
structure Prepares (call : AttachCall) (claim : ResearchClaim) (graph : ClaimEvidenceGraph) :
    Prop where
  claim_id : claim.id = call.claim.id
  graph_id : graph.claimId = call.claim.id
  claim_hashes : claim.evidenceHashes.toFinset = call.given ∪ call.listed
  graph_hashes : graph.evidenceHashes.toFinset = call.listed

theorem prepares_of_prepare
    (h : prepare F t call.claim call.evidenceHashes call.lookups = .ok (claim, graph)) :
    Prepares call claim graph := by
  unfold prepare at h
  obtain ⟨_, -, h⟩ := bind_eq_ok.mp h
  obtain ⟨_, -, h⟩ := bind_eq_ok.mp h
  obtain ⟨_, -, h⟩ := bind_eq_ok.mp h
  obtain ⟨claimCopy, hcopy, h⟩ := bind_eq_ok.mp h
  cases h
  obtain ⟨hid, hhashes⟩ := ResearchClaim.foldlM_addEvidence_eq_ok hcopy
  rw [toFinset_normalized] at hhashes
  exact ⟨hid, hid, hhashes, toFinset_normalized _⟩

theorem exists_prepare_iff :
    (∃ x, prepare F t call.claim call.evidenceHashes call.lookups = .ok x) ↔ call.Accepted t := by
  unfold prepare
  simp only [bind_eq_ok, require_eq_ok, requireArtifacts_eq_ok]
  constructor
  · rintro ⟨x, _, hlocked, _, hplanned, _, ⟨hanswered, hknown⟩, claim, hclaim, -⟩
    exact ⟨hlocked, hplanned, hanswered, fun h hh ↦ hknown h (mem_normalized.mpr hh),
      fun h hh ↦ ResearchClaim.forall_of_foldlM_addEvidence hclaim h (mem_normalized.mpr hh)⟩
  · intro h
    obtain ⟨claim, hclaim⟩ := ResearchClaim.exists_foldlM_addEvidence
      (fun x hx ↦ h.not_blank x (mem_normalized.mp hx)) call.claim
    exact ⟨_, (), h.locked, (), h.planned, (),
      ⟨h.answered, fun x hx ↦ h.known x (mem_normalized.mp hx)⟩, claim, hclaim, rfl⟩

end Prepare

/-! ## The two saves -/

/-- The store agrees, and if `attach` returned no hash is gone from `r` on. -/
structure Good (r : Repository ClaimTables)
    (x : Option (Except Exc ClaimEvidenceGraph) × Repository ClaimTables) : Prop where
  agrees : x.2.Holds ClaimTables.Agrees
  grown : ∀ graph, x.1 = some (.ok graph) →
    r.stored.Grown x.2.stored ∧ r.session.current.Grown x.2.session.current

structure Synced (r : Repository ClaimTables) : Prop where
  agrees : r.Holds ClaimTables.Agrees
  same : ∀ id, r.stored.claimHashes id = r.session.current.claimHashes id

/-- A call that ends in `x` is good just when `p`. -/
structure ExactIf (r : Repository ClaimTables)
    (x : Option (Except Exc ClaimEvidenceGraph) × Repository ClaimTables) (p : Prop) : Prop where
  iff : Good r x ↔ p
  synced : p → Synced x.2

section Saves

variable {r : Repository ClaimTables} {x : Option (Except Exc ClaimEvidenceGraph) × Repository ClaimTables}
  {p q : Prop} {t : ClaimTables}

theorem ExactIf.congr (h : ExactIf r x p) (hpq : p ↔ q) : ExactIf r x q :=
  ⟨h.iff.trans hpq, fun hq ↦ h.synced (hpq.mpr hq)⟩

theorem good_of_synced (hr : Synced r) (hx : Synced x.2)
    (hsame : ∀ graph, x.1 = some (.ok graph) → ∀ id, r.stored.claimHashes id =
      x.2.stored.claimHashes id) :
    Good r x where
  agrees := hx.agrees
  grown graph hgraph := by
    refine ⟨ClaimTables.grown_of_claimHashes_eq hr.agrees.stored hx.agrees.stored (hsame graph hgraph),
      ClaimTables.grown_of_claimHashes_eq hr.agrees.current hx.agrees.current fun id ↦ ?_⟩
    rw [← hr.same, hsame graph hgraph, hx.same]

theorem exactIf_of_synced (hr : Synced r) (hx : Synced x.2)
    (hsame : ∀ graph, x.1 = some (.ok graph) → ∀ id, r.stored.claimHashes id =
      x.2.stored.claimHashes id)
    (hp : p) : ExactIf r x p :=
  ⟨iff_of_true (good_of_synced hr hx hsame) hp, fun _ ↦ hx⟩

theorem synced_settled (h : t.Agrees) : Synced (r.settled t) := ⟨⟨h, h⟩, fun _ ↦ rfl⟩

variable {r' : Repository ClaimTables}

theorem synced_of_reverts (h : r.Reverts r') (hr : Synced r) :
    Synced r' where
  agrees := h.holds hr.agrees
  same id := by
    rcases h.current with hcurrent | hcurrent
    · rw [hcurrent, h.stored]
      exact hr.same id
    · rw [hcurrent, h.stored]

theorem andThen_of_fails {α : Type} {answer : Option (Except Exc Unit)}
    (next : Repository ClaimTables → Option (Except Exc α) × Repository ClaimTables)
    (h : Repository.Fails answer) :
    Repository.Fails (andThen (answer, r') next).1 ∧ (andThen (answer, r') next).2 = r' := by
  rcases answer with _ | _ | ⟨⟩
  · exact ⟨nofun, rfl⟩
  · exact ⟨nofun, rfl⟩
  · exact absurd rfl (h ())

theorem exactIf_of_fails {answer : Option (Except Exc Unit)}
    {next : Repository ClaimTables →
      Option (Except Exc ClaimEvidenceGraph) × Repository ClaimTables}
    (hfails : Repository.Fails answer) (hagrees : r'.Holds ClaimTables.Agrees ↔ p)
    (hsynced : p → Synced r') : ExactIf r (andThen (answer, r') next) p := by
  obtain ⟨hnext, hafter⟩ := andThen_of_fails next hfails
  constructor
  · rw [← hagrees]
    constructor
    · intro h
      have hholds := h.agrees
      rwa [hafter] at hholds
    · intro h
      refine ⟨?_, fun graph hgraph ↦ absurd hgraph (hnext graph)⟩
      rwa [hafter]
  · intro hp
    rw [hafter]
    exact hsynced hp

theorem outcome_saveObject (r : Repository ClaimTables) (id : String) (obj : StoredObject)
    (answers : Answers) :
    r.Outcome answers (answers.Executes 1) (r.session.current.put id obj)
      (r.transaction answers (saveObjectBlock id obj)) := by
  obtain ⟨hok, herror⟩ := run_execute (s := r.session) answers
    (fun t : ClaimTables ↦ .ok (1, t.put id obj)) (fun _ ↦ ()) rfl
  exact Repository.outcome_transaction hok herror

end Saves

section Calls

variable {r : Repository ClaimTables} {call : AttachCall} {claim : ResearchClaim}
  {graph : ClaimEvidenceGraph} {t : ClaimTables}

theorem Prepares.agrees_put_claim (hprep : Prepares call claim graph) (h : t.Agrees) :
    (t.put claim.id (.claim claim)).Agrees ↔ call.ClaimStays t := by
  unfold AttachCall.ClaimStays
  rw [ClaimTables.agrees_put_claim h, hprep.claim_hashes, hprep.claim_id]

theorem Prepares.agrees_put_graph (hprep : Prepares call claim graph) (h : t.Agrees) :
    (t.put (graphId graph.claimId) (.graph graph)).Agrees ↔ call.GraphStays t := by
  unfold AttachCall.GraphStays
  rw [ClaimTables.agrees_put_graph h, hprep.graph_hashes, hprep.graph_id]

/-- The tables after both rows were written. -/
def putBoth (t : ClaimTables) (claim : ResearchClaim) (graph : ClaimEvidenceGraph) : ClaimTables :=
  (t.put claim.id (.claim claim)).put (graphId graph.claimId) (.graph graph)

theorem Prepares.putBoth_eq (hprep : Prepares call claim graph) : putBoth t claim graph =
    (t.put claim.id (.claim claim)).put (graphId claim.id) (.graph graph) := by
  unfold putBoth
  rw [hprep.graph_id, hprep.claim_id]

theorem Prepares.agrees_putBoth (hprep : Prepares call claim graph) (h : t.Agrees) :
    (putBoth t claim graph).Agrees ↔ call.given ⊆ call.listed ∧ t.Apart call.claim.id := by
  rw [hprep.putBoth_eq, ClaimTables.agrees_put_both h, hprep.claim_hashes, hprep.graph_hashes,
    hprep.claim_id, Finset.union_eq_right]

theorem Prepares.grown_putBoth (hprep : Prepares call claim graph) (h : t.Agrees) :
    (putBoth t claim graph).Agrees ∧ t.Grown (putBoth t claim graph) ↔ call.Accumulates t := by
  constructor
  · rintro ⟨hagrees, hgrown⟩
    obtain ⟨hgiven, hapart⟩ := (hprep.agrees_putBoth h).mp hagrees
    rw [hprep.putBoth_eq] at hagrees hgrown
    have hstored := (ClaimTables.grown_put_both h hagrees).mp hgrown
    rw [hprep.claim_hashes, hprep.claim_id, Finset.union_eq_right.mpr hgiven] at hstored
    exact ⟨hgiven, hstored, hapart⟩
  · intro hacc
    have hagrees := (hprep.agrees_putBoth h).mpr ⟨hacc.given, hacc.apart⟩
    refine ⟨hagrees, ?_⟩
    rw [hprep.putBoth_eq] at hagrees ⊢
    rw [ClaimTables.grown_put_both h hagrees, hprep.claim_hashes, hprep.claim_id,
      Finset.union_eq_right.mpr hacc.given]
    exact hacc.stored

theorem Prepares.claimHashes_put_claim (hprep : Prepares call claim graph) (h : call.ClaimStays t)
    (id : String) : (t.put claim.id (.claim claim)).claimHashes id = t.claimHashes id := by
  apply ClaimTables.claimHashes_put_claim_of_same
  rw [hprep.claim_hashes, hprep.claim_id]
  exact h

theorem exactIf_andGraph (hr : Synced r) (hprep : Prepares call claim graph) {answers : Answers}
    {p : Prop} (hsucceeds : r.Succeeds answers p) (answers' : Answers) :
    ExactIf r
      (andThen ((r.settled (r.session.current.put claim.id (.claim claim))).transaction answers'
        (saveObjectBlock (graphId graph.claimId) (.graph graph))) fun r ↦ (some (.ok graph), r))
      ((answers'.HasEffect → call.Accumulates r.session.current) ∧
        (¬ answers'.Stores → call.ClaimStays r.session.current)) := by
  have hS := hr.agrees.current
  have hstays := hprep.agrees_put_claim hS
  have houtcome := outcome_saveObject (r.settled (r.session.current.put claim.id (.claim claim)))
    (graphId graph.claimId) (.graph graph) answers'
  change Repository.Outcome _ _ _ (putBoth r.session.current claim graph) _ at houtcome
  have hnot_stores (h : answers'.firstAttempt.first ≠ none) : ¬ answers'.Stores :=
    fun hstores ↦ h hstores.commits
  -- Without an effect of the second save, all depends on the claim.
  have hclaim (h : ¬ answers'.HasEffect) (h' : ¬ answers'.Stores) :
      call.ClaimStays r.session.current ↔
        (answers'.HasEffect → call.Accumulates r.session.current) ∧
          (¬ answers'.Stores → call.ClaimStays r.session.current) :=
    ⟨fun hstays ↦ ⟨fun heffect ↦ absurd heffect h, fun _ ↦ hstays⟩, fun hp ↦ hp.2 h'⟩
  have hfirst_of_undoes (h : answers'.firstAttempt.Undoes) : answers'.firstAttempt.first ≠ none :=
    fun hnone ↦ Repository.not_undoes_of_commits hnone h
  generalize Repository.transaction _ _ _ = x at houtcome ⊢
  cases houtcome with
  | commits a hsucceeds' hfirst =>
    rw [Repository.succeeds_settled hsucceeds] at hsucceeds'
    have heffect : answers'.HasEffect :=
      ⟨hsucceeds'.1, hsucceeds'.2, Repository.not_undoes_of_commits hfirst⟩
    have hstores : answers'.Stores := ⟨hsucceeds'.1, hsucceeds'.2, hfirst⟩
    have hboth := hprep.grown_putBoth hS
    constructor
    · constructor
      · intro hgood
        exact ⟨fun _ ↦ hboth.mp ⟨hgood.agrees.stored, (hgood.grown graph rfl).2⟩,
          fun h ↦ absurd hstores h⟩
      · rintro ⟨h, -⟩
        obtain ⟨hagrees, hgrown⟩ := hboth.mpr (h heffect)
        exact ⟨⟨hagrees, hagrees⟩, fun _ _ ↦
          ⟨hgrown.of_claimHashes_eq hS hr.agrees.stored hr.same, hgrown⟩⟩
    · rintro ⟨h, -⟩
      exact synced_settled (hboth.mpr (h heffect)).1
  | dropped a hsucceeds' hdropped =>
    have hundoes := Repository.undoes_of_dropped hdropped
    refine ExactIf.congr ?_ (hclaim (fun h ↦ h.kept hundoes) (hnot_stores (hfirst_of_undoes hundoes)))
    refine ⟨⟨fun hgood ↦ hstays.mp hgood.agrees.stored, fun h ↦ ?_⟩,
      fun h ↦ synced_settled (hstays.mpr h)⟩
    refine good_of_synced hr (synced_settled (hstays.mpr h)) fun _ _ id ↦ ?_
    rw [hr.same]
    exact (hprep.claimHashes_put_claim h id).symm
  | undone answer hsucceeds' hundoes hdropped hfails =>
    refine ExactIf.congr ?_ (hclaim (fun h ↦ h.kept hundoes) (hnot_stores (hfirst_of_undoes hundoes)))
    exact exactIf_of_fails hfails
      ⟨fun h ↦ hstays.mp h.stored, fun h ↦ ⟨hstays.mpr h, hstays.mpr h⟩⟩
      fun h ↦ synced_settled (hstays.mpr h)
  | stays answer hsucceeds' hfirst hundoes hfails =>
    rw [Repository.succeeds_settled hsucceeds] at hsucceeds'
    have heffect : answers'.HasEffect := ⟨hsucceeds'.1, hsucceeds'.2, hundoes⟩
    have hagrees : call.Accumulates r.session.current ∧ call.ClaimStays r.session.current ↔
        (r.session.current.put claim.id (.claim claim)).Agrees ∧
          (putBoth r.session.current claim graph).Agrees := by
      constructor
      · rintro ⟨hacc, h⟩
        exact ⟨hstays.mpr h, ((hprep.grown_putBoth hS).mpr hacc).1⟩
      · rintro ⟨h, hboth⟩
        obtain ⟨hgiven, hapart⟩ := (hprep.agrees_putBoth hS).mp hboth
        refine ⟨⟨hgiven, fun s hs ↦ ?_, hapart⟩, hstays.mp h⟩
        rw [hstays.mp h] at hs
        rw [← Option.some.inj hs, Finset.union_eq_right.mpr hgiven]
    refine ExactIf.congr (p := call.Accumulates r.session.current ∧ call.ClaimStays r.session.current) ?_
      ⟨fun h ↦ ⟨fun _ ↦ h.1, fun _ ↦ h.2⟩, fun h ↦ ⟨h.1 heffect, h.2 (hnot_stores hfirst)⟩⟩
    refine exactIf_of_fails hfails ?_ fun h ↦ ?_
    · rw [hagrees]
      exact ⟨fun h ↦ ⟨h.stored, h.current⟩, fun h ↦ ⟨h.1, h.2⟩⟩
    · obtain ⟨hclaims, hboth⟩ := hagrees.mp h
      refine ⟨⟨hclaims, hboth⟩, fun id ↦ (ClaimTables.claimHashes_put_graph_of_none ?_ id).symm⟩
      change (r.session.current.put claim.id (.claim claim)).claimHashes _ = none
      rw [hprep.claimHashes_put_claim h.2, hprep.graph_id]
      exact h.1.apart.graph
  | reverts answer r' hsucceeds' hreverts hfails =>
    rw [Repository.succeeds_settled hsucceeds] at hsucceeds'
    refine ExactIf.congr ?_ (hclaim (fun h ↦ hsucceeds' ⟨h.cursor, h.executes⟩)
      fun h ↦ hsucceeds' ⟨h.cursor, h.executes⟩)
    refine exactIf_of_fails hfails ⟨fun h ↦ ?_, fun h ↦ hreverts.holds ⟨hstays.mpr h, hstays.mpr h⟩⟩
      fun h ↦ synced_of_reverts hreverts (synced_settled (hstays.mpr h))
    have hstored := h.stored
    rw [hreverts.stored] at hstored
    exact hstays.mp hstored

theorem exactIf_andGraph_of_dropped (hr : Synced r) (hprep : Prepares call claim graph)
    {answers : Answers} {p : Prop} (hsucceeds : r.Succeeds answers p) (answers' : Answers) :
    ExactIf r
      (andThen ((r.settled r.stored).transaction answers'
        (saveObjectBlock (graphId graph.claimId) (.graph graph))) fun r ↦ (some (.ok graph), r))
      (answers'.HasEffect → call.GraphStays r.session.current) := by
  have hT := hr.agrees.stored
  have hsame : call.GraphStays r.session.current ↔ call.GraphStays r.stored := by
    unfold AttachCall.GraphStays
    rw [hr.same]
  have hstays := hprep.agrees_put_graph hT
  have hkept (h : call.GraphStays r.stored) (id : String) :
      (r.stored.put (graphId graph.claimId) (.graph graph)).claimHashes id =
        r.stored.claimHashes id := by
    apply ClaimTables.claimHashes_put_graph_of_none
    rw [hprep.graph_id]
    exact (ClaimTables.apart_of_claimHashes hT h).graph
  have hsettled := synced_settled (r := r.settled r.stored) hT
  rw [hsame]
  have houtcome := outcome_saveObject (r.settled r.stored) (graphId graph.claimId) (.graph graph)
    answers'
  rw [Repository.current_settled] at houtcome
  generalize Repository.transaction _ _ _ = x at houtcome ⊢
  cases houtcome with
  | commits a hsucceeds' hfirst =>
    rw [Repository.succeeds_settled hsucceeds] at hsucceeds'
    have heffect : answers'.HasEffect :=
      ⟨hsucceeds'.1, hsucceeds'.2, Repository.not_undoes_of_commits hfirst⟩
    refine ExactIf.congr (p := call.GraphStays r.stored) ?_ ⟨fun h _ ↦ h, fun h ↦ h heffect⟩
    refine ⟨⟨fun hgood ↦ hstays.mp hgood.agrees.stored, fun h ↦ ?_⟩,
      fun h ↦ synced_settled (hstays.mpr h)⟩
    exact good_of_synced hr (synced_settled (hstays.mpr h)) fun _ _ id ↦ (hkept h id).symm
  | dropped a hsucceeds' hdropped =>
    exact exactIf_of_synced hr hsettled (fun _ _ _ ↦ rfl)
      fun h ↦ absurd (Repository.undoes_of_dropped hdropped) h.kept
  | undone answer hsucceeds' hundoes hdropped hfails =>
    exact exactIf_of_fails hfails
      (iff_of_true hsettled.agrees fun h ↦ absurd hundoes h.kept) fun _ ↦ hsettled
  | stays answer hsucceeds' hfirst hundoes hfails =>
    rw [Repository.succeeds_settled hsucceeds] at hsucceeds'
    refine ExactIf.congr (p := call.GraphStays r.stored) ?_
      ⟨fun h _ ↦ h, fun h ↦ h ⟨hsucceeds'.1, hsucceeds'.2, hundoes⟩⟩
    exact exactIf_of_fails hfails ⟨fun h ↦ hstays.mp h.current, fun h ↦ ⟨hT, hstays.mpr h⟩⟩
      fun h ↦ ⟨⟨hT, hstays.mpr h⟩, fun id ↦ (hkept h id).symm⟩
  | reverts answer r' hsucceeds' hreverts hfails =>
    rw [Repository.succeeds_settled hsucceeds] at hsucceeds'
    have hafter := synced_of_reverts hreverts (synced_settled (r := r) hT)
    exact exactIf_of_fails hfails
      (iff_of_true hafter.agrees fun h ↦ absurd ⟨h.cursor, h.executes⟩ hsucceeds') fun _ ↦ hafter

/-- **One call.** -/
theorem exactIf_attach (F : Type) [FloatText F] [Hashlib] (hr : Synced r) (call : AttachCall) :
    ExactIf r (attach F r call.claim call.evidenceHashes call.lookups call.answers call.answers')
      (call.Keeps r) := by
  unfold attach AttachCall.Keeps
  cases hprepare : prepare F r.session.current call.claim call.evidenceHashes call.lookups with
  | error e =>
    refine exactIf_of_synced hr hr (fun _ _ id ↦ rfl) fun haccepted ↦ ?_
    obtain ⟨x, hx⟩ := (exists_prepare_iff (F := F)).mpr haccepted
    rw [hprepare] at hx
    cases hx
  | ok x =>
    obtain ⟨claim, graph⟩ := x
    have hprep : Prepares call claim graph := prepares_of_prepare hprepare
    have haccepted : call.Accepted r.session.current := exists_prepare_iff.mp ⟨_, hprepare⟩
    have hstays := hprep.agrees_put_claim hr.agrees.current
    have houtcome := outcome_saveObject r claim.id (.claim claim) call.answers
    dsimp only
    generalize r.transaction call.answers (saveObjectBlock claim.id (.claim claim)) = x at houtcome ⊢
    cases houtcome with
    | commits a hsucceeds hfirst =>
      refine (exactIf_andGraph hr hprep hsucceeds call.answers').congr ⟨fun h _ _ ↦ ?_, fun h ↦ ?_⟩
      · refine ⟨fun _ ↦ h.1, ?_, fun hdropped ↦ ?_⟩
        · rintro (⟨-, hstores⟩ | ⟨hne, -⟩)
          · exact h.2 hstores
          · exact absurd hfirst hne
        · exact absurd (Repository.undoes_of_dropped hdropped)
            (Repository.not_undoes_of_commits hfirst)
      · have hsafe := h haccepted hsucceeds
        exact ⟨hsafe.both hfirst, fun hstores ↦ hsafe.claim (.inl ⟨hfirst, hstores⟩)⟩
    | dropped a hsucceeds hdropped =>
      have hundoes := Repository.undoes_of_dropped hdropped
      refine (exactIf_andGraph_of_dropped hr hprep hsucceeds call.answers').congr
        ⟨fun h _ _ ↦ ?_, fun h ↦ (h haccepted hsucceeds).graph hdropped⟩
      refine ⟨fun hfirst ↦ absurd hundoes (Repository.not_undoes_of_commits hfirst), ?_, fun _ ↦ h⟩
      rintro (⟨hfirst, -⟩ | ⟨-, hkept⟩)
      · exact absurd hundoes (Repository.not_undoes_of_commits hfirst)
      · exact absurd hundoes hkept
    | undone answer hsucceeds hundoes hdropped hfails =>
      have hsettled := synced_settled (r := r) hr.agrees.stored
      refine exactIf_of_fails hfails (iff_of_true hsettled.agrees fun _ _ ↦ ?_) fun _ ↦ hsettled
      refine ⟨fun hfirst ↦ absurd hundoes (Repository.not_undoes_of_commits hfirst), ?_,
        fun h ↦ absurd h hdropped⟩
      rintro (⟨hfirst, -⟩ | ⟨-, hkept⟩)
      · exact absurd hundoes (Repository.not_undoes_of_commits hfirst)
      · exact absurd hundoes hkept
    | stays answer hsucceeds hfirst hundoes hfails =>
      refine ExactIf.congr (p := call.ClaimStays r.session.current) ?_
        ⟨fun h _ _ ↦ ?_, fun h ↦ (h haccepted hsucceeds).claim (.inr ⟨hfirst, hundoes⟩)⟩
      · refine exactIf_of_fails hfails
          ⟨fun h ↦ hstays.mp h.current, fun h ↦ ⟨hr.agrees.stored, hstays.mpr h⟩⟩
          fun h ↦ ⟨⟨hr.agrees.stored, hstays.mpr h⟩, fun id ↦ ?_⟩
        exact (hr.same id).trans (hprep.claimHashes_put_claim h id).symm
      · exact ⟨fun h' ↦ absurd h' hfirst, fun _ ↦ h,
          fun hdropped ↦ absurd (Repository.undoes_of_dropped hdropped) hundoes⟩
    | reverts answer r' hsucceeds hreverts hfails =>
      have hafter := synced_of_reverts hreverts hr
      exact exactIf_of_fails hfails
        (iff_of_true hafter.agrees fun _ h ↦ absurd h hsucceeds) fun _ ↦ hafter

end Calls

/-! ## Runs -/

section

variable (F : Type) [FloatText F] [Hashlib] (evidence : List String)

theorem synced_of_meets {calls : List AttachCall}
    (h : Meets (fun pre call ↦ call.Keeps ((claimEvidenceGraph F evidence).after pre)) calls) :
    Synced ((claimEvidenceGraph F evidence).after calls) := by
  refine h.induction (I := fun calls ↦ Synced ((claimEvidenceGraph F evidence).after calls)) ?_ ?_
  · have hagrees := ClaimTables.agrees_ofEvidence evidence
    exact ⟨⟨hagrees, hagrees⟩, fun _ ↦ rfl⟩
  · intro pre call _ hr hkeeps
    rw [Machine.after_concat]
    exact (exactIf_attach F hr call).synced hkeeps

/-- **Claims and projections.**  After every call of a run the stored claims and what the session
sees of them have the evidence of their projections, and no call that returned removed a hash
from either, just when every call keeps them so. -/
theorem agree_and_grow_iff (calls : List AttachCall) :
    (∀ pre, pre <+: calls → ((claimEvidenceGraph F evidence).after pre).Holds ClaimTables.Agrees ∧
      ∀ before call, pre = before ++ [call] →
        ∀ graph, ((claimEvidenceGraph F evidence).step call
            ((claimEvidenceGraph F evidence).after before)).1 = some (.ok graph) →
          ((claimEvidenceGraph F evidence).after before).stored.Grown
              ((claimEvidenceGraph F evidence).after pre).stored ∧
            ((claimEvidenceGraph F evidence).after before).session.current.Grown
              ((claimEvidenceGraph F evidence).after pre).session.current) ↔
    Meets (fun pre call ↦ call.Keeps ((claimEvidenceGraph F evidence).after pre)) calls := by
  refine safe_iff_meets (B := fun _ _ ↦ True) (fun _ _ _ ↦ trivial) ?_ ?_
  · have hagrees := ClaimTables.agrees_ofEvidence evidence
    exact ⟨⟨hagrees, hagrees⟩, fun before call h ↦ absurd h (by simp)⟩
  · intro pre call _ hmeets _ _
    rw [← (exactIf_attach F (synced_of_meets F evidence hmeets) call).iff]
    constructor
    · rintro ⟨hagrees, hgrown⟩
      have hgrown := hgrown pre call rfl
      rw [Machine.after_concat] at hagrees hgrown
      exact ⟨hagrees, hgrown⟩
    · intro hgood
      refine ⟨?_, fun before call' h ↦ ?_⟩
      · rw [Machine.after_concat]
        exact hgood.agrees
      · obtain ⟨rfl, hcall⟩ := append_inj' h rfl
        cases hcall
        rw [Machine.after_concat]
        exact hgood.grown

end

/-! ## A claim that is attached again -/

def lockedClaim : ResearchClaim where
  id := "claim-1"
  statement := "A defined feature has a measurable relationship with the target return."
  claimType := .empirical
  targetPopulation := ""
  instrument := ""
  horizon := ""
  timestampPolicy := ""
  economicRationale := ""
  falsificationConditions := []
  primaryMetrics := ["mean_return"]
  minimumEvidenceRequirements := []
  creator := "test"
  workspaceId := "ws-test"
  researchId := none
  version := 1
  parentClaimId := none
  evidenceState := .untested
  planLockedAt := some "2026-01-01T00:00:00+00:00"
  planHash := some "p1"
  experimentIds := []
  evidenceHashes := []
  ontologyTags := []

/-- The claim as it is stored after the first call. -/
def loadedClaim : ResearchClaim := { lockedClaim with evidenceHashes := ["h1"] }

def firstCall : AttachCall where
  claim := lockedClaim
  evidenceHashes := ["h1"]

def secondCall : AttachCall where
  claim := loadedClaim
  evidenceHashes := ["h2"]

/-- The projection has only the hashes of the second call, whatever the digests are. -/
theorem reattached_claim_disagrees : ¬ ∃ _ : Hashlib,
    ((claimEvidenceGraph Tenths ["h1", "h2"]).after [firstCall]).stored.claim? "claim-1" =
      some loadedClaim →
    ((claimEvidenceGraph Tenths ["h1", "h2"]).after [firstCall, secondCall]).Holds
      ClaimTables.Agrees := by
  rintro ⟨_, h⟩
  have hagrees := (h (by rfl)).stored "claim-1"
  have hclaim : ((claimEvidenceGraph Tenths ["h1", "h2"]).after [firstCall, secondCall]).stored.claimHashes
      "claim-1" = some {"h1", "h2"} := by rfl
  have hgraph : ((claimEvidenceGraph Tenths ["h1", "h2"]).after [firstCall, secondCall]).stored.graphHashes
      "claim-1" = some {"h2"} := by rfl
  rw [hclaim, hgraph] at hagrees
  exact absurd (Option.some.inj hagrees) (by decide)

end Qros.Claims
