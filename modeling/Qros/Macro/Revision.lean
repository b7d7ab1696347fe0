import Qros.Lib.Graph
import Qros.Lib.KeySort
import Qros.Python.Datetime
import Qros.Python.Json

/-!
# Revisions of macro objects

`macro/revision`: the records and the chain of the revisions of one object.  The constructor of
a chain walks from the latest revision to its parents and refuses a walk that comes back
(`acc_of_verifyFrom`, `verifyFrom_eq_ok`).  What it does not look at is the condition under which
what it accepts is a chain (`revisionChain_isChain_iff`).
-/

namespace Qros.Macro

open Qros.Lib Qros.Lib.KeySort Qros.Python Relation List

/-! ## Records -/

inductive RevisionState where
  | original
  | revised
  | corrected
  | superseded
  | deprecated
deriving DecidableEq

inductive RevisionType where
  | dataUpdate
  | dataCorrection
  | forecastUpdate
  | methodologyChange
  | sourceChange
  | classificationUpdate
deriving DecidableEq

inductive ProvenanceSource where
  | fred
  | bls
  | cboe
  | cftc
  | ism
  | treasury
  | fed
  | bea
  | other
deriving DecidableEq

structure SourceRecord (F : Type) where
  sourceId : String
  sourceType : ProvenanceSource
  sourceVersion : String
  sourceQualityScore : F
  ingestionTimestamp : Datetime
  batchId : String
  adapterVersion : String

structure ProcessingRecord (F : Type) where
  normalizationVersion : String
  validationVersion : String
  qualityScoreBefore : F
  qualityScoreAfter : F
  transformationsApplied : List String

structure EvidenceReference where
  evidenceId : String
  relationshipType : String
  timestamp : Datetime

structure ProvenanceChain (F : Type) where
  sourceRecord : SourceRecord F
  processingRecord : ProcessingRecord F
  schemaVersion : String
  objectType : String
  evidenceReferences : List EvidenceReference
  metadata : List (String × Json F)
  createdAt : Datetime
  version : String

structure RevisionRecord (F : Type) where
  revisionId : String
  objectId : String
  objectType : String
  revisionNumber : Int
  state : RevisionState
  revisionType : RevisionType
  createdAt : Datetime
  effectiveFrom : Datetime
  effectiveTo : Option Datetime
  previousValue : Json F
  newValue : Json F
  changeDescription : String
  parentRevisionId : Option String
  childRevisionIds : List String
  provenance : Option (ProvenanceChain F)
  metadata : List (String × Json F)
  version : String

/-! ## Parents -/

section

variable {F : Type} (revisions : List (RevisionRecord F))

/-- `next((r for r in self.revisions if r.revision_id == current_id), None)`. -/
def named (currentId : String) : Option (RevisionRecord F) :=
  revisions.find? fun r ↦ r.revisionId = currentId

variable {r : RevisionRecord F}

variable {id : String} {visited : List String}

variable {revisions} in
theorem named_eq_some (h : named revisions id = some r) :
    r ∈ revisions ∧ r.revisionId = id :=
  ⟨mem_of_find?_eq_some h,
    of_decide_eq_true (find?_some (p := fun r : RevisionRecord F ↦ decide (r.revisionId = id)) h)⟩

/-- The id of the parent; neither `None` nor the empty string is one. -/
def RevisionRecord.parentId (r : RevisionRecord F) : Option String :=
  r.parentRevisionId.filter fun id ↦ id ≠ ""

def parent (r : RevisionRecord F) : Option (RevisionRecord F) := r.parentId.bind (named revisions)

/-- The loop of `_verify_no_cycles`. -/
def verifyFrom (visited : List String) : Option String → Except String Unit
  | none => .ok ()
  | some currentId =>
    if currentId = "" then .ok ()
    else if currentId ∈ visited then
      .error s!"Circular reference detected at revision {currentId}"
    else
      match _h : named revisions currentId with
      | some currentRev => verifyFrom (visited ++ [currentId]) currentRev.parentRevisionId
      | none => .ok ()
termination_by ((revisions.map (·.revisionId)).toFinset \ visited.toFinset).card
decreasing_by
  refine FiniteGraph.card_sdiff_append_lt ?_ ‹_› (mem_singleton_self currentId)
  exact mem_toFinset.mpr (mem_map.mpr ⟨currentRev, named_eq_some _h⟩)

def verifyNoCycles (latestRevisionId : String) : Except String Unit :=
  verifyFrom revisions [] (some latestRevisionId)

variable {revisions}

theorem parentId_eq_some :
    r.parentId = some id ↔ r.parentRevisionId = some id ∧ id ≠ "" := by
  unfold RevisionRecord.parentId
  simp

theorem parent_eq_some {r p : RevisionRecord F} :
    parent revisions r = some p ↔
      ∃ id, r.parentRevisionId = some id ∧ id ≠ "" ∧ named revisions id = some p := by
  simp only [parent, Option.bind_eq_some_iff, parentId_eq_some, and_assoc]

theorem verifyFrom_named (hne : id ≠ "") (hvisited : id ∉ visited)
    (hr : named revisions id = some r) :
    verifyFrom revisions visited (some id) =
      verifyFrom revisions (visited ++ [id]) r.parentRevisionId := by
  rw [verifyFrom, if_neg hne, if_neg hvisited]
  split
  · rename_i s hs
    obtain rfl := Option.some.inj (hs.symm.trans hr)
    rfl
  · rename_i hnone
    exact absurd (hnone.symm.trans hr) (Option.some_ne_none r).symm

theorem acc_of_verifyFrom {current : Option String}
    (h : verifyFrom revisions visited current = .ok ()) (hid : current = some id) (hne : id ≠ "")
    (hr : named revisions id = some r) :
    Acc (fun p r ↦ parent revisions r = some p) r := by
  fun_induction verifyFrom revisions visited current generalizing id r with
  | case1 => cases hid
  | case2 => exact absurd (Option.some.inj hid).symm hne
  | case3 => cases h
  | case4 visited currentId _ _ rev hrev ih =>
    obtain rfl := Option.some.inj hid
    obtain rfl := Option.some.inj (hrev.symm.trans hr)
    refine Acc.intro _ fun p hp ↦ ?_
    obtain ⟨id, hid, hne, hp⟩ := parent_eq_some.mp hp
    exact ih h hid hne hp
  | case5 visited currentId _ _ hnone =>
    obtain rfl := Option.some.inj hid
    exact absurd (hnone.symm.trans hr) (Option.some_ne_none r).symm

theorem verifyFrom_eq_ok
    (hacyclic : ∀ r ∈ revisions, ¬ TransGen (fun r p ↦ parent revisions r = some p) r r)
    {current : Option String}
    (hvisited : ∀ v ∈ visited, ∃ r, named revisions v = some r ∧ ∀ id p, current = some id →
      id ≠ "" → named revisions id = some p → TransGen
      (fun r p ↦ parent revisions r = some p) r p) :
    verifyFrom revisions visited current = .ok () := by
  fun_induction verifyFrom revisions visited current with
  | case1 => rfl
  | case2 => rfl
  | case3 visited currentId hne hmem =>
    obtain ⟨r, hr, hcycle⟩ := hvisited currentId hmem
    exact absurd (hcycle currentId r rfl hne hr) (hacyclic r (named_eq_some hr).1)
  | case4 visited currentId hne _ rev hrev ih =>
    refine ih fun v hv ↦ ?_
    rcases mem_append.mp hv with hv | hv
    · obtain ⟨r, hr, hpath⟩ := hvisited v hv
      exact ⟨r, hr, fun id p hid hempty hp ↦
        (hpath currentId rev rfl hne hrev).tail (parent_eq_some.mpr ⟨id, hid, hempty, hp⟩)⟩
    · obtain rfl := mem_singleton.mp hv
      exact ⟨rev, hrev, fun id p hid hempty hp ↦
        .single (parent_eq_some.mpr ⟨id, hid, hempty, hp⟩)⟩
  | case5 => rfl

theorem acc_of_verified
    (h : ∀ r ∈ revisions, verifyNoCycles revisions r.revisionId = .ok ()) (r : RevisionRecord F) :
    Acc (fun p r ↦ parent revisions r = some p) r := by
  refine Acc.intro _ fun p hp ↦ ?_
  obtain ⟨id, _, hne, hnamed⟩ := parent_eq_some.mp hp
  obtain ⟨hmem, rfl⟩ := named_eq_some hnamed
  exact acc_of_verifyFrom (h p hmem) rfl hne hnamed

/-- The check from every revision finds all cycles. -/
theorem acyclic_iff_verifies :
    (∀ r ∈ revisions, ¬ TransGen (fun r p ↦ parent revisions r = some p) r r) ↔
      ∀ r ∈ revisions, verifyNoCycles revisions r.revisionId = .ok () := by
  constructor
  · intro hacyclic r _
    exact verifyFrom_eq_ok hacyclic fun v hv ↦ nomatch hv
  · intro hverify r _
    exact not_transGen_of_acc (acc_of_verified hverify r)

end

/-! ## Chains -/

structure RevisionChain (F : Type) where
  objectId : String
  objectType : String
  rootRevisionId : String
  latestRevisionId : String
  revisions : List (RevisionRecord F)
  ne_nil : revisions ≠ []
  sorted : revisions.Pairwise fun r r' ↦ r.revisionNumber ≤ r'.revisionNumber
  verified : verifyNoCycles revisions latestRevisionId = .ok ()

section Chains

variable {F : Type}

/-- `sorted(self.revisions, key=lambda r: r.revision_number)`. -/
def sortedRevisions (revisions : List (RevisionRecord F)) : List (RevisionRecord F) :=
  stableSortBy (·.revisionNumber) revisions

theorem sortedRevisions_ne_nil {revisions : List (RevisionRecord F)} (h : revisions ≠ []) :
    sortedRevisions revisions ≠ [] := by
  intro hnil
  have hperm : (sortedRevisions revisions).Perm revisions := stableSortBy_perm _ revisions
  rw [hnil] at hperm
  exact h hperm.nil_eq.symm

def revisionChain (objectId objectType rootRevisionId latestRevisionId : String)
    (revisions : List (RevisionRecord F)) : Except String (RevisionChain F) :=
  if hne : revisions = [] then .error "RevisionChain must have at least one revision"
  else
    match h : verifyNoCycles (sortedRevisions revisions) latestRevisionId with
    | .error e => .error e
    | .ok () => .ok {
        objectId, objectType, rootRevisionId, latestRevisionId
        revisions := sortedRevisions revisions
        ne_nil := sortedRevisions_ne_nil hne
        sorted := stableSortBy_sorted _ revisions
        verified := h }

namespace RevisionChain

def getLatest (c : RevisionChain F) : RevisionRecord F := c.revisions.getLast c.ne_nil

def getRoot (c : RevisionChain F) : RevisionRecord F := c.revisions.head c.ne_nil

/-- What a chain of revisions is for: parents lead back from the latest revision to the root,
and never in a circle. -/
structure IsChain (c : RevisionChain F) : Prop where
  acyclic : ∀ r ∈ c.revisions, ¬ TransGen (fun r p ↦ parent c.revisions r = some p) r r
  descent : ∃ walk : List (RevisionRecord F),
    walk.head? = named c.revisions c.latestRevisionId ∧
    walk.getLast? = named c.revisions c.rootRevisionId ∧
    walk.IsChain (fun r p ↦ parent c.revisions r = some p ∧
      p.revisionNumber < r.revisionNumber) ∧
    ∀ r ∈ walk.getLast?, r.parentId = none
  latest : named c.revisions c.latestRevisionId = some c.getLatest
  root : named c.revisions c.rootRevisionId = some c.getRoot

end RevisionChain

/-- What the constructor does not look at: the first of the sorted revisions is the root, the last
is what the latest id names, every other revision up from there has a listed parent of smaller
number, and the check finds no cycle from wherever it starts. -/
structure Linked (revisions : List (RevisionRecord F)) (rootRevisionId latestRevisionId : String) :
    Prop where
  verified : ∀ r ∈ revisions, verifyNoCycles (sortedRevisions revisions) r.revisionId = .ok ()
  root : ∀ r ∈ (sortedRevisions revisions).head?, r.revisionId = rootRevisionId ∧ r.parentId = none
  latest : named (sortedRevisions revisions) latestRevisionId = (sortedRevisions revisions).getLast?
  smaller : ∀ latest ∈ (sortedRevisions revisions).getLast?, ∀ r,
    ReflTransGen (fun r p ↦ parent (sortedRevisions revisions) r = some p) latest r →
    r.revisionId ≠ rootRevisionId →
    ∃ p, parent (sortedRevisions revisions) r = some p ∧ p.revisionNumber < r.revisionNumber

variable {revisions : List (RevisionRecord F)}

theorem named_head {r : RevisionRecord F} (h : revisions.head? = some r) :
    named revisions r.revisionId = some r := by
  cases revisions with
  | nil => cases h
  | cons s revisions =>
    obtain rfl := Option.some.inj h
    exact find?_cons_of_pos (decide_eq_true rfl)

theorem parent_eq_none {r : RevisionRecord F} (h : r.parentId = none) :
    parent revisions r = none := by
  rw [parent, h, Option.bind_none]

theorem named_of_reflTransGen {r s : RevisionRecord F}
    (h : ReflTransGen (fun r p ↦ parent revisions r = some p) r s)
    (hr : named revisions r.revisionId = some r) : named revisions s.revisionId = some s := by
  induction h with
  | refl => exact hr
  | tail _ hs _ =>
    obtain ⟨id, _, _, hs⟩ := parent_eq_some.mp hs
    rwa [(named_eq_some hs).2]

theorem exists_descent {root r : RevisionRecord F}
    (hacc : Acc (fun p r ↦ parent revisions r = some p) r)
    (hr : named revisions r.revisionId = some r)
    (hroot : named revisions root.revisionId = some root)
    (hsmaller : ∀ s, ReflTransGen (fun r p ↦ parent revisions r = some p) r s →
      s.revisionId ≠ root.revisionId →
      ∃ p, parent revisions s = some p ∧ p.revisionNumber < s.revisionNumber) :
    ∃ walk : List (RevisionRecord F), walk.head? = some r ∧ walk.getLast? = some root ∧
      walk.IsChain fun r p ↦ parent revisions r = some p ∧ p.revisionNumber < r.revisionNumber := by
  induction hacc with
  | intro r _ ih =>
    by_cases hid : r.revisionId = root.revisionId
    · obtain rfl := Option.some.inj (hr.symm.trans (hid ▸ hroot))
      exact ⟨[r], rfl, rfl, isChain_singleton r⟩
    · obtain ⟨p, hp, hlt⟩ := hsmaller r .refl hid
      obtain ⟨walk, hhead, hlast, hwalk⟩ := ih p hp
        (named_of_reflTransGen (.single hp) hr)
        fun s hs ↦ hsmaller s (.head hp hs)
      cases walk with
      | nil => cases hhead
      | cons q walk =>
        obtain rfl := Option.some.inj hhead
        refine ⟨r :: q :: walk, rfl, ?_, isChain_cons_cons.mpr ⟨⟨hp, hlt⟩, hwalk⟩⟩
        rwa [getLast?_cons_cons]

theorem revisionChain_eq_ok {objectId objectType rootRevisionId latestRevisionId : String}
    {c : RevisionChain F}
    (h : revisionChain objectId objectType rootRevisionId latestRevisionId revisions = .ok c) :
    c.rootRevisionId = rootRevisionId ∧ c.latestRevisionId = latestRevisionId ∧
      c.revisions = sortedRevisions revisions := by
  unfold revisionChain at h
  split at h
  · cases h
  · split at h
    · cases h
    · obtain rfl := Except.ok.inj h
      exact ⟨rfl, rfl, rfl⟩

namespace RevisionChain

theorem IsChain.smaller {c : RevisionChain F} (h : c.IsChain) {r : RevisionRecord F}
    (hr : ReflTransGen (fun r p ↦ parent c.revisions r = some p) c.getLatest r)
    (hid : r.revisionId ≠ c.rootRevisionId) :
    ∃ p, parent c.revisions r = some p ∧ p.revisionNumber < r.revisionNumber := by
  obtain ⟨walk, hhead, hlast, hwalk, hend⟩ := h.descent
  rw [h.latest] at hhead
  have hmem : r ∈ walk := mem_of_reflTransGen (hwalk.imp fun _ _ h ↦ h.1) hhead
    (fun z hz ↦ parent_eq_none (hend z hz)) hr
  obtain ⟨front, back, rfl⟩ := append_of_mem hmem
  cases back with
  | nil =>
    rw [getLast?_concat] at hlast
    exact absurd (named_eq_some hlast.symm).2 hid
  | cons p back => exact ⟨p, (isChain_append_cons_cons.mp hwalk).2.1⟩

end RevisionChain

/-- **Accepted chains are chains just when they are linked.** -/
theorem revisionChain_isChain_iff {objectId objectType rootRevisionId latestRevisionId : String}
    {c : RevisionChain F}
    (h : revisionChain objectId objectType rootRevisionId latestRevisionId revisions = .ok c) :
    c.IsChain ↔ Linked revisions rootRevisionId latestRevisionId := by
  obtain ⟨rfl, rfl, hsorted⟩ := revisionChain_eq_ok h
  have hmem : ∀ {r}, r ∈ c.revisions ↔ r ∈ revisions := by
    intro r
    rw [hsorted]
    exact mem_stableSortBy _
  have hhead : c.revisions.head? = some c.getRoot := head?_eq_some_head c.ne_nil
  have hlast : c.revisions.getLast? = some c.getLatest := getLast?_eq_some_getLast c.ne_nil
  constructor
  · intro hchain
    obtain ⟨walk, -, hend, -, hparent⟩ := hchain.descent
    rw [hchain.root] at hend
    exact {
      verified := fun r hr ↦ hsorted ▸ acyclic_iff_verifies.mp hchain.acyclic r (hmem.mpr hr)
      root := by
        rw [← hsorted, hhead]
        intro r hr
        obtain rfl := Option.some.inj hr
        exact ⟨(named_eq_some hchain.root).2, hparent _ hend⟩
      latest := by rw [← hsorted, hlast, hchain.latest]
      smaller := by
        rw [← hsorted, hlast]
        intro latest hlatest r hr hid
        obtain rfl := Option.some.inj hlatest
        exact hchain.smaller hr hid }
  · intro hlinked
    have hverified : ∀ r ∈ c.revisions, verifyNoCycles c.revisions r.revisionId = .ok () :=
      fun r hr ↦ hsorted ▸ hlinked.verified r (hmem.mp hr)
    obtain ⟨hroot, hparent⟩ := hlinked.root c.getRoot (by rw [← hsorted, hhead]; rfl)
    have hnamedRoot := named_head hhead
    have hnamed := hlinked.latest
    rw [← hsorted, hlast] at hnamed
    have hsmaller := hlinked.smaller c.getLatest (by rw [← hsorted, hlast]; rfl)
    rw [← hsorted, ← hroot] at hsmaller
    have hacyclic := acyclic_iff_verifies.mpr hverified
    obtain ⟨walk, hfirst, hend, hwalk⟩ := exists_descent
      (acc_of_verified hverified c.getLatest) ((named_eq_some hnamed).2 ▸ hnamed) hnamedRoot hsmaller
    exact {
      acyclic := hacyclic
      descent := ⟨walk, hfirst.trans hnamed.symm, hend.trans (hroot ▸ hnamedRoot).symm, hwalk, by
        rw [hend]
        intro r hr
        obtain rfl := Option.some.inj hr
        exact hparent⟩
      latest := hnamed
      root := hroot ▸ hnamedRoot }

end Chains

/-! ### Two revisions beside a circle -/

namespace Sample

def epoch : Datetime := ⟨⟨0, Utc.epoch_ok⟩, some 0⟩

def revision (revisionId : String) (revisionNumber : Int) (parentRevisionId : Option String) :
    RevisionRecord Unit where
  revisionId := revisionId
  objectId := "SER_CPI"
  objectType := "series"
  revisionNumber := revisionNumber
  state := .original
  revisionType := .dataUpdate
  createdAt := epoch
  effectiveFrom := epoch
  effectiveTo := none
  previousValue := .null
  newValue := .null
  changeDescription := ""
  parentRevisionId := parentRevisionId
  childRevisionIds := []
  provenance := none
  metadata := []
  version := "rev/obj/v1"

def pair : List (RevisionRecord Unit) := [revision "REV_1" 1 none, revision "REV_4" 4 (some "REV_1")]

/-- Two more revisions, each the parent of the other. -/
def circle : List (RevisionRecord Unit) :=
  [revision "REV_1" 1 none, revision "REV_2" 2 (some "REV_3"), revision "REV_3" 3 (some "REV_2"),
    revision "REV_4" 4 (some "REV_1")]

theorem sortedRevisions_pair : sortedRevisions pair = pair := rfl

theorem sortedRevisions_circle : sortedRevisions circle = circle := rfl

variable {revisions : List (RevisionRecord Unit)}

theorem verifyNoCycles_child {r : RevisionRecord Unit} (hr : named revisions "REV_4" = some r)
    (hparent : r.parentRevisionId = some "REV_1") {root : RevisionRecord Unit}
    (hroot : named revisions "REV_1" = some root) (hnone : root.parentRevisionId = none) :
    verifyNoCycles revisions "REV_4" = .ok () := by
  rw [verifyNoCycles, verifyFrom_named (by decide) not_mem_nil hr, hparent,
    verifyFrom_named (by decide) (by decide) hroot, hnone, verifyFrom]

theorem verifyNoCycles_root {root : RevisionRecord Unit}
    (hroot : named revisions "REV_1" = some root) (hnone : root.parentRevisionId = none) :
    verifyNoCycles revisions "REV_1" = .ok () := by
  rw [verifyNoCycles, verifyFrom_named (by decide) not_mem_nil hroot, hnone, verifyFrom]

theorem exists_revisionChain (hne : revisions ≠ [])
    (h : verifyNoCycles (sortedRevisions revisions) "REV_4" = .ok ()) :
    ∃ c, revisionChain "SER_CPI" "series" "REV_1" "REV_4" revisions = .ok c := by
  unfold revisionChain
  rw [dif_neg hne]
  split
  · rename_i heq
    rw [h] at heq
    cases heq
  · exact ⟨_, rfl⟩

end Sample

/-- A circle beside the walk from the latest revision is accepted. -/
theorem circle_accepted :
    ∃ c, revisionChain "SER_CPI" "series" "REV_1" "REV_4" Sample.circle = .ok c ∧ ¬ c.IsChain := by
  have hne : Sample.circle ≠ [] := cons_ne_nil _ _
  obtain ⟨c, hc⟩ := Sample.exists_revisionChain hne
    (Sample.sortedRevisions_circle ▸ Sample.verifyNoCycles_child rfl rfl rfl rfl)
  have hrevisions := (revisionChain_eq_ok hc).2.2.trans Sample.sortedRevisions_circle
  refine ⟨c, hc, fun h ↦ ?_⟩
  have hacyclic := h.acyclic
  rw [hrevisions] at hacyclic
  have hthird : parent Sample.circle (Sample.revision "REV_2" 2 (some "REV_3")) =
      some (Sample.revision "REV_3" 3 (some "REV_2")) := rfl
  have hsecond : parent Sample.circle (Sample.revision "REV_3" 3 (some "REV_2")) =
      some (Sample.revision "REV_2" 2 (some "REV_3")) := rfl
  exact hacyclic (Sample.revision "REV_2" 2 (some "REV_3")) (.tail _ (.head _))
    (.tail (.single hthird) hsecond)

/-- A revision and its original are a chain. -/
theorem pair_isChain :
    ∃ c, revisionChain "SER_CPI" "series" "REV_1" "REV_4" Sample.pair = .ok c ∧ c.IsChain := by
  have hne : Sample.pair ≠ [] := cons_ne_nil _ _
  obtain ⟨c, hc⟩ := Sample.exists_revisionChain hne
    (Sample.sortedRevisions_pair ▸ Sample.verifyNoCycles_child rfl rfl rfl rfl)
  refine ⟨c, hc, (revisionChain_isChain_iff hc).mpr ?_⟩
  exact {
    verified := by
      intro r hr
      rw [Sample.sortedRevisions_pair]
      rcases mem_cons.mp hr with rfl | hr
      · exact Sample.verifyNoCycles_root rfl rfl
      · obtain rfl := mem_singleton.mp hr
        exact Sample.verifyNoCycles_child rfl rfl rfl rfl
    root := by
      intro r hr
      obtain rfl := Option.some.inj hr
      exact ⟨rfl, rfl⟩
    latest := rfl
    smaller := by
      intro latest hlatest r hr hid
      obtain rfl := Option.some.inj hlatest
      rcases ReflTransGen.cases_head_iff.mp hr with rfl | ⟨p, hp, hr⟩
      · exact ⟨Sample.revision "REV_1" 1 none, rfl, by decide⟩
      · obtain rfl := Option.some.inj hp
        rcases ReflTransGen.cases_head_iff.mp hr with rfl | ⟨q, hq, -⟩
        · exact absurd rfl hid
        · cases hq }

end Qros.Macro
