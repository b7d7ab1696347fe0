import Qros.Pipeline.Contract

/-!
# What the pipeline remembers

After a sequence of operations, what was stored is still there, grown at most: the
observations of a research, its links, and the members of the sets it links to.  The
sets hold every record that was put into them, and the audit entries are the operations
in their order (`Remembered`).

Every id is made from content, so an operation that is repeated addresses the object of
the first one and replaces it.  Nothing is lost while each operation only generates ids
that are not in use (`run_remembered`).
-/

set_option linter.unusedSectionVars false

namespace Qros.Pipeline

open Qros.Lib List

variable {F T V : Type} [Zero F] [One F]

/-! ## Objects that grow -/

structure Research.Grown (r r' : Research T) : Prop where
  observations : r.observationIds <+: r'.observationIds
  links : ∀ kind id, r.link kind = some id → r'.link kind = some id
  report : r.reportId.isSome → r'.reportId.isSome

theorem Research.Grown.refl (r : Research T) : r.Grown r :=
  ⟨List.prefix_refl _, fun _ _ h ↦ h, fun h ↦ h⟩

theorem Research.Grown.trans {r r' r'' : Research T} (h : r.Grown r') (h' : r'.Grown r'') :
    r.Grown r'' where
  observations := h.observations.trans h'.observations
  links kind id hlink := h'.links kind id (h.links kind id hlink)
  report hrep := h'.report (h.report hrep)

structure Collection.Grown (c c' : Collection F T V) : Prop where
  base : c'.base = c.base
  kind : c'.kind = c.kind
  members : c.members <+: c'.members
  memberIds : c.memberIds <+: c'.memberIds

theorem Collection.Grown.refl (c : Collection F T V) : c.Grown c :=
  ⟨rfl, rfl, List.prefix_refl _, List.prefix_refl _⟩

theorem Collection.Grown.trans {c c' c'' : Collection F T V} (h : c.Grown c') (h' : c'.Grown c'') :
    c.Grown c'' where
  base := h'.base.trans h.base
  kind := h'.kind.trans h.kind
  members := h.members.trans h'.members
  memberIds := h.memberIds.trans h'.memberIds

theorem Collection.grown_add (c : Collection F T V) (r : Record F T V) : c.Grown (c.add r) where
  base := rfl
  kind := rfl
  members := List.prefix_append _ _
  memberIds := by
    unfold Collection.add
    dsimp only
    split
    · exact List.prefix_append _ _
    · exact List.prefix_refl _

namespace Obj

/-- What may become of a stored object. -/
inductive Grown : Obj F T V → Obj F T V → Prop
  | record (r : Record F T V) : Grown (.record r) (.record r)
  | research {r r' : Research T} (h : r.Grown r') : Grown (.research r) (.research r')
  | cycle {c c' : ResearchCycle T} (h : c.stages <+: c'.stages) : Grown (.cycle c) (.cycle c')
  | collection {c c' : Collection F T V} (h : c.Grown c') : Grown (.collection c) (.collection c')

theorem Grown.refl : ∀ o : Obj F T V, Grown o o
  | .record r => .record r
  | .research r => .research (.refl r)
  | .cycle _ => .cycle (List.prefix_refl _)
  | .collection c => .collection (.refl c)

theorem Grown.trans (o p q : Obj F T V) (h : Grown o p) (h' : Grown p q) : Grown o q := by
  cases h with
  | record r => exact h'
  | research h =>
    cases h' with
    | research h' => exact .research (h.trans h')
  | cycle h =>
    cases h' with
    | cycle h' => exact .cycle (h.trans h')
  | collection h =>
    cases h' with
    | collection h' => exact .collection (h.trans h')

def auditKey : Obj F T V → Option (String × String × String)
  | .record ⟨_, .auditEntry a⟩ => some (a.action, a.objectId, a.objectType)
  | _ => none

theorem Grown.auditKey_eq {o p : Obj F T V} (h : Grown o p) : p.auditKey = o.auditKey := by
  cases h <;> rfl

end Obj

/-- The audit entries of a repository, in the order they were saved. -/
def auditLog (repo : Repository F T V) : List (String × String × String) :=
  repo.values.filterMap Obj.auditKey

/-! ## Repositories -/

section

variable (host : Host F T V)

/-- The links of a research are the ids of its own sets, which are there. -/
def LinksOwn (repo : Repository F T V) (id : String) (r : Research T) : Prop :=
  ∀ kind l, r.link kind = some l → l = setId host kind id ∧ (repo.get? l).isSome

structure Rooted (repo : Repository F T V) : Prop where
  keyed : ∀ k o, repo.get? k = some o → o.id = k
  links : ∀ id r, repo.get? id = some (.research r) → LinksOwn host repo id r

/-- Saves that forget nothing, with the ids and the audit entries they add. -/
structure Retains (repo : Repository F T V) (new : List String)
    (log : List (String × String × String)) (repo' : Repository F T V) : Prop where
  rooted : Rooted host repo'
  evolves : Evolves Obj.Grown repo new repo'
  audits : auditLog repo' = auditLog repo ++ log

variable {host} {repo repo' repo'' : Repository F T V}

theorem rooted_empty : Rooted host (∅ : Repository F T V) where
  keyed := fun _ _ h ↦ nomatch h
  links := fun _ _ h ↦ nomatch h

theorem Rooted.retains_refl (h : Rooted host repo) : Retains host repo [] [] repo :=
  ⟨h, .refl Obj.Grown.refl, (append_nil _).symm⟩

theorem Retains.trans {new new' : List String} {log log' : List (String × String × String)}
    (h : Retains host repo new log repo') (h' : Retains host repo' new' log' repo'') :
    Retains host repo (new ++ new') (log ++ log') repo'' where
  rooted := h'.rooted
  evolves := h.evolves.trans Obj.Grown.trans h'.evolves
  audits := by rw [h'.audits, h.audits, append_assoc]

theorem LinksOwn.evolves {id : String} {r : Research T} {new : List String}
    (h : LinksOwn host repo id r) (hevolves : Evolves Obj.Grown repo new repo') :
    LinksOwn host repo' id r := by
  intro kind l hlink
  obtain ⟨hl, hsome⟩ := h kind l hlink
  obtain ⟨o, ho⟩ := Option.isSome_iff_exists.mp hsome
  obtain ⟨p, hp, -⟩ := hevolves.kept l o ho
  exact ⟨hl, by rw [hp]; rfl⟩

theorem Rooted.save (h : Rooted host repo) {o : Obj F T V} {new : List String}
    (hevolves : Evolves Obj.Grown repo new (repo.set o.id o))
    (hlinks : ∀ r, o = .research r → LinksOwn host (repo.set o.id o) o.id r) :
    Rooted host (repo.set o.id o) where
  keyed k p hp := by
    rw [Dict.get?_set] at hp
    split at hp
    · rename_i hk
      exact Option.some_inj.mp hp ▸ hk
    · exact h.keyed k p hp
  links id r hr := by
    by_cases hid : o.id = id
    · subst hid
      rw [Dict.get?_set_self] at hr
      exact hlinks r (Option.some_inj.mp hr)
    · rw [Dict.get?_set_of_ne _ _ hid] at hr
      exact (h.links id r hr).evolves hevolves

theorem Rooted.retains_new (h : Rooted host repo) {o : Obj F T V} (hfree : repo.get? o.id = none)
    (hlinks : ∀ r, o = .research r → ∀ kind, r.link kind = none) :
    Retains host repo [o.id] o.auditKey.toList (repo.set o.id o) where
  rooted := h.save (.of_free Obj.Grown.refl hfree) fun r hr kind l hlink ↦ by
    rw [hlinks r hr kind] at hlink
    cases hlink
  evolves := .of_free Obj.Grown.refl hfree
  audits := Dict.filterMap_values_set_of_free hfree

theorem Rooted.retains_step (h : Rooted host repo) {o p : Obj F T V}
    (ho : repo.get? p.id = some o) (hgrown : o.Grown p)
    (hlinks : ∀ r, p = .research r → LinksOwn host repo p.id r) :
    Retains host repo [] [] (repo.set p.id p) where
  rooted := h.save (.of_step Obj.Grown.refl ho hgrown) fun r hr ↦
    (hlinks r hr).evolves (.of_step Obj.Grown.refl ho hgrown)
  evolves := .of_step Obj.Grown.refl ho hgrown
  audits := (Dict.filterMap_values_set_of_some ho hgrown.auditKey_eq).trans
    (append_nil _).symm

end

/-! ## Links -/

section

variable {host : Host F T V} {call : Call F T V} {repo repo' : Repository F T V}

def Holds (repo : Repository F T V) (kind : CollectionKind) (researchId : String)
    (r : Record F T V) : Prop :=
  ∃ research c, repo.get? researchId = some (.research research) ∧
    research.link kind = some c.base.id ∧ repo.get? c.base.id = some (.collection c) ∧
    c.kind = kind ∧ r ∈ c.members ∧ r.base.id ∈ c.memberIds

variable {kind : CollectionKind} {researchId : String} {r r' : Research T}

theorem Holds.evolves {r : Record F T V} {new : List String} (h : Holds repo kind researchId r)
    (hevolves : Evolves Obj.Grown repo new repo') : Holds repo' kind researchId r := by
  obtain ⟨research, c, hr, hlink, hc, hkind, hmem, hid⟩ := h
  obtain ⟨p, hp, hgrown⟩ := hevolves.kept _ _ hr
  obtain ⟨q, hq, hgrown'⟩ := hevolves.kept _ _ hc
  cases hgrown with
  | research hgrown =>
    cases hgrown' with
    | collection hgrown' =>
      refine ⟨_, _, hp, ?_, ?_, hgrown'.kind.trans hkind, hgrown'.members.subset hmem,
        hgrown'.memberIds.subset hid⟩
      · rw [hgrown'.base]
        exact hgrown.links kind _ hlink
      · rw [hgrown'.base]
        exact hq

theorem Rooted.retains_research (h : Rooted host repo) {researchId k : String}
    (hr : repo.get? researchId = some (.research r)) (hk : k = r.base.id)
    (hbase : r'.base.id = r.base.id) (hgrown : r.Grown r')
    (hlinks : LinksOwn host repo researchId r') :
    Retains host repo [] [] (repo.set k (.research r')) := by
  have hid : r'.base.id = researchId := hbase.trans (h.keyed _ _ hr)
  have ho : repo.get? (Obj.research r' : Obj F T V).id = some (.research r) :=
    (congrArg repo.get? hid).trans hr
  rw [hk, ← hbase]
  refine h.retains_step ho (.research hgrown) fun r₀ hr₀ ↦ ?_
  cases hr₀
  rw [show (Obj.research r' : Obj F T V).id = researchId from hid]
  exact hlinks

theorem retains_setOf (h : Rooted host repo) {c : Collection F T V}
    (hr : repo.get? researchId = some (.research r))
    (hset : SetOf host call kind researchId r repo r' c repo')
    (hfresh : Fresh repo ((generatesSet host repo kind researchId).map Prod.snd)) :
    Retains host repo ((generatesSet host repo kind researchId).map Prod.snd) [] repo' ∧
      repo'.get? researchId = some (.research r) ∧
      repo'.get? c.base.id = some (.collection c) ∧ c.kind = kind ∧ r'.base = r.base ∧
      r.Grown r' ∧ r'.link kind = some c.base.id ∧ LinksOwn host repo' researchId r' := by
  cases hset with
  | fresh hun =>
    rw [generatesSet_of_unlinked hr hun] at hfresh ⊢
    have hfree : repo.get? (setId host kind researchId) = none :=
      hfresh.free _ (mem_singleton_self _)
    have hretains := h.retains_new (o := .collection (newCollection host call.now kind researchId))
      hfree fun r hr ↦ nomatch hr
    have hown : LinksOwn host (repo.set (setId host kind researchId)
        (.collection (newCollection host call.now kind researchId))) researchId
        (r.setLink kind (setId host kind researchId)) := by
      intro kind' l hlink
      rw [Research.link_setLink] at hlink
      split at hlink
      · rename_i hkind
        obtain rfl := Option.some_inj.mp hlink
        exact ⟨hkind ▸ rfl, by rw [Dict.get?_set_self]; rfl⟩
      · exact (h.links _ _ hr).evolves hretains.evolves kind' l hlink
    refine ⟨hretains, ?_, Dict.get?_set_self _ _ _, rfl, Research.base_setLink _ _ _, ?_, ?_,
      hown⟩
    · rw [Dict.get?_set_of_ne, hr]
      intro heq
      rw [show (newCollection host call.now kind researchId : Collection F T V).base.id =
        setId host kind researchId from rfl] at heq
      rw [heq, hr] at hfree
      cases hfree
    · refine ⟨?_, fun kind' l hlink ↦ ?_, ?_⟩
      · rw [Research.observationIds_setLink]
      · rw [Research.link_setLink]
        split
        · rename_i hkind
          subst hkind
          -- The id of the set is that of any set the research has had.
          exact congrArg some (h.links _ _ hr _ l hlink).1.symm
        · exact hlink
      · rw [Research.reportId_setLink]
        exact fun h ↦ h
    · rw [Research.link_setLink, if_pos rfl]
  | linked hid hlink hc hkind =>
    rw [generatesSet_of_link hr hid hlink]
    have hkey := h.keyed _ _ hc
    have hkept : repo.get? c.base.id = some (.collection c) := (congrArg repo.get? hkey).trans hc
    exact ⟨h.retains_refl, hr, hkept, hkind, rfl, .refl r,
      hlink.trans (congrArg some hkey.symm), h.links _ _ hr⟩

/-- The set that a link puts its record into. -/
def Link.target : Link → Option (CollectionKind × String)
  | .member kind researchId => some (kind, researchId)
  | .memberIfGiven kind researchId =>
    if researchId = "" then Option.none else some (kind, researchId)
  | .none | .observation _ | .report _ | .validation _ => Option.none

theorem retains_member (h : Rooted host repo) {r : Record F T V}
    (hlinked : Linked host call r repo (.member kind researchId) repo')
    (hfresh : Fresh repo ((generatesSet host repo kind researchId).map Prod.snd)) :
    Retains host repo ((generatesSet host repo kind researchId).map Prod.snd) [] repo' ∧
      Holds repo' kind researchId r := by
  cases hlinked with
  | member hr hset =>
    rename_i research research' c repo₁
    obtain ⟨hretains, hr₁, hc₁, hkind, hbase, hgrown, hlink, hown⟩ :=
      retains_setOf h hr hset hfresh
    have hadd : Retains host repo₁ [] [] (repo₁.set c.base.id (.collection (c.add r))) :=
      hretains.rooted.retains_step (o := .collection c) (p := .collection (c.add r)) hc₁
        (.collection (c.grown_add r)) fun r hr ↦ nomatch hr
    have hne : c.base.id ≠ researchId := by
      intro heq
      rw [heq, hr₁] at hc₁
      cases hc₁
    have hr₂ : (repo₁.set c.base.id (.collection (c.add r))).get? researchId =
        some (.research research) := by
      rw [Dict.get?_set_of_ne _ _ hne, hr₁]
    have hlast := hadd.rooted.retains_research (k := research'.base.id) hr₂
      (congrArg BaseObject.id hbase) (congrArg BaseObject.id hbase) hgrown
      (hown.evolves hadd.evolves)
    have hall := (hretains.trans hadd).trans hlast
    rw [append_nil, append_nil] at hall
    have hid : research'.base.id = researchId :=
      (congrArg BaseObject.id hbase).trans (h.keyed _ _ hr)
    refine ⟨hall, research', c.add r, ?_, hlink, ?_, hkind,
      mem_append_right _ (mem_singleton_self r),
      Collection.mem_memberIds_add.mpr (.inr rfl)⟩
    · rw [hid, Dict.get?_set_self]
    · rw [hid]
      exact (Dict.get?_set_of_ne _ _ hne.symm).trans (Dict.get?_set_self _ _ _)

theorem retains_entered (h : Rooted host repo) {researchId k : String}
    (hr : repo.get? researchId = some (.research r)) (hk : k = r.base.id)
    (hbase : r'.base = r.base) (hgrown : r.Grown r') (hlinks : ∀ kind, r'.link kind = r.link kind)
    {now : T} {stage : LifecycleStage} {reason : String} :
    Retains host repo [] [] ((repo.set k (.research r')).set k
      (.research (r'.entered now stage reason))) := by
  have hown : LinksOwn host repo researchId r' :=
    fun kind l hlink ↦ h.links _ _ hr kind l (hlinks kind ▸ hlink)
  have hfirst := h.retains_research hr hk (congrArg BaseObject.id hbase) hgrown hown
  have hkey : k = r'.base.id := hk.trans (congrArg BaseObject.id hbase).symm
  have hid : k = researchId := hk.trans (h.keyed _ _ hr)
  have hlast : (repo.set k (.research r')).get? researchId = some (.research r') :=
    hid ▸ Dict.get?_set_self repo k _
  have hentered : r'.Grown (r'.entered now stage reason) :=
    ⟨List.prefix_refl _, fun _ _ h ↦ h, fun h ↦ h⟩
  exact hfirst.trans (hfirst.rooted.retains_research hlast hkey rfl hentered
    (hown.evolves hfirst.evolves))

/-- **Links.**  A link whose set is new or the one it links to forgets nothing. -/
theorem retains_link (h : Rooted host repo) {r : Record F T V} {link : Link}
    (hlinked : Linked host call r repo link repo')
    (hfresh : Fresh repo ((link.generates host repo).map Prod.snd)) :
    Retains host repo ((link.generates host repo).map Prod.snd) [] repo' ∧
      ∀ kind researchId, link.target = some (kind, researchId) →
        Holds repo' kind researchId r := by
  induction hlinked with
  | none => exact ⟨h.retains_refl, fun _ _ h ↦ nomatch h⟩
  | observation hr =>
    refine ⟨?_, fun _ _ h ↦ nomatch h⟩
    refine h.retains_research hr rfl ?_ ⟨?_, ?_, ?_⟩ ?_
    · rfl
    · exact List.prefix_append _ _
    · exact fun _ _ h ↦ h
    · exact fun h ↦ h
    · exact fun kind l hlink ↦ h.links _ _ hr kind l hlink
  | member hr hset =>
    obtain ⟨hretains, hholds⟩ := retains_member h (.member hr hset) hfresh
    refine ⟨hretains, fun kind researchId htarget ↦ ?_⟩
    cases htarget
    exact hholds
  | notGiven => exact ⟨h.retains_refl, fun _ _ h ↦ nomatch h⟩
  | given hid hmember ih =>
    dsimp only [Link.generates, Link.target] at hfresh ⊢
    rw [if_neg hid] at hfresh
    rw [if_neg hid, if_neg hid]
    exact ih hfresh
  | report hr hactive =>
    refine ⟨?_, fun _ _ h ↦ nomatch h⟩
    refine retains_entered h hr rfl ?_ ⟨?_, ?_, ?_⟩ ?_
    · rfl
    · exact List.prefix_refl _
    · exact fun _ _ h ↦ h
    · exact fun _ ↦ rfl
    · exact fun _ ↦ rfl
  | validation hr hactive =>
    refine ⟨?_, fun _ _ h ↦ nomatch h⟩
    refine retains_entered h hr rfl ?_ ⟨?_, ?_, ?_⟩ ?_
    · rfl
    · exact List.prefix_refl _
    · exact fun _ _ h ↦ h
    · exact fun h ↦ h
    · exact fun _ ↦ rfl

end

/-! ## Operations -/

section

variable {host : Host F T V} {call : Call F T V} {repo repo' : Repository F T V}

variable (call) in
theorem retains_audit (h : Rooted host repo) (action : String) {o : Obj F T V} (text : String)
    (hfree : repo.get? (auditId host action o.cls o.id) = none) :
    Retains host repo [auditId host action o.cls o.id] [(action, o.id, o.cls.name)]
      (repo.set (auditOf host call action o text).base.id
        (.record (auditOf host call action o text))) :=
  h.retains_new (o := .record (auditOf host call action o text)) hfree fun _ hr ↦ nomatch hr

/-- **Creations.**  One that generates ids that are not in use forgets nothing. -/
theorem retains_created (h : Rooted host repo) {c : Creation F T V} {r : Record F T V}
    (hcreated : Created host call c repo r repo') (hkey : (Obj.record r).auditKey = none)
    (hfresh : Fresh repo ((c.generates host repo r).map Prod.snd)) :
    Retains host repo ((c.generates host repo r).map Prod.snd)
        [(c.action, r.base.id, r.content.cls.name)] repo' ∧
      ∀ kind researchId, c.link.target = some (kind, researchId) →
        Holds repo' kind researchId r := by
  obtain ⟨repo₁, text, hlinked, -, rfl⟩ := hcreated.saved
  have hids : (c.generates host repo r).map Prod.snd =
      [r.base.id] ++ ((c.link.generates host repo).map Prod.snd ++
        [auditId host c.action r.content.cls r.base.id]) := by
    rw [Creation.generates, map_cons, map_append]
    rfl
  rw [hids] at hfresh ⊢
  have hfree : repo.get? r.base.id = none := hfresh.free _ mem_cons_self
  have hfirst : Retains host repo [r.base.id] (Obj.record r).auditKey.toList
      (repo.set r.base.id (.record r)) :=
    h.retains_new (o := .record r) hfree fun _ hr ↦ nomatch hr
  rw [hkey] at hfirst
  have hrest := hfresh.evolves hfirst.evolves
  have hsame : c.link.generates host (repo.set r.base.id (.record r)) =
      c.link.generates host repo := generates_save (TypedStore.fits_of_free hfree) c.link
  obtain ⟨hlink, hholds⟩ := retains_link hfirst.rooted hlinked (hsame ▸ hrest.left)
  rw [hsame] at hlink
  have haudit := retains_audit call hlink.rooted c.action (o := .record r) text
    ((hrest.evolves hlink.evolves).free _ (mem_singleton_self _))
  exact ⟨hfirst.trans (hlink.trans haudit), fun kind researchId htarget ↦
    (hholds kind researchId htarget).evolves haudit.evolves⟩

theorem retains_started (h : Rooted host repo) {a : ResearchArgs}
    (hstarted : Started host call a repo repo')
    (hfresh : Fresh repo ((generatesStart host call.now a).map Prod.snd)) :
    Retains host repo ((generatesStart host call.now a).map Prod.snd)
      [("RESEARCH_STARTED", (newResearch host call.now a).base.id, Cls.research.name)] repo' := by
  obtain ⟨text, -, rfl⟩ := hstarted.saved
  set research := newResearch host call.now a with hresearch
  set cycle := researchCycle host call.now research.base.id with hcycle
  have hfirst := h.retains_new (o := .research research) (hfresh.free _ mem_cons_self)
    fun r hr kind ↦ by
      cases hr
      cases kind <;> rfl
  have hrest := hfresh.tail hfirst.evolves
  have hsecond := hfirst.rooted.retains_new (o := .cycle cycle)
    (hrest.free _ mem_cons_self) fun r hr ↦ nomatch hr
  have hlast := hrest.tail hsecond.evolves
  have hfree := hlast.free _ (mem_singleton_self _)
  have haudit := retains_audit call hsecond.rooted "RESEARCH_STARTED" (o := .research research)
    text hfree
  have hne : auditId host "RESEARCH_STARTED" .research research.base.id ≠ cycle.base.id := by
    intro heq
    rw [heq] at hfree
    exact nomatch hfree.symm.trans (Dict.get?_set_self _ _ _)
  have hkept := (Dict.get?_set_of_ne ((repo.set research.base.id (.research research)).set
    cycle.base.id (.cycle cycle)) (.record (auditOf host call "RESEARCH_STARTED"
      (.research research) text)) hne).trans (Dict.get?_set_self _ _ _)
  have hstage := haudit.rooted.retains_step (o := .cycle cycle)
    (p := .cycle (cycle.addStage
      ⟨"start_research", 0, "Complete", [("research_id", research.base.id)]⟩))
    hkept (.cycle (List.prefix_append _ _)) fun _ hr ↦ nomatch hr
  exact ((hfirst.trans hsecond).trans haudit).trans hstage

end

/-! ## Sequences of operations -/

section

variable [LT F] [LE F] [DecidableLT F] [DecidableLE F]

variable {host : Host F T V} {call : Call F T V} {repo repo' : Repository F T V}
  {op : Operation F T V}

theorem auditKey_creation {now : T} {c : Creation F T V} {r : Record F T V}
    (hop : op.creation host now = .inr c) (hobject : c.object = .ok r) :
    (Obj.record r).auditKey = none := by
  have hcls : r.content.cls ≠ .auditEntry := by
    rw [cls_of_creation hop hobject]
    cases op <;> exact nofun
  obtain ⟨base, content⟩ := r
  cases content with
  | auditEntry a => exact absurd rfl hcls
  | _ => rfl

def Operation.ids (host : Host F T V) (call : Call F T V) (repo : Repository F T V)
    (op : Operation F T V) : List String :=
  match op.creation host call.now with
  | .inl a => (generatesStart host call.now a).map Prod.snd
  | .inr c =>
    match c.object with
    | .ok r => (c.generates host repo r).map Prod.snd
    | .error _ => []

def Operation.action (host : Host F T V) (now : T) (op : Operation F T V) : String :=
  match op.creation host now with
  | .inl _ => "RESEARCH_STARTED"
  | .inr c => c.action

/-- The set that an operation puts its object into. -/
def Operation.target (host : Host F T V) (now : T) (op : Operation F T V) :
    Option (CollectionKind × String) :=
  match op.creation host now with
  | .inl _ => none
  | .inr c => c.link.target

/-- **One operation.** -/
theorem retains_operation (h : Rooted host repo) {o : Obj F T V}
    (hrun : exec (op.run host call) repo = (.ok o, repo'))
    (hfresh : Fresh repo (op.ids host call repo)) :
    Retains host repo (op.ids host call repo) [(op.action host call.now, o.id, o.cls.name)] repo' ∧
      ∀ kind researchId r, op.target host call.now = some (kind, researchId) → o = .record r →
        Holds repo' kind researchId r := by
  unfold Operation.ids at hfresh ⊢
  unfold Operation.action Operation.target
  cases hop : op.creation host call.now with
  | inl a =>
    rw [hop] at hfresh
    obtain ⟨rfl, hstarted⟩ := (exec_start hop).mp hrun
    exact ⟨retains_started h hstarted hfresh, fun _ _ _ h ↦ nomatch h⟩
  | inr c =>
    obtain ⟨r, rfl, hcreated⟩ := (exec_creation hop).mp hrun
    have hobject := hcreated.object
    rw [hop] at hfresh
    dsimp only at hfresh ⊢
    rw [hobject] at hfresh ⊢
    obtain ⟨hretains, hholds⟩ :=
      retains_created h hcreated (auditKey_creation hop hobject) hfresh
    refine ⟨hretains, fun kind researchId r' htarget hr ↦ ?_⟩
    cases hr
    exact hholds kind researchId htarget

variable (host) in
/-- The entry that a step of a run should have left. -/
def recorded (s : (Call F T V × Operation F T V) × Except PyError (Obj F T V)) :
    Option (String × String × String) :=
  match s.2 with
  | .ok o => some (s.1.2.action host s.1.1.now, o.id, o.cls.name)
  | .error _ => none

variable (host) in
/-- What the pipeline should know after the operations `is`. -/
structure Remembered (is : List (Call F T V × Operation F T V)) : Prop where
  researches : ∀ pre, pre <+: is → ∀ id r,
    ((machine host).after pre).get? id = some (.research r) →
      ∃ r', ((machine host).after is).get? id = some (.research r') ∧ r.Grown r'
  sets : ∀ pre s, pre ++ [s] <+: is → ∀ kind researchId r,
    s.2.target host s.1.now = some (kind, researchId) →
    ((machine host).step s ((machine host).after pre)).1 = .ok (.record r) →
      Holds ((machine host).after is) kind researchId r
  audits : auditLog ((machine host).after is) =
    ((machine host).trace is).filterMap (recorded host)

theorem remembered_nil : Remembered host ([] : List (Call F T V × Operation F T V)) where
  researches pre hpre id r hr := by
    rw [List.prefix_nil.mp hpre] at hr
    cases hr
  sets pre s hpre := by
    have hlength := hpre.length_le
    rw [length_append] at hlength
    exact absurd hlength (by simp)
  audits := rfl

theorem Remembered.concat {is : List (Call F T V × Operation F T V)}
    {s : Call F T V × Operation F T V} {o : Obj F T V} {new : List String}
    (h : Remembered host is)
    (ho : ((machine host).step s ((machine host).after is)).1 = .ok o)
    (hretains : Retains host ((machine host).after is) new
      [(s.2.action host s.1.now, o.id, o.cls.name)] ((machine host).after (is ++ [s])))
    (hholds : ∀ kind researchId r, s.2.target host s.1.now = some (kind, researchId) →
      o = .record r → Holds ((machine host).after (is ++ [s])) kind researchId r) :
    Remembered host (is ++ [s]) where
  researches pre hpre id r hr := by
    rcases List.prefix_concat_iff.mp hpre with rfl | hpre
    · exact ⟨r, hr, .refl r⟩
    · obtain ⟨r', hr', hgrown⟩ := h.researches pre hpre id r hr
      obtain ⟨p, hp, hgrown'⟩ := hretains.evolves.kept id _ hr'
      cases hgrown' with
      | research hgrown' => exact ⟨_, hp, hgrown.trans hgrown'⟩
  sets pre t hpre kind researchId r htarget hanswer := by
    rcases List.prefix_concat_iff.mp hpre with heq | hpre
    · obtain ⟨rfl, ht⟩ := append_inj' heq rfl
      cases ht
      rw [ho] at hanswer
      exact hholds kind researchId r htarget (Except.ok.inj hanswer)
    · exact (h.sets pre t hpre kind researchId r htarget hanswer).evolves hretains.evolves
  audits := by
    rw [hretains.audits, h.audits, Machine.trace_concat, filterMap_append, ho]
    rfl

/-- **Sequences of operations.**  While the operations succeed and generate ids that are
not in use, nothing is forgotten. -/
theorem run_remembered {is : List (Call F T V × Operation F T V)}
    (hok : Meets (fun pre s ↦
      ((machine host).step s ((machine host).after pre)).1.isOk) is)
    (hfresh : Meets (fun pre s ↦
      Fresh ((machine host).after pre) (s.2.ids host s.1 ((machine host).after pre))) is) :
    Remembered host is := by
  refine ((hok.and hfresh).induction (I := fun is ↦ Rooted host ((machine host).after is) ∧
    Remembered host is) ⟨rooted_empty, remembered_nil⟩ fun is s _ ih hs ↦ ?_).2
  obtain ⟨hrooted, hremembered⟩ := ih
  obtain ⟨hsok, hsfresh⟩ := hs
  rcases hstep : (machine host).step s ((machine host).after is) with ⟨_ | o, repo'⟩
  · rw [hstep] at hsok
    cases hsok
  · obtain rfl : (machine host).after (is ++ [s]) = repo' := by
      rw [Machine.after_concat, hstep]
    obtain ⟨hretains, hholds⟩ := retains_operation hrooted hstep hsfresh
    exact ⟨hretains.rooted, hremembered.concat (congrArg Prod.fst hstep) hretains hholds⟩

def observationsAt (repo : Repository F T V) (id : String) : List String :=
  match repo.get? id with
  | some (.research r) => r.observationIds
  | _ => []

theorem Remembered.observationsAt_prefix {is pre : List (Call F T V × Operation F T V)}
    (h : Remembered host is) (hpre : pre <+: is) (id : String) :
    observationsAt ((machine host).after pre) id <+:
      observationsAt ((machine host).after is) id := by
  have hbefore : observationsAt ((machine host).after pre) id = [] ∨
      ∃ r, ((machine host).after pre).get? id = some (.research r) := by
    unfold observationsAt
    split
    · rename_i r hr
      exact .inr ⟨r, hr⟩
    · exact .inl rfl
  rcases hbefore with hnil | ⟨r, hr⟩
  · rw [hnil]
    exact List.nil_prefix
  · obtain ⟨r', hr', hgrown⟩ := h.researches pre hpre id r hr
    unfold observationsAt
    rw [hr, hr']
    exact hgrown.observations

end

/-! ## A session -/

def sampleHypothesis : Call Int Nat String × Operation Int Nat String :=
  (sampleCall 2, .createHypothesis
    { researchId := "43800826-7585-5d2a-847f-da6b2df5561f", type := "Directional",
      statement := "Inflation slows" })

theorem run_remembered_sample : Remembered sampleHost [sampleStart,
    sampleObservation "43800826-7585-5d2a-847f-da6b2df5561f", sampleHypothesis] :=
  run_remembered (by decide +kernel) (by decide +kernel)

/-- Starting the research a second time replaces it, with its list of observations. -/
theorem restarted_research_forgets :
    Meets (fun pre s ↦ ((machine sampleHost).step s ((machine sampleHost).after pre)).1.isOk)
        [sampleStart, sampleObservation "43800826-7585-5d2a-847f-da6b2df5561f", sampleStart] ∧
      ¬Remembered sampleHost
        [sampleStart, sampleObservation "43800826-7585-5d2a-847f-da6b2df5561f", sampleStart] := by
  refine ⟨by decide +kernel, fun h ↦ ?_⟩
  have hprefix := h.observationsAt_prefix (List.prefix_append
    [sampleStart, sampleObservation "43800826-7585-5d2a-847f-da6b2df5561f"] [sampleStart])
    "43800826-7585-5d2a-847f-da6b2df5561f"
  revert hprefix
  decide +kernel

end Qros.Pipeline
