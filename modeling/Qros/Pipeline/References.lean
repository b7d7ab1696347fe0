import Qros.Pipeline.Execution

/-!
# References between stored objects

`Consistent` is the invariant of the repository: objects are stored under their ids,
and what they refer to is there, of the class they name.  `Saves` is a sequence of saves
that keeps it, with the names it adds.  A link that finds its research is one
(`saves_link`), and in a consistent repository it always ends (`exists_linked`).
-/

namespace Qros.Pipeline

open Qros.Lib List

variable {F T V : Type} [Zero F] [One F]

/-! ## Consistent repositories -/

/-- The id leads to a stored object of the class. -/
abbrev Resolves (repo : Repository F T V) (ref : Cls × String) : Prop :=
  TypedStore.Names (schema F T V) repo ref

/-- The id is free for an object of the class. -/
abbrev Fits (repo : Repository F T V) (id : String) (c : Cls) : Prop :=
  TypedStore.Fits (schema F T V) repo id c

/-- Objects are stored under their ids, and their references resolve. -/
structure Consistent (repo : Repository F T V) : Prop where
  keyed : ∀ k o, repo.get? k = some o → o.id = k
  sound : TypedStore.Sound (schema F T V) repo

theorem consistent_empty : Consistent (∅ : Repository F T V) where
  keyed := fun _ _ h ↦ nomatch h
  sound := TypedStore.sound_empty

variable {repo : Repository F T V}

theorem Consistent.save (h : Consistent repo) {k : String} {o : Obj F T V} (hk : o.id = k)
    (hfits : Fits repo k o.cls) (hrefs : ∀ ref ∈ o.references, Resolves (repo.set k o) ref) :
    Consistent (repo.set k o) where
  keyed := by
    intro l b hb
    rw [Dict.get?_set] at hb
    split at hb
    · rename_i hl
      exact Option.some_inj.mp hb ▸ hk.trans hl
    · exact h.keyed l b hb
  sound := h.sound.set hfits hrefs

/-- Saves that keep a repository consistent, and the names they add. -/
structure Saves (repo : Repository F T V) (new : List (Cls × String)) (repo' : Repository F T V) :
    Prop where
  consistent : Consistent repo'
  grows : TypedStore.Grows (schema F T V) repo new repo'

theorem Saves.trans {repo repo' repo'' : Repository F T V} {new new' : List (Cls × String)}
    (h : Saves repo new repo') (h' : Saves repo' new' repo'') : Saves repo (new ++ new') repo'' :=
  ⟨h'.consistent, h.grows.trans h'.grows⟩

theorem Consistent.saves_new (h : Consistent repo) {o : Obj F T V} (hfits : Fits repo o.id o.cls)
    (hrefs : ∀ ref ∈ o.references, Resolves (repo.set o.id o) ref) :
    Saves repo [(o.cls, o.id)] (repo.set o.id o) :=
  ⟨h.save rfl hfits hrefs, TypedStore.Fits.grows_set hfits⟩

theorem Consistent.saves_update (h : Consistent repo) {o p : Obj F T V}
    (ho : repo.get? p.id = some o) (hcls : o.cls = p.cls)
    (hrefs : ∀ ref ∈ p.references, ref ∈ o.references ∨ Resolves repo ref) :
    Saves repo [] (repo.set p.id p) where
  consistent := by
    refine h.save rfl (hcls ▸ TypedStore.fits_of_get ho) fun ref href ↦ ?_
    apply TypedStore.Names.update _ ho hcls
    rcases hrefs ref href with href | href
    · exact h.sound _ o ho ref href
    · exact href
  grows := TypedStore.grows_update ho hcls

theorem Content.cls_ne_research (c : Content F T V) : c.cls ≠ .research := by
  cases c <;> exact fun h ↦ nomatch h

theorem Content.cls_ne_collection (c : Content F T V) (kind : CollectionKind) :
    c.cls ≠ .collection kind := by
  cases c <;> exact fun h ↦ nomatch h

theorem resolves_research {id : String} :
    Resolves repo (.research, id) ↔ ∃ r, repo.get? id = some (.research r) := by
  constructor
  · rintro ⟨o, ho, hcls⟩
    cases o with
    | research r => exact ⟨r, ho⟩
    | record r => exact absurd hcls r.content.cls_ne_research
    | cycle c => cases hcls
    | collection c => cases hcls
  · rintro ⟨r, hr⟩
    exact ⟨_, hr, rfl⟩

theorem resolves_collection {kind : CollectionKind} {id : String} :
    Resolves repo (.collection kind, id) ↔
      ∃ c, repo.get? id = some (.collection c) ∧ c.kind = kind := by
  constructor
  · rintro ⟨o, ho, hcls⟩
    cases o with
    | research r => cases hcls
    | record r => exact absurd hcls (r.content.cls_ne_collection kind)
    | cycle c => cases hcls
    | collection c => exact ⟨c, ho, Cls.collection.inj hcls⟩
  · rintro ⟨c, hc, rfl⟩
    exact ⟨_, hc, rfl⟩

/-! ## Links -/

section

variable {host : Host F T V} {call : Call F T V} {repo repo' : Repository F T V}

instance (r : Research T) (kind : CollectionKind) : Decidable (r.Unlinked kind) :=
  inferInstanceAs (Decidable (_ ∨ _))

def setId (host : Host F T V) (kind : CollectionKind) (researchId : String) : String :=
  host.generateId (seedOf [kind.name, researchId])

/-- The set that adding to the research creates, if it creates one. -/
def generatesSet (host : Host F T V) (repo : Repository F T V) (kind : CollectionKind)
    (researchId : String) : List (Cls × String) :=
  match repo.get? researchId with
  | some (.research r) =>
    if r.Unlinked kind then [(.collection kind, setId host kind researchId)] else []
  | _ => []

variable {kind : CollectionKind} {researchId : String}

theorem generatesSet_of_unlinked {r : Research T} (hr : repo.get? researchId = some (.research r))
    (hun : r.Unlinked kind) :
    generatesSet host repo kind researchId = [(.collection kind, setId host kind researchId)] := by
  unfold generatesSet
  rw [hr]
  exact if_pos hun

theorem generatesSet_of_link {researchId id : String} {r : Research T}
    (hr : repo.get? researchId = some (.research r)) (hid : id ≠ "")
    (hlink : r.link kind = some id) :
    generatesSet host repo kind researchId = [] := by
  unfold generatesSet
  rw [hr]
  refine if_neg ?_
  rintro (hnone | hempty)
  · rw [hnone] at hlink
    cases hlink
  · rw [hempty] at hlink
    exact hid (Option.some_inj.mp hlink).symm

def Link.generates (host : Host F T V) (repo : Repository F T V) : Link → List (Cls × String)
  | .member kind researchId => generatesSet host repo kind researchId
  | .memberIfGiven kind researchId =>
    if researchId = "" then [] else generatesSet host repo kind researchId
  | .none | .observation _ | .report _ | .validation _ => []

/-- The research that a link is about is one, and takes the transition. -/
def Link.Ready (repo : Repository F T V) : Link → Prop
  | .none => True
  | .observation researchId | .member _ researchId => Resolves repo (.research, researchId)
  | .memberIfGiven _ researchId => researchId = "" ∨ Resolves repo (.research, researchId)
  | .report researchId | .validation researchId =>
    ∃ r, repo.get? researchId = some (.research r) ∧ r.Active

/-- The class of record that a link is for. -/
def Link.Accepts : Link → Cls → Prop
  | .observation _, c => c = .observation
  | .member kind _, c | .memberIfGiven kind _, c => c = kind.member
  | .report _, c => c = .researchReport
  | .none, _ | .validation _, _ => True

variable {r r' : Research T}

theorem Consistent.saves_research (h : Consistent repo) {researchId k : String}
    (hr : repo.get? researchId = some (.research r)) (hk : k = r.base.id)
    (hbase : r'.base = r.base)
    (hrefs : ∀ ref ∈ (Obj.research r' : Obj F T V).references,
      ref ∈ (Obj.research r : Obj F T V).references ∨ Resolves repo ref) :
    Saves repo [] (repo.set k (.research r')) := by
  have hid : r'.base.id = researchId := (congrArg BaseObject.id hbase).trans (h.keyed _ _ hr)
  have ho : repo.get? (Obj.research r' : Obj F T V).id = some (.research r) :=
    (congrArg repo.get? hid).trans hr
  rw [hk, ← hbase]
  exact h.saves_update ho rfl hrefs

theorem saves_setOf (h : Consistent repo) {c : Collection F T V}
    (hr : repo.get? researchId = some (.research r))
    (hset : SetOf host call kind researchId r repo r' c repo')
    (hfits : TypedStore.Admits (schema F T V) repo (generatesSet host repo kind researchId)) :
    Saves repo (generatesSet host repo kind researchId) repo' ∧
      repo'.get? researchId = some (.research r) ∧
      repo'.get? c.base.id = some (.collection c) ∧ c.kind = kind ∧ r'.base = r.base ∧
      ∀ ref ∈ (Obj.research r' : Obj F T V).references,
        ref ∈ (Obj.research r : Obj F T V).references ∨ ref = (.collection kind, c.base.id) := by
  cases hset with
  | fresh hun =>
    rw [generatesSet_of_unlinked hr hun] at hfits ⊢
    have hfit : Fits repo (setId host kind researchId) (.collection kind) :=
      hfits.fits _ (mem_singleton_self _)
    refine ⟨h.saves_new (o := .collection (newCollection host call.now kind researchId)) hfit
      fun ref href ↦ ?_, ?_, Dict.get?_set_self _ _ _, rfl, Research.base_setLink _ _ _,
      fun ref href ↦ ?_⟩
    · cases mem_singleton.mp href
      exact TypedStore.Names.set (resolves_research.mpr ⟨r, hr⟩) hfit
    · exact TypedStore.get?_set_of_fits (S := schema F T V) hr hfit fun heq ↦ nomatch heq
    · rw [mem_references_research] at href ⊢
      rcases href with ⟨hc, hmem⟩ | ⟨kind', hc, hlink⟩ | ⟨hc, hrep⟩
      · exact .inl (.inl ⟨hc, Research.observationIds_setLink r kind _ ▸ hmem⟩)
      · rw [Research.link_setLink] at hlink
        split at hlink
        · rename_i hkind
          subst hkind
          exact .inr (Prod.ext hc (Option.some_inj.mp hlink).symm)
        · exact .inl (.inr (.inl ⟨kind', hc, hlink⟩))
      · exact .inl (.inr (.inr ⟨hc, Research.reportId_setLink r kind _ ▸ hrep⟩))
  | linked hid hlink hc hkind =>
    rw [generatesSet_of_link hr hid hlink]
    have hkept : repo.get? c.base.id = some (.collection c) :=
      (congrArg repo.get? (h.keyed _ _ hc)).trans hc
    exact ⟨⟨h, .refl⟩, hr, hkept, hkind, rfl, fun ref href ↦ .inl href⟩

theorem saves_member (h : Consistent repo) {r : Record F T V}
    (hlinked : Linked host call r repo (.member kind researchId) repo')
    (hstored : Resolves repo (kind.member, r.base.id))
    (hfits : TypedStore.Admits (schema F T V) repo (generatesSet host repo kind researchId)) :
    Saves repo (generatesSet host repo kind researchId) repo' := by
  cases hlinked with
  | member hr hset =>
    rename_i research research' c repo₁
    obtain ⟨hsaves, hr₁, hc₁, hkind, hbase, hlinks⟩ := saves_setOf h hr hset hfits
    have hadd : Saves repo₁ [] (repo₁.set c.base.id (.collection (c.add r))) := by
      refine hsaves.consistent.saves_update (o := .collection c) (p := .collection (c.add r))
        hc₁ rfl fun ref href ↦ ?_
      rcases mem_cons.mp href with rfl | href
      · exact .inl mem_cons_self
      · obtain ⟨id, hid, rfl⟩ := mem_map.mp href
        rcases Collection.mem_memberIds_add.mp hid with hid | rfl
        · exact .inl (mem_cons_of_mem _ (mem_map.mpr ⟨id, hid, rfl⟩))
        · right
          show Resolves repo₁ (c.kind.member, r.base.id)
          rw [hkind]
          exact hsaves.grows.kept _ hstored
    have hr₂ : (repo₁.set c.base.id (.collection (c.add r))).get? researchId =
        some (.research research) := by
      rw [Dict.get?_set_of_ne _ _ fun heq ↦ ?_, hr₁]
      rw [heq, hr₁] at hc₁
      cases hc₁
    have hlast : Saves (repo₁.set c.base.id (.collection (c.add r))) []
        ((repo₁.set c.base.id (.collection (c.add r))).set research'.base.id
          (.research research')) := by
      refine hadd.consistent.saves_research hr₂ (congrArg BaseObject.id hbase) hbase
        fun ref href ↦ ?_
      rcases hlinks ref href with href | rfl
      · exact .inl href
      · exact .inr (hadd.grows.kept _ (resolves_collection.mpr ⟨c, hc₁, hkind⟩))
    have hall := (hsaves.trans hadd).trans hlast
    rwa [append_nil, append_nil] at hall

theorem saves_entered (h : Consistent repo) {researchId k : String}
    (hr : repo.get? researchId = some (.research r)) (hk : k = r.base.id)
    (hbase : r'.base = r.base)
    (hrefs : ∀ ref ∈ (Obj.research r' : Obj F T V).references,
      ref ∈ (Obj.research r : Obj F T V).references ∨ Resolves repo ref)
    {now : T} {stage : LifecycleStage} {reason : String} :
    Saves repo [] ((repo.set k (.research r')).set k
      (.research (r'.entered now stage reason))) := by
  have hfirst := h.saves_research hr hk hbase hrefs
  -- The stage is kept in the base part, beside the id.
  have hlast : (repo.set k (.research r')).get? k = some (.research r') :=
    Dict.get?_set_self repo k _
  have hid : (r'.entered now stage reason).base.id = k := by
    rw [hk, ← hbase]
    rfl
  subst hid
  exact hfirst.trans (hfirst.consistent.saves_update (p := .research (r'.entered now stage reason))
    hlast rfl fun ref href ↦ .inl href)

/-- **Links.**  A link to an object that is stored keeps the repository consistent. -/
theorem saves_link (h : Consistent repo) {r : Record F T V} {link : Link}
    (hlinked : Linked host call r repo link repo') (haccepts : link.Accepts r.content.cls)
    (hstored : Resolves repo (r.content.cls, r.base.id))
    (hfits : TypedStore.Admits (schema F T V) repo (link.generates host repo)) :
    Saves repo (link.generates host repo) repo' := by
  induction hlinked with
  | none => exact ⟨h, .refl⟩
  | observation hr =>
    refine h.saves_research hr rfl ?_ fun ref href ↦ ?_
    · rfl
    rw [mem_references_research] at href ⊢
    rcases href with ⟨hc, hmem⟩ | href
    · rcases mem_append.mp hmem with hmem | hmem
      · exact .inl (.inl ⟨hc, hmem⟩)
      · right
        have hcls : r.content.cls = .observation := haccepts
        rw [hcls] at hstored
        rwa [show ref = (.observation, r.base.id) from
          Prod.ext hc (mem_singleton.mp hmem)]
    · exact .inl (.inr href)
  | member hr hset =>
    have hcls : r.content.cls = _ := haccepts
    exact saves_member h (.member hr hset) (hcls ▸ hstored) hfits
  | notGiven => exact ⟨h, .refl⟩
  | given hid hmember ih =>
    dsimp only [Link.generates] at hfits ⊢
    rw [if_neg hid] at hfits ⊢
    exact ih haccepts hfits
  | report hr hactive =>
    refine saves_entered h hr rfl ?_ fun ref href ↦ ?_
    · rfl
    rw [mem_references_research] at href ⊢
    rcases href with href | href | ⟨hc, hrep⟩
    · exact .inl (.inl href)
    · exact .inl (.inr (.inl href))
    · right
      have hcls : r.content.cls = .researchReport := haccepts
      rw [hcls] at hstored
      rwa [show ref = (.researchReport, r.base.id) from
        Prod.ext hc (Option.some_inj.mp hrep).symm]
  | validation hr hactive =>
    refine saves_entered h hr rfl ?_ fun ref href ↦ ?_
    · rfl
    · exact .inl href

variable (host call) in
theorem exists_linked_member (h : Consistent repo) (r : Record F T V)
    (hready : Resolves repo (.research, researchId)) :
    ∃ repo', Linked host call r repo (.member kind researchId) repo' := by
  obtain ⟨research, hr⟩ := resolves_research.mp hready
  by_cases hun : research.Unlinked kind
  · exact ⟨_, .member hr (.fresh hun)⟩
  · cases hlink : research.link kind with
    | none => exact absurd (.inl hlink) hun
    | some id =>
      have hid : id ≠ "" := by
        rintro rfl
        exact hun (.inr hlink)
      have href : (Cls.collection kind, id) ∈ (Obj.research research : Obj F T V).references :=
        mem_references_research.mpr (.inr (.inl ⟨kind, rfl, hlink⟩))
      obtain ⟨c, hc, hkind⟩ := resolves_collection.mp (h.sound _ _ hr _ href)
      exact ⟨_, .member hr (.linked hid hlink hc hkind)⟩

variable (host call) in
theorem exists_linked (h : Consistent repo) (r : Record F T V) {link : Link}
    (hready : link.Ready repo) : ∃ repo', Linked host call r repo link repo' := by
  cases link with
  | none => exact ⟨_, .none⟩
  | observation researchId =>
    obtain ⟨research, hr⟩ := resolves_research.mp hready
    exact ⟨_, .observation hr⟩
  | member kind researchId => exact exists_linked_member host call h r hready
  | memberIfGiven kind researchId =>
    by_cases hid : researchId = ""
    · subst hid
      exact ⟨_, .notGiven⟩
    · obtain ⟨repo', hlinked⟩ := exists_linked_member host call h r (hready.resolve_left hid)
      exact ⟨repo', .given hid hlinked⟩
  | report researchId =>
    obtain ⟨research, hr, hactive⟩ := hready
    exact ⟨_, .report hr hactive⟩
  | validation researchId =>
    obtain ⟨research, hr, hactive⟩ := hready
    exact ⟨_, .validation hr hactive⟩

end

end Qros.Pipeline
