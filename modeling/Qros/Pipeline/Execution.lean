import Qros.Pipeline.Operations

/-!
# What an operation does to the repository

`Linked` describes the links that succeed, and `Created` the operations that return.
They are relations between the repository before and after, and `exec_link_iff` and
`exec_creation_iff` say that they are what the programs do.  An operation that a check
or the constructor rejects leaves the repository alone (`exec_creation_of_rejected`).
-/

namespace Qros.Pipeline

open Qros.Lib

variable {F T V : Type} [Zero F] [One F]

/-! ## Programs -/

section

variable {α β : Type} {repo repo' : Repository F T V}

@[simp] theorem exec_pure (a : α) : exec (pure a : Program F T V α) repo = (.ok a, repo) := rfl

@[simp] theorem exec_throw (e : PyError) :
    exec (throw e : Program F T V α) repo = (.error e, repo) := rfl

@[simp] theorem exec_save (o : Obj F T V) : exec (save o) repo = (.ok (), repo.set o.id o) := rfl

@[simp] theorem exec_get : exec (get : Program F T V (Repository F T V)) repo = (.ok repo, repo) :=
  rfl

@[simp] theorem exec_ofExcept (x : Except PyError α) :
    exec (ofExcept x : Program F T V α) repo = (x, repo) := by
  cases x <;> rfl

theorem exec_bind (m : Program F T V α) (f : α → Program F T V β) :
    exec (m >>= f) repo = match exec m repo with
      | (.ok a, r) => exec (f a) r
      | (.error e, r) => (.error e, r) := by
  have hrun : exec (m >>= f) repo = ExceptT.bindCont f (exec m repo).1 (exec m repo).2 := rfl
  rw [hrun]
  rcases exec m repo with ⟨_ | a, r⟩ <;> rfl

variable {f : α → Program F T V β}

variable {m : Program F T V α}

theorem exec_bind_of_ok {a : α} (h : exec m repo = (.ok a, repo')) :
    exec (m >>= f) repo = exec (f a) repo' := by
  rw [exec_bind, h]

theorem exec_bind_of_error {e : PyError} (h : exec m repo = (.error e, repo')) :
    exec (m >>= f) repo = (.error e, repo') := by
  rw [exec_bind, h]

theorem exec_bind_eq_ok {b : β} :
    exec (m >>= f) repo = (.ok b, repo') ↔
      ∃ a r, exec m repo = (.ok a, r) ∧ exec (f a) r = (.ok b, repo') := by
  rw [exec_bind]
  rcases h : exec m repo with ⟨_ | a, r⟩
  · constructor
    · intro h'
      cases h'
    · rintro ⟨a, r', heq, -⟩
      cases heq
  · constructor
    · intro h'
      exact ⟨a, r, rfl, h'⟩
    · rintro ⟨a', r', heq, h'⟩
      cases heq
      exact h'

end

/-! ## References that are loaded -/

section

variable {repo repo' : Repository F T V}

theorem exec_requireResearch {id : String} {r : Research T} :
    exec (requireResearch id : Program F T V (Research T)) repo = (.ok r, repo') ↔
      repo.get? id = some (.research r) ∧ repo' = repo := by
  unfold requireResearch
  rw [exec_bind_of_ok exec_get]
  split
  · rename_i r₀ h
    rw [exec_pure, h]
    simp only [Prod.mk.injEq, Except.ok.injEq, Option.some.injEq, Obj.research.injEq]
    exact and_congr_right' eq_comm
  · rename_i hno
    rw [exec_throw]
    constructor
    · intro h
      cases h
    · rintro ⟨h, -⟩
      exact absurd h (hno r)

theorem exec_requireCollection {kind : CollectionKind} {id : String} {c : Collection F T V} :
    exec (requireCollection kind id) repo = (.ok c, repo') ↔
      repo.get? id = some (.collection c) ∧ c.kind = kind ∧ repo' = repo := by
  unfold requireCollection
  rw [exec_bind_of_ok exec_get]
  split
  · rename_i c₀ h
    rw [h]
    split
    · rename_i hkind
      rw [exec_pure]
      simp only [Prod.mk.injEq, Except.ok.injEq, Option.some.injEq, Obj.collection.injEq]
      constructor
      · rintro ⟨rfl, rfl⟩
        exact ⟨rfl, hkind, rfl⟩
      · rintro ⟨rfl, -, rfl⟩
        exact ⟨rfl, rfl⟩
    · rename_i hkind
      rw [exec_throw]
      constructor
      · intro h
        cases h
      · rintro ⟨heq, hk, -⟩
        obtain rfl := Obj.collection.inj (Option.some_inj.mp heq)
        exact absurd hk hkind
  · rename_i hno
    rw [exec_throw]
    constructor
    · intro h
      cases h
    · rintro ⟨h, -⟩
      exact absurd h (hno c)

end

section Links

variable {host : Host F T V} {call : Call F T V} {repo repo' : Repository F T V}

/-- The research links to no set of the kind: `not research.hypothesis_set_id`. -/
def Research.Unlinked (r : Research T) (kind : CollectionKind) : Prop :=
  r.link kind = none ∨ r.link kind = some ""

variable (host call) in
/-- The set that the research links to once a member is added, as `linkedSet` leaves
the repository. -/
inductive SetOf (kind : CollectionKind) (researchId : String) (r : Research T)
    (repo : Repository F T V) :
    Research T → Collection F T V → Repository F T V → Prop
  | fresh (h : r.Unlinked kind) :
      SetOf kind researchId r repo
        (r.setLink kind (newCollection host call.now kind researchId : Collection F T V).base.id)
        (newCollection host call.now kind researchId)
        (repo.set (newCollection host call.now kind researchId : Collection F T V).base.id
          (.collection (newCollection host call.now kind researchId)))
  | linked {id : String} {c : Collection F T V} (hid : id ≠ "") (h : r.link kind = some id)
      (hc : repo.get? id = some (.collection c)) (hkind : c.kind = kind) :
      SetOf kind researchId r repo r c repo

theorem exec_linkedSet {kind : CollectionKind} {researchId : String} {r r' : Research T}
    {c : Collection F T V} :
    exec (linkedSet host call kind r researchId) repo = (.ok (r', c), repo') ↔
      SetOf host call kind researchId r repo r' c repo' := by
  have hfresh : exec (linkedSet.fresh host call kind r researchId) repo = (.ok (r', c), repo') →
      r.Unlinked kind → SetOf host call kind researchId r repo r' c repo' := by
    intro h hun
    cases h
    exact .fresh hun
  unfold linkedSet
  constructor
  · intro h
    split at h
    · rename_i id hlink
      split at h
      · rename_i hid
        exact hfresh h (.inr (hid ▸ hlink))
      · rename_i hid
        obtain ⟨c', repo₁, hc, hrest⟩ := exec_bind_eq_ok.mp h
        obtain ⟨hget, hkind, rfl⟩ := exec_requireCollection.mp hc
        cases hrest
        exact .linked hid hlink hget hkind
    · rename_i hlink
      exact hfresh h (.inl hlink)
  · intro h
    cases h with
    | fresh hun =>
      rcases hun with hlink | hlink
      · rw [hlink]
        rfl
      · rw [hlink]
        dsimp only
        rw [if_pos rfl]
        rfl
    | linked hid hlink hget hkind =>
      rw [hlink]
      dsimp only
      rw [if_neg hid, exec_bind_of_ok (exec_requireCollection.mpr ⟨hget, hkind, rfl⟩)]
      rfl

/-- A research whose lifecycle takes further transitions. -/
def Research.Active (r : Research T) : Prop :=
  ¬(r.base.lifecycle.current.stage = .finalized ∨ r.base.lifecycle.current.stage = .archived)

/-- The research after its transition. -/
def Research.entered (r : Research T) (now : T) (stage : LifecycleStage) (reason : String) :
    Research T :=
  { r with base := { r.base with lifecycle := r.base.lifecycle.append now stage reason } }

theorem exec_enterStage {r : Research T} {stage : LifecycleStage} {reason : String} :
    exec (enterStage call r stage reason) repo = (.ok (), repo') ↔ r.Active ∧
      repo' = (repo.set r.base.id (.research r)).set r.base.id
        (.research (r.entered call.now stage reason)) := by
  unfold enterStage
  rw [exec_bind_of_ok (exec_save _), exec_bind, exec_ofExcept]
  by_cases h : r.Active
  · have hok : r.base.lifecycle.transition call.now stage reason =
        .ok (r.base.lifecycle.append call.now stage reason) := if_neg h
    rw [hok]
    constructor
    · intro heq
      cases heq
      exact ⟨h, rfl⟩
    · rintro ⟨-, rfl⟩
      rfl
  · have hfail : r.base.lifecycle.transition call.now stage reason = .error (.runtimeError
        ("Cannot transition from terminal stage " ++
          r.base.lifecycle.current.stage.value)) := if_pos (not_not.mp h)
    rw [hfail]
    constructor
    · intro heq
      cases heq
    · rintro ⟨hactive, -⟩
      exact absurd hactive h

variable (host call) in
inductive Linked (r : Record F T V) (repo : Repository F T V) : Link → Repository F T V → Prop
  | none : Linked r repo .none repo
  | observation {researchId : String} {research : Research T}
      (h : repo.get? researchId = some (.research research)) :
      Linked r repo (.observation researchId) (repo.set research.base.id
        (.research { research with observationIds := research.observationIds ++ [r.base.id] }))
  | member {kind : CollectionKind} {researchId : String} {research research' : Research T}
      {c : Collection F T V} {repo₁ : Repository F T V}
      (h : repo.get? researchId = some (.research research))
      (hset : SetOf host call kind researchId research repo research' c repo₁) :
      Linked r repo (.member kind researchId) ((repo₁.set c.base.id (.collection (c.add r))).set
        research'.base.id (.research research'))
  | notGiven {kind : CollectionKind} : Linked r repo (.memberIfGiven kind "") repo
  | given {kind : CollectionKind} {researchId : String} {repo' : Repository F T V}
      (hid : researchId ≠ "") (h : Linked r repo (.member kind researchId) repo') :
      Linked r repo (.memberIfGiven kind researchId) repo'
  | report {researchId : String} {research : Research T}
      (h : repo.get? researchId = some (.research research)) (hactive : research.Active) :
      Linked r repo (.report researchId)
        ((repo.set research.base.id (.research { research with
          reportId := some r.base.id, status := "Complete", completedAt := some call.now })).set
            research.base.id (.research (Research.entered { research with
              reportId := some r.base.id, status := "Complete", completedAt := some call.now }
                call.now .complete "Research completed")))
  | validation {researchId : String} {research : Research T}
      (h : repo.get? researchId = some (.research research)) (hactive : research.Active) :
      Linked r repo (.validation researchId)
        ((repo.set research.base.id (.research { research with
          status := "Validated", validatedAt := some call.now })).set
            research.base.id (.research (Research.entered { research with
              status := "Validated", validatedAt := some call.now }
                call.now .archived "Research validated and archived")))

theorem exec_addMember {r : Record F T V} {kind : CollectionKind} {researchId : String} :
    exec (addMember host call kind researchId r) repo = (.ok (), repo') ↔
      Linked host call r repo (.member kind researchId) repo' := by
  unfold addMember
  rw [exec_bind_eq_ok]
  constructor
  · rintro ⟨research, repo₁, hget, hrest⟩
    obtain ⟨h, rfl⟩ := exec_requireResearch.mp hget
    obtain ⟨⟨research', c⟩, repo₁, hset, hsaved⟩ := exec_bind_eq_ok.mp hrest
    rw [exec_bind_of_ok (exec_save _)] at hsaved
    cases hsaved
    exact .member h (exec_linkedSet.mp hset)
  · intro h
    cases h with
    | member h hset =>
      refine ⟨_, _, exec_requireResearch.mpr ⟨h, rfl⟩, exec_bind_eq_ok.mpr
        ⟨_, _, exec_linkedSet.mpr hset, ?_⟩⟩
      rw [exec_bind_of_ok (exec_save _)]
      rfl

theorem requireExists_eq_ok {id label : String} :
    requireExists repo id label = .ok () ↔ id ≠ "" ∧ (repo.get? id).isSome := by
  unfold requireExists
  by_cases hid : id = ""
  · rw [if_pos hid]
    exact iff_of_false nofun fun h ↦ h.1 hid
  · rw [if_neg hid]
    cases repo.get? id with
    | none => exact iff_of_false nofun fun h ↦ nomatch h.2
    | some o => exact iff_of_true rfl ⟨hid, rfl⟩

/-- **Links.**  The relation is what the program does. -/
theorem exec_link_iff {r : Record F T V} {link : Link} :
    exec (link.run host call r) repo = (.ok (), repo') ↔ Linked host call r repo link repo' := by
  cases link with
  | none =>
    constructor
    · intro h
      cases h
      exact .none
    · intro h
      cases h
      rfl
  | observation researchId =>
    unfold Link.run
    rw [exec_bind_eq_ok]
    constructor
    · rintro ⟨research, repo₁, hget, hrest⟩
      obtain ⟨h, rfl⟩ := exec_requireResearch.mp hget
      cases hrest
      exact .observation h
    · intro h
      cases h with
      | observation h => exact ⟨_, _, exec_requireResearch.mpr ⟨h, rfl⟩, rfl⟩
  | member kind researchId => exact exec_addMember
  | memberIfGiven kind researchId =>
    dsimp only [Link.run]
    by_cases hid : researchId = ""
    · subst hid
      rw [if_pos rfl]
      constructor
      · intro h
        cases h
        exact .notGiven
      · intro h
        cases h with
        | notGiven => rfl
        | given hne _ => exact absurd rfl hne
    · rw [if_neg hid, exec_bind_of_ok exec_get, exec_bind_eq_ok]
      constructor
      · rintro ⟨_, repo₁, hchecked, hadd⟩
        rw [exec_ofExcept] at hchecked
        obtain rfl : repo = repo₁ := congrArg Prod.snd hchecked
        exact .given hid (exec_addMember.mp hadd)
      · intro h
        cases h with
        | notGiven => exact absurd rfl hid
        | given _ h =>
          refine ⟨(), repo, ?_, exec_addMember.mpr h⟩
          cases h with
          | member hget _ =>
            rw [exec_ofExcept, requireExists_eq_ok.mpr ⟨hid, by rw [hget]; rfl⟩]
  | report researchId =>
    unfold Link.run
    rw [exec_bind_eq_ok]
    constructor
    · rintro ⟨research, repo₁, hget, hrest⟩
      obtain ⟨h, rfl⟩ := exec_requireResearch.mp hget
      obtain ⟨hactive, rfl⟩ := exec_enterStage.mp hrest
      have hlinked : Linked host call r repo₁ (.report researchId) _ := .report h hactive
      exact hlinked
    · intro h
      cases h with
      | report h hactive =>
        exact ⟨_, _, exec_requireResearch.mpr ⟨h, rfl⟩, exec_enterStage.mpr ⟨hactive, rfl⟩⟩
  | validation researchId =>
    unfold Link.run
    rw [exec_bind_eq_ok]
    constructor
    · rintro ⟨research, repo₁, hget, hrest⟩
      obtain ⟨h, rfl⟩ := exec_requireResearch.mp hget
      obtain ⟨hactive, rfl⟩ := exec_enterStage.mp hrest
      have hlinked : Linked host call r repo₁ (.validation researchId) _ := .validation h hactive
      exact hlinked
    · intro h
      cases h with
      | validation h hactive =>
        exact ⟨_, _, exec_requireResearch.mpr ⟨h, rfl⟩, exec_enterStage.mpr ⟨hactive, rfl⟩⟩

end Links

/-! ## Operations -/

section

variable {host : Host F T V} {call : Call F T V} {repo repo' : Repository F T V}

variable (host call) in
structure Created (c : Creation F T V) (repo : Repository F T V) (r : Record F T V)
    (repo' : Repository F T V) : Prop where
  checked : c.checks repo = .ok ()
  object : c.object = .ok r
  saved : ∃ repo₁ text,
    Linked host call r (repo.set r.base.id (.record r)) c.link repo₁ ∧
    call.toJson (.record r) = .ok text ∧
    repo' = repo₁.set (auditOf host call c.action (.record r) text).base.id
      (.record (auditOf host call c.action (.record r) text))

theorem exec_audit_iff {action : String} {o : Obj F T V} :
    exec (audit host call action o) repo = (.ok (), repo') ↔
      ∃ text, call.toJson o = .ok text ∧
        repo' = repo.set (auditOf host call action o text).base.id
          (.record (auditOf host call action o text)) := by
  unfold audit
  rw [exec_bind_eq_ok]
  constructor
  · rintro ⟨text, repo₁, htext, hsaved⟩
    rw [exec_ofExcept] at htext
    obtain ⟨hok, rfl⟩ := Prod.mk.inj htext
    cases hsaved
    exact ⟨text, hok, rfl⟩
  · rintro ⟨text, hok, rfl⟩
    exact ⟨text, repo, by rw [exec_ofExcept, hok], rfl⟩

/-- **Operations that return.** -/
theorem exec_creation_iff {c : Creation F T V} {r : Record F T V} :
    exec (c.run host call) repo = (.ok r, repo') ↔ Created host call c repo r repo' := by
  unfold Creation.run
  rw [exec_bind_of_ok exec_get, exec_bind_eq_ok]
  constructor
  · rintro ⟨_, repo₀, hchecked, h⟩
    rw [exec_ofExcept] at hchecked
    obtain ⟨hok, rfl⟩ := Prod.mk.inj hchecked
    obtain ⟨r₀, repo₁, hobject, h⟩ := exec_bind_eq_ok.mp h
    rw [exec_ofExcept] at hobject
    obtain ⟨hobj, rfl⟩ := Prod.mk.inj hobject
    rw [exec_bind_of_ok (exec_save _)] at h
    obtain ⟨_, repo₁, hlink, h⟩ := exec_bind_eq_ok.mp h
    obtain ⟨_, repo₂, haudit, h⟩ := exec_bind_eq_ok.mp h
    cases h
    obtain ⟨text, htext, rfl⟩ := exec_audit_iff.mp haudit
    exact ⟨hok, hobj, repo₁, text, exec_link_iff.mp hlink, htext, rfl⟩
  · rintro ⟨hok, hobj, repo₁, text, hlink, htext, rfl⟩
    refine ⟨(), repo, by rw [exec_ofExcept, hok], exec_bind_eq_ok.mpr
      ⟨r, repo, by rw [exec_ofExcept, hobj], ?_⟩⟩
    rw [exec_bind_of_ok (exec_save _)]
    refine exec_bind_eq_ok.mpr ⟨(), repo₁, exec_link_iff.mpr hlink, ?_⟩
    exact exec_bind_eq_ok.mpr ⟨(), _, exec_audit_iff.mpr ⟨text, htext, rfl⟩, rfl⟩

theorem exec_creation_of_rejected {c : Creation F T V}
    (h : ¬(c.checks repo = .ok () ∧ ∃ r, c.object = .ok r)) :
    ∃ e, exec (c.run host call) repo = (.error e, repo) := by
  unfold Creation.run
  rw [exec_bind_of_ok exec_get]
  cases hchecks : c.checks repo with
  | error e => exact ⟨e, exec_bind_of_error (by rw [exec_ofExcept])⟩
  | ok u =>
    rw [exec_bind_of_ok (exec_ofExcept _)]
    cases hobject : c.object with
    | error e => exact ⟨e, exec_bind_of_error (by rw [exec_ofExcept])⟩
    | ok r => exact absurd ⟨hchecks, r, hobject⟩ h

variable (host call) in
/-- What `start_research` leaves behind when it returns. -/
structure Started (a : ResearchArgs) (repo : Repository F T V) (repo' : Repository F T V) :
    Prop where
  saved : ∃ text, call.toJson (.research (newResearch host call.now a)) = .ok text ∧
    repo' = (((repo.set (newResearch host call.now a).base.id
        (.research (newResearch host call.now a))).set
      (researchCycle host call.now (newResearch host call.now a).base.id).base.id
        (.cycle (researchCycle host call.now (newResearch host call.now a).base.id))).set
      (auditOf host call "RESEARCH_STARTED" (.research (newResearch host call.now a)) text).base.id
        (.record (auditOf host call "RESEARCH_STARTED"
          (.research (newResearch host call.now a)) text))).set
      (researchCycle host call.now (newResearch host call.now a).base.id).base.id
        (.cycle ((researchCycle host call.now (newResearch host call.now a).base.id).addStage
          ⟨"start_research", 0, "Complete",
            [("research_id", (newResearch host call.now a).base.id)]⟩))

theorem exec_startResearch_iff {a : ResearchArgs} {research : Research T} :
    exec (startResearch host call a) repo = (.ok research, repo') ↔
      research = newResearch host call.now a ∧ Started host call a repo repo' := by
  unfold startResearch
  dsimp only
  rw [exec_bind_of_ok (exec_save _), exec_bind_of_ok (exec_save _), exec_bind_eq_ok]
  constructor
  · rintro ⟨_, repo₁, haudit, h⟩
    obtain ⟨text, htext, rfl⟩ := exec_audit_iff.mp haudit
    rw [exec_bind_of_ok (exec_save _)] at h
    cases h
    exact ⟨rfl, text, htext, rfl⟩
  · rintro ⟨rfl, text, htext, rfl⟩
    refine ⟨(), _, exec_audit_iff.mpr ⟨text, htext, rfl⟩, ?_⟩
    rw [exec_bind_of_ok (exec_save _)]
    rfl

end

end Qros.Pipeline
