import Qros.Lib.Latest
import Qros.Lib.Machine
import Qros.Saas.Contracts

/-!
# Billing events

`process_billing_event` of `supabase/migrations/20261005021400_billing_event_ordering.sql`,
over the rows of one workspace.  An event is taken in once, by its id.  If it is older than
the last one it is skipped whole; otherwise it replaces the entitlement and, except for
what it leaves null, the subscription.

So the rows follow the latest event (`rows_after`).  In which order the events arrive can
still be seen in the columns that an event may leave null: `billing_converges`.

The other workspaces, whose subscription ids are different, and the times at which rows
are written are left out.
-/

namespace Qros.Saas

open Qros.Lib List

inductive SubscriptionStatus where
  | trialing
  | active
  | pastDue
  | cancelled
  | incomplete
deriving DecidableEq

/-- The names that the function accepts; `canceled` is another spelling. -/
def SubscriptionStatus.ofName (name : String) : Option SubscriptionStatus :=
  if name = "trialing" then some .trialing
  else if name = "active" then some .active
  else if name = "past_due" then some .pastDue
  else if name = "cancelled" ∨ name = "canceled" then some .cancelled
  else if name = "incomplete" then some .incomplete
  else none

def Plan.ofName (name : String) : Option Plan :=
  [Plan.free, .pro, .team, .enterprise].find? fun plan ↦ decide (plan.value = name)

/-- The arguments of a call for the workspace. -/
structure BillingCall where
  eventId : String
  provider : String
  payloadSha256 : String
  plan : String
  status : String
  currentPeriodEnd : Option DateTime
  providerCustomerId : Option String
  providerSubscriptionId : Option String
  eventCreatedAt : Option DateTime
deriving DecidableEq

/-- A call that has passed the checks. -/
structure BillingEvent where
  eventId : String
  provider : String
  payloadSha256 : String
  plan : Plan
  status : SubscriptionStatus
  currentPeriodEnd : Option DateTime
  providerCustomerId : Option String
  providerSubscriptionId : Option String
  eventCreatedAt : Option DateTime
deriving DecidableEq

structure Subscription where
  plan : Plan
  status : SubscriptionStatus
  provider : Option String
  providerCustomerId : Option String
  providerSubscriptionId : Option String
  currentPeriodEnd : Option DateTime
  lastBillingEventAt : Option DateTime
deriving DecidableEq

structure BillingRows where
  entitlement : Option Entitlement
  subscription : Option Subscription
deriving DecidableEq

structure BillingDb where
  /-- The payload digests of the events taken in, under their ids. -/
  events : Dict String String
  rows : BillingRows

def isBtrimEmpty (value : String) : Bool := value.toList.all fun c ↦ decide (c = ' ')

def checkBillingCall (c : BillingCall) : Except String BillingEvent := do
  require (isBtrimEmpty c.eventId = false) "billing event id is required"
  require (isBtrimEmpty c.provider = false) "billing provider is required"
  require (c.payloadSha256.length = 64 ∧ c.payloadSha256.toList.all isHexDigit = true)
    "invalid billing payload hash"
  let plan ← found (Plan.ofName c.plan) "unsupported billing entitlement plan"
  let status ← found (SubscriptionStatus.ofName c.status) "unsupported billing subscription status"
  return ⟨c.eventId, c.provider, c.payloadSha256, plan, status, c.currentPeriodEnd,
    c.providerCustomerId, c.providerSubscriptionId, c.eventCreatedAt⟩

namespace BillingEvent

def effectivePlan (e : BillingEvent) : Plan :=
  if e.status = .active ∨ e.status = .trialing then e.plan else .free

def entitlement (workspaceId : Uuid) (e : BillingEvent) : Entitlement :=
  match e.effectivePlan with
  | .free => ⟨workspaceId, "free", 10, 100, 1024⟩
  | .pro => ⟨workspaceId, "pro", 1000, 1000, 10240⟩
  | .team => ⟨workspaceId, "team", 1000, 1000, 10240⟩
  | .enterprise => ⟨workspaceId, "enterprise", 0, 0, 0⟩

/-- The subscription row that the event writes over the old one. -/
def subscription (e : BillingEvent) (old : Option Subscription) : Subscription where
  plan := e.plan
  status := e.status
  provider := some e.provider
  providerCustomerId := e.providerCustomerId.or (old.bind Subscription.providerCustomerId)
  providerSubscriptionId :=
    e.providerSubscriptionId.or (old.bind Subscription.providerSubscriptionId)
  currentPeriodEnd := e.currentPeriodEnd.or (old.bind Subscription.currentPeriodEnd)
  lastBillingEventAt := e.eventCreatedAt.or (old.bind Subscription.lastBillingEventAt)

end BillingEvent

def billingRows (workspaceId : Uuid) : Latest BillingRows BillingEvent DateTime where
  last rows := rows.subscription.bind Subscription.lastBillingEventAt
  time := BillingEvent.eventCreatedAt
  merge rows e := ⟨some (e.entitlement workspaceId), some (e.subscription rows.subscription)⟩
  last_merge _ _ := rfl

/-- Whether the event is older than the last one. -/
def BillingRows.isStale (rows : BillingRows) (e : BillingEvent) : Bool :=
  match e.eventCreatedAt, rows.subscription.bind Subscription.lastBillingEventAt with
  | some t, some u => decide (t < u)
  | _, _ => false

theorem isStale_billingRows (workspaceId : Uuid) (rows : BillingRows) (e : BillingEvent) :
    (billingRows workspaceId).isStale rows e = rows.isStale e := by
  unfold Latest.isStale BillingRows.isStale
  have htime : (billingRows workspaceId).time e = e.eventCreatedAt := rfl
  have hlast : (billingRows workspaceId).last rows =
      rows.subscription.bind Subscription.lastBillingEventAt := rfl
  rw [htime, hlast]
  cases e.eventCreatedAt with
  | none => rfl
  | some t =>
    cases rows.subscription.bind Subscription.lastBillingEventAt with
    | none => rfl
    | some u => exact decide_eq_decide.mpr Iff.rfl

def processBillingEvent (workspaceId : Uuid) (c : BillingCall) (db : BillingDb) :
    Except String Bool × BillingDb :=
  match checkBillingCall c with
  | .error message => (.error message, db)
  | .ok e =>
    match db.events.get? e.eventId with
    | some existing =>
      if existing ≠ e.payloadSha256 then
        (.error "billing event id reused with different payload", db)
      else (.ok false, db)
    | none =>
      let db := { db with events := db.events.set e.eventId e.payloadSha256 }
      if db.rows.isStale e then (.ok true, db)
      else
        (.ok true, { db with
          rows := ⟨some (e.entitlement workspaceId),
            some (e.subscription db.rows.subscription)⟩ })

def billing (workspaceId : Uuid) (db : BillingDb) :
    Machine BillingDb BillingCall (Except String Bool) where
  init := db
  step := fun c db ↦ processBillingEvent workspaceId c db

/-! ## Events taken in -/

theorem checkBillingCall_eq_ok {c : BillingCall} {e : BillingEvent}
    (h : checkBillingCall c = .ok e) :
    e.eventId = c.eventId ∧ e.eventCreatedAt = c.eventCreatedAt := by
  unfold checkBillingCall at h
  simp only [bind_eq_ok] at h
  obtain ⟨-, -, -, -, -, -, plan, -, status, -, h⟩ := h
  cases h
  exact ⟨rfl, rfl⟩

structure Takes (db : BillingDb) (c : BillingCall) (e : BillingEvent) : Prop where
  checked : checkBillingCall c = .ok e
  new : db.events.get? c.eventId = none

theorem Takes.eq {db db' : BillingDb} {c : BillingCall} {e e' : BillingEvent} (h : Takes db c e)
    (h' : Takes db' c e') : e = e' :=
  Except.ok.inj (h.checked.symm.trans h'.checked)

inductive BillingEffect (workspaceId : Uuid) (c : BillingCall) (db : BillingDb) :
    Except String Bool × BillingDb → Prop
  | kept {answer : Except String Bool} (hanswer : answer ≠ .ok true) (h : ∀ e, ¬ Takes db c e) :
      BillingEffect workspaceId c db (answer, db)
  | taken {e : BillingEvent} (h : Takes db c e) :
      BillingEffect workspaceId c db (.ok true,
        ⟨db.events.set e.eventId e.payloadSha256, (billingRows workspaceId).step db.rows e⟩)

theorem billingEffect (workspaceId : Uuid) (c : BillingCall) (db : BillingDb) :
    BillingEffect workspaceId c db (processBillingEvent workspaceId c db) := by
  unfold processBillingEvent
  cases hcheck : checkBillingCall c with
  | error message => exact .kept nofun fun e h ↦ nomatch hcheck.symm.trans h.checked
  | ok e =>
    have hid := (checkBillingCall_eq_ok hcheck).1
    dsimp only
    cases hget : db.events.get? e.eventId with
    | some existing =>
      have hnot : ∀ e', ¬ Takes db c e' := by
        intro e' h
        have hnew := h.new
        rw [← hid, hget] at hnew
        cases hnew
      dsimp only
      split
      · exact .kept nofun hnot
      · exact .kept nofun hnot
    | none =>
      have h : Takes db c e := ⟨hcheck, hid ▸ hget⟩
      have hstep : (billingRows workspaceId).step db.rows e =
          if db.rows.isStale e then db.rows
          else ⟨some (e.entitlement workspaceId), some (e.subscription db.rows.subscription)⟩ := by
        rw [Latest.step, isStale_billingRows]
        rfl
      have htaken := @BillingEffect.taken workspaceId c db e h
      rw [hstep] at htaken
      dsimp only
      split
      · rename_i hstale
        rwa [if_pos hstale] at htaken
      · rename_i hfresh
        rwa [if_neg hfresh] at htaken

section Runs

variable (workspaceId : Uuid) (db : BillingDb)

def taken (is : List BillingCall) : List BillingEvent :=
  ((billing workspaceId db).trace is).filterMap fun p ↦
    if p.2 = .ok true then (checkBillingCall p.1).toOption else none

variable {workspaceId db}

theorem concat_cases (is : List BillingCall) (c : BillingCall) :
    ((∀ e, ¬ Takes ((billing workspaceId db).after is) c e) ∧
      (billing workspaceId db).after (is ++ [c]) = (billing workspaceId db).after is ∧
        taken workspaceId db (is ++ [c]) = taken workspaceId db is) ∨
    ∃ e, Takes ((billing workspaceId db).after is) c e ∧
      (billing workspaceId db).after (is ++ [c]) =
        ⟨((billing workspaceId db).after is).events.set e.eventId e.payloadSha256,
          (billingRows workspaceId).step ((billing workspaceId db).after is).rows e⟩ ∧
      taken workspaceId db (is ++ [c]) = taken workspaceId db is ++ [e] := by
  have heffect := billingEffect workspaceId c ((billing workspaceId db).after is)
  have htaken : taken workspaceId db (is ++ [c]) = taken workspaceId db is ++
      [(c, (processBillingEvent workspaceId c ((billing workspaceId db).after is)).1)].filterMap
        fun p ↦ if p.2 = .ok true then (checkBillingCall p.1).toOption else none := by
    unfold taken
    rw [Machine.trace_concat, filterMap_append]
    rfl
  have hafter : (billing workspaceId db).after (is ++ [c]) =
      (processBillingEvent workspaceId c ((billing workspaceId db).after is)).2 :=
    Machine.after_concat _ is c
  rw [htaken, hafter]
  generalize processBillingEvent workspaceId c ((billing workspaceId db).after is) = out at heffect
  cases heffect with
  | kept hanswer h =>
    refine .inl ⟨h, rfl, ?_⟩
    rw [filterMap_cons, if_neg hanswer]
    exact append_nil _
  | @taken e h =>
    refine .inr ⟨e, h, rfl, ?_⟩
    rw [filterMap_cons, if_pos rfl, h.checked]
    rfl

/-- **The rows follow the latest event taken in.** -/
theorem rows_after (is : List BillingCall) :
    ((billing workspaceId db).after is).rows =
      (billingRows workspaceId).run db.rows (taken workspaceId db is) := by
  induction is using reverseRecOn with
  | nil => rfl
  | append_singleton is c ih =>
    rcases @concat_cases workspaceId db is c with
      ⟨-, hafter, htaken⟩ | ⟨e, -, hafter, htaken⟩
    · rw [hafter, htaken, ih]
    · rw [hafter, htaken, Latest.run_concat, ih]

theorem events_after (is : List BillingCall) (id : String) :
    ((billing workspaceId db).after is).events.get? id = none ↔
      db.events.get? id = none ∧ ∀ e ∈ taken workspaceId db is, e.eventId ≠ id := by
  induction is using reverseRecOn with
  | nil => exact ⟨fun h ↦ ⟨h, fun _ he ↦ absurd he not_mem_nil⟩, And.left⟩
  | append_singleton is c ih =>
    rcases @concat_cases workspaceId db is c with
      ⟨-, hafter, htaken⟩ | ⟨e, -, hafter, htaken⟩
    · rw [hafter, htaken, ih]
    · rw [hafter, htaken, Dict.get?_set]
      by_cases hid : e.eventId = id
      · rw [if_pos hid]
        refine iff_of_false nofun fun h ↦ h.2 e ?_ hid
        exact mem_append_right _ (mem_singleton_self e)
      · rw [if_neg hid, ih]
        refine and_congr_right fun _ ↦ ⟨fun h x hx ↦ ?_, fun h x hx ↦ ?_⟩
        · rcases mem_append.mp hx with hx | hx
          · exact h x hx
          · exact mem_singleton.mp hx ▸ hid
        · exact h x (mem_append_left _ hx)

theorem nodup_taken (is : List BillingCall) : (taken workspaceId db is).Nodup := by
  induction is using reverseRecOn with
  | nil => exact nodup_nil
  | append_singleton is c ih =>
    rcases @concat_cases workspaceId db is c with
      ⟨-, -, htaken⟩ | ⟨e, h, -, htaken⟩
    · rwa [htaken]
    · rw [htaken]
      refine nodup_append'.mpr ⟨ih, nodup_singleton e, ?_⟩
      intro x hx hxe
      obtain rfl := mem_singleton.mp hxe
      exact ((events_after is c.eventId).mp h.new).2 x hx (checkBillingCall_eq_ok h.checked).1

theorem mem_taken {es is : List BillingCall} (hids : (es.map BillingCall.eventId).Nodup)
    (his : ∀ c ∈ is, c ∈ es) {e : BillingEvent} :
    e ∈ taken workspaceId db is ↔ ∃ c ∈ is, Takes db c e := by
  induction is using reverseRecOn generalizing e with
  | nil => exact iff_of_false not_mem_nil fun ⟨c, hc, _⟩ ↦ not_mem_nil hc
  | append_singleton is c ih =>
    have his' : ∀ c ∈ is, c ∈ es := fun x hx ↦ his x (mem_append_left _ hx)
    have hc : c ∈ es := his c (mem_append_right _ (mem_singleton_self c))
    have hsplit : (∃ x ∈ is ++ [c], Takes db x e) ↔ (∃ x ∈ is, Takes db x e) ∨ Takes db c e := by
      simp [or_and_right, exists_or]
    rw [hsplit]
    rcases @concat_cases workspaceId db is c with
      ⟨hnot, -, htaken⟩ | ⟨e', h, -, htaken⟩
    · rw [htaken, ih his', or_iff_left_of_imp]
      intro htakes
      -- The id of the call is in use, so its event has been taken in before.
      by_contra hnone
      refine hnot e ⟨htakes.checked, (events_after is c.eventId).mpr ⟨htakes.new, ?_⟩⟩
      intro x hx hid
      obtain ⟨c', hc', hx'⟩ := (ih his').mp hx
      have hsame : c'.eventId = c.eventId := (checkBillingCall_eq_ok hx'.checked).1.symm.trans hid
      obtain rfl := inj_on_of_nodup_map hids (his' c' hc') hc hsame
      exact hnone ⟨c', hc', htakes⟩
    · have hdb : Takes db c e' := ⟨h.checked, ((events_after is c.eventId).mp h.new).1⟩
      rw [htaken, mem_append, ih his', mem_singleton]
      refine or_congr_right ⟨?_, fun htakes ↦ htakes.eq hdb⟩
      rintro rfl
      exact hdb

theorem taken_append (is rest : List BillingCall) :
    taken workspaceId db is <+: taken workspaceId db (is ++ rest) := by
  induction rest using reverseRecOn with
  | nil => rw [append_nil]
  | append_singleton rest c ih =>
    rw [← append_assoc]
    rcases @concat_cases workspaceId db (is ++ rest) c with
      ⟨-, -, htaken⟩ | ⟨e, -, -, htaken⟩
    · rwa [htaken]
    · rw [htaken]
      exact ih.trans (List.prefix_append _ _)

end Runs

/-! ## Orders of delivery -/

section

variable (workspaceId : Uuid) (db : BillingDb) (es : List BillingCall)

/-- Distinct events in the order of their timestamps. -/
structure InOrder : Prop where
  timed : ∀ c ∈ es, c.eventCreatedAt.isSome = true
  ids : (es.map BillingCall.eventId).Nodup
  ordered : es.Pairwise fun a b ↦
    ∀ t u, a.eventCreatedAt = some t → b.eventCreatedAt = some u → t < u

/-- The same calls in any order, with any duplicates. -/
def SameCalls (is : List BillingCall) : Prop := ∀ c, c ∈ is ↔ c ∈ es

/-- The event of one of the calls, which passes the checks and is new. -/
def Accepted (e : BillingEvent) : Prop := ∃ c ∈ es, Takes db c e

/-- The latest event sets the field, or no event that is not stale would change it. -/
def Settles {α : Type} (sets : BillingEvent → Option α) (field : BillingRows → Option α) : Prop :=
  ∀ n, Accepted db es n → (∀ e, Accepted db es e → (billingRows workspaceId).NoLater e n) →
    db.rows.isStale n = false →
      sets n ≠ none ∨
        ∀ e, Accepted db es e → db.rows.isStale e = false → sets e = none ∨ sets e = field db.rows

variable {workspaceId db es}

theorem InOrder.times (h : InOrder es) : (es.map BillingCall.eventCreatedAt).Nodup := by
  refine pairwise_map.mpr (h.ordered.imp_of_mem fun {a b} ha hb hab heq ↦ ?_)
  obtain ⟨t, ht⟩ := Option.isSome_iff_exists.mp (h.timed a ha)
  exact lt_irrefl t (hab t t ht (heq.symm.trans ht))

theorem accepted_iff (h : InOrder es) {is : List BillingCall} (his : SameCalls es is)
    {e : BillingEvent} : e ∈ taken workspaceId db is ↔ Accepted db es e := by
  rw [mem_taken h.ids fun c hc ↦ (his c).mp hc]
  exact exists_congr fun c ↦ and_congr_left' (his c)

theorem timed_taken (h : InOrder es) :
    (billingRows workspaceId).Timed (taken workspaceId db es) where
  timed := by
    intro e he
    obtain ⟨c, hc, htakes⟩ := (accepted_iff h fun _ ↦ Iff.rfl).mp he
    have htime : e.eventCreatedAt.isSome = true :=
      (checkBillingCall_eq_ok htakes.checked).2 ▸ h.timed c hc
    exact htime
  nodup := nodup_taken es
  eq_of_time := by
    intro a ha b hb htime
    obtain ⟨c, hc, htakes⟩ := (accepted_iff h fun _ ↦ Iff.rfl).mp ha
    obtain ⟨c', hc', htakes'⟩ := (accepted_iff h fun _ ↦ Iff.rfl).mp hb
    have hsame : c.eventCreatedAt = c'.eventCreatedAt :=
      (checkBillingCall_eq_ok htakes.checked).2.symm.trans
        (Eq.trans htime (checkBillingCall_eq_ok htakes'.checked).2)
    obtain rfl := inj_on_of_nodup_map h.times hc hc' hsame
    exact htakes.eq htakes'

theorem perm_taken (h : InOrder es) {is : List BillingCall} (his : SameCalls es is) :
    (taken workspaceId db is).Perm (taken workspaceId db es) :=
  (perm_ext_iff_of_nodup (nodup_taken is) (nodup_taken es)).mpr fun _ ↦
    (accepted_iff h his).trans (accepted_iff h fun _ ↦ Iff.rfl).symm

theorem exists_taken (h : InOrder es) {l : List BillingEvent} (hl : l.Nodup)
    (hacc : ∀ e ∈ l, Accepted db es e) :
    ∃ is, (∀ c ∈ is, c ∈ es) ∧ taken workspaceId db is = l := by
  induction l using reverseRecOn with
  | nil => exact ⟨[], fun _ hc ↦ absurd hc not_mem_nil, rfl⟩
  | append_singleton l e ih =>
    obtain ⟨hnodup, -, hdisjoint⟩ := nodup_append'.mp hl
    obtain ⟨is, his, htaken⟩ := ih hnodup fun x hx ↦ hacc x (mem_append_left _ hx)
    obtain ⟨c, hc, htakes⟩ := hacc e (mem_append_right _ (mem_singleton_self e))
    have hnew : Takes ((billing workspaceId db).after is) c e := by
      refine ⟨htakes.checked, (events_after is c.eventId).mpr ⟨htakes.new, fun x hx hid ↦ ?_⟩⟩
      obtain ⟨c', hc', htakes'⟩ := (mem_taken h.ids his).mp hx
      have hsame : c'.eventId = c.eventId :=
        (checkBillingCall_eq_ok htakes'.checked).1.symm.trans hid
      obtain rfl := inj_on_of_nodup_map h.ids (his c' hc') hc hsame
      obtain rfl := htakes'.eq htakes
      exact hdisjoint (htaken ▸ hx) (mem_singleton_self x)
    refine ⟨is ++ [c], ?_, ?_⟩
    · intro x hx
      rcases mem_append.mp hx with hx | hx
      · exact his x hx
      · exact mem_singleton.mp hx ▸ hc
    · rcases @concat_cases workspaceId db is c with ⟨hnot, -, -⟩ | ⟨e', htakes', -, htaken'⟩
      · exact absurd hnew (hnot e)
      · rw [htaken', htaken, htakes'.eq hnew]

theorem exists_delivery (h : InOrder es) {l : List BillingEvent}
    (hl : l.Perm (taken workspaceId db es)) :
    ∃ is, SameCalls es is ∧ taken workspaceId db is = l := by
  obtain ⟨is, his, htaken⟩ := @exists_taken workspaceId db es h l
    (hl.nodup_iff.mpr (nodup_taken es))
    fun e he ↦ (accepted_iff h fun _ ↦ Iff.rfl).mp (hl.mem_iff.mp he)
  have hsame : SameCalls es (is ++ es) := by
    intro c
    rw [mem_append]
    exact ⟨fun hc ↦ hc.elim (his c) id, .inr⟩
  refine ⟨is ++ es, hsame, ?_⟩
  -- The calls of `es` at the end are all duplicates.
  obtain ⟨rest, hrest⟩ := @taken_append workspaceId db is es
  have hnodup : (l ++ rest).Nodup := by
    rw [← htaken, hrest]
    exact nodup_taken _
  have hnil : rest = [] := by
    refine eq_nil_iff_forall_not_mem.mpr fun e he ↦ ?_
    have hmem : e ∈ taken workspaceId db (is ++ es) := hrest ▸ mem_append_right _ he
    have hel : e ∈ l := hl.mem_iff.mpr ((perm_taken h hsame).mem_iff.mp hmem)
    exact (nodup_append'.mp hnodup).2.2 hel he
  rw [← hrest, hnil, append_nil, htaken]

/-- A column that an event may leave null is the same in every order just when it is
settled. -/
theorem field_iff (h : InOrder es) {α : Type} {sets : BillingEvent → Option α}
    {field : BillingRows → Option α}
    (hfield : ∀ s e, field ((billingRows workspaceId).merge s e) = (sets e).or (field s)) :
    (∀ is, SameCalls es is → field ((billing workspaceId db).after is).rows =
        field ((billing workspaceId db).after es).rows) ↔
      Settles workspaceId db es sets field := by
  have hkeeps := Latest.keeps_iff (s := db.rows) hfield (@timed_taken workspaceId db es h)
  have hsettles : Settles workspaceId db es sets field ↔
      ∀ n ∈ taken workspaceId db es,
        (∀ e ∈ taken workspaceId db es, (billingRows workspaceId).NoLater e n) →
        (billingRows workspaceId).isStale db.rows n = false →
          sets n ≠ none ∨ ∀ e ∈ taken workspaceId db es,
            (billingRows workspaceId).isStale db.rows e = false →
              sets e = none ∨ sets e = field db.rows := by
    unfold Settles
    simp only [accepted_iff h fun _ ↦ Iff.rfl, isStale_billingRows]
  rw [hsettles, ← hkeeps]
  constructor
  · intro hall l hl
    obtain ⟨is, his, htaken⟩ := exists_delivery h hl
    rw [← htaken, ← rows_after, ← rows_after]
    exact hall is his
  · intro hall is his
    rw [rows_after, rows_after]
    exact hall _ (perm_taken h his)

end

/-! ## Convergence -/

namespace BillingRows

/-- The columns that every event writes. -/
def core (rows : BillingRows) :
    Option Entitlement × Option (Plan × SubscriptionStatus × Option String × Option DateTime) :=
  (rows.entitlement, rows.subscription.map fun s ↦
    (s.plan, s.status, s.provider, s.lastBillingEventAt))

def customerId (rows : BillingRows) : Option String :=
  rows.subscription.bind Subscription.providerCustomerId

def subscriptionId (rows : BillingRows) : Option String :=
  rows.subscription.bind Subscription.providerSubscriptionId

def periodEnd (rows : BillingRows) : Option DateTime :=
  rows.subscription.bind Subscription.currentPeriodEnd

theorem ext_iff' {rows rows' : BillingRows} :
    rows = rows' ↔ rows.core = rows'.core ∧ rows.customerId = rows'.customerId ∧
      rows.subscriptionId = rows'.subscriptionId ∧ rows.periodEnd = rows'.periodEnd := by
  constructor
  · rintro rfl
    exact ⟨rfl, rfl, rfl, rfl⟩
  · rintro ⟨hcore, hcustomer, hsubscription, hperiod⟩
    obtain ⟨entitlement, subscription⟩ := rows
    obtain ⟨entitlement', subscription'⟩ := rows'
    obtain ⟨hentitlement, hcore⟩ := Prod.mk.inj hcore
    cases subscription with
    | none =>
      cases subscription' with
      | none => exact congrArg (BillingRows.mk · none) hentitlement
      | some s' => cases hcore
    | some s =>
      cases subscription' with
      | none => cases hcore
      | some s' =>
        obtain ⟨plan, status, provider, customer, subscription, periodEnd, last⟩ := s
        obtain ⟨plan', status', provider', customer', subscription', periodEnd', last'⟩ := s'
        cases Option.some.inj hcore
        cases hentitlement
        cases (hcustomer : customer = customer')
        cases (hsubscription : subscription = subscription')
        cases (hperiod : periodEnd = periodEnd')
        rfl

end BillingRows

/-- In whatever order distinct events are delivered, and with whatever duplicates, they
leave the entitlement and the plan, status, provider and time of the subscription that
they leave when they are delivered once in the order of their timestamps.  The whole rows
are the same in every order just when each of the three columns that an event may leave
null is settled. -/
theorem billing_converges (workspaceId : Uuid) (db : BillingDb) (es : List BillingCall)
    (h : InOrder es) :
    (∀ is, SameCalls es is → ((billing workspaceId db).after is).rows.core =
        ((billing workspaceId db).after es).rows.core) ∧
      ((∀ is, SameCalls es is → ((billing workspaceId db).after is).rows =
          ((billing workspaceId db).after es).rows) ↔
        Settles workspaceId db es BillingEvent.providerCustomerId BillingRows.customerId ∧
          Settles workspaceId db es BillingEvent.providerSubscriptionId
              BillingRows.subscriptionId ∧
            Settles workspaceId db es BillingEvent.currentPeriodEnd BillingRows.periodEnd) := by
  have hcore : ∀ is, SameCalls es is → ((billing workspaceId db).after is).rows.core =
      ((billing workspaceId db).after es).rows.core := by
    intro is his
    rw [rows_after, rows_after]
    refine Latest.run_observe (h := fun e ↦ (some (e.entitlement workspaceId),
      some (e.plan, e.status, some e.provider, e.eventCreatedAt))) (fun s e htime ↦ ?_) db.rows
      (timed_taken h) (perm_taken h his)
    obtain ⟨t, ht⟩ := Option.isSome_iff_exists.mp htime
    have ht : e.eventCreatedAt = some t := ht
    simp only [billingRows, BillingRows.core, BillingEvent.subscription, Option.map_some, ht,
      Option.some_or]
  refine ⟨hcore, ?_⟩
  rw [← @field_iff workspaceId db es h String _ BillingRows.customerId fun _ _ ↦ rfl,
    ← @field_iff workspaceId db es h String _ BillingRows.subscriptionId fun _ _ ↦ rfl,
    ← @field_iff workspaceId db es h DateTime _ BillingRows.periodEnd fun _ _ ↦ rfl]
  constructor
  · intro hrows
    exact ⟨fun is his ↦ congrArg _ (hrows is his), fun is his ↦ congrArg _ (hrows is his),
      fun is his ↦ congrArg _ (hrows is his)⟩
  · rintro ⟨hcustomer, hsubscription, hperiod⟩ is his
    exact BillingRows.ext_iff'.mpr ⟨hcore is his, hcustomer is his, hsubscription is his,
      hperiod is his⟩

/-- A subscription that is renewed by an event with all its columns. -/
theorem billing_converges_renewed :
    let call (id : String) (customer : Option String) (t : DateTime) : BillingCall :=
      ⟨id, "stripe", "3e23e8160039594a33894f6564e1b1348bbd7a0088d42c4acb73eeaed59c009d", "pro",
        "active", some 2000000, customer, some "sub_1", some t⟩
    let es := [call "evt_1" none 1, call "evt_2" (some "cus_1") 2]
    InOrder es ∧ ∀ is, SameCalls es is →
      ((billing ⟨1⟩ ⟨∅, ⟨none, none⟩⟩).after is).rows.core =
        ((billing ⟨1⟩ ⟨∅, ⟨none, none⟩⟩).after es).rows.core := by
  intro call es
  have h : InOrder es := by
    refine ⟨by decide, by decide, ?_⟩
    refine pairwise_pair.mpr ?_
    rintro t u ht hu
    cases ht
    cases hu
    decide
  exact ⟨h, (billing_converges ⟨1⟩ ⟨∅, ⟨none, none⟩⟩ es h).1⟩

/-- The customer that only the older of two events names is lost if that one arrives
late. -/
theorem billing_depends_on_order :
    let call (id : String) (customer : Option String) (t : DateTime) : BillingCall :=
      ⟨id, "stripe", "3e23e8160039594a33894f6564e1b1348bbd7a0088d42c4acb73eeaed59c009d", "pro",
        "active", some 2000000, customer, some "sub_1", some t⟩
    let first := call "evt_1" (some "cus_1") 1
    let second := call "evt_2" none 2
    InOrder [first, second] ∧ SameCalls [first, second] [second, first] ∧
      ((billing ⟨1⟩ ⟨∅, ⟨none, none⟩⟩).after [first, second]).rows.customerId = some "cus_1" ∧
      ((billing ⟨1⟩ ⟨∅, ⟨none, none⟩⟩).after [second, first]).rows.customerId = none ∧
      ¬ ∀ is, SameCalls [first, second] is → ((billing ⟨1⟩ ⟨∅, ⟨none, none⟩⟩).after is).rows =
        ((billing ⟨1⟩ ⟨∅, ⟨none, none⟩⟩).after [first, second]).rows := by
  intro call first second
  have horder : InOrder [first, second] := by
    refine ⟨by decide, by decide, pairwise_pair.mpr ?_⟩
    rintro t u ht hu
    cases ht
    cases hu
    decide
  have hsame : SameCalls [first, second] [second, first] := by
    intro c
    rw [mem_pair, mem_pair, or_comm]
  have hfirst : ((billing ⟨1⟩ ⟨∅, ⟨none, none⟩⟩).after [first, second]).rows.customerId =
      some "cus_1" := by decide +kernel
  have hsecond : ((billing ⟨1⟩ ⟨∅, ⟨none, none⟩⟩).after [second, first]).rows.customerId =
      none := by decide +kernel
  refine ⟨horder, hsame, hfirst, hsecond, fun h ↦ ?_⟩
  have heq := congrArg BillingRows.customerId (h _ hsame)
  rw [hfirst, hsecond] at heq
  cases heq

end Qros.Saas
