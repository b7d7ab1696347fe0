import Qros.Saas.Queue

/-!
# What the queue delivers

The calls and their answers say which messages are alive: those that were enqueued
and not acknowledged yet.  `Delivers` compares the queue with them.  Their ids
differ, repeated receives return exactly those that were not received before, as
they were enqueued, and an acknowledgement takes out the message that was received.

The queue counts its list to find an id, so a message that comes after an
acknowledgement can be given the id of a message still in the list.  It keeps one
request id for each job, which the messages of the job share: a later one
overwrites it and the first acknowledgement removes it.  `KeepsDelivery` excludes
these calls, and `queue_delivers_iff` shows that it excludes no other.
-/

namespace Qros.Saas

open Qros.Lib List

/-! ## Live messages -/

/-- A message as it was enqueued, and whether it was received. -/
structure LiveMessage where
  messageId : Int
  workspaceId : Uuid
  jobId : Uuid
  requestId : Option String
  delivered : Bool
deriving DecidableEq

namespace LiveMessage

/-- The entry of the list of the queue. -/
def entry (m : LiveMessage) : Int × Uuid × Uuid := (m.messageId, m.workspaceId, m.jobId)

/-- What the receiver should see. -/
def message (m : LiveMessage) : ResearchQueueMessage :=
  ⟨m.messageId, m.workspaceId, m.jobId, m.requestId⟩

def deliver (messageId : Int) (m : LiveMessage) : LiveMessage :=
  if m.messageId = messageId then { m with delivered := true } else m

@[simp]
theorem messageId_deliver (messageId : Int) (m : LiveMessage) :
    (m.deliver messageId).messageId = m.messageId := by
  unfold deliver
  split <;> rfl

@[simp]
theorem entry_deliver (messageId : Int) (m : LiveMessage) :
    (m.deliver messageId).entry = m.entry := by
  unfold deliver
  split <;> rfl

theorem delivered_deliver (messageId : Int) (m : LiveMessage) :
    (m.deliver messageId).delivered = true ↔ m.messageId = messageId ∨ m.delivered = true := by
  unfold deliver
  split <;> simp [*]

theorem deliver_eq_self {messageId : Int} {m : LiveMessage}
    (h : (m.deliver messageId).delivered = false) : m.deliver messageId = m := by
  unfold deliver at h ⊢
  split
  · rw [if_pos (by assumption)] at h
    cases h
  · rfl

end LiveMessage

def track (live : List LiveMessage) : QueueCall × QueueReply → List LiveMessage
  | (.enqueue workspaceId jobId requestId, .enqueued messageId) =>
    live ++ [⟨messageId, workspaceId, jobId, requestId, false⟩]
  | (.receive, .received (some message)) => live.map (LiveMessage.deliver message.messageId)
  | (.ack messageId, .acked) => live.filter fun m ↦ decide (m.messageId ≠ messageId)
  | _ => live

def liveAfter (is : List QueueCall) : List LiveMessage := (queue.trace is).foldl track []

theorem liveAfter_concat (is : List QueueCall) (call : QueueCall) :
    liveAfter (is ++ [call]) = track (liveAfter is) (call, (call.run (queue.after is)).1) := by
  rw [liveAfter, Machine.trace_concat, foldl_append]
  rfl

def undelivered (live : List LiveMessage) : List LiveMessage := live.filter fun m ↦ !m.delivered

/-! ## Delivery -/

/-- The answers of `receive`, called until the queue has nothing left or `fuel` times. -/
def Queue.drain : Nat → Queue → List ResearchQueueMessage
  | 0, _ => []
  | fuel + 1, q =>
    match q.receive with
    | (some message, q) => message :: drain fuel q
    | (none, _) => []

def Queue.receivable (q : Queue) : List ResearchQueueMessage := q.drain q.messages.length

structure Delivers (q : Queue) (live : List LiveMessage) : Prop where
  distinct : (live.map LiveMessage.messageId).Nodup
  receivable : q.receivable = (undelivered live).map LiveMessage.message
  ack : ∀ before m after, live = before ++ m :: after → m.delivered = true →
    ∃ q', q.ack m.messageId = some q' ∧ q'.messages = (before ++ after).map LiveMessage.entry

/-- The calls that keep the promise.  The id of a new message is not in use, and its
request id is the one that its job has, as for every message of the job that waits;
a message is acknowledged when no other of its job waits with a request id. -/
def KeepsDelivery (q : Queue) (live : List LiveMessage) : QueueCall → Prop
  | .enqueue _ jobId requestId =>
    q.nextId ∉ live.map LiveMessage.messageId ∧
      match requestId with
      | none => q.requestIds.get? jobId = none
      | some requestId =>
        ∀ m ∈ undelivered live, m.jobId = jobId → m.requestId = some requestId
  | .receive => True
  | .ack messageId =>
    ∀ m ∈ live, m.messageId = messageId →
      ∀ m' ∈ undelivered live, m'.messageId ≠ messageId → m'.jobId = m.jobId →
        m'.requestId = none

/-! ## The queue holds the live messages -/

structure QueueInv (q : Queue) (live : List LiveMessage) : Prop where
  messages : q.messages = live.map LiveMessage.entry
  distinct : (live.map LiveMessage.messageId).Nodup
  received : ∀ m ∈ live, m.messageId ∈ q.received ↔ m.delivered = true
  received_live : ∀ messageId ∈ q.received, messageId ∈ live.map LiveMessage.messageId
  positive : ∀ m ∈ live, 0 < m.messageId

/-- The request id of a job is that of each of its messages that wait. -/
def RequestIdsMatch (q : Queue) (live : List LiveMessage) : Prop :=
  ∀ m ∈ undelivered live, q.requestIds.get? m.jobId = m.requestId

/-- The entries that `receive` has not returned yet. -/
def Queue.waiting (q : Queue) : List (Int × Uuid × Uuid) :=
  q.messages.filter fun entry ↦ decide (entry.1 ∉ q.received)

theorem Queue.receive_eq (q : Queue) : q.receive =
    match q.waiting with
    | [] => (none, q)
    | entry :: _ =>
    (some (q.toMessage entry), { q with received := insert entry.1 q.received }) := by
  unfold receive waiting
  rw [← head?_filter]
  cases q.messages.filter fun entry ↦ decide (entry.1 ∉ q.received) <;> rfl

theorem Queue.waiting_insert (q : Queue) (messageId : Int) :
    ({ q with received := insert messageId q.received } : Queue).waiting =
      q.waiting.filter fun entry ↦ decide (entry.1 ≠ messageId) := by
  unfold waiting
  rw [filter_filter]
  apply filter_congr
  intro entry _
  simp [not_or]

variable {q : Queue}

theorem Queue.drain_eq {fuel : Nat} (hfuel : q.waiting.length ≤ fuel)
    (hdistinct : (q.waiting.map Prod.fst).Nodup) : q.drain fuel = q.waiting.map q.toMessage := by
  induction fuel generalizing q with
  | zero =>
    rw [length_eq_zero_iff.mp (Nat.le_zero.mp hfuel)]
    rfl
  | succ fuel ih =>
    rw [drain, receive_eq]
    cases hwaiting : q.waiting with
    | nil => rfl
    | cons entry rest =>
      rw [hwaiting] at hfuel hdistinct
      obtain ⟨hentry, hrest⟩ := nodup_cons.mp hdistinct
      have hnext : ({ q with received := insert entry.1 q.received } : Queue).waiting = rest := by
        rw [waiting_insert, hwaiting, filter_cons_of_neg (by simp), filter_eq_self]
        intro other hother
        have : other.1 ≠ entry.1 := fun h ↦ hentry (h ▸ mem_map_of_mem hother)
        simpa using this
      dsimp only
      rw [ih (by rw [hnext]; simpa using hfuel) (by rw [hnext]; exact hrest), hnext]
      rfl

namespace QueueInv

variable {q : Queue} {live : List LiveMessage}

theorem empty : QueueInv .empty [] where
  messages := rfl
  distinct := nodup_nil
  received := nofun
  received_live := nofun
  positive := nofun

theorem waiting_eq (h : QueueInv q live) :
    q.waiting = (undelivered live).map LiveMessage.entry := by
  rw [Queue.waiting, h.messages, filter_map, undelivered]
  congr 1
  apply filter_congr
  intro m hm
  have := h.received m hm
  cases hd : m.delivered <;> simp_all [LiveMessage.entry]

theorem waiting_nodup (h : QueueInv q live) : (q.waiting.map Prod.fst).Nodup := by
  rw [h.waiting_eq, map_map]
  exact h.distinct.sublist (filter_sublist.map _)

theorem receivable_eq (h : QueueInv q live) :
    q.receivable = (undelivered live).map fun m ↦ q.toMessage m.entry := by
  rw [Queue.receivable, Queue.drain_eq (length_filter_le _ _) h.waiting_nodup, h.waiting_eq,
    map_map]
  rfl

theorem ack_eq (h : QueueInv q live) {m : LiveMessage} (hm : m ∈ live) :
    ∃ q', q.ack m.messageId = some q' ∧ q'.messages =
      (live.filter fun m' ↦ decide (m'.messageId ≠ m.messageId)).map LiveMessage.entry := by
  refine ⟨_, if_neg (not_le.mpr (h.positive m hm)), ?_⟩
  rw [h.messages, filter_map]
  rfl

/-- **What is left to ask.**  A queue that represents its messages delivers them just
when it has their request ids. -/
theorem delivers_iff (h : QueueInv q live) : Delivers q live ↔ RequestIdsMatch q live := by
  have hmessage (m : LiveMessage) :
      q.toMessage m.entry = m.message ↔ q.requestIds.get? m.jobId = m.requestId := by
    simp [Queue.toMessage, LiveMessage.entry, LiveMessage.message]
  constructor
  · intro hd m hm
    have hsame := hd.receivable
    rw [h.receivable_eq] at hsame
    exact (hmessage m).mp (map_inj_left.mp hsame m hm)
  · intro hr
    refine ⟨h.distinct, ?_, ?_⟩
    · rw [h.receivable_eq]
      exact map_congr_left fun m hm ↦ (hmessage m).mpr (hr m hm)
    · rintro before m after rfl -
      obtain ⟨q', hq', hmessages⟩ := h.ack_eq (mem_append_right before mem_cons_self)
      refine ⟨q', hq', hmessages.trans (congrArg _ ?_)⟩
      have hdistinct := h.distinct
      rw [map_append, map_cons, nodup_middle, nodup_cons,
        ← map_append] at hdistinct
      rw [filter_append, filter_cons_of_neg (by simp), ← filter_append,
        filter_eq_self]
      intro m' hm'
      have : m'.messageId ≠ m.messageId := fun heq ↦
        hdistinct.1 (heq ▸ mem_map_of_mem hm')
      simpa using this

end QueueInv

/-! ## One call -/

namespace QueueInv

variable {q : Queue} {live : List LiveMessage}

theorem enqueue (h : QueueInv q live) (hnew : q.nextId ∉ live.map LiveMessage.messageId)
    (workspaceId jobId : Uuid) (requestId : Option String) :
    QueueInv (q.enqueue workspaceId jobId requestId)
      (live ++ [⟨q.nextId, workspaceId, jobId, requestId, false⟩]) where
  messages := by
    show q.messages ++ [(q.nextId, workspaceId, jobId)] = _
    rw [h.messages, map_append]
    rfl
  distinct := by
    rw [map_append]
    exact nodup_append'.mpr ⟨h.distinct, nodup_singleton _, by simpa using hnew⟩
  received := by
    intro m hm
    rcases mem_append.mp hm with hm | hm
    · exact h.received m hm
    · rw [mem_singleton.mp hm]
      exact iff_of_false (fun hr ↦ hnew (h.received_live _ hr)) nofun
  received_live := by
    intro messageId hr
    rw [map_append]
    exact mem_append_left _ (h.received_live messageId hr)
  positive := by
    intro m hm
    rcases mem_append.mp hm with hm | hm
    · exact h.positive m hm
    · rw [mem_singleton.mp hm]
      show 0 < (q.messages.length : Int) + 1
      omega

theorem deliver (h : QueueInv q live) {messageId : Int}
    (hm : messageId ∈ live.map LiveMessage.messageId) :
    QueueInv { q with received := insert messageId q.received }
      (live.map (LiveMessage.deliver messageId)) where
  messages := by
    simp only [h.messages, map_map, Function.comp_def, LiveMessage.entry_deliver]
  distinct := by
    simpa only [map_map, Function.comp_def, LiveMessage.messageId_deliver] using h.distinct
  received := by
    intro m' hm'
    obtain ⟨m, hm, rfl⟩ := mem_map.mp hm'
    rw [LiveMessage.messageId_deliver, LiveMessage.delivered_deliver, Finset.mem_insert,
      h.received m hm]
  received_live := by
    intro messageId' hr
    simp only [map_map, Function.comp_def, LiveMessage.messageId_deliver]
    rcases Finset.mem_insert.mp hr with rfl | hr
    · exact hm
    · exact h.received_live messageId' hr
  positive := by
    intro m' hm'
    obtain ⟨m, hm, rfl⟩ := mem_map.mp hm'
    rw [LiveMessage.messageId_deliver]
    exact h.positive m hm

theorem ack (h : QueueInv q live) {messageId : Int} {q' : Queue}
    (hq' : q.ack messageId = some q') :
    QueueInv q' (live.filter fun m ↦ decide (m.messageId ≠ messageId)) := by
  unfold Queue.ack at hq'
  split at hq'
  · cases hq'
  · cases hq'
    exact {
      messages := by
        dsimp only
        rw [h.messages, filter_map]
        rfl
      distinct := h.distinct.sublist (filter_sublist.map _)
      received := by
        intro m hm
        obtain ⟨hm, hne⟩ := mem_filter.mp hm
        dsimp only
        rw [Finset.mem_erase, h.received m hm, and_iff_right (of_decide_eq_true hne)]
      received_live := by
        intro messageId' hr
        obtain ⟨hne, hr⟩ := Finset.mem_erase.mp hr
        obtain ⟨m, hm, rfl⟩ := mem_map.mp (h.received_live messageId' hr)
        exact mem_map_of_mem (mem_filter.mpr ⟨hm, decide_eq_true hne⟩)
      positive := fun m hm ↦ h.positive m (mem_filter.mp hm).1 }

theorem of_receive (h : QueueInv q live) {entry : Int × Uuid × Uuid}
    {rest : List (Int × Uuid × Uuid)} (hwaiting : q.waiting = entry :: rest) :
    entry.1 ∈ live.map LiveMessage.messageId := by
  have hentry : entry ∈ q.waiting := hwaiting ▸ mem_cons_self
  rw [h.waiting_eq] at hentry
  obtain ⟨m, hm, rfl⟩ := mem_map.mp hentry
  exact mem_map_of_mem (mem_filter.mp hm).1

theorem nextId_fresh {workspaceId jobId : Uuid} {requestId : Option String}
    (hdistinct : (List.map LiveMessage.messageId
      (live ++ [⟨q.nextId, workspaceId, jobId, requestId, false⟩])).Nodup) :
    q.nextId ∉ live.map LiveMessage.messageId := by
  intro hmem
  rw [map_append, nodup_append'] at hdistinct
  exact hdistinct.2.2 hmem (mem_singleton_self _)

/-- **One call.**  The queue represents the live messages as long as their ids differ. -/
theorem call (h : QueueInv q live) {call : QueueCall}
    (hdistinct : ((track live (call, (call.run q).1)).map LiveMessage.messageId).Nodup) :
    QueueInv (call.run q).2 (track live (call, (call.run q).1)) := by
  cases call with
  | enqueue workspaceId jobId requestId =>
    exact h.enqueue (nextId_fresh hdistinct) workspaceId jobId requestId
  | receive =>
    rw [QueueCall.run, Queue.receive_eq]
    cases hwaiting : q.waiting with
    | nil => exact h
    | cons entry rest => exact h.deliver (h.of_receive hwaiting)
  | ack messageId =>
    rw [QueueCall.run]
    cases hq' : q.ack messageId with
    | none => exact h
    | some q' => exact h.ack hq'

end QueueInv

theorem undelivered_deliver_subset (messageId : Int) (live : List LiveMessage) :
    undelivered (live.map (LiveMessage.deliver messageId)) ⊆ undelivered live := by
  intro m' hm'
  obtain ⟨hm', hwaits⟩ := mem_filter.mp hm'
  obtain ⟨m, hm, rfl⟩ := mem_map.mp hm'
  have hself := LiveMessage.deliver_eq_self (by simpa using hwaits)
  rw [hself] at hwaits ⊢
  exact mem_filter.mpr ⟨hm, hwaits⟩

variable {live : List LiveMessage}

theorem requestIdsMatch_enqueue (h : RequestIdsMatch q live) {messageId : Int}
    {workspaceId jobId : Uuid} {requestId : Option String} :
    RequestIdsMatch (q.enqueue workspaceId jobId requestId)
        (live ++ [⟨messageId, workspaceId, jobId, requestId, false⟩]) ↔
      match requestId with
      | none => q.requestIds.get? jobId = none
      | some requestId =>
        ∀ m ∈ undelivered live, m.jobId = jobId → m.requestId = some requestId := by
  have hlive : undelivered (live ++ [⟨messageId, workspaceId, jobId, requestId, false⟩]) =
      undelivered live ++ [⟨messageId, workspaceId, jobId, requestId, false⟩] := by
    simp [undelivered]
  unfold RequestIdsMatch
  rw [hlive, forall_mem_append]
  simp only [mem_singleton, forall_eq]
  cases requestId with
  | none => exact and_iff_right h
  | some requestId =>
    dsimp only [Queue.enqueue]
    rw [Dict.get?_set_self, and_iff_left rfl]
    apply forall₂_congr
    intro m hm
    rw [Dict.get?_set]
    by_cases hjob : jobId = m.jobId
    · rw [if_pos hjob, eq_comm]
      exact ⟨fun heq _ ↦ heq, fun heq ↦ heq hjob.symm⟩
    · rw [if_neg hjob]
      exact iff_of_true (h m hm) fun heq ↦ absurd heq.symm hjob

theorem requestIdsMatch_ack {q q' : Queue} (hinv : QueueInv q live) (h : RequestIdsMatch q live)
    {messageId : Int} (hq' : q.ack messageId = some q') :
    RequestIdsMatch q' (live.filter fun m ↦ decide (m.messageId ≠ messageId)) ↔
      KeepsDelivery q live (.ack messageId) := by
  unfold Queue.ack at hq'
  split at hq'
  · cases hq'
  · cases hq'
    have hremoved (jobId : Uuid) :
        jobId ∈ (q.messages.filter fun entry ↦ decide (entry.1 = messageId)).map
            (fun entry ↦ entry.2.2) ↔
          ∃ m ∈ live, m.messageId = messageId ∧ m.jobId = jobId := by
      simp [hinv.messages, LiveMessage.entry, and_assoc]
    have hwaits (m : LiveMessage) :
        m ∈ undelivered (live.filter fun m ↦ decide (m.messageId ≠ messageId)) ↔
          m ∈ undelivered live ∧ m.messageId ≠ messageId := by
      simp [undelivered, and_assoc]
    unfold RequestIdsMatch
    constructor
    · intro hmatch m hm hid m' hm' hne hjob
      have := hmatch m' ((hwaits m').mpr ⟨hm', hne⟩)
      rw [Dict.get?_foldl_pop, if_pos ((hremoved m'.jobId).mpr ⟨m, hm, hid, hjob.symm⟩)] at this
      exact this.symm
    · intro hkeeps m' hm'
      obtain ⟨hm', hne⟩ := (hwaits m').mp hm'
      rw [Dict.get?_foldl_pop]
      split
      · rename_i hmem
        obtain ⟨m, hm, hid, hjob⟩ := (hremoved m'.jobId).mp hmem
        exact (hkeeps m hm hid m' hm' hne hjob.symm).symm
      · exact h m' hm'

theorem delivers_call (hinv : QueueInv q live) (h : RequestIdsMatch q live) {call : QueueCall} :
    Delivers (call.run q).2 (track live (call, (call.run q).1)) ↔ KeepsDelivery q live call := by
  cases call with
  | enqueue workspaceId jobId requestId =>
    constructor
    · intro hd
      have hnext := hinv.call hd.distinct
      exact ⟨QueueInv.nextId_fresh hd.distinct,
        (requestIdsMatch_enqueue h).mp (hnext.delivers_iff.mp hd)⟩
    · rintro ⟨hnew, hrequest⟩
      exact (hinv.enqueue hnew workspaceId jobId requestId).delivers_iff.mpr
        ((requestIdsMatch_enqueue h).mpr hrequest)
  | receive =>
    refine iff_of_true ?_ trivial
    rw [QueueCall.run, Queue.receive_eq]
    cases hwaiting : q.waiting with
    | nil => exact hinv.delivers_iff.mpr h
    | cons entry rest =>
      apply (hinv.deliver (hinv.of_receive hwaiting)).delivers_iff.mpr
      intro m hm
      exact h m (undelivered_deliver_subset _ _ hm)
  | ack messageId =>
    rw [QueueCall.run]
    cases hq' : q.ack messageId with
    | none =>
      apply iff_of_true (hinv.delivers_iff.mpr h)
      intro m hm hid
      unfold Queue.ack at hq'
      split at hq'
      · have := hinv.positive m hm
        omega
      · cases hq'
    | some q' => exact (hinv.ack hq').delivers_iff.trans (requestIdsMatch_ack hinv h hq')

/-! ## Runs -/

theorem queueInv_of_keeps {is : List QueueCall}
    (h : Meets (fun pre call ↦ KeepsDelivery (queue.after pre) (liveAfter pre) call) is) :
    QueueInv (queue.after is) (liveAfter is) ∧ RequestIdsMatch (queue.after is) (liveAfter is) := by
  refine h.induction
    (I := fun is ↦ QueueInv (queue.after is) (liveAfter is) ∧
      RequestIdsMatch (queue.after is) (liveAfter is)) ⟨.empty, nofun⟩ ?_
  rintro is call _ ⟨hinv, hmatch⟩ hkeeps
  have hd := (delivers_call hinv hmatch).mpr hkeeps
  rw [Machine.after_concat, liveAfter_concat]
  have hnext := hinv.call hd.distinct
  exact ⟨hnext, hnext.delivers_iff.mp hd⟩

/-- **Delivery.**  Throughout a run the queue delivers each message once just when
every call keeps the promise. -/
theorem queue_delivers_iff (is : List QueueCall) :
    (∀ pre, pre <+: is → Delivers (queue.after pre) (liveAfter pre)) ↔
      Meets (fun pre call ↦ KeepsDelivery (queue.after pre) (liveAfter pre) call) is := by
  refine safe_iff_meets (B := fun _ _ ↦ True) (fun _ _ _ ↦ trivial)
    (QueueInv.empty.delivers_iff.mpr nofun) fun is call _ hkeeps _ _ ↦ ?_
  obtain ⟨hinv, hmatch⟩ := queueInv_of_keeps hkeeps
  rw [Machine.after_concat, liveAfter_concat]
  exact delivers_call hinv hmatch

/-- The promise is broken by a message that comes after an acknowledgement and gets
the id of another, by a second request id for a job, and by an acknowledgement
while another message of the job waits. -/
theorem calls_break_delivery :
    let reused : List QueueCall :=
      [.enqueue ⟨1⟩ ⟨1⟩ none, .enqueue ⟨1⟩ ⟨2⟩ none, .receive, .ack 1, .enqueue ⟨1⟩ ⟨3⟩ none]
    let overwritten : List QueueCall :=
      [.enqueue ⟨1⟩ ⟨1⟩ (some "a"), .enqueue ⟨1⟩ ⟨1⟩ (some "b")]
    let lost : List QueueCall :=
      [.enqueue ⟨1⟩ ⟨1⟩ (some "a"), .enqueue ⟨1⟩ ⟨1⟩ (some "a"), .receive, .ack 1]
    ((liveAfter reused).map LiveMessage.messageId = [2, 2] ∧
        ¬ Delivers (queue.after reused) (liveAfter reused)) ∧
      ((queue.after overwritten).receivable.map ResearchQueueMessage.requestId =
          [some "b", some "b"] ∧ ¬ Delivers (queue.after overwritten) (liveAfter overwritten)) ∧
      (queue.after lost).receivable.map ResearchQueueMessage.requestId = [none] ∧
        ¬ Delivers (queue.after lost) (liveAfter lost) := by
  intro reused overwritten lost
  refine ⟨⟨by decide +kernel, fun h ↦ ?_⟩, ⟨by decide +kernel, fun h ↦ ?_⟩, by decide +kernel,
    fun h ↦ ?_⟩
  · exact absurd h.distinct (by decide +kernel)
  · exact absurd h.receivable (by decide +kernel)
  · exact absurd h.receivable (by decide +kernel)

end Qros.Saas
