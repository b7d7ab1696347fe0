import Mathlib.Data.Finset.Insert
import Mathlib.Data.Finset.Erase
import Qros.Lib.Machine
import Qros.Saas.Contracts

/-!
# The in-memory job queue

`InMemoryResearchJobQueue` of `researchos/saas/queue.py`.  A message gets the number
of messages plus one for its id, and its request id is kept in a side table under
the id of its job.  A received message stays in the list, marked, until it is
acknowledged.
-/

namespace Qros.Saas

open Qros.Lib

structure ResearchQueueMessage where
  messageId : Int
  workspaceId : Uuid
  researchRunId : Uuid
  requestId : Option String
deriving DecidableEq

structure Queue where
  /-- Message id, workspace and job. -/
  messages : List (Int × Uuid × Uuid)
  received : Finset Int
  requestIds : Dict Uuid String

namespace Queue

def empty : Queue := ⟨[], ∅, ∅⟩

def nextId (q : Queue) : Int := q.messages.length + 1

def enqueue (q : Queue) (workspaceId jobId : Uuid) (requestId : Option String) : Queue :=
  { q with
    messages := q.messages ++ [(q.nextId, workspaceId, jobId)]
    requestIds := match requestId with
      | none => q.requestIds
      | some requestId => q.requestIds.set jobId requestId }

/-- The message that `receive` returns for an entry of the list. -/
def toMessage (q : Queue) (entry : Int × Uuid × Uuid) : ResearchQueueMessage :=
  ⟨entry.1, entry.2.1, entry.2.2, q.requestIds.get? entry.2.2⟩

def receive (q : Queue) : Option ResearchQueueMessage × Queue :=
  match q.messages.find? fun entry ↦ decide (entry.1 ∉ q.received) with
  | some entry => (some (q.toMessage entry), { q with received := insert entry.1 q.received })
  | none => (none, q)

/-- `none` is the `ValueError`. -/
def ack (q : Queue) (messageId : Int) : Option Queue :=
  if messageId ≤ 0 then none
  else
    -- A set in the source; popping a key once more changes nothing.
    let removedJobIds := (q.messages.filter fun entry ↦ decide (entry.1 = messageId)).map
      fun entry ↦ entry.2.2
    some
      { messages := q.messages.filter fun entry ↦ decide (entry.1 ≠ messageId)
        received := q.received.erase messageId
        requestIds := removedJobIds.foldl Dict.pop q.requestIds }

end Queue

inductive QueueCall where
  | enqueue (workspaceId jobId : Uuid) (requestId : Option String)
  | receive
  | ack (messageId : Int)

inductive QueueReply where
  | enqueued (messageId : Int)
  | received (message : Option ResearchQueueMessage)
  | acked
  | valueError (message : String)
deriving DecidableEq

def QueueCall.run (q : Queue) : QueueCall → QueueReply × Queue
  | .enqueue workspaceId jobId requestId =>
    (.enqueued q.nextId, q.enqueue workspaceId jobId requestId)
  | .receive => q.receive.map .received id
  | .ack messageId =>
    match q.ack messageId with
    | none => (.valueError "message_id must be positive", q)
    | some q => (.acked, q)

def queue : Machine Queue QueueCall QueueReply where
  init := .empty
  step := fun call q ↦ call.run q

end Qros.Saas
