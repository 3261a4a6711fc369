import Kaleidoscope.Aegis.Validator

/-!
# Messages and the queue port
-/

namespace Kaleidoscope.Sluice

open Aegis

/-- Stable identity of a message. -/
structure MessageId where
  id : Nat
  deriving DecidableEq, Repr

/-- One message in flight through the queue. -/
structure Message where
  id : MessageId
  tenant : TenantId
  payload : List UInt8
  deriving DecidableEq, Repr

/-- Typed enqueue failures. -/
inductive EnqueueError where
  | full (tenant : TenantId) (cap : Nat)
  | persistenceFailed (reason : String)
  deriving DecidableEq, Repr

/-- The `Queue` port of an adapter with state `S`. -/
structure Queue (S : Type) where
  enqueue : S → TenantId → List UInt8 → Except EnqueueError MessageId × S
  dequeue : S → TenantId → Except EnqueueError (Option Message) × S
  ack : S → MessageId → Except EnqueueError Unit × S
  nack : S → MessageId → Except EnqueueError Unit × S
  depth : S → TenantId → Nat
  totalDepth : S → Nat

/-- A call of the port. -/
inductive Request where
  | enqueue (tenant : TenantId) (payload : List UInt8)
  | dequeue (tenant : TenantId)
  | ack (id : MessageId)
  | nack (id : MessageId)
  | depth (tenant : TenantId)
  | totalDepth
  deriving DecidableEq, Repr

/-- What a call returns. -/
inductive Answer where
  | enqueued (result : Except EnqueueError MessageId)
  | dequeued (result : Except EnqueueError (Option Message))
  | acked (result : Except EnqueueError Unit)
  | nacked (result : Except EnqueueError Unit)
  | depth (depth : Nat)
  | totalDepth (depth : Nat)
  deriving DecidableEq

/-- One call. -/
def Queue.ask {S : Type} (queue : Queue S) (s : S) : Request → Answer × S
  | .enqueue tenant payload =>
    let (result, s) := queue.enqueue s tenant payload
    (.enqueued result, s)
  | .dequeue tenant =>
    let (result, s) := queue.dequeue s tenant
    (.dequeued result, s)
  | .ack id =>
    let (result, s) := queue.ack s id
    (.acked result, s)
  | .nack id =>
    let (result, s) := queue.nack s id
    (.nacked result, s)
  | .depth tenant => (.depth (queue.depth s tenant), s)
  | .totalDepth => (.totalDepth (queue.totalDepth s), s)

end Kaleidoscope.Sluice
