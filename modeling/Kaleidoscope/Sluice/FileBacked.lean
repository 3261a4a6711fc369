import Kaleidoscope.Library.HashMap
import Kaleidoscope.Sluice.Hex
import Kaleidoscope.Wal.Refinement

/-!
# The file-backed queue
-/

namespace Kaleidoscope.Sluice

open Aegis HashMap

/-- One line of the log. -/
inductive WalRecord where
  | enqueue (id : Nat) (tenant : TenantId) (payloadHex : String)
  | dequeue (id : Nat)
  | ack (id : Nat)
  | nack (id : Nat)
  deriving DecidableEq, Repr

/-- A message in a snapshot. -/
structure MessageSnapshot where
  id : Nat
  tenant : TenantId
  payloadHex : String
  deriving DecidableEq, Repr

/-- The pending messages of one tenant in a snapshot. -/
structure TenantPending where
  tenant : TenantId
  messages : List MessageSnapshot
  deriving DecidableEq, Repr

/-- The snapshot file. -/
structure Snapshot where
  nextId : Nat
  pending : List TenantPending
  inFlight : List MessageSnapshot
  deriving DecidableEq, Repr

/-- The pending messages of each tenant, the next to deliver first. -/
abbrev Pending := HashMap TenantId (List Message)

/-- The messages dequeued and neither acked nor nacked. -/
abbrev InFlight := HashMap MessageId Message

/-- The state of the queue. -/
structure Inner where
  nextId : Nat
  pending : Pending
  inFlight : InFlight
  total : Nat

/-- A queue without messages. -/
def Inner.empty : Inner := ⟨0, ∅, ∅, 0⟩

/-- The message a snapshot entry decodes to. -/
def MessageSnapshot.message (m : MessageSnapshot) : Except EnqueueError Message :=
  (decodeHex m.payloadHex).map fun payload => ⟨⟨m.id⟩, m.tenant, payload⟩

/-- The snapshot entry of a message. -/
def Message.snapshot (m : Message) : MessageSnapshot := ⟨m.id.id, m.tenant, encodeHex m.payload⟩

/-- The state `open` builds from a snapshot; the total is counted after the replay. -/
def fromSnapshot (snap : Snapshot) : Except EnqueueError Inner := do
  let pending ← snap.pending.foldlM
    (fun (pending : Pending) t => do
      let q ← t.messages.mapM MessageSnapshot.message
      return pending.insert t.tenant q) ∅
  let inFlight ← snap.inFlight.foldlM
    (fun (inFlight : InFlight) m => do
      let message ← m.message
      return inFlight.insert ⟨m.id⟩ message) ∅
  return ⟨snap.nextId, pending, inFlight, 0⟩

/-- The first tenant, in the order in which the map is visited, with a pending message of
this id. -/
def findPending (order : IterOrder TenantId (List Message)) (pending : Pending)
    (id : MessageId) : Option (TenantId × Message) :=
  (order.entries pending).findSome? fun e => (e.2.find? fun m => m.id = id).map fun m => (e.1, m)

/-- Put a queue back under its tenant, or drop the entry when it is empty. -/
def putQueue (pending : Pending) (tenant : TenantId) (q : List Message) : Pending :=
  if q = [] then pending.erase tenant else pending.insert tenant q

/-- `apply_record`. -/
def applyRecord (order : IterOrder TenantId (List Message)) (s : Inner) :
    WalRecord → Except EnqueueError Inner
  | .enqueue id tenant payloadHex => do
    let payload ← decodeHex payloadHex
    return { s with
      nextId := if s.nextId < id then id else s.nextId
      pending := s.pending.upsert tenant [] (· ++ [⟨⟨id⟩, tenant, payload⟩]) }
  | .dequeue id =>
    match findPending order s.pending ⟨id⟩ with
    | some (tenant, m) =>
      let q := ((s.pending.lookup tenant).getD []).eraseP fun m => m.id = ⟨id⟩
      .ok { s with
        pending := putQueue s.pending tenant q
        inFlight := s.inFlight.insert ⟨id⟩ m }
    | none => .ok s
  | .ack id => .ok { s with inFlight := s.inFlight.erase ⟨id⟩ }
  | .nack id =>
    match s.inFlight.lookup ⟨id⟩ with
    | some m =>
      .ok { s with
        inFlight := s.inFlight.erase ⟨id⟩
        pending := s.pending.upsert m.tenant [] (m :: ·) }
    | none => .ok s

/-- The number of pending messages of all tenants. -/
def countPending (pending : Pending) : Nat := (pending.entries.map fun e => e.2.length).sum

/-- The snapshot of the current state. -/
def toSnapshot (order : IterOrder TenantId (List Message) × IterOrder MessageId Message)
    (s : Inner) : Snapshot where
  nextId := s.nextId
  pending := (order.1.entries s.pending).map fun e => ⟨e.1, e.2.map Message.snapshot⟩
  inFlight := (order.2.entries s.inFlight).map fun e => e.2.snapshot

/-- `FileBackedQueue`; `order` is the order in which replay visits the tenants. -/
def fileBackedQueue (order : IterOrder TenantId (List Message)) (wal : LineSerde WalRecord)
    (snap : FileSerde Snapshot) :
    Pillar Inner WalRecord Snapshot EnqueueError
      (IterOrder TenantId (List Message) × IterOrder MessageId Message) where
  walSerde := wal
  snapSerde := snap
  persistenceFailed := .persistenceFailed
  empty := .empty
  restore := fromSnapshot
  apply := applyRecord order
  replayLoop := .lines fun line raw error => .persistenceFailed
    s!"WAL parse error at line {line}: {error}; raw={debugText raw}"
  settle s := { s with total := countPending s.pending }
  capture := toSnapshot

/-- The operations of the queue. -/
inductive Call where
  | enqueue (tenant : TenantId) (payload : List UInt8)
  | dequeue (tenant : TenantId)
  | ack (id : MessageId)
  | nack (id : MessageId)
  deriving DecidableEq, Repr

/-- The pending messages of a tenant. -/
def Inner.queue (s : Inner) (tenant : TenantId) : List Message :=
  (s.pending.lookup tenant).getD []

/-- `enqueue`: the entry of the tenant is created first, and the id is taken before the
append. -/
def enqueuePlan (cap : Nat) (tenant : TenantId) (payload : List UInt8) (s : Inner) :
    Plan Inner WalRecord :=
  let entered := { s with pending := s.pending.upsert tenant [] id }
  if cap ≤ (s.queue tenant).length then ⟨entered, []⟩
  else
    let id := s.nextId + 1
    { prepared := { entered with nextId := id }
      steps :=
        [{ record := .enqueue id tenant (encodeHex payload)
           commit := fun s =>
             { s with
               pending := s.pending.upsert tenant [] (· ++ [⟨⟨id⟩, tenant, payload⟩])
               total := s.total + 1 } }] }

/-- `dequeue`: only the front of the queue is read before the append. -/
def dequeuePlan (tenant : TenantId) (s : Inner) : Plan Inner WalRecord where
  prepared := s
  steps :=
    match (s.queue tenant).head? with
    | none => []
    | some message =>
      [{ record := .dequeue message.id.id
         commit := fun s =>
           { s with
             pending := putQueue s.pending tenant (s.queue tenant).tail
             total := s.total - 1
             inFlight := s.inFlight.insert message.id message } }]

/-- `ack`: nothing for an unknown id. -/
def ackPlan (id : MessageId) (s : Inner) : Plan Inner WalRecord where
  prepared := s
  steps :=
    if (s.inFlight.lookup id).isSome then
      [{ record := .ack id.id, commit := fun s => { s with inFlight := s.inFlight.erase id } }]
    else []

/-- `nack`: nothing for an unknown id. -/
def nackPlan (id : MessageId) (s : Inner) : Plan Inner WalRecord where
  prepared := s
  steps :=
    match s.inFlight.lookup id with
    | none => []
    | some message =>
      [{ record := .nack id.id
         commit := fun s =>
           { s with
             inFlight := s.inFlight.erase id
             pending := s.pending.upsert message.tenant [] (message :: ·)
             total := s.total + 1 } }]

/-- The appends of an operation. -/
def plan (cap : Nat) : Call → Inner → Plan Inner WalRecord
  | .enqueue tenant payload => enqueuePlan cap tenant payload
  | .dequeue tenant => dequeuePlan tenant
  | .ack id => ackPlan id
  | .nack id => nackPlan id

section Operations

variable (order : IterOrder TenantId (List Message)) (wal : LineSerde WalRecord)
  (snap : FileSerde Snapshot) (cap : Nat)

/-- `enqueue`. -/
def enqueue (store : Store Inner) (tenant : TenantId) (payload : List UInt8) (fault : Fault) :
    Except EnqueueError MessageId × Store Inner :=
  let ran := (fileBackedQueue order wal snap).call (enqueuePlan cap tenant payload store.state)
    [fault] store
  if cap ≤ (store.state.queue tenant).length then (.error (.full tenant cap), ran.store)
  else (ran.result.map fun _ => ⟨store.state.nextId + 1⟩, ran.store)

/-- `dequeue`. -/
def dequeue (store : Store Inner) (tenant : TenantId) (fault : Fault) :
    Except EnqueueError (Option Message) × Store Inner :=
  let ran := (fileBackedQueue order wal snap).call (dequeuePlan tenant store.state) [fault] store
  (ran.result.map fun _ => (store.state.queue tenant).head?, ran.store)

/-- `ack`. -/
def ack (store : Store Inner) (id : MessageId) (fault : Fault) :
    Except EnqueueError Unit × Store Inner :=
  let ran := (fileBackedQueue order wal snap).call (ackPlan id store.state) [fault] store
  (ran.result, ran.store)

/-- `nack`. -/
def nack (store : Store Inner) (id : MessageId) (fault : Fault) :
    Except EnqueueError Unit × Store Inner :=
  let ran := (fileBackedQueue order wal snap).call (nackPlan id store.state) [fault] store
  (ran.result, ran.store)

/-- `depth`. -/
def depth (store : Store Inner) (tenant : TenantId) : Nat := (store.state.queue tenant).length

/-- `total_depth`. -/
def totalDepth (store : Store Inner) : Nat := store.state.total

end Operations

end Kaleidoscope.Sluice
