import Kaleidoscope.Sluice.Ideal
import Kaleidoscope.Wal.Session

/-!
# The in-memory queue

The adapter without files. Each of its operations leaves memory as the operation of the
file-backed queue leaves it whose append succeeds.
-/

namespace Kaleidoscope.Sluice

open Aegis HashMap

namespace InMemoryQueue

/-- `enqueue`: the entry of the tenant is created first. -/
def enqueue (cap : Nat) (state : Inner) (tenant : TenantId) (payload : List UInt8) :
    Except EnqueueError MessageId × Inner :=
  let state := { state with pending := state.pending.upsert tenant [] id }
  if cap ≤ (state.queue tenant).length then (.error (.full tenant cap), state)
  else
    let id : MessageId := ⟨state.nextId + 1⟩
    (.ok id,
      { state with
        nextId := state.nextId + 1
        pending := state.pending.modify tenant (· ++ [⟨id, tenant, payload⟩])
        total := state.total + 1 })

/-- `dequeue`: the entry of a tenant goes with its last message. -/
def dequeue (state : Inner) (tenant : TenantId) : Except EnqueueError (Option Message) × Inner :=
  match state.pending.lookup tenant with
  | none => (.ok none, state)
  | some [] => (.ok none, state)
  | some (message :: queue) =>
    (.ok (some message),
      { state with
        pending := putQueue state.pending tenant queue
        total := state.total - 1
        inFlight := state.inFlight.insert message.id message })

/-- `ack`. -/
def ack (state : Inner) (id : MessageId) : Except EnqueueError Unit × Inner :=
  (.ok (), { state with inFlight := state.inFlight.erase id })

/-- `nack`: the message goes back to the front. -/
def nack (state : Inner) (id : MessageId) : Except EnqueueError Unit × Inner :=
  match state.inFlight.lookup id with
  | none => (.ok (), state)
  | some message =>
    (.ok (),
      { state with
        inFlight := state.inFlight.erase id
        pending := state.pending.upsert message.tenant [] (message :: ·)
        total := state.total + 1 })

end InMemoryQueue

/-- `InMemoryQueue`. -/
def inMemoryQueue (cap : Nat) : Queue Inner where
  enqueue := InMemoryQueue.enqueue cap
  dequeue := InMemoryQueue.dequeue
  ack := InMemoryQueue.ack
  nack := InMemoryQueue.nack
  depth state tenant := (state.queue tenant).length
  totalDepth := Inner.total

section FileBacked

variable (order : IterOrder TenantId (List Message)) (wal : LineSerde WalRecord)
  (snap : FileSerde Snapshot) (cap : Nat)

/-- `FileBackedQueue` while no append fails. -/
def fileBackedPort : Queue (Store Inner) where
  enqueue s tenant payload := enqueue order wal snap cap s tenant payload .none
  dequeue s tenant := dequeue order wal snap s tenant .none
  ack s id := ack order wal snap s id .none
  nack s id := nack order wal snap s id .none
  depth := depth
  totalDepth := totalDepth

end FileBacked

/-- The appends of a call. -/
def requestPlan (cap : Nat) : Request → Inner → Plan Inner WalRecord
  | .enqueue tenant payload => plan cap (.enqueue tenant payload)
  | .dequeue tenant => plan cap (.dequeue tenant)
  | .ack id => plan cap (.ack id)
  | .nack id => plan cap (.nack id)
  | .depth _ => fun s => ⟨s, []⟩
  | .totalDepth => fun s => ⟨s, []⟩

/-- A call leaves memory as its successful appends do. -/
theorem inMemoryQueue_outcome (cap : Nat) (s : Inner) (r : Request) :
    ((inMemoryQueue cap).ask s r).2 = (requestPlan cap r s).outcome := by
  cases r with
  | enqueue tenant payload =>
    simp only [Queue.ask, inMemoryQueue, InMemoryQueue.enqueue, queue_entry, requestPlan, plan,
      enqueuePlan]
    split_ifs
    · rfl
    · have hentry : ((s.pending.upsert tenant [] id).lookup tenant).isSome := by
        rw [lookup_upsert, if_pos rfl]
        rfl
      rw [modify_eq_upsert hentry []]
      rfl
  | dequeue tenant =>
    simp only [Queue.ask, inMemoryQueue, InMemoryQueue.dequeue, requestPlan, plan, dequeuePlan,
      Inner.queue]
    rcases h : s.pending.lookup tenant with _ | _ | ⟨message, queue⟩ <;>
      simp [Plan.outcome, h]
  | ack id =>
    simp only [Queue.ask, inMemoryQueue, InMemoryQueue.ack, requestPlan, plan, ackPlan]
    split_ifs with h
    · rfl
    · have hnone : s.inFlight.lookup id = none := by simpa using h
      have herase : s.inFlight.erase id = s.inFlight := by
        refine Finmap.ext_lookup fun j => ?_
        rw [lookup_erase_ite]
        split_ifs with hj
        · rw [hj, hnone]
        · rfl
      rw [herase]
      rfl
  | nack id =>
    simp only [Queue.ask, inMemoryQueue, InMemoryQueue.nack, requestPlan, plan, nackPlan]
    cases h : s.inFlight.lookup id with
    | none => rfl
    | some message => rfl
  | depth tenant => rfl
  | totalDepth => rfl

namespace InMemoryQueue

theorem dequeue_of_nil {s : Inner} {tenant : TenantId} (h : s.queue tenant = []) :
    dequeue s tenant = (.ok none, s) := by
  rw [Inner.queue] at h
  rw [dequeue]
  rcases hl : s.pending.lookup tenant with _ | _ | ⟨message, queue⟩
  · rfl
  · rfl
  · rw [hl] at h
    cases h

theorem dequeue_of_cons {s : Inner} {tenant : TenantId} {message : Message}
    {queue : List Message} (h : s.queue tenant = message :: queue) :
    dequeue s tenant = (.ok (some message),
      { s with
        pending := putQueue s.pending tenant queue
        total := s.total - 1
        inFlight := s.inFlight.insert message.id message }) := by
  rw [Inner.queue] at h
  rw [dequeue]
  rcases hl : s.pending.lookup tenant with _ | _ | ⟨message', queue'⟩
  · rw [hl] at h
    cases h
  · rw [hl] at h
    cases h
  · rw [hl] at h
    cases h
    rfl

end InMemoryQueue

theorem countPending_eq {s : Inner} {keys : Finset TenantId} (h : s.pending.keys ⊆ keys) :
    countPending s.pending = ∑ t ∈ keys, (s.queue t).length := by
  rw [countPending, sum_entries s.pending List.length h]
  refine Finset.sum_congr rfl fun t _ => ?_
  rw [Inner.queue]
  cases s.pending.lookup t <;> rfl

/-- When one queue changes, the count changes by as much as its length. -/
theorem countPending_change (s s' : Inner) (tenant : TenantId)
    (h : ∀ t, t ≠ tenant → s'.queue t = s.queue t) :
    countPending s'.pending + (s.queue tenant).length =
      countPending s.pending + (s'.queue tenant).length := by
  let keys := insert tenant (s.pending.keys ∪ s'.pending.keys)
  have hmem : tenant ∈ keys := Finset.mem_insert_self _ _
  have hrest : ∑ t ∈ keys.erase tenant, (s'.queue t).length =
      ∑ t ∈ keys.erase tenant, (s.queue t).length :=
    Finset.sum_congr rfl fun t ht => congrArg List.length (h t (Finset.ne_of_mem_erase ht))
  have hkeys : s.pending.keys ⊆ keys := fun t ht => by simp [keys, ht]
  have hkeys' : s'.pending.keys ⊆ keys := fun t ht => by simp [keys, ht]
  rw [countPending_eq hkeys, countPending_eq hkeys', ← Finset.add_sum_erase _ _ hmem,
    ← Finset.add_sum_erase _ _ hmem, hrest]
  omega

theorem length_queue_le (s : Inner) (tenant : TenantId) :
    (s.queue tenant).length ≤ countPending s.pending := by
  rw [countPending_eq (Finset.subset_insert tenant s.pending.keys)]
  exact Finset.single_le_sum (f := fun t => (s.queue t).length) (fun _ _ => Nat.zero_le _)
    (Finset.mem_insert_self _ _)

/-- The total is the number of pending messages. -/
def Inner.Counted (s : Inner) : Prop := s.total = countPending s.pending

/-- The same queues count alike. -/
theorem Inner.Same.countPending_eq {s s' : Inner} (h : s.Same s') :
    countPending s'.pending = countPending s.pending := by
  have hlen := congrArg List.length (h.pending ⟨""⟩)
  have hcount := countPending_change s s' ⟨""⟩ fun t _ => h.pending t
  omega

section FileBacked

variable {order : IterOrder TenantId (List Message)} {wal : LineSerde WalRecord}
  {snap : FileSerde Snapshot} {cap : Nat}

/-- A call of the file-backed queue runs its appends. -/
theorem fileBackedPort_store (s : Store Inner) (r : Request) :
    ((fileBackedPort order wal snap cap).ask s r).2 =
      ((fileBackedQueue order wal snap).call (requestPlan cap r s.state) [.none] s).store := by
  cases r with
  | enqueue tenant payload =>
    simp only [Queue.ask, fileBackedPort, enqueue]
    split_ifs <;> rfl
  | _ => rfl

/-- When they succeed it answers as the in-memory queue does on the same memory. -/
theorem fileBackedPort_answer {s : Store Inner} {r : Request}
    (h : ((fileBackedQueue order wal snap).call (requestPlan cap r s.state) [.none] s).result =
      .ok ()) :
    ((fileBackedPort order wal snap cap).ask s r).1 = ((inMemoryQueue cap).ask s.state r).1 := by
  cases r with
  | enqueue tenant payload =>
    have h : ((fileBackedQueue order wal snap).call (enqueuePlan cap tenant payload s.state)
      [.none] s).result = .ok () := h
    simp only [Queue.ask, fileBackedPort, enqueue, inMemoryQueue, InMemoryQueue.enqueue,
      queue_entry, h]
    split_ifs <;> rfl
  | dequeue tenant =>
    have h : ((fileBackedQueue order wal snap).call (dequeuePlan tenant s.state)
      [.none] s).result = .ok () := h
    simp only [Queue.ask, fileBackedPort, dequeue, inMemoryQueue, InMemoryQueue.dequeue, h,
      Inner.queue]
    rcases s.state.pending.lookup tenant with _ | _ | ⟨message, queue⟩ <;> rfl
  | ack id => exact congrArg Answer.acked h
  | nack id =>
    have h : ((fileBackedQueue order wal snap).call (nackPlan id s.state) [.none] s).result =
      .ok () := h
    simp only [Queue.ask, fileBackedPort, nack, inMemoryQueue, InMemoryQueue.nack, h]
    cases s.state.inFlight.lookup id <;> rfl
  | depth tenant => rfl
  | totalDepth => rfl

end FileBacked

end Kaleidoscope.Sluice
