import Kaleidoscope.Sluice.Memory

/-!
# What the port shows of a queue

The answers of a queue, and what they leave, depend on the queue of each tenant, the messages
in flight, the last id and the total. Both adapters act on this view alike.
-/

namespace Kaleidoscope.Sluice

open Aegis HashMap

/-- A queue as its callers see it. -/
@[ext] structure View where
  nextId : Nat
  queue : TenantId → List Message
  inFlight : MessageId → Option Message
  total : Nat

/-- What a call answers and leaves. -/
def View.ask (cap : Nat) (v : View) : Request → Answer × View
  | .enqueue tenant payload =>
    if cap ≤ (v.queue tenant).length then (.enqueued (.error (.full tenant cap)), v)
    else
      let message : Message := ⟨⟨v.nextId + 1⟩, tenant, payload⟩
      (.enqueued (.ok message.id),
        { v with
          nextId := v.nextId + 1
          queue := Function.update v.queue tenant (v.queue tenant ++ [message])
          total := v.total + 1 })
  | .dequeue tenant =>
    match v.queue tenant with
    | [] => (.dequeued (.ok none), v)
    | message :: queue =>
      (.dequeued (.ok (some message)),
        { v with
          queue := Function.update v.queue tenant queue
          inFlight := Function.update v.inFlight message.id (some message)
          total := v.total - 1 })
  | .ack id => (.acked (.ok ()), { v with inFlight := Function.update v.inFlight id none })
  | .nack id =>
    match v.inFlight id with
    | none => (.nacked (.ok ()), v)
    | some message =>
      (.nacked (.ok ()),
        { v with
          queue := Function.update v.queue message.tenant (message :: v.queue message.tenant)
          inFlight := Function.update v.inFlight id none
          total := v.total + 1 })
  | .depth tenant => (.depth (v.queue tenant).length, v)
  | .totalDepth => (.totalDepth v.total, v)

/-- The view of a state. -/
def Inner.view (s : Inner) : View := ⟨s.nextId, s.queue, fun id => s.inFlight.lookup id, s.total⟩

theorem Inner.Same.view_eq {s s' : Inner} (h : s.Same s') (htotal : s'.total = s.total) :
    s'.view = s.view :=
  View.ext h.nextId (funext h.pending) (congrArg (fun m id => m.lookup id) h.inFlight) htotal

theorem queue_upsert_eq (s : Inner) (tenant : TenantId) (f : List Message → List Message) :
    (fun t => ((s.pending.upsert tenant [] f).lookup t).getD []) =
      Function.update s.queue tenant (f (s.queue tenant)) := by
  funext t
  rw [queue_upsert, Function.update_apply]

theorem queue_putQueue_eq (s : Inner) (tenant : TenantId) (queue : List Message) :
    (fun t => ((putQueue s.pending tenant queue).lookup t).getD []) =
      Function.update s.queue tenant queue := by
  funext t
  rw [lookup_putQueue, Function.update_apply]
  rfl

/-- Creating the entry of a tenant does not show. -/
theorem view_entered (s : Inner) (tenant : TenantId) :
    ({ s with pending := s.pending.upsert tenant [] id } : Inner).view = s.view :=
  View.ext rfl (funext (queue_entry s tenant)) rfl rfl

/-- The in-memory queue acts on its view. -/
theorem view_ask (cap : Nat) (s : Inner) (r : Request) :
    (((inMemoryQueue cap).ask s r).1, ((inMemoryQueue cap).ask s r).2.view) =
      s.view.ask cap r := by
  cases r with
  | enqueue tenant payload =>
    let entered := { s with pending := s.pending.upsert tenant [] id }
    have hview : entered.view = s.view := view_entered s tenant
    have hentry : (entered.pending.lookup tenant).isSome := by
      rw [lookup_upsert, if_pos rfl]
      rfl
    have hqueue := queue_entry s tenant tenant
    by_cases hfull : cap ≤ (s.queue tenant).length
    · simp only [Queue.ask, inMemoryQueue, InMemoryQueue.enqueue, View.ask, Inner.view, hqueue,
        if_pos hfull]
      exact (congrArg (Prod.mk _) hview).trans (if_pos hfull).symm
    · simp only [Queue.ask, inMemoryQueue, InMemoryQueue.enqueue, View.ask, Inner.view, hqueue,
        if_neg hfull]
      refine Eq.trans ?_ (if_neg hfull).symm
      refine congrArg (Prod.mk _) (View.ext rfl ?_ rfl rfl)
      dsimp only [Inner.queue]
      rw [modify_eq_upsert hentry []]
      refine (queue_upsert_eq entered tenant _).trans ?_
      rw [show entered.queue = s.queue from congrArg View.queue hview]
      rfl
  | dequeue tenant =>
    simp only [Queue.ask, inMemoryQueue, View.ask, Inner.view]
    rcases h : s.queue tenant with _ | ⟨message, queue⟩
    · rw [InMemoryQueue.dequeue_of_nil h]
    · rw [InMemoryQueue.dequeue_of_cons h]
      exact congrArg (Prod.mk _) (View.ext rfl (queue_putQueue_eq s tenant queue)
        (lookup_insert_eq_update _ _ _) rfl)
  | ack id => exact congrArg (Prod.mk _) (View.ext rfl rfl (lookup_erase_eq_update _ id) rfl)
  | nack id =>
    simp only [Queue.ask, inMemoryQueue, InMemoryQueue.nack, View.ask, Inner.view]
    cases h : s.inFlight.lookup id with
    | none => rfl
    | some message =>
      exact congrArg (Prod.mk _) (View.ext rfl (queue_upsert_eq s message.tenant _)
        (lookup_erase_eq_update _ id) rfl)
  | depth tenant => rfl
  | totalDepth => rfl

/-- A call changes one queue at most, and the total by as much. -/
theorem View.ask_change (cap : Nat) {v : View} (r : Request)
    (hcovered : ∀ t, (v.queue t).length ≤ v.total) : ∃ tenant,
      (∀ t, t ≠ tenant → (v.ask cap r).2.queue t = v.queue t) ∧
      (v.ask cap r).2.total + (v.queue tenant).length =
        v.total + ((v.ask cap r).2.queue tenant).length := by
  have unchanged : ∃ tenant : TenantId, (∀ t, t ≠ tenant → v.queue t = v.queue t) ∧
      v.total + (v.queue tenant).length = v.total + (v.queue tenant).length :=
    ⟨⟨""⟩, fun _ _ => rfl, rfl⟩
  cases r with
  | enqueue tenant payload =>
    rw [View.ask]
    split_ifs
    · exact unchanged
    · refine ⟨tenant, fun t ht => Function.update_of_ne ht _ _, ?_⟩
      simp only [Function.update_self, List.length_append, List.length_singleton]
      omega
  | dequeue tenant =>
    have hle := hcovered tenant
    rw [View.ask]
    rcases h : v.queue tenant with _ | ⟨message, queue⟩
    · exact unchanged
    · refine ⟨tenant, fun t ht => Function.update_of_ne ht _ _, ?_⟩
      simp only [h, List.length_cons, Function.update_self] at hle ⊢
      omega
  | nack id =>
    rw [View.ask]
    cases v.inFlight id with
    | none => exact unchanged
    | some message =>
      refine ⟨message.tenant, fun t ht => Function.update_of_ne ht _ _, ?_⟩
      simp only [Function.update_self, List.length_cons]
      omega
  | _ => exact unchanged

/-- Every call keeps the total right. -/
theorem Inner.Counted.ask {s : Inner} (h : s.Counted) (cap : Nat) (r : Request) :
    ((inMemoryQueue cap).ask s r).2.Counted := by
  have hview : ((inMemoryQueue cap).ask s r).2.view = (s.view.ask cap r).2 :=
    congrArg Prod.snd (view_ask cap s r)
  have hcovered (t : TenantId) : (s.queue t).length ≤ s.total := by
    rw [h]
    exact length_queue_le s t
  obtain ⟨tenant, hrest, htotal⟩ := View.ask_change cap (v := s.view) r hcovered
  rw [← hview] at hrest htotal
  have hcount := countPending_change s ((inMemoryQueue cap).ask s r).2 tenant hrest
  rw [Inner.Counted] at h ⊢
  have htotal : ((inMemoryQueue cap).ask s r).2.total + (s.queue tenant).length =
      s.total + (((inMemoryQueue cap).ask s r).2.queue tenant).length := htotal
  omega

section FileBacked

variable {order : IterOrder TenantId (List Message)} {wal : LineSerde WalRecord}
  {snap : FileSerde Snapshot} {cap : Nat}

/-- A call whose records serialise is legal. -/
theorem legal_request (hwal : ∀ r, wal.Faithful r) {s : Inner} {r : Request} {i : Ideal}
    (henc : (fileBackedQueue order wal snap).Encodable (requestPlan cap r s).steps)
    (h : Ideal.Holds True s i) :
    (refinement order wal snap True).Legal (requestPlan cap r s) [] i := by
  cases r with
  | depth tenant => exact ⟨.inl h, trivial⟩
  | totalDepth => exact ⟨.inl h, trivial⟩
  | _ => exact legal hwal cap _ h fun _ hne => henc.firstSucceeds hne

/-- The file-backed queue answers as the in-memory queue does on the same memory, leaves it
alike and stays in service. -/
theorem fileBackedPort_ask (hwal : ∀ r, wal.Faithful r) (hsnap : ∀ k, snap.Faithful k)
    {ledger : List WalRecord} {s : Store Inner} {i : Ideal} {r : Request}
    (h : (refinement order wal snap True).InService ledger s i)
    (henc : (fileBackedQueue order wal snap).Encodable (requestPlan cap r s.state).steps) :
    ((fileBackedPort order wal snap cap).ask s r).1 = ((inMemoryQueue cap).ask s.state r).1 ∧
      ((fileBackedPort order wal snap cap).ask s r).2.state =
        ((inMemoryQueue cap).ask s.state r).2 ∧
      ∃ ledger' j, (refinement order wal snap True).InService ledger'
        ((fileBackedPort order wal snap cap).ask s r).2 j := by
  obtain ⟨hresult, hstate, j, -, hservice⟩ := h.succeeds (restores order wal snap True hsnap)
    (fun hlive => legal_request hwal henc hlive) henc
  rw [inMemoryQueue_outcome, fileBackedPort_store]
  exact ⟨fileBackedPort_answer hresult, hstate, _, j, hservice⟩

/-- A reopened queue looks as the queue did. -/
theorem view_reopened {s d : Inner} {i : Ideal} (h : Ideal.Holds True s i)
    (hd : Ideal.Holds True d i) (hcounted : s.Counted) :
    ((fileBackedQueue order wal snap).settle d).view = s.view ∧
      ((fileBackedQueue order wal snap).settle d).Counted := by
  have hsame := h.same hd
  refine ⟨Inner.Same.view_eq ⟨hsame.nextId, hsame.pending, hsame.inFlight⟩ ?_, rfl⟩
  exact hsame.countPending_eq.trans hcounted.symm

end FileBacked

end Kaleidoscope.Sluice
