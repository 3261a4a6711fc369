import Kaleidoscope.Sluice.Ideal
import Kaleidoscope.Wal.Residue

/-!
# Where a message stays

A message that was not acked is pending or in flight, and a pending message stays pending
until it is dequeued. Both are facts about the records of the log, so they hold of memory
and of every queue that is opened from the files.
-/

namespace Kaleidoscope.Sluice

open Aegis HashMap Replay

namespace Ideal

/-- The message has a place. -/
def Present (m : Message) (i : Ideal) : Prop :=
  m ∈ i.pending m.tenant ∨ i.inFlight m.id = some m

/-- The message is pending. -/
def Waits (m : Message) (i : Ideal) : Prop := m ∈ i.pending m.tenant

/-- Every record but an `Ack` of its id leaves a message in the queue. -/
theorem Present.next {m : Message} {i j : Ideal} {r : WalRecord} (hr : Next i r j)
    (hack : r ≠ .ack m.id.id) (hm : Present m i) : Present m j := by
  cases hr with
  | enqueue hid tenant payload =>
    rcases hm with hm | hm
    · refine Or.inl ?_
      change m ∈ replace i.pending tenant _ m.tenant
      rw [replace]
      split_ifs with ht
      · rw [← ht]
        exact List.mem_append_left _ hm
      · exact hm
    · exact Or.inr hm
  | @dequeue tenant m' rest hfront =>
    rcases hm with hm | hm
    · by_cases hid : m.id = m'.id
      · have ht : m.tenant = tenant := i.unique _ _ m hm m' (by simp [hfront]) hid
        have hnd := i.nodup tenant
        rw [ht, hfront] at hm
        rw [hfront] at hnd
        rcases List.mem_cons.mp hm with rfl | hrest
        · exact Or.inr (if_pos rfl)
        · exact absurd (hid ▸ List.mem_map_of_mem hrest) (List.nodup_cons.mp hnd).1
      · refine Or.inl ?_
        change m ∈ replace i.pending tenant rest m.tenant
        rw [replace]
        split_ifs with ht
        · rw [ht, hfront] at hm
          exact (List.mem_cons.mp hm).resolve_left fun he => hid (congrArg Message.id he)
        · exact hm
    · have hne : m.id ≠ m'.id := by
        intro he
        have := i.apart tenant m' (by simp [hfront])
        rw [← he, hm] at this
        cases this
      exact Or.inr ((if_neg hne).trans hm)
  | ack id =>
    have hne : m.id ≠ id := fun he => hack (by rw [he])
    exact hm.imp_right (if_neg hne).trans
  | @nack id m' hm' =>
    rcases hm with hm | hm
    · refine Or.inl ?_
      change m ∈ replace i.pending m'.tenant _ m.tenant
      rw [replace]
      split_ifs with ht
      · rw [← ht]
        exact List.mem_cons_of_mem _ hm
      · exact hm
    · by_cases hid : m.id = id
      · obtain rfl : m' = m := Option.some.inj (hm'.symm.trans (hid ▸ hm))
        exact Or.inl (by simp [Ideal.nack, replace])
      · exact Or.inr ((if_neg hid).trans hm)

/-- Every record but a `Dequeue` of its id leaves a pending message pending. -/
theorem Waits.next {m : Message} {i j : Ideal} {r : WalRecord} (hr : Next i r j)
    (hdequeue : r ≠ .dequeue m.id.id) (hm : Waits m i) : Waits m j := by
  cases hr with
  | ack id => exact hm
  | @dequeue tenant m' rest hfront =>
    change m ∈ replace i.pending tenant rest m.tenant
    rw [replace]
    split_ifs with ht
    · have hm : m ∈ i.pending m.tenant := hm
      rw [ht, hfront] at hm
      exact (List.mem_cons.mp hm).resolve_left fun he => hdequeue (by rw [he])
    · exact hm
  | enqueue hid tenant payload =>
    change m ∈ replace i.pending tenant _ m.tenant
    rw [replace]
    split_ifs with ht
    · rw [← ht]
      exact List.mem_append_left _ hm
    · exact hm
  | @nack id m' hm' =>
    change m ∈ replace i.pending m'.tenant _ m.tenant
    rw [replace]
    split_ifs with ht
    · rw [← ht]
      exact List.mem_cons_of_mem _ hm
    · exact hm

end Ideal

/-- The events of a queue. -/
abbrev QueueEvent := Event Call (IterOrder TenantId (List Message) × IterOrder MessageId Message)

section Operations

variable {order : IterOrder TenantId (List Message)} {wal : LineSerde WalRecord}
  {snap : FileSerde Snapshot}

/-- An operation appends one record at most. -/
theorem length_steps_le (cap : Nat) (c : Call) (s : Inner) :
    (plan cap c s).steps.length ≤ 1 := by
  cases c with
  | enqueue tenant payload =>
    simp only [plan, enqueuePlan]
    split_ifs <;> simp
  | dequeue tenant =>
    simp only [plan, dequeuePlan]
    split <;> simp
  | ack id =>
    simp only [plan, ackPlan]
    split_ifs <;> simp
  | nack id =>
    simp only [plan, nackPlan]
    split <;> simp

/-- So only the first fault matters. -/
theorem call_headD (cap : Nat) (c : Call) (faults : List Fault) (s : Store Inner) :
    (fileBackedQueue order wal snap).call (plan cap c s.state) faults s =
      (fileBackedQueue order wal snap).call (plan cap c s.state) [faults.headD .none] s := by
  have hlen := length_steps_le cap c s.state
  rw [Pillar.call, Pillar.call]
  rcases hs : (plan cap c s.state).steps with _ | ⟨step, _ | ⟨step', rest⟩⟩
  · rfl
  · rfl
  · simp [hs] at hlen

/-- What an operation appends. -/
theorem record_cases {cap : Nat} {c : Call} {s : Inner} {step : LogStep Inner WalRecord}
    (h : step ∈ (plan cap c s).steps) :
    (∃ tenant payload, c = .enqueue tenant payload ∧
      step.record = .enqueue (s.nextId + 1) tenant (encodeHex payload)) ∨
    (∃ tenant m, c = .dequeue tenant ∧ (s.queue tenant).head? = some m ∧
      step.record = .dequeue m.id.id) ∨
    (∃ id, c = .ack id ∧ step.record = .ack id.id) ∨
    ∃ id, c = .nack id ∧ step.record = .nack id.id := by
  cases c with
  | enqueue tenant payload =>
    simp only [plan, enqueuePlan] at h
    split_ifs at h
    · cases h
    · obtain rfl := List.mem_singleton.mp h
      exact Or.inl ⟨tenant, payload, rfl, rfl⟩
  | dequeue tenant =>
    simp only [plan, dequeuePlan] at h
    split at h
    · cases h
    · next m hm =>
      obtain rfl := List.mem_singleton.mp h
      exact Or.inr (Or.inl ⟨tenant, m, rfl, hm, rfl⟩)
  | ack id =>
    simp only [plan, ackPlan] at h
    split_ifs at h
    · obtain rfl := List.mem_singleton.mp h
      exact Or.inr (Or.inr (Or.inl ⟨id, rfl, rfl⟩))
    · cases h
  | nack id =>
    simp only [plan, nackPlan] at h
    split at h
    · cases h
    · obtain rfl := List.mem_singleton.mp h
      exact Or.inr (Or.inr (Or.inr ⟨id, rfl, rfl⟩))

/-- An operation that logs a record appends it and returns `Ok`. -/
theorem of_mem_logged {cap : Nat} {c : Call} {faults : List Fault} {s : Store Inner}
    {r : WalRecord}
    (h : r ∈ ((fileBackedQueue order wal snap).call (plan cap c s.state) faults s).logged) :
    (∃ step ∈ (plan cap c s.state).steps, step.record = r) ∧
      ((fileBackedQueue order wal snap).call (plan cap c s.state) faults s).result = .ok () := by
  have hlen := length_steps_le cap c s.state
  rw [Pillar.call] at h ⊢
  rcases hs : (plan cap c s.state).steps with _ | ⟨step, _ | ⟨step', rest⟩⟩
  · simp [hs, Pillar.runSteps] at h
  · rw [hs, Pillar.runSteps] at h
    rw [Pillar.runSteps]
    split at h
    · cases h
    · simp only [Pillar.runSteps, List.mem_singleton] at h ⊢
      exact ⟨⟨step, rfl, h.symm⟩, trivial⟩
  · simp [hs] at hlen

/-- An event that logs a record is an operation, unless the process is lost. -/
theorem call_of_mem_logs {cap : Nat} {w : World Inner WalRecord} {residue : Bool}
    {e : QueueEvent}
    {r : WalRecord} (he : Pillar.ClosesClean ⟨w, residue⟩ e)
    (h : r ∈ (fileBackedQueue order wal snap).logs (plan cap) w e) :
    ∃ s c faults, w.node = .up s ∧ e = .call c faults ∧
      r ∈ ((fileBackedQueue order wal snap).call (plan cap c s.state) faults s).logged := by
  obtain ⟨node, ledger⟩ := w
  cases node with
  | down f => cases e <;> cases h
  | up s =>
    cases e with
    | call c faults => exact ⟨s, c, faults, rfl, rfl, h⟩
    | crash c done n => cases he
    | _ => cases h

/-- An event is an `ack` of this id that returns `Ok`. -/
def Acks (order : IterOrder TenantId (List Message)) (wal : LineSerde WalRecord)
    (snap : FileSerde Snapshot) (id : MessageId) (w : World Inner WalRecord)
    (e : QueueEvent) : Prop :=
  ∃ s faults, w.node = .up s ∧ e = .call (.ack id) faults ∧
    (ack order wal snap s id (faults.headD .none)).1 = .ok ()

/-- An event is a `dequeue` that returns the message of this id. -/
def Dequeues (order : IterOrder TenantId (List Message)) (wal : LineSerde WalRecord)
    (snap : FileSerde Snapshot) (id : MessageId) (w : World Inner WalRecord)
    (e : QueueEvent) : Prop :=
  ∃ s tenant faults m, w.node = .up s ∧ e = .call (.dequeue tenant) faults ∧ m.id = id ∧
    (dequeue order wal snap s tenant (faults.headD .none)).1 = .ok (some m)

/-- Unless the process is lost, only an `ack` that returns `Ok` logs an `Ack`. -/
theorem acks_of_mem_logs {cap : Nat} {w : World Inner WalRecord} {residue : Bool}
    {e : QueueEvent}
    {id : MessageId} (he : Pillar.ClosesClean ⟨w, residue⟩ e)
    (h : .ack id.id ∈ (fileBackedQueue order wal snap).logs (plan cap) w e) :
    Acks order wal snap id w e := by
  obtain ⟨s, c, faults, hn, hcall, hlogged⟩ := call_of_mem_logs he h
  obtain ⟨⟨step, hstep, hrecord⟩, hresult⟩ := of_mem_logged hlogged
  rcases record_cases hstep with ⟨_, _, -, hr⟩ | ⟨_, _, -, -, hr⟩ | ⟨id', hc, hr⟩ | ⟨_, -, hr⟩ <;>
    have hrecord := hr.symm.trans hrecord
  · cases hrecord
  · cases hrecord
  · obtain rfl : id' = id := congrArg MessageId.mk (WalRecord.ack.inj hrecord)
    rw [call_headD, hc] at hresult
    rw [hc] at hcall
    exact ⟨s, faults, hn, hcall, hresult⟩
  · cases hrecord

/-- Unless the process is lost, only a `dequeue` that returns the message logs its
`Dequeue`. -/
theorem dequeues_of_mem_logs {cap : Nat} {w : World Inner WalRecord} {residue : Bool}
    {e : QueueEvent}
    {id : MessageId} (he : Pillar.ClosesClean ⟨w, residue⟩ e)
    (h : .dequeue id.id ∈ (fileBackedQueue order wal snap).logs (plan cap) w e) :
    Dequeues order wal snap id w e := by
  obtain ⟨s, c, faults, hn, hcall, hlogged⟩ := call_of_mem_logs he h
  obtain ⟨⟨step, hstep, hrecord⟩, hresult⟩ := of_mem_logged hlogged
  rcases record_cases hstep with ⟨_, _, -, hr⟩ | ⟨tenant, m, hc, hm, hr⟩ | ⟨_, -, hr⟩ |
    ⟨_, -, hr⟩ <;> have hrecord := hr.symm.trans hrecord
  · cases hrecord
  · have hid : m.id = id := congrArg MessageId.mk (WalRecord.dequeue.inj hrecord)
    rw [hc] at hcall hresult
    have hok : ((fileBackedQueue order wal snap).call (dequeuePlan tenant s.state)
        [faults.headD .none] s).result = .ok () :=
      (congrArg Ran.result (call_headD cap (.dequeue tenant) faults s)).symm.trans hresult
    refine ⟨s, tenant, faults, m, hn, hcall, hid, ?_⟩
    rw [dequeue, hok, hm]
    rfl
  · cases hrecord
  · cases hrecord

end Operations

section Delivered

variable (order : IterOrder TenantId (List Message)) (wal : LineSerde WalRecord)
  (snap : FileSerde Snapshot)

/-- The messages that a series of dequeues of a tenant returns. -/
def delivered (tenant : TenantId) : List Fault → Store Inner → List Message
  | [], _ => []
  | fault :: faults, s =>
    let rest := delivered tenant faults (dequeue order wal snap s tenant fault).2
    match (dequeue order wal snap s tenant fault).1 with
    | .ok (some m) => m :: rest
    | _ => rest

/-- The message is pending, and dequeues of its tenant return it once they have returned
those before it. -/
structure Deliverable (s : Store Inner) (m : Message) : Prop where
  pending : m ∈ s.state.queue m.tenant
  returned : ∀ faults, (s.state.queue m.tenant).idxOf m <
    (delivered order wal snap m.tenant faults s).length →
      m ∈ delivered order wal snap m.tenant faults s

/-- A dequeue returns the front of the queue and removes it, or changes no queue. -/
theorem dequeue_cases (s : Store Inner) (tenant : TenantId) (fault : Fault) :
    (∃ m rest, s.state.queue tenant = m :: rest ∧
      (dequeue order wal snap s tenant fault).1 = .ok (some m) ∧
      (dequeue order wal snap s tenant fault).2.state.queue tenant = rest) ∨
    ((∀ m, (dequeue order wal snap s tenant fault).1 ≠ .ok (some m)) ∧
      (dequeue order wal snap s tenant fault).2.state = s.state) := by
  unfold dequeue
  simp only [Pillar.call, dequeuePlan]
  cases hq : s.state.queue tenant with
  | nil => exact Or.inr ⟨fun m => by simp [Pillar.runSteps, Except.map], rfl⟩
  | cons m rest =>
    simp only [List.head?_cons, Pillar.runSteps]
    split
    · exact Or.inr ⟨fun m' => by simp [Except.map], rfl⟩
    · refine Or.inl ⟨m, rest, rfl, rfl, ?_⟩
      change ((putQueue s.state.pending tenant (s.state.queue tenant).tail).lookup tenant).getD [] =
        rest
      rw [lookup_putQueue, if_pos rfl, hq, List.tail_cons]

/-- What dequeues return is the beginning of the queue, in order. -/
theorem delivered_prefix (tenant : TenantId) (faults : List Fault) (s : Store Inner) :
    delivered order wal snap tenant faults s <+: s.state.queue tenant := by
  induction faults generalizing s with
  | nil => exact List.nil_prefix
  | cons fault faults ih =>
    have hnext := ih (dequeue order wal snap s tenant fault).2
    rw [delivered]
    rcases dequeue_cases order wal snap s tenant fault with
      ⟨m, rest, hq, hresult, hrest⟩ | ⟨hnone, hstate⟩
    · rw [hrest] at hnext
      simp only [hresult, hq]
      exact (List.prefix_cons_inj m).mpr hnext
    · rw [hstate] at hnext
      split
      · next m hm => exact absurd hm (hnone m)
      · exact hnext

/-- A pending message is deliverable. -/
theorem deliverable_of_mem {s : Store Inner} {m : Message} (hm : m ∈ s.state.queue m.tenant) :
    Deliverable order wal snap s m where
  pending := hm
  returned faults hlen := by
    have hfront := delivered_prefix order wal snap m.tenant faults s
    have hidx := List.idxOf_lt_length_of_mem hm
    have hget : (delivered order wal snap m.tenant faults s)[(s.state.queue m.tenant).idxOf m] =
        m := (hfront.getElem hlen).trans (List.getElem_idxOf hidx)
    exact List.mem_of_getElem hget

/-- Wherever the world is, the message is deliverable: in the open queue and in every queue
opened from its files. -/
def DeliverableIn (w : World Inner WalRecord) (m : Message) : Prop :=
  match w.node with
  | .up s => Deliverable order wal snap s m ∧ ∀ f, f = s.files ∨ f = s.drop →
      ∃ s', (fileBackedQueue order wal snap).openWithFsyncBackend f = .ok s' ∧
        Deliverable order wal snap s' m
  | .down f => ∃ s', (fileBackedQueue order wal snap).openWithFsyncBackend f = .ok s' ∧
      Deliverable order wal snap s' m

variable {order wal snap}

/-- A message that is pending in the abstract queue is deliverable where nothing of a failed
append is left. -/
theorem deliverableIn_of_keeps {v : Watched Inner WalRecord} {i : Ideal} {m : Message}
    (h : (refinement order wal snap False).Keeps v i) (hm : Ideal.Waits m i)
    (hres : v.residue = false) : DeliverableIn order wal snap v.world m := by
  obtain ⟨hstands, -⟩ := h.clean hres
  have reopened {ledger : List WalRecord} {f : Files}
      (hf : (refinement order wal snap False).Holds ledger f i) :
      ∃ s', (fileBackedQueue order wal snap).openWithFsyncBackend f = .ok s' ∧
        Deliverable order wal snap s' m := by
    obtain ⟨s', hs', hserves⟩ := hf.opens
    have hpending : m ∈ s'.state.queue m.tenant := by
      rw [Ideal.Holds.pending hserves.live]
      exact hm
    exact ⟨s', hs', deliverable_of_mem order wal snap hpending⟩
  obtain ⟨⟨node, ledger⟩, residue⟩ := v
  cases node with
  | down f => exact reopened hstands
  | up s =>
    have hserves : (refinement order wal snap False).Serves ledger s i := hstands
    have hpending : m ∈ s.state.queue m.tenant := by
      rw [Ideal.Holds.pending hserves.live]
      exact hm
    refine ⟨deliverable_of_mem order wal snap hpending, fun f hf => ?_⟩
    rcases hf with rfl | rfl
    · exact reopened hserves.holds
    · exact reopened (Refinement.Serves.drop _ hserves)

/-- After a `nack` that returned `Ok` the message is not in flight. -/
theorem lookup_nack {s : Store Inner} {id : MessageId} {fault : Fault}
    (h : (nack order wal snap s id fault).1 = .ok ()) :
    (nack order wal snap s id fault).2.state.inFlight.lookup id = none := by
  revert h
  unfold nack
  simp only [Pillar.call, nackPlan]
  cases hm : s.state.inFlight.lookup id with
  | none => exact fun _ => hm
  | some m =>
    simp only [Pillar.runSteps]
    split
    · exact fun h => by cases h
    · exact fun _ => Finmap.lookup_erase id _

/-- What every record of a certain kind keeps in the abstract queue, a watched run that logs
no others keeps. -/
theorem keeps_run (hwal : ∀ r, wal.Faithful r) (hsnap : ∀ k, snap.Faithful k) {cap : Nat}
    {A : Ideal → Prop} {G : WalRecord → Prop}
    (hnext : ∀ {i r j}, Ideal.Next i r j → G r → A i → A j)
    {cond : World Inner WalRecord →
      QueueEvent → Prop}
    (hcond : ∀ {w residue e}, Pillar.ClosesClean ⟨w, residue⟩ e → cond w e →
      ∀ r ∈ (fileBackedQueue order wal snap).logs (plan cap) w e, G r)
    {v : Watched Inner WalRecord}
    {events : List QueueEvent}
    {i : Ideal} (h : (refinement order wal snap False).Keeps v i) (hi : A i)
    (hclean : Run.AllSteps ((fileBackedQueue order wal snap).watch (plan cap))
      Pillar.ClosesClean v events)
    (hsteps : Run.AllSteps ((fileBackedQueue order wal snap).step (plan cap)) cond v.world
      events) :
    ∃ j, (refinement order wal snap False).Keeps
      (Run.run ((fileBackedQueue order wal snap).watch (plan cap)) v events) j ∧ A j := by
  have hwatched : Run.AllSteps ((fileBackedQueue order wal snap).watch (plan cap))
      (fun v e => cond v.world e) v events :=
    hsteps.preimage (f := Watched.world) fun _ _ => rfl
  exact Refinement.Keeps.run (A := A) (G := G) _ (restores order wal snap False hsnap)
    (fun c _ _ hs => holds_prepared cap c hs False.elim) (fun c _ _ hs => legalSteps hwal cap c hs)
    (fun hr => hnext hr.2) (fun he => he ▸ id) h hi
    ((hclean.and hwatched).mono fun _ _ he => ⟨he.1, hcond he.1 he.2⟩)

end Delivered

end Kaleidoscope.Sluice
