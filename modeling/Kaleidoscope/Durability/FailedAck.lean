import Kaleidoscope.Durability.SnapshotCrash
import Kaleidoscope.Sluice.Delivery

/-!
# Acks and dequeues that fail

A failed append of the queue leaves the message where it was in memory. In the files it
does as long as no file is read that has bytes of the failed append: a snapshot removes
them, a reopened queue obeys them.
-/

namespace Kaleidoscope.Sluice

open Aegis HashMap Utf8

section Runs

variable (order : IterOrder TenantId (List Message)) (wal : LineSerde WalRecord)
  (snap : FileSerde Snapshot) (cap : Nat)

/-- Where events lead from an empty base path. -/
def runQueue (events : List QueueEvent) : World Inner WalRecord :=
  Run.run ((fileBackedQueue order wal snap).step (plan cap)) (World.init _ _) events

/-- Every step of a run from a world meets a condition. -/
abbrev Steps (cond : World Inner WalRecord → QueueEvent → Prop) (w : World Inner WalRecord)
    (events : List QueueEvent) : Prop :=
  Run.AllSteps ((fileBackedQueue order wal snap).step (plan cap)) cond w events

/-- In a good run, when an `ack` returned `Err` and a later `nack` of the id `Ok`, with no
`ack` of it returning `Ok` between them, the message is deliverable until it is dequeued. -/
def FailedAckKeeps (good : List QueueEvent → Prop) : Prop :=
  ∀ (before between after : List QueueEvent) (id : MessageId) (m : Message)
    (s s' : Store Inner) (fault fault' : Fault) (e : EnqueueError),
    let acked := before ++ [.call (.ack id) [fault]]
    let nacked := acked ++ between ++ [.call (.nack id) [fault']]
    good (nacked ++ after) →
    (runQueue order wal snap cap before).node = .up s →
    s.state.inFlight.lookup id = some m →
    (ack order wal snap s id fault).1 = .error e →
    Steps order wal snap cap (fun w e => ¬ Acks order wal snap id w e)
      (runQueue order wal snap cap acked) between →
    (runQueue order wal snap cap (acked ++ between)).node = .up s' →
    (nack order wal snap s' id fault').1 = .ok () →
    Steps order wal snap cap (fun w e => ¬ Dequeues order wal snap id w e)
      (runQueue order wal snap cap nacked) after →
    DeliverableIn order wal snap (runQueue order wal snap cap (nacked ++ after)) m

/-- In a good run, when a `dequeue` returned `Err`, the message at the front of the queue is
deliverable until it is dequeued. -/
def FailedDequeueKeeps (good : List QueueEvent → Prop) : Prop :=
  ∀ (before after : List QueueEvent) (tenant : TenantId) (m : Message) (s : Store Inner)
    (fault : Fault) (e : EnqueueError),
    let failed := before ++ [.call (.dequeue tenant) [fault]]
    good (failed ++ after) →
    (runQueue order wal snap cap before).node = .up s →
    (s.state.queue tenant).head? = some m →
    (dequeue order wal snap s tenant fault).1 = .error e →
    Steps order wal snap cap (fun w e => ¬ Dequeues order wal snap m.id w e)
      (runQueue order wal snap cap failed) after →
    DeliverableIn order wal snap (runQueue order wal snap cap (failed ++ after)) m

variable {order wal snap cap}

/-- Where events lead, watched. -/
private abbrev watchQueue (order : IterOrder TenantId (List Message)) (wal : LineSerde WalRecord)
    (snap : FileSerde Snapshot) (cap : Nat) (events : List QueueEvent) :
    Watched Inner WalRecord :=
  Run.run ((fileBackedQueue order wal snap).watch (plan cap)) (Watched.init _ _) events

private theorem world_watchQueue (events : List QueueEvent) :
    (watchQueue order wal snap cap events).world = runQueue order wal snap cap events :=
  Run.run_image (f := Watched.world) (fun _ _ => rfl) _ _

/-- The steps of a watched run are clean. -/
private abbrev Clean (order : IterOrder TenantId (List Message)) (wal : LineSerde WalRecord)
    (snap : FileSerde Snapshot) (cap : Nat) (events : List QueueEvent) : Prop :=
  Run.AllSteps ((fileBackedQueue order wal snap).watch (plan cap)) Pillar.ClosesClean
    (Watched.init _ _) events

/-- A longer run keeps what its records keep. -/
private theorem keeps_append (hwal : ∀ r, wal.Faithful r) (hsnap : ∀ k, snap.Faithful k)
    {A : Ideal → Prop} {G : WalRecord → Prop}
    (hnext : ∀ {i r j}, Ideal.Next i r j → G r → A i → A j)
    {cond : World Inner WalRecord → QueueEvent → Prop}
    (hcond : ∀ {w residue e}, Pillar.ClosesClean ⟨w, residue⟩ e → cond w e →
      ∀ r ∈ (fileBackedQueue order wal snap).logs (plan cap) w e, G r)
    {events events' : List QueueEvent} {i : Ideal}
    (h : (refinement order wal snap False).Keeps (watchQueue order wal snap cap events) i)
    (hi : A i) (hclean : Clean order wal snap cap (events ++ events'))
    (hsteps : Steps order wal snap cap cond (runQueue order wal snap cap events) events') :
    ∃ j, (refinement order wal snap False).Keeps
      (watchQueue order wal snap cap (events ++ events')) j ∧ A j := by
  have hsplit := (Run.allSteps_append.mp hclean).2
  rw [← world_watchQueue] at hsteps
  rw [watchQueue, Run.run_append]
  exact keeps_run hwal hsnap hnext hcond h hi hsplit hsteps

/-- Every clean run stands for an abstract queue. -/
private theorem exists_keeps (hwal : ∀ r, wal.Faithful r) (hsnap : ∀ k, snap.Faithful k)
    {events : List QueueEvent} (hclean : Clean order wal snap cap events) :
    ∃ i, (refinement order wal snap False).Keeps (watchQueue order wal snap cap events) i := by
  have hinit := Refinement.keeps_init (refinement order wal snap False)
  have hsteps : Steps order wal snap cap (fun _ _ => True) (World.init _ _) events :=
    Run.allSteps_of_forall (fun _ _ => trivial) _ _
  obtain ⟨i, hi, -⟩ := keeps_run (A := fun _ => True) (G := fun _ => True) hwal hsnap
    (fun _ _ _ => trivial) (fun _ _ _ _ => trivial) hinit trivial hclean hsteps
  exact ⟨i, hi⟩

/-- A pending message waits until it is dequeued. -/
private theorem waits_append (hwal : ∀ r, wal.Faithful r) (hsnap : ∀ k, snap.Faithful k)
    {events after : List QueueEvent} {i : Ideal} {m : Message}
    (h : (refinement order wal snap False).Keeps (watchQueue order wal snap cap events) i)
    (hm : Ideal.Waits m i) (hclean : Clean order wal snap cap (events ++ after))
    (hafter : Steps order wal snap cap (fun w e => ¬ Dequeues order wal snap m.id w e)
      (runQueue order wal snap cap events) after) :
    ∃ j, (refinement order wal snap False).Keeps
      (watchQueue order wal snap cap (events ++ after)) j ∧ Ideal.Waits m j := by
  have hcond {w : World Inner WalRecord} {residue : Bool} {e : QueueEvent}
      (he : Pillar.ClosesClean ⟨w, residue⟩ e) (hno : ¬ Dequeues order wal snap m.id w e) :
      ∀ r ∈ (fileBackedQueue order wal snap).logs (plan cap) w e, r ≠ .dequeue m.id.id :=
    fun r hr heq => hno (dequeues_of_mem_logs he (heq ▸ hr))
  have hnext {i j : Ideal} {r : WalRecord} (hr : Ideal.Next i r j)
      (hne : r ≠ .dequeue m.id.id) (hi : Ideal.Waits m i) : Ideal.Waits m j := hi.next hr hne
  exact keeps_append hwal hsnap hnext hcond h hm hclean hafter

/-- So it is deliverable wherever nothing of a failed append is left. -/
private theorem deliverableIn_append (hwal : ∀ r, wal.Faithful r) (hsnap : ∀ k, snap.Faithful k)
    {events after : List QueueEvent} {i : Ideal} {m : Message}
    (hgood : (fileBackedQueue order wal snap).ReadsClean (plan cap) (events ++ after))
    (h : (refinement order wal snap False).Keeps (watchQueue order wal snap cap events) i)
    (hm : Ideal.Waits m i)
    (hafter : Steps order wal snap cap (fun w e => ¬ Dequeues order wal snap m.id w e)
      (runQueue order wal snap cap events) after) :
    DeliverableIn order wal snap (runQueue order wal snap cap (events ++ after)) m := by
  obtain ⟨j, hj, hwaits⟩ := waits_append hwal hsnap h hm hgood.1 hafter
  rw [← world_watchQueue]
  exact deliverableIn_of_keeps hj hwaits hgood.2

theorem failedAckKeeps (hwal : ∀ r, wal.Faithful r) (hsnap : ∀ k, snap.Faithful k) :
    FailedAckKeeps order wal snap cap
      ((fileBackedQueue order wal snap).ReadsClean (plan cap)) := by
  intro before between after id m s s' fault fault' e acked nacked hgood hn hm hfail hbetween hn'
    hnack hafter
  have hcleanNacked : Clean order wal snap cap nacked := (Run.allSteps_append.mp hgood.1).1
  have hcleanBetween : Clean order wal snap cap (acked ++ between) :=
    (Run.allSteps_append.mp hcleanNacked).1
  have hcleanAcked : Clean order wal snap cap acked := (Run.allSteps_append.mp hcleanBetween).1
  have hnext {i j : Ideal} {r : WalRecord} (hr : Ideal.Next i r j) (hne : r ≠ .ack id.id)
      (hi : m.id = id ∧ Ideal.Present m i) : m.id = id ∧ Ideal.Present m j :=
    ⟨hi.1, hi.2.next hr (hi.1 ▸ hne)⟩
  have hcond {w : World Inner WalRecord} {residue : Bool} {e : QueueEvent}
      (he : Pillar.ClosesClean ⟨w, residue⟩ e) (hno : ¬ Acks order wal snap id w e) :
      ∀ r ∈ (fileBackedQueue order wal snap).logs (plan cap) w e, r ≠ .ack id.id :=
    fun r hr heq => hno (acks_of_mem_logs he (heq ▸ hr))
  -- the message is in flight when the `ack` fails
  obtain ⟨i, hi⟩ := exists_keeps hwal hsnap (Run.allSteps_append.mp hcleanAcked).1
  have hlive : Ideal.Holds False s.state i := by
    refine hi.live s ?_
    rw [world_watchQueue]
    exact hn
  rw [hlive.inFlight] at hm
  have hpresent : m.id = id ∧ Ideal.Present m i :=
    have hid := i.id_eq id m hm
    ⟨hid, Or.inr (hid ▸ hm)⟩
  -- it is present as long as no `ack` of its id returns `Ok`
  have hnoack : ¬ Acks order wal snap id (runQueue order wal snap cap before)
      (.call (.ack id) [fault]) := by
    rintro ⟨s₁, faults, hs₁, hcall, hok⟩
    obtain rfl : s₁ = s := Node.up.inj (hs₁.symm.trans hn)
    obtain rfl : faults = [fault] := by injection hcall.symm
    exact absurd (hfail.symm.trans hok) (by simp)
  obtain ⟨i₁, hi₁, hpresent₁⟩ := keeps_append hwal hsnap hnext hcond hi hpresent hcleanAcked
    ⟨hnoack, trivial⟩
  obtain ⟨i₂, hi₂, hpresent₂⟩ := keeps_append hwal hsnap hnext hcond hi₁ hpresent₁ hcleanBetween
    hbetween
  have hnoack' : ¬ Acks order wal snap id (runQueue order wal snap cap (acked ++ between))
      (.call (.nack id) [fault']) := by
    rintro ⟨_, _, -, hcall, -⟩
    cases hcall
  obtain ⟨i₃, hi₃, -, hpresent₃⟩ := keeps_append hwal hsnap hnext hcond hi₂ hpresent₂ hcleanNacked
    ⟨hnoack', trivial⟩
  -- and after the `nack` it is not in flight
  have hnacked : (watchQueue order wal snap cap nacked).world.node =
      .up (nack order wal snap s' id fault').2 := by
    rw [world_watchQueue, runQueue, Run.run_append]
    exact Pillar.node_call (fileBackedQueue order wal snap) (plan cap) hn' (.nack id) [fault']
  have hgone : i₃.inFlight m.id = none := by
    have hlive₃ : Ideal.Holds False _ i₃ := hi₃.live _ hnacked
    rw [hpresent.1, ← hlive₃.inFlight]
    exact lookup_nack hnack
  have hwaits : Ideal.Waits m i₃ := hpresent₃.resolve_right (by simp [hgone])
  rw [← hpresent.1] at hafter
  exact deliverableIn_append hwal hsnap hgood hi₃ hwaits hafter

theorem failedDequeueKeeps (hwal : ∀ r, wal.Faithful r) (hsnap : ∀ k, snap.Faithful k) :
    FailedDequeueKeeps order wal snap cap
      ((fileBackedQueue order wal snap).ReadsClean (plan cap)) := by
  intro before after tenant m s fault e failed hgood hn hm hfail hafter
  have hcleanFailed : Clean order wal snap cap failed := (Run.allSteps_append.mp hgood.1).1
  obtain ⟨i, hi⟩ := exists_keeps hwal hsnap (Run.allSteps_append.mp hcleanFailed).1
  have hlive : Ideal.Holds False s.state i := by
    refine hi.live s ?_
    rw [world_watchQueue]
    exact hn
  have hmem : m ∈ i.pending tenant := by
    rw [← hlive.pending]
    exact List.mem_of_mem_head? hm
  have hwaits : Ideal.Waits m i := by
    rw [Ideal.Waits, i.tenant_eq tenant m hmem]
    exact hmem
  have hno : ¬ Dequeues order wal snap m.id (runQueue order wal snap cap before)
      (.call (.dequeue tenant) [fault]) := by
    rintro ⟨s₁, tenant', faults, m', hs₁, hcall, -, hok⟩
    obtain rfl : s₁ = s := Node.up.inj (hs₁.symm.trans hn)
    obtain ⟨rfl, rfl⟩ : tenant' = tenant ∧ faults = [fault] := by
      injection hcall with hc hf
      exact ⟨(Call.dequeue.inj hc).symm, hf.symm⟩
    exact absurd (hfail.symm.trans hok) (by simp)
  obtain ⟨i₁, hi₁, hwaits₁⟩ := waits_append hwal hsnap hi hwaits hcleanFailed ⟨hno, trivial⟩
  exact deliverableIn_append hwal hsnap hgood hi₁ hwaits₁ hafter

/-- Failed acks and dequeues lose no message where the files are only read when nothing of a
failed append is left in them. -/
theorem failedAppends_lose_nothing (order : IterOrder TenantId (List Message))
    (hwal : ∀ r, wal.Faithful r) (hsnap : ∀ k, snap.Faithful k) (cap : Nat) :
    FailedAckKeeps order wal snap cap
        ((fileBackedQueue order wal snap).ReadsClean (plan cap)) ∧
      FailedDequeueKeeps order wal snap cap
        ((fileBackedQueue order wal snap).ReadsClean (plan cap)) :=
  ⟨failedAckKeeps hwal hsnap, failedDequeueKeeps hwal hsnap⟩

end Runs

/-- A dequeue of the job. -/
def dequeueJob : Call := .dequeue ⟨"acme"⟩

/-- The job. -/
def job : Message := ⟨⟨1⟩, ⟨"acme"⟩, [104, 105]⟩

/-- The snapshot of a queue with the job in flight. -/
def takenSnapshot : Snapshot := ⟨1, [], [⟨1, ⟨"acme"⟩, "6869"⟩]⟩

/-- The bytes of that snapshot. -/
def takenBytes : Bytes :=
  asBytes (chars "\x7b\"next_id\":1,\"pending\":[],\"in_flight\":[" rfl ++
    chars "\x7b\"id\":1,\"tenant\":\"acme\",\"payload_hex\":\"6869\"\x7d]\x7d" rfl)

/-- The state of the queue when the job is in flight. -/
def takenState : Inner where
  nextId := 1
  pending := putQueue jobOpen.state.pending ⟨"acme"⟩ (jobOpen.state.queue ⟨"acme"⟩).tail
  inFlight := (∅ : InFlight).insert ⟨1⟩ job
  total := 0

/-- Any order of iteration. -/
noncomputable abbrev anyOrder :
    IterOrder TenantId (List Message) × IterOrder MessageId Message :=
  (.unspecified _ _, .unspecified _ _)

theorem toWriter_taken :
    (FileSerde.single takenSnapshot takenBytes).toWriter (toSnapshot anyOrder takenState) =
      .ok takenBytes := by
  have hpending : takenState.pending = ∅ := by decide +kernel
  have hinFlight : anyOrder.2.entries takenState.inFlight = [(⟨1⟩, job)] :=
    anyOrder.2.entries_singleton fun id => by
      rw [takenState, lookup_insert_ite, Finmap.lookup_empty]
  have hcapture : toSnapshot anyOrder takenState = takenSnapshot := by
    rw [toSnapshot, hpending, IterOrder.entries_empty, hinFlight]
    decide +kernel
  rw [hcapture]
  exact FileSerde.single_toWriter _ _

/-- The queue after an enqueue, a dequeue and an ack whose fsync failed. -/
def unackedOpen : Store Inner where
  state := takenState
  snapshot := none
  tmp := none
  wal := ⟨[jobLines.rows[0], jobLines.rows[2], jobLines.rows[3]].flatMap fun e => wireLine e.2, []⟩

theorem run_unackedOpen : Run.run ((fileBackedQueue (.unspecified _ _) jobLines.serde
    (.single takenSnapshot takenBytes)).watch (plan 10)) (Watched.init _ _)
    [.openStore, .call enqueueJob [], .call dequeueJob [], .call (.ack ⟨1⟩) [.fsync "EIO"]] =
      ⟨⟨.up unackedOpen, [.enqueue 1 ⟨"acme"⟩ "6869", .dequeue 1]⟩, true⟩ := by
  rfl


/-- A queue that snapshots the job in flight. -/
noncomputable abbrev takenQueue : Pillar Inner WalRecord Snapshot EnqueueError
    (IterOrder TenantId (List Message) × IterOrder MessageId Message) :=
  fileBackedQueue (.unspecified _ _) jobLines.serde (.single takenSnapshot takenBytes)

/-- The queue after the next snapshot. -/
def savedOpen : Store Inner := ⟨takenState, some takenBytes, none, BufWriter.new []⟩

theorem watch_savedOpen (ledger : List WalRecord) : takenQueue.watch (plan 10)
    ⟨⟨.up unackedOpen, ledger⟩, true⟩ (.snapshot anyOrder) = ⟨⟨.up savedOpen, ledger⟩, false⟩ := by
  have hsnap := takenQueue.snapshot_of_ok (s := unackedOpen) toWriter_taken
  have hres : takenQueue.residueAfter (plan 10) ⟨⟨.up unackedOpen, ledger⟩, true⟩
      (.snapshot anyOrder) = false := by
    change (true && !(Except.isOk ((FileSerde.single takenSnapshot takenBytes).toWriter
      (toSnapshot anyOrder takenState)))) = false
    rw [toWriter_taken]
    rfl
  rw [Pillar.watch, hres]
  simp only [Pillar.step, hsnap]
  rfl

/-- The events up to the snapshot. -/
noncomputable abbrev savedEvents : List QueueEvent :=
  [.openStore, .call enqueueJob [], .call dequeueJob [], .call (.ack ⟨1⟩) [.fsync "EIO"],
    .snapshot anyOrder]

theorem run_savedOpen : Run.run (takenQueue.watch (plan 10)) (Watched.init _ _) savedEvents =
    ⟨⟨.up savedOpen, [.enqueue 1 ⟨"acme"⟩ "6869", .dequeue 1]⟩, false⟩ :=
  (congrArg (fun v => takenQueue.watch (plan 10) v (.snapshot anyOrder)) run_unackedOpen).trans
    (watch_savedOpen _)

theorem readsClean_saved :
    takenQueue.ReadsClean (plan 10) (savedEvents ++ [.call (.nack ⟨1⟩) [.none], .close]) := by
  have hsaved : Run.AllSteps (takenQueue.watch (plan 10)) Pillar.ClosesClean (Watched.init _ _)
      savedEvents := ⟨trivial, trivial, trivial, trivial, trivial, trivial⟩
  have hres : (Run.run (takenQueue.watch (plan 10)) ⟨⟨.up savedOpen, []⟩, false⟩
      [.call (.nack ⟨1⟩) [.none]]).residue = false := by decide +kernel
  rw [Pillar.ReadsClean, Run.allSteps_append, Run.run_append, run_savedOpen]
  exact ⟨⟨hsaved, trivial, hres, trivial⟩, hres⟩

/-- A snapshot between a failed `ack` and the `nack` keeps the job deliverable. -/
theorem deliverable_after_failed_ack :
    DeliverableIn (.unspecified _ _) jobLines.serde (.single takenSnapshot takenBytes)
      (runQueue (.unspecified _ _) jobLines.serde (.single takenSnapshot takenBytes) 10
        [.openStore, .call enqueueJob [], .call dequeueJob [], .call (.ack ⟨1⟩) [.fsync "EIO"],
          .snapshot anyOrder, .call (.nack ⟨1⟩) [.none], .close]) job := by
  have hack (w : World Inner WalRecord) : ¬ Acks (.unspecified _ _) jobLines.serde
      (.single takenSnapshot takenBytes) ⟨1⟩ w (.snapshot anyOrder) := by
    rintro ⟨_, _, -, hcall, -⟩
    cases hcall
  have hdequeue (w : World Inner WalRecord) : ¬ Dequeues (.unspecified _ _) jobLines.serde
      (.single takenSnapshot takenBytes) ⟨1⟩ w .close := by
    rintro ⟨_, _, _, _, -, hcall, -⟩
    cases hcall
  exact (failedAppends_lose_nothing (.unspecified _ _) jobLines.faithful
    (FileSerde.single_faithful _ _) 10).1
    [.openStore, .call enqueueJob [], .call dequeueJob []] [.snapshot anyOrder] [.close] ⟨1⟩ job
    _ _ _ _ _ readsClean_saved rfl rfl rfl ⟨hack _, trivial⟩
    (congrArg (fun v => v.world.node) run_savedOpen) rfl ⟨hdequeue _, trivial⟩

/-- A queue opened from a log of these lines has what their records make pending. -/
theorem queue_of_log (rows : List (WalRecord × Text))
    (hrows : ∀ e ∈ rows, jobLines.serde.toString e.1 = .ok e.2) {q : List Message}
    (hfold : ∃ d, (rows.map Prod.fst).foldlM (applyRecord (.unspecified _ _)) .empty = .ok d ∧
      d.queue ⟨"acme"⟩ = q) {f : Files} {s : Store Inner} (hsnap : f.snapshot = none)
    (hwal : f.wal.getD [] = rows.flatMap fun e => wireLine e.2)
    (hs : jobQueue.openWithFsyncBackend f = .ok s) : s.state.queue ⟨"acme"⟩ = q := by
  obtain ⟨d, hd, hq⟩ := hfold
  have hlog := jobLines.encodes hrows
  rw [← hwal] at hlog
  have hstate := jobQueue.state_of_encodes hsnap hlog hs
  change Except.map _ (List.foldlM (applyRecord (.unspecified _ _)) .empty _) = _ at hstate
  rw [hd] at hstate
  have hqueue : (jobQueue.settle d).queue ⟨"acme"⟩ = s.state.queue ⟨"acme"⟩ :=
    congrArg (fun s => Inner.queue s ⟨"acme"⟩) (Except.ok.inj hstate)
  exact hqueue.symm.trans hq

/-- Replay of an enqueue and a dequeue leaves the job in flight. -/
theorem replay_taken : ∃ d, List.foldlM (applyRecord (.unspecified _ _)) Inner.empty
    [.enqueue 1 ⟨"acme"⟩ "6869", .dequeue 1] = .ok d ∧ d.queue ⟨"acme"⟩ = [] := by
  let enqueued := Ideal.empty.enqueue Nat.zero_lt_one ⟨"acme"⟩ [104, 105]
  have henqueue : Ideal.Next .empty (.enqueue 1 ⟨"acme"⟩ "6869") enqueued :=
    .enqueue Nat.zero_lt_one ⟨"acme"⟩ [104, 105]
  have hfront : enqueued.pending ⟨"acme"⟩ = [job] := rfl
  have hempty : Ideal.Holds True .empty .empty := ⟨le_rfl, fun _ => rfl, fun _ => rfl, fun _ => rfl⟩
  have hpath : Replay.Path Ideal.Next .empty [.enqueue 1 ⟨"acme"⟩ "6869", .dequeue 1]
      (enqueued.dequeue hfront) := .snoc (.snoc (.nil _) henqueue) (.dequeue hfront)
  obtain ⟨d, hd, hholds⟩ := hpath.foldlM
    (fun _ _ _ _ hr hs => hs.applyRecord (.unspecified _ _) hr) hempty
  exact ⟨d, hd, hholds.pending _⟩

/-- Replay of an `Ack` and a `Nack` of the job after it leaves the job nowhere. -/
theorem replay_acked_nacked : ∃ d, List.foldlM (applyRecord (.unspecified _ _)) Inner.empty
    [.enqueue 1 ⟨"acme"⟩ "6869", .dequeue 1, .ack 1, .nack 1] = .ok d ∧
      d.queue ⟨"acme"⟩ = [] := by
  obtain ⟨d, hd, hq⟩ := replay_taken
  have hnack : applyRecord (.unspecified _ _) { d with inFlight := d.inFlight.erase ⟨1⟩ }
      (.nack 1) = .ok { d with inFlight := d.inFlight.erase ⟨1⟩ } := by
    simp only [applyRecord, Finmap.lookup_erase]
  refine ⟨{ d with inFlight := d.inFlight.erase ⟨1⟩ }, ?_, hq⟩
  have hsplit : [WalRecord.enqueue 1 ⟨"acme"⟩ "6869", .dequeue 1, .ack 1, .nack 1] =
      [.enqueue 1 ⟨"acme"⟩ "6869", .dequeue 1] ++ [.ack 1, .nack 1] := rfl
  rw [hsplit, List.foldlM_append, hd]
  change (applyRecord _ _ (.nack 1) >>= fun s => pure s) = _
  rw [hnack]
  rfl

/-- After an `ack` whose fsync failed, a `nack` that returned `Ok` loses the message, and so
does a `dequeue` whose fsync failed. -/
theorem not_failedAppends_lose_nothing :
    ¬ FailedAckKeeps (.unspecified _ _) jobLines.serde (.single ⟨0, [], []⟩ []) 10
        (fun events => ∀ e ∈ events, e.Crashless) ∧
      ¬ FailedDequeueKeeps (.unspecified _ _) jobLines.serde (.single ⟨0, [], []⟩ []) 10
        (fun events => ∀ e ∈ events, e.Crashless) := by
  constructor
  · intro h
    have hkept := h [.openStore, .call enqueueJob [], .call dequeueJob []] [] [] ⟨1⟩ job _ _
      (.fsync "EIO") .none _ (by decide) rfl rfl rfl trivial rfl rfl trivial
    obtain ⟨s', hs', hdeliverable⟩ := hkept.2 _ (Or.inl rfl)
    have hq := queue_of_log (jobLines.rows.eraseIdx 1) (by decide +kernel)
      replay_acked_nacked rfl rfl hs'
    have hmem : job ∈ s'.state.queue ⟨"acme"⟩ := hdeliverable.pending
    rw [hq] at hmem
    exact List.not_mem_nil hmem
  · intro h
    have hkept := h [.openStore, .call enqueueJob []] [] ⟨"acme"⟩ job _ (.fsync "EIO") _
      (by decide) rfl rfl rfl trivial
    obtain ⟨s', hs', hdeliverable⟩ := hkept.2 _ (Or.inl rfl)
    have hq := queue_of_log [jobLines.rows[0], jobLines.rows[2]] (by decide +kernel)
      replay_taken rfl rfl hs'
    have hmem : job ∈ s'.state.queue ⟨"acme"⟩ := hdeliverable.pending
    rw [hq] at hmem
    exact List.not_mem_nil hmem

end Kaleidoscope.Sluice
