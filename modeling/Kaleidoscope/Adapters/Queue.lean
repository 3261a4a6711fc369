import Kaleidoscope.Durability.StrictTail
import Kaleidoscope.Sluice.View

/-!
# The two queues

The file-backed queue answers every call as the in-memory queue does, however often it is
snapshotted and reopened.
-/

namespace Kaleidoscope.Sluice

open Aegis HashMap Utf8

/-- The orders in which a snapshot visits the two maps. -/
abbrev SnapshotOrder := IterOrder TenantId (List Message) × IterOrder MessageId Message

section FileBacked

variable {order : IterOrder TenantId (List Message)} {wal : LineSerde WalRecord}
  {snap : FileSerde Snapshot}

/-- The file-backed queue looks as the in-memory queue does. -/
def LooksAlike (s m : Inner) : Prop := m.view = s.view ∧ s.Counted

/-- Call by call the file-backed queue answers as the in-memory queue, and at the end they
look alike. -/
theorem fileBackedPort_simulates (hwal : ∀ r, wal.Faithful r) (hsnap : ∀ k, snap.Faithful k)
    (cap : Nat) {actions : List (Action Request SnapshotOrder)}
    (h : Run.AllSteps ((fileBackedQueue order wal snap).perform
        (fileBackedPort order wal snap cap).ask)
      ((fileBackedQueue order wal snap).Serialises (requestPlan cap))
      ((fileBackedQueue order wal snap).openNode .none) actions) :
    Run.transcript ((fileBackedQueue order wal snap).perform
          (fileBackedPort order wal snap cap).ask)
        (Pillar.reply (fileBackedPort order wal snap cap).ask)
        ((fileBackedQueue order wal snap).openNode .none) actions =
      Run.transcript (Action.perform (inMemoryQueue cap).ask)
        (Action.reply (inMemoryQueue cap).ask) .empty actions ∧
    (refinement order wal snap True).Agrees LooksAlike
      (Run.run ((fileBackedQueue order wal snap).perform
        (fileBackedPort order wal snap cap).ask)
        ((fileBackedQueue order wal snap).openNode .none) actions)
      (Run.run (Action.perform (inMemoryQueue cap).ask) .empty actions) := by
  refine (refinement order wal snap True).simulates _ _ (restores order wal snap True hsnap)
    (fun {ledger s i m r} hservice hagree henc => ?_) (fun hlive hdisk hagree => ?_) ⟨rfl, rfl⟩ h
  · obtain ⟨hanswer, hstate, hnext⟩ := fileBackedPort_ask hwal hsnap hservice henc
    have hs := view_ask cap s.state r
    have hm := view_ask cap m r
    rw [hagree.1, ← hs, Prod.mk.injEq] at hm
    rw [hanswer, hstate]
    exact ⟨hm.1.symm, ⟨hm.2, hagree.2.ask cap r⟩, hnext⟩
  · obtain ⟨hview, hcounted⟩ := view_reopened hlive hdisk hagree.2
    exact ⟨hagree.1.trans hview.symm, hcounted⟩

end FileBacked

/-- For every cap and every series of calls, with snapshots and reopens anywhere between them,
both queues return the same, ids and refusals included. -/
theorem queues_answer_alike {order : IterOrder TenantId (List Message)}
    {wal : LineSerde WalRecord} {snap : FileSerde Snapshot} (hwal : ∀ r, wal.Faithful r)
    (hsnap : ∀ k, snap.Faithful k) (cap : Nat) (actions : List (Action Request SnapshotOrder))
    (h : Run.AllSteps ((fileBackedQueue order wal snap).perform
        (fileBackedPort order wal snap cap).ask)
      ((fileBackedQueue order wal snap).Serialises (requestPlan cap))
      ((fileBackedQueue order wal snap).openNode .none) actions) :
    Run.transcript ((fileBackedQueue order wal snap).perform
          (fileBackedPort order wal snap cap).ask)
        (Pillar.reply (fileBackedPort order wal snap cap).ask)
        ((fileBackedQueue order wal snap).openNode .none) actions =
      Run.transcript (Action.perform (inMemoryQueue cap).ask)
        (Action.reply (inMemoryQueue cap).ask) .empty actions :=
  (fileBackedPort_simulates hwal hsnap cap h).1

/-- The snapshot of a queue with a pending message and one in flight. -/
def takenOneSnapshot : Snapshot :=
  ⟨2, [⟨⟨"acme"⟩, [⟨2, ⟨"acme"⟩, "6869"⟩]⟩], [⟨1, ⟨"acme"⟩, "6869"⟩]⟩

/-- The bytes of that snapshot. -/
def takenOneBytes : Bytes :=
  asBytes (chars "\x7b\"next_id\":2,\"pending\":[\x7b\"tenant\":\"acme\",\"messages\":[" rfl ++
    chars "\x7b\"id\":2,\"tenant\":\"acme\",\"payload_hex\":\"6869\"\x7d]\x7d]," rfl ++
    chars "\"in_flight\":[\x7b\"id\":1,\"tenant\":\"acme\"," rfl ++
    chars "\"payload_hex\":\"6869\"\x7d]\x7d" rfl)

/-- A queue for these messages and for that snapshot. -/
noncomputable abbrev takenOneQueue : Pillar Inner WalRecord Snapshot EnqueueError SnapshotOrder :=
  fileBackedQueue (.unspecified _ _) jobLines.serde (.single takenOneSnapshot takenOneBytes)

/-- The port of that queue, with room for two messages. -/
noncomputable abbrev takenOnePort : Queue (Store Inner) :=
  fileBackedPort (.unspecified _ _) jobLines.serde (.single takenOneSnapshot takenOneBytes) 2

/-- The requests of a producer that fills the queue and is refused, and of a consumer, with a
reopen between them. -/
def jobRequests : List (Action Request SnapshotOrder) :=
  [.request (.enqueue ⟨"acme"⟩ [104, 105]), .request (.enqueue ⟨"acme"⟩ [104, 105]),
    .request (.enqueue ⟨"acme"⟩ [104, 105]), .reopen, .request (.dequeue ⟨"acme"⟩)]

/-- The consumer returns its message to the queue, which is reopened from its snapshot. -/
def jobReturn : List (Action Request SnapshotOrder) :=
  [.reopen, .request (.nack ⟨1⟩), .request .totalDepth]

/-- A snapshot comes between these. -/
noncomputable def jobActions : List (Action Request SnapshotOrder) :=
  jobRequests ++ .snapshot (.unspecified _ _, .unspecified _ _) :: jobReturn

/-- The queue when the snapshot is taken. -/
def takenOneOpen : Store Inner where
  state :=
    { nextId := 2
      pending := (∅ : Pending).insert ⟨"acme"⟩ [⟨⟨2⟩, ⟨"acme"⟩, [104, 105]⟩]
      inFlight := (∅ : InFlight).insert ⟨1⟩ ⟨⟨1⟩, ⟨"acme"⟩, [104, 105]⟩
      total := 1 }
  snapshot := none
  tmp := none
  wal := ⟨(jobLines.rows.take 3).flatMap fun e => wireLine e.2, []⟩

theorem run_jobRequests : Run.run (takenOneQueue.perform takenOnePort.ask)
    (takenOneQueue.openNode .none) jobRequests = .up takenOneOpen := by rfl

theorem toWriter_takenOneOpen (order : SnapshotOrder) :
    takenOneQueue.snapSerde.toWriter (takenOneQueue.capture order takenOneOpen.state) =
      .ok takenOneBytes := by
  have hpending : order.1.entries takenOneOpen.state.pending =
      [(⟨"acme"⟩, [⟨⟨2⟩, ⟨"acme"⟩, [104, 105]⟩])] :=
    order.1.entries_singleton fun tenant => by
      rw [takenOneOpen, lookup_insert_ite, Finmap.lookup_empty]
  have hinFlight : order.2.entries takenOneOpen.state.inFlight =
      [(⟨1⟩, ⟨⟨1⟩, ⟨"acme"⟩, [104, 105]⟩)] :=
    order.2.entries_singleton fun id => by
      rw [takenOneOpen, lookup_insert_ite, Finmap.lookup_empty]
  have hcapture : toSnapshot order takenOneOpen.state = takenOneSnapshot := by
    rw [toSnapshot, hpending, hinFlight]
    decide +kernel
  exact (congrArg _ hcapture).trans (FileSerde.single_toWriter _ _)

theorem serialises_jobActions : Run.AllSteps (takenOneQueue.perform takenOnePort.ask)
    (takenOneQueue.Serialises (requestPlan 2)) (takenOneQueue.openNode .none) jobActions :=
  takenOneQueue.allSteps_snapshot _ run_jobRequests (toWriter_takenOneOpen _) (by decide +kernel)
    trivial (by decide +kernel)

/-- The queue with room for two messages answers them as the in-memory queue does. -/
theorem jobActions_answered_alike :
    Run.transcript (takenOneQueue.perform takenOnePort.ask) (Pillar.reply takenOnePort.ask)
        (takenOneQueue.openNode .none) jobActions =
      Run.transcript (Action.perform (inMemoryQueue 2).ask)
        (Action.reply (inMemoryQueue 2).ask) .empty jobActions :=
  queues_answer_alike jobLines.faithful (FileSerde.single_faithful _ _) 2 jobActions
    serialises_jobActions

end Kaleidoscope.Sluice
