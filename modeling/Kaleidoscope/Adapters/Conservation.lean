import Kaleidoscope.Adapters.Queue
import Kaleidoscope.Sluice.Book

/-!
# Conservation of messages

A message that was enqueued is pending with its tenant, in flight or acked, and in one of
these places only, after every series of calls, snapshots and reopens.
-/

namespace Kaleidoscope.Sluice

open Aegis HashMap

/-- What the callers' book and the state of the queue have in common. -/
structure Book.Conserved (b : Book) (s : Inner) : Prop where
  /-- Ids grow, so none is handed out again. -/
  increasing : b.enqueued.Pairwise fun m m' => m.id.id < m'.id.id
  /-- Every enqueued message is once in the queue of its tenant, in flight or acked. -/
  placed : ∀ m ∈ b.enqueued,
    (s.queue m.tenant).count m + (s.inFlight.lookup m.id).toList.count m + b.acked.count m = 1
  /-- Nothing else is pending, and nothing under another tenant. -/
  pending : ∀ t, ∀ m ∈ s.queue t, m.tenant = t ∧ m ∈ b.enqueued
  /-- Nothing else is in flight, and nothing under another id. -/
  inFlight : ∀ id m, s.inFlight.lookup id = some m → m.id = id ∧ m ∈ b.enqueued
  /-- The total is the sum of the lengths of all queues. -/
  total : s.total = countPending s.pending
  /-- A message can always be taken off the total. -/
  covered : ∀ t, (s.queue t).length ≤ s.total
  /-- A tenant is handed its own messages only. -/
  delivered : ∀ e ∈ b.delivered, e.2.tenant = e.1 ∧ e.2 ∈ b.enqueued
  /-- Those that no `nack` put back come in the order in which they were enqueued. -/
  inOrder : ∀ t, b.unreturned (b.enqueuedFor t) =
    b.unreturned (b.deliveredTo t) ++ b.unreturned (s.queue t)

theorem Tracks.conserved_of_counted {b : Book} {s : Inner} (h : Tracks b s.view)
    (hcounted : s.Counted) : b.Conserved s where
  increasing := h.increasing
  placed _ hm := h.count_eq_one hm
  pending t m hm := ⟨h.own t m hm, h.mem_enqueued_of_queue hm⟩
  inFlight id m hm :=
    have hheld := (h.inFlight id m).mp hm
    ⟨hheld.2, h.mem_enqueued_of_held hheld.1⟩
  total := hcounted
  covered t := by
    rw [hcounted]
    exact length_queue_le s t
  delivered := h.delivered
  inOrder := h.inOrder

section FileBacked

variable (order : IterOrder TenantId (List Message)) (wal : LineSerde WalRecord)
  (snap : FileSerde Snapshot) (cap : Nat)

/-- The file-backed queue and the book of its callers. -/
def observe (w : Node Inner × Book) (a : Action Request SnapshotOrder) : Node Inner × Book :=
  ((fileBackedQueue order wal snap).perform (fileBackedPort order wal snap cap).ask w.1 a,
    match a, Pillar.reply (fileBackedPort order wal snap cap).ask w.1 a with
    | .request r, some answer => w.2.note r answer
    | _, _ => w.2)

/-- The queue is in service, and its book balances. -/
def Balanced (w : Node Inner × Book) : Prop :=
  ∃ s ledger i, w.1 = .up s ∧ (refinement order wal snap True).InService ledger s i ∧
    s.state.Counted ∧ Tracks w.2 s.state.view

variable {order wal snap cap}

/-- Every action keeps the balance. -/
theorem Balanced.observe (hwal : ∀ r, wal.Faithful r) (hsnap : ∀ k, snap.Faithful k)
    {w : Node Inner × Book} {a : Action Request SnapshotOrder} (h : Balanced order wal snap w)
    (henc : (fileBackedQueue order wal snap).Serialises (requestPlan cap) w.1 a) :
    Balanced order wal snap (Sluice.observe order wal snap cap w a) := by
  obtain ⟨n, b⟩ := w
  obtain ⟨s, ledger, i, hn, hservice, hcounted, htracks⟩ := h
  obtain rfl : n = .up s := hn
  cases a with
  | request r =>
    obtain ⟨hanswer, hstate, ledger', j, hservice'⟩ := fileBackedPort_ask hwal hsnap hservice henc
    have hview := view_ask cap s.state r
    rw [← hanswer, ← hstate, Prod.mk.injEq] at hview
    refine ⟨_, ledger', j, rfl, hservice', ?_, ?_⟩
    · rw [hstate]
      exact hcounted.ask cap r
    · have hnext := htracks.ask cap r
      rw [← hview.1, ← hview.2] at hnext
      exact hnext
  | snapshot order' =>
    obtain ⟨j, -, hservice'⟩ := hservice.snapshot (restores order wal snap True hsnap) order'
    refine ⟨_, ledger, j, rfl, hservice', ?_⟩
    rw [Pillar.state_snapshot]
    exact ⟨hcounted, htracks⟩
  | reopen =>
    obtain ⟨d, s', hd, hopen, hstate, hservice'⟩ := hservice.reopen
    obtain ⟨hview, hcounted'⟩ := view_reopened hservice.live hd hcounted
    rw [← hstate] at hview hcounted'
    exact ⟨s', ledger, i, hopen, hservice', hcounted', hview ▸ htracks⟩

end FileBacked

/-- For every cap and every series of calls, snapshots and reopens, the file-backed queue is
open at its end and holds what its callers enqueued and did not ack, each message in one
place. -/
theorem messages_conserved {order : IterOrder TenantId (List Message)}
    {wal : LineSerde WalRecord} {snap : FileSerde Snapshot} (hwal : ∀ r, wal.Faithful r)
    (hsnap : ∀ k, snap.Faithful k) (cap : Nat) (actions : List (Action Request SnapshotOrder))
    (h : Run.AllSteps ((fileBackedQueue order wal snap).perform
        (fileBackedPort order wal snap cap).ask)
      ((fileBackedQueue order wal snap).Serialises (requestPlan cap))
      ((fileBackedQueue order wal snap).openNode .none) actions) :
    ∃ s b, Run.run (observe order wal snap cap)
        ((fileBackedQueue order wal snap).openNode .none, .empty) actions = (.up s, b) ∧
      b.Conserved s.state := by
  have hobserved : Run.AllSteps (observe order wal snap cap)
      (fun w a => (fileBackedQueue order wal snap).Serialises (requestPlan cap) w.1 a)
      ((fileBackedQueue order wal snap).openNode .none, .empty) actions :=
    h.preimage (f := Prod.fst) fun _ _ => rfl
  have hinit : Balanced order wal snap
      ((fileBackedQueue order wal snap).openNode .none, .empty) :=
    ⟨_, [], .empty, rfl, (refinement order wal snap True).inService_new, rfl, tracks_empty⟩
  obtain ⟨s, ledger, i, hs, -, hcounted, htracks⟩ :=
    hobserved.invariant (fun _ _ hw he => hw.observe hwal hsnap he) hinit
  exact ⟨s, _, Prod.ext hs rfl, htracks.conserved_of_counted hcounted⟩

/-- The queue with room for two messages conserves both, the one that its consumer returns as
well. -/
theorem jobActions_conserved : ∃ s b,
    Run.run (observe (.unspecified _ _) jobLines.serde (.single takenOneSnapshot takenOneBytes) 2)
      (takenOneQueue.openNode .none, .empty) jobActions = (.up s, b) ∧ b.Conserved s.state :=
  messages_conserved jobLines.faithful (FileSerde.single_faithful _ _) 2 jobActions
    serialises_jobActions

end Kaleidoscope.Sluice
