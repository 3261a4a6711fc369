import Kaleidoscope.Adapters.Queue

/-!
# The bound of a queue

Only `enqueue` looks at the cap: a `nack` puts its message back whether there is room or not.
-/

namespace Kaleidoscope.Sluice

open Aegis HashMap

/-- No tenant has more pending messages than the cap. -/
def Queue.WithinCap {S : Type} (queue : Queue S) (cap : Nat) (s : S) : Prop :=
  ∀ tenant, queue.depth s tenant ≤ cap

/-- A call is not a `nack` of a message in flight to a tenant without room. -/
def NackFits (cap : Nat) (s : Inner) : Request → Prop
  | .nack id => ∀ message ∈ s.inFlight.lookup id, (s.queue message.tenant).length < cap
  | _ => True

instance (cap : Nat) (s : Inner) : DecidablePred (NackFits cap s) := by
  intro r
  cases r <;> unfold NackFits <;> infer_instance

/-- From within the cap a call stays within it exactly when it is no such `nack`. -/
theorem withinCap_ask_iff {cap : Nat} {s : Inner} (h : (inMemoryQueue cap).WithinCap cap s)
    (r : Request) : (inMemoryQueue cap).WithinCap cap ((inMemoryQueue cap).ask s r).2 ↔
      NackFits cap s r := by
  have hview : ((inMemoryQueue cap).ask s r).2.view = (s.view.ask cap r).2 :=
    congrArg Prod.snd (view_ask cap s r)
  have hqueue (t : TenantId) : ((inMemoryQueue cap).ask s r).2.queue t =
      (s.view.ask cap r).2.queue t := congrFun (congrArg View.queue hview) t
  change (∀ t, (((inMemoryQueue cap).ask s r).2.queue t).length ≤ cap) ↔ _
  simp only [hqueue]
  cases r with
  | enqueue tenant payload =>
    refine iff_of_true (fun t => ?_) trivial
    rw [View.ask]
    split_ifs with hfull
    · exact h t
    · simp only [Function.update_apply]
      split_ifs with ht
      · rw [List.length_append, List.length_singleton]
        omega
      · exact h t
  | dequeue tenant =>
    refine iff_of_true (fun t => ?_) trivial
    rw [View.ask]
    rcases hq : s.view.queue tenant with _ | ⟨message, queue⟩
    · exact h t
    · have hle : (s.view.queue tenant).length ≤ cap := h tenant
      simp only [Function.update_apply]
      split_ifs with ht
      · rw [hq, List.length_cons] at hle
        omega
      · exact h t
  | nack id =>
    rw [View.ask, NackFits]
    change _ ↔ ∀ message ∈ s.view.inFlight id, (s.view.queue message.tenant).length < cap
    cases hm : s.view.inFlight id with
    | none => exact iff_of_true h (by simp)
    | some message =>
      simp only [Option.mem_some_iff, forall_eq']
      constructor
      · intro hall
        have hlen := hall message.tenant
        rw [Function.update_self, List.length_cons] at hlen
        exact hlen
      · intro hroom t
        rw [Function.update_apply]
        split_ifs with ht
        · exact hroom
        · exact h t
  | _ => exact iff_of_true h trivial

section FileBacked

variable (order : IterOrder TenantId (List Message)) (wal : LineSerde WalRecord)
  (snap : FileSerde Snapshot) (cap : Nat)

/-- An action leaves an open queue within the cap. -/
def LeavesWithinCap (n : Node Inner) (a : Action Request SnapshotOrder) : Prop :=
  match (fileBackedQueue order wal snap).perform (fileBackedPort order wal snap cap).ask n a with
  | .up s => (fileBackedPort order wal snap cap).WithinCap cap s
  | .down _ => True

/-- An action is not a `nack` of a message in flight to a tenant without room. -/
def ActionFits (n : Node Inner) (a : Action Request SnapshotOrder) : Prop :=
  match n, a with
  | .up s, .request r => NackFits cap s.state r
  | _, _ => True

instance (n : Node Inner) (a : Action Request SnapshotOrder) :
    Decidable (ActionFits cap n a) := by
  unfold ActionFits
  split <;> infer_instance

variable {order wal snap cap}

/-- A queue in service within the cap. -/
def ServesWithinCap (order : IterOrder TenantId (List Message)) (wal : LineSerde WalRecord)
    (snap : FileSerde Snapshot) (cap : Nat) (n : Node Inner) : Prop :=
  ∃ s ledger i, n = .up s ∧ (refinement order wal snap True).InService ledger s i ∧
    s.state.Counted ∧ (inMemoryQueue cap).WithinCap cap s.state

/-- From within the cap an action leaves the file-backed queue within it exactly when it fits. -/
theorem leavesWithinCap_iff (hwal : ∀ r, wal.Faithful r) (hsnap : ∀ k, snap.Faithful k)
    {n : Node Inner} {a : Action Request SnapshotOrder} (h : ServesWithinCap order wal snap cap n)
    (henc : (fileBackedQueue order wal snap).Serialises (requestPlan cap) n a) :
    (LeavesWithinCap order wal snap cap n a ↔ ActionFits cap n a) ∧
      (LeavesWithinCap order wal snap cap n a →
        ServesWithinCap order wal snap cap ((fileBackedQueue order wal snap).perform
          (fileBackedPort order wal snap cap).ask n a)) := by
  obtain ⟨s, ledger, i, rfl, hservice, hcounted, hwithin⟩ := h
  cases a with
  | request r =>
    obtain ⟨-, hstate, ledger', j, hservice'⟩ := fileBackedPort_ask hwal hsnap hservice henc
    have hleaves : LeavesWithinCap order wal snap cap (.up s) (.request r) ↔
        (inMemoryQueue cap).WithinCap cap ((inMemoryQueue cap).ask s.state r).2 := by
      rw [← hstate]
      rfl
    refine ⟨hleaves.trans (withinCap_ask_iff hwithin r), fun hnext =>
      ⟨_, ledger', j, rfl, hservice', ?_, ?_⟩⟩
    · rw [hstate]
      exact hcounted.ask cap r
    · exact hnext
  | snapshot order' =>
    obtain ⟨j, -, hservice'⟩ := hservice.snapshot (restores order wal snap True hsnap) order'
    have hstate := (fileBackedQueue order wal snap).state_snapshot order' s
    have hnext : (inMemoryQueue cap).WithinCap cap
        ((fileBackedQueue order wal snap).snapshot order' s).2.state := hstate ▸ hwithin
    exact ⟨iff_of_true hnext trivial, fun _ =>
      ⟨_, ledger, j, rfl, hservice', hstate ▸ hcounted, hnext⟩⟩
  | reopen =>
    obtain ⟨d, s', hd, hopen, hstate, hservice'⟩ := hservice.reopen
    obtain ⟨hview, hcounted'⟩ := view_reopened hservice.live hd hcounted
    rw [← hstate] at hview hcounted'
    have hnext : (inMemoryQueue cap).WithinCap cap s'.state := fun tenant => by
      have hqueue : s'.state.queue tenant = s.state.queue tenant :=
        congrFun (congrArg View.queue hview) tenant
      change (s'.state.queue tenant).length ≤ cap
      rw [hqueue]
      exact hwithin tenant
    have hleaves : LeavesWithinCap order wal snap cap (.up s) .reopen := by
      rw [LeavesWithinCap, Pillar.perform, hopen]
      exact hnext
    exact ⟨iff_of_true hleaves trivial, fun _ =>
      ⟨s', ledger, i, hopen, hservice', hcounted', hnext⟩⟩

end FileBacked

/-- In a run of either queue no tenant ever has more pending messages than the cap exactly when
every `nack` of a message in flight finds its tenant with room. -/
theorem withinCap_iff_nacksFit {order : IterOrder TenantId (List Message)}
    {wal : LineSerde WalRecord} {snap : FileSerde Snapshot} (hwal : ∀ r, wal.Faithful r)
    (hsnap : ∀ k, snap.Faithful k) (cap : Nat) :
    (∀ requests : List Request,
      Run.AllSteps (fun s r => ((inMemoryQueue cap).ask s r).2)
          (fun s r => (inMemoryQueue cap).WithinCap cap ((inMemoryQueue cap).ask s r).2)
          .empty requests ↔
        Run.AllSteps (fun s r => ((inMemoryQueue cap).ask s r).2) (NackFits cap) .empty
          requests) ∧
    ∀ actions : List (Action Request SnapshotOrder),
      Run.AllSteps ((fileBackedQueue order wal snap).perform
          (fileBackedPort order wal snap cap).ask)
        ((fileBackedQueue order wal snap).Serialises (requestPlan cap))
        ((fileBackedQueue order wal snap).openNode .none) actions →
      (Run.AllSteps ((fileBackedQueue order wal snap).perform
            (fileBackedPort order wal snap cap).ask) (LeavesWithinCap order wal snap cap)
          ((fileBackedQueue order wal snap).openNode .none) actions ↔
        Run.AllSteps ((fileBackedQueue order wal snap).perform
            (fileBackedPort order wal snap cap).ask) (ActionFits cap)
          ((fileBackedQueue order wal snap).openNode .none) actions) := by
  constructor
  · intro requests
    have hall : Run.AllSteps (fun s r => ((inMemoryQueue cap).ask s r).2) (fun _ _ => True)
        .empty requests := Run.allSteps_of_forall (fun _ _ => trivial) _ _
    exact hall.iff_of (fun s r (hs : (inMemoryQueue cap).WithinCap cap s) _ =>
      ⟨withinCap_ask_iff hs r, id⟩) fun _ => Nat.zero_le _
  · intro actions h
    exact h.iff_of (fun n a hn henc => leavesWithinCap_iff hwal hsnap hn henc)
      ⟨_, [], .empty, rfl, (refinement order wal snap True).inService_new, rfl,
        fun _ => Nat.zero_le _⟩

/-- A consumer takes the only message of a full queue, a producer fills the room, and the
consumer returns the message. -/
def overfill : List Request :=
  [.enqueue ⟨"acme"⟩ [104, 105], .dequeue ⟨"acme"⟩, .enqueue ⟨"acme"⟩ [104, 105], .nack ⟨1⟩]

/-- With room for one message both queues then hold two. -/
theorem nack_exceeds_cap :
    (inMemoryQueue 1).depth
        (Run.run (fun s r => ((inMemoryQueue 1).ask s r).2) .empty overfill) ⟨"acme"⟩ = 2 ∧
      Pillar.reply
          (fileBackedPort (.unspecified _ _) jobLines.serde (.single ⟨0, [], []⟩ []) 1).ask
          (Run.run (jobQueue.perform (fileBackedPort (.unspecified _ _) jobLines.serde
              (.single ⟨0, [], []⟩ []) 1).ask)
            (jobQueue.openNode .none) (overfill.map .request))
          (.request (.depth ⟨"acme"⟩) : Action Request SnapshotOrder) = some (.depth 2) := by
  decide +kernel

theorem actionFits_jobActions : Run.AllSteps (takenOneQueue.perform takenOnePort.ask)
    (ActionFits 2) (takenOneQueue.openNode .none) jobActions :=
  takenOneQueue.allSteps_snapshot _ run_jobRequests (toWriter_takenOneOpen _) (by decide +kernel)
    trivial (by decide +kernel)

/-- A `nack` that finds room leaves both queues within the cap. -/
theorem jobActions_withinCap :
    Run.AllSteps (fun s r => ((inMemoryQueue 2).ask s r).2)
        (fun s r => (inMemoryQueue 2).WithinCap 2 ((inMemoryQueue 2).ask s r).2) .empty
        [.enqueue ⟨"acme"⟩ [104, 105], .enqueue ⟨"acme"⟩ [104, 105], .dequeue ⟨"acme"⟩,
          .nack ⟨1⟩] ∧
      Run.AllSteps (takenOneQueue.perform takenOnePort.ask)
        (LeavesWithinCap (.unspecified _ _) jobLines.serde
          (.single takenOneSnapshot takenOneBytes) 2)
        (takenOneQueue.openNode .none) jobActions := by
  obtain ⟨hmemory, hfiles⟩ := @withinCap_iff_nacksFit (.unspecified _ _) _ _ jobLines.faithful
    (FileSerde.single_faithful takenOneSnapshot takenOneBytes) 2
  exact ⟨(hmemory _).mpr (by decide +kernel),
    (hfiles jobActions serialises_jobActions).mpr actionFits_jobActions⟩

end Kaleidoscope.Sluice
