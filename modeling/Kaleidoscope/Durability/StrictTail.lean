import Kaleidoscope.Sluice.Ideal
import Kaleidoscope.Strata.FileBacked
import Kaleidoscope.Wal.Table

/-!
# Crashes inside appends to logs that forgive nothing

The queue and the profile store read their logs line by line. They recover every
acknowledged operation as long as no crash tears the text of a record and no record is
appended behind an unfinished line.
-/

namespace Kaleidoscope

open Aegis HashMap StableSort Replay

section Conditions

variable {σ ρ κ ε ω C : Type}

/-- Snapshots, and crashes that leave none or all of the text of a record, every append to a
log that is empty or ends in a newline. -/
def WholeCrashes (P : Pillar σ ρ κ ε ω) (plan : C → σ → Plan σ ρ) (w : World σ ρ)
    (e : Event C ω) : Prop :=
  e.CrashOrSnapshot ∧ Pillar.AppendsTerminated plan w e ∧ P.CrashesWhole plan w e

instance (P : Pillar σ ρ κ ε ω) (plan : C → σ → Plan σ ρ) (w : World σ ρ) (e : Event C ω) :
    Decidable (WholeCrashes P plan w e) := inferInstanceAs (Decidable (_ ∧ _ ∧ _))

end Conditions

namespace Strata

/-- A state holds the profiles of a ledger, those of each service in the order of time. -/
def HoldsLedger (perService : PerService) (ledger : List WalRecord) : Prop :=
  ∀ key, bucket perService key = sortBucket (valuesAt key (ledger.flatMap WalRecord.items))

theorem recovers {wal : LineSerde WalRecord} {snap : FileSerde Snapshot}
    (hwal : ∀ r, wal.Faithful r) (hsnap : ∀ k, snap.Faithful k) :
    (fileBackedProfileStore wal snap).Recovers plan
      (WholeCrashes (fileBackedProfileStore wal snap) plan) HoldsLedger := by
  refine ((appendOnly wal snap).recovers fun w e he =>
    (appendOnly wal snap).refinement.sound_of_crashesWhole ((appendOnly wal snap).restores hsnap)
      (fun c s i h => (legal wal snap hwal c [] s i h).2)
      (fun _ _ h => legal wal snap hwal _ [] _ _ h) he.1 he.2.1 he.2.2).mono ?_
  intro perService ledger h key
  exact (sortByKey_of_pairwise _ (h.2 key)).symm.trans (h.1 key)

end Strata

namespace Sluice

/-- A state is the queue that the operations of a ledger make. -/
def HoldsLedger (s : Inner) (ledger : List WalRecord) : Prop :=
  ∃ i, Path Ideal.Next .empty ledger i ∧ Ideal.Holds True s i

theorem recovers (order : IterOrder TenantId (List Message)) {wal : LineSerde WalRecord}
    {snap : FileSerde Snapshot} (hwal : ∀ r, wal.Faithful r) (hsnap : ∀ k, snap.Faithful k)
    (cap : Nat) :
    (fileBackedQueue order wal snap).Recovers (plan cap)
      (fun w e => WholeCrashes (fileBackedQueue order wal snap) (plan cap) w e ∧
        (fileBackedQueue order wal snap).CallsEncodable (plan cap) w e) HoldsLedger := by
  let R := refinement order wal snap True
  refine R.recovers (fun _ => .mono fun w e he =>
    R.sound_of_crashesWhole (restores order wal snap True hsnap)
      (fun c s i h => legalSteps hwal cap c h) (fun {s c i} hn hcall h => ?_) he.1.1 he.1.2.1
      he.1.2.2) fun {ledger i d} hreach hd => ?_
  · obtain ⟨node, ledger⟩ := w
    obtain rfl : node = .up s := hn
    subst hcall
    exact legal hwal cap c h fun _ hne => Pillar.Encodable.firstSucceeds he.2 hne
  · exact ⟨i, hreach.path.mono fun _ _ _ hr => hr.2, R.settle_live hd⟩

end Sluice

/-- Acknowledged messages and profiles survive crashes that leave none or all of the text of
a record, as long as every append finds a log that is empty or ends in a newline. -/
theorem acknowledgedOperations_survive_wholeCrashes (cap : Nat) :
    (∀ order wal snap, (∀ r, wal.Faithful r) → (∀ k, snap.Faithful k) →
      (Sluice.fileBackedQueue order wal snap).Recovers (Sluice.plan cap)
        (fun w e => WholeCrashes (Sluice.fileBackedQueue order wal snap) (Sluice.plan cap) w e ∧
          (Sluice.fileBackedQueue order wal snap).CallsEncodable (Sluice.plan cap) w e)
        Sluice.HoldsLedger) ∧
    (∀ wal snap, (∀ r, wal.Faithful r) → (∀ k, snap.Faithful k) →
      (Strata.fileBackedProfileStore wal snap).Recovers Strata.plan
        (WholeCrashes (Strata.fileBackedProfileStore wal snap) Strata.plan)
        Strata.HoldsLedger) :=
  ⟨fun order _ _ hwal hsnap => Sluice.recovers order hwal hsnap cap,
    fun _ _ hwal hsnap => Strata.recovers hwal hsnap⟩

namespace Sluice

/-- The JSON of log lines that enqueue two messages and settle the first. -/
def jobLines : LineTable WalRecord where
  rows :=
    [(.enqueue 1 ⟨"acme"⟩ "6869",
      chars "\x7b\"op\":\"enqueue\",\"id\":1,\"tenant\":\"acme\",\"payload_hex\":\"6869\"\x7d" rfl),
      (.enqueue 2 ⟨"acme"⟩ "6869",
      chars "\x7b\"op\":\"enqueue\",\"id\":2,\"tenant\":\"acme\",\"payload_hex\":\"6869\"\x7d" rfl),
      (.dequeue 1, chars "\x7b\"op\":\"dequeue\",\"id\":1\x7d" rfl),
      (.ack 1, chars "\x7b\"op\":\"ack\",\"id\":1\x7d" rfl),
      (.nack 1, chars "\x7b\"op\":\"nack\",\"id\":1\x7d" rfl)]
  ascii := by decide +kernel
  oneLine := by decide +kernel
  prefixFree := by decide +kernel

/-- A queue for these messages. -/
noncomputable def jobQueue : Pillar Inner WalRecord Snapshot EnqueueError
    (IterOrder TenantId (List Message) × IterOrder MessageId Message) :=
  fileBackedQueue (.unspecified _ _) jobLines.serde (.single ⟨0, [], []⟩ [])

/-- An enqueue of the payload of these messages. -/
def enqueueJob : Call := .enqueue ⟨"acme"⟩ [104, 105]

/-- After an enqueue and a crash before the next one reaches the log, the queue opens. -/
theorem opens_after_unwritten_enqueue :
    jobQueue.opens (Run.run (jobQueue.step (plan 10)) (World.init _ _)
      [.openStore, .call enqueueJob [], .crash enqueueJob 0 0]) = true :=
  ((acknowledgedOperations_survive_wholeCrashes 10).1 _ _ _ jobLines.faithful
    (FileSerde.single_faithful _ _)).opens (by decide +kernel)

/-- A torn enqueue makes the log unreadable. -/
theorem not_recovers_torn_enqueue :
    ¬ jobQueue.Recovers (plan 10) (fun _ e => e.CrashOrSnapshot) HoldsLedger := by
  intro h
  have hsteps : Run.AllSteps (jobQueue.step (plan 10)) (fun _ e => e.CrashOrSnapshot)
      (World.init _ _) [.openStore, .crash enqueueJob 0 5] := by decide +kernel
  have hopens := h.opens hsteps
  exact absurd hopens (by decide +kernel)

end Sluice

end Kaleidoscope
