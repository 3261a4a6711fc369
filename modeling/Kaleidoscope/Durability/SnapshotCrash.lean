import Kaleidoscope.Durability.TornTail
import Kaleidoscope.Durability.StrictTail
import Kaleidoscope.Pulse.Points
import Kaleidoscope.Strata.FileBacked

/-!
# Crashes inside snapshots

Between the rename of a snapshot and the truncation of the log, both files hold the same
records, and `open` replays the log over the snapshot all the same.
-/

namespace Kaleidoscope

open Aegis HashMap Utf8

/-- In the append-only stores a crash inside `snapshot` is invisible exactly when it does not
fall between the rename and the truncation of a log that files something; in the metric
store, in runs whose values the reader gives back, it shows before the rename as well, when the log
has points of refused series. -/
theorem snapshotCrash_invisible_iff (order : IterOrder Pulse.Key Pulse.SeriesEntry) :
    (∀ wal snap, (∀ r, wal.Faithful r) → (∀ k, snap.Faithful k) →
      (Lumen.fileBackedLogStore wal snap).CrashInvisibleIff Lumen.plan (fun _ e => e.Orderly)
        (Lumen.appendOnly wal snap).SameMultisets (Lumen.appendOnly wal snap).Hides) ∧
    (∀ wal snap, (∀ r, wal.Faithful r) → (∀ k, snap.Faithful k) →
      (Ray.fileBackedTraceStore wal snap).CrashInvisibleIff Ray.plan (fun _ e => e.Orderly)
        (Ray.appendOnly wal snap).SameMultisets (Ray.appendOnly wal snap).Hides) ∧
    (∀ wal snap, (∀ r, wal.Faithful r) → (∀ k, snap.Faithful k) →
      (Strata.fileBackedProfileStore wal snap).CrashInvisibleIff Strata.plan
        (fun _ e => e.Orderly) (Strata.appendOnly wal snap).SameMultisets
        (Strata.appendOnly wal snap).Hides) ∧
    (∀ read text snapText, (∀ doc, text.Faithful doc) → (∀ doc, snapText.Faithful doc) →
      (Pulse.fileBackedMetricStore order (Pulse.walSerde read text)
        (Pulse.snapSerde read snapText)).CrashInvisibleIff Pulse.plan
        (fun _ e => e.Orderly ∧ e.Calls (Pulse.Call.AllValues (Pulse.F64.ReadsBack read)))
        Pulse.SamePoints (Pulse.Hides (Pulse.walSerde read text))) :=
  ⟨fun wal snap hwal hsnap => (Lumen.appendOnly wal snap).crashInvisibleIff_hides hsnap
      fun c => Lumen.legal wal snap hwal c [],
    fun wal snap hwal hsnap => (Ray.appendOnly wal snap).crashInvisibleIff_hides hsnap
      fun c => Ray.legal wal snap hwal c [],
    fun wal snap hwal hsnap => (Strata.appendOnly wal snap).crashInvisibleIff_hides hsnap
      fun c => Strata.legal wal snap hwal c [],
    fun _ _ _ htext hsnap => Pulse.crashInvisibleIff_hides
      (fun _ hr => Pulse.walSerde_faithful htext hr)
      fun _ hk => Pulse.snapSerde_faithful hsnap hk⟩

namespace Lumen

/-- The snapshot of a store that ingested one record. -/
def startedSnapshot : Snapshot := ⟨[⟨⟨"acme"⟩, [started]⟩]⟩

/-- The bytes of that snapshot. -/
def startedBytes : Bytes :=
  asBytes (chars "\x7b\"per_tenant\":[\x7b\"tenant\":\"acme\",\"records\":[" rfl ++
    chars "\x7b\"observed_time_unix_nano\":1,\"severity_number\":9," rfl ++
    chars "\"severity_text\":\"INFO\",\"body\":\"started\"," rfl ++
    chars "\"attributes\":\x7b\x7d,\"resource_attributes\":\x7b\x7d," rfl ++
    chars "\"trace_id\":null,\"span_id\":null\x7d]\x7d]\x7d" rfl)

/-- A log store with the JSON of one record and of one snapshot. -/
def snapshotStore : Pillar PerTenant WalRecord Snapshot LogStoreError
    (IterOrder TenantId (List LogRecord)) :=
  fileBackedLogStore startedLine.serde (.single startedSnapshot startedBytes)

/-- What it means that the store holds the same records. -/
def snapshotStoreKeeps : AppendOnly snapshotStore TenantId LogRecord :=
  appendOnly startedLine.serde (.single startedSnapshot startedBytes)

/-- The store after an ingest of the record. -/
def startedOpen : Store PerTenant where
  state := (∅ : PerTenant).upsert ⟨"acme"⟩ [] fun bucket => sortBucket (bucket ++ [started])
  snapshot := none
  tmp := none
  wal := ⟨startedLine.rows.flatMap fun e => wireLine e.2, []⟩

set_option maxRecDepth 4000 in
theorem run_startedOpen : (Run.run (snapshotStore.step plan) (World.init _ _)
    [.openStore, .call ingestStarted []]).node = .up startedOpen := by rfl

/-- The stage a crash reaches does not depend on the order of the one tenant. -/
theorem snapshotStage_startedOpen (order : IterOrder TenantId (List LogRecord)) (k : Nat) :
    snapshotStore.snapshotStage order startedOpen k = .ofStep startedBytes.length k := by
  have hcapture : snapshotStore.capture order startedOpen.state = startedSnapshot := by
    change toSnapshot order startedOpen.state = startedSnapshot
    rw [toSnapshot, startedOpen, IterOrder.entries_upsert_empty]
    rfl
  have hbytes : snapshotStore.snapSerde.toWriter startedSnapshot = .ok startedBytes :=
    FileSerde.single_toWriter _ _
  rw [Pillar.snapshotStage, hcapture, hbytes]

/-- After the truncation a crash is invisible. -/
theorem crashInvisible_truncated : snapshotStore.CrashInvisible
    snapshotStoreKeeps.SameMultisets startedOpen (.unspecified _ _) (startedBytes.length + 3) :=
  ((snapshotCrash_invisible_iff (.unspecified _ _)).1 _ _ startedLine.faithful
    (FileSerde.single_faithful _ _) _ _ (by decide +kernel) run_startedOpen _ _).mpr
    (Or.inl ((snapshotStage_startedOpen _ _).trans_ne (by simp [SnapshotStage.ofStep])))

/-- A crash between the rename and the truncation shows the ingested record twice. -/
theorem not_crashInvisible_renamed :
    ¬ snapshotStore.EveryStore plan (fun _ e => e.Orderly) fun s _ => ∀ order k,
      snapshotStore.CrashInvisible snapshotStoreKeeps.SameMultisets s order k := by
  intro h
  have hall : snapshotStore.CrashInvisibleIff plan (fun _ e => e.Orderly)
      snapshotStoreKeeps.SameMultisets snapshotStoreKeeps.Hides :=
    snapshotStoreKeeps.crashInvisibleIff_hides (FileSerde.single_faithful _ _)
      fun c => legal _ _ startedLine.faithful c []
  have hiff := hall _ _ (by decide +kernel) run_startedOpen (.unspecified _ _)
    (startedBytes.length + 2)
  rcases hiff.mp (h _ _ (by decide +kernel) run_startedOpen _ _) with hne | hnone
  · exact hne ((snapshotStage_startedOpen _ _).trans (by simp [SnapshotStage.ofStep]))
  · exact absurd hnone (by decide +kernel)

end Lumen

namespace Sluice

/-- What a queue reopens to after a crash inside `snapshot` that does not replay the log over
its own snapshot. -/
theorem reopens_after_snapshotCrash {order : IterOrder TenantId (List Message)}
    {wal : LineSerde WalRecord} {snap : FileSerde Snapshot} (hsnap : ∀ k, snap.Faithful k)
    {ledger : List WalRecord} {s : Store Inner} {i : Ideal}
    (h : (refinement order wal snap True).Serves ledger s i)
    {order' : IterOrder TenantId (List Message) × IterOrder MessageId Message} {k : Nat}
    (hcut : (fileBackedQueue order wal snap).snapshotStage order' s k ≠ .renamed ∨
      s.wal.file = []) :
    ∃ s', (fileBackedQueue order wal snap).openWithFsyncBackend
        ((fileBackedQueue order wal snap).snapshotCrash order' s k) = .ok s' ∧
      s.state.Same s'.state ∧ s'.state.NoDuplicates := by
  obtain ⟨j, -, hlive, hholds⟩ := (refinement order wal snap True).holds_crashInSnapshot h
    (restores order wal snap True hsnap) (Or.inr hcut)
  obtain ⟨s', hs', hserves⟩ := hholds.opens
  have hlive' : Ideal.Holds True s'.state j := hserves.live
  exact ⟨s', hs', Ideal.Holds.same hlive hlive', hlive'.noDuplicates⟩

end Sluice

/-- The queue neither loses nor duplicates a message in a crash inside `snapshot`, unless the
crash falls between the rename and the truncation of a log that is not empty. -/
theorem queueSnapshot_exact {order : IterOrder TenantId (List Sluice.Message)}
    {wal : LineSerde Sluice.WalRecord} {snap : FileSerde Sluice.Snapshot}
    (hwal : ∀ r, wal.Faithful r) (hsnap : ∀ k, snap.Faithful k) (cap : Nat) :
    (Sluice.fileBackedQueue order wal snap).EveryStore (Sluice.plan cap)
      (fun w e => e.Orderly ∧
        (Sluice.fileBackedQueue order wal snap).CallsEncodable (Sluice.plan cap) w e)
      fun s _ => ∀ order' k,
        (Sluice.fileBackedQueue order wal snap).snapshotStage order' s k ≠ .renamed ∨
            s.wal.file = [] →
          ∃ s', (Sluice.fileBackedQueue order wal snap).openWithFsyncBackend
              ((Sluice.fileBackedQueue order wal snap).snapshotCrash order' s k) = .ok s' ∧
            s.state.Same s'.state ∧ s'.state.NoDuplicates := by
  refine (Sluice.refinement order wal snap True).everyStore
    (Sluice.restores order wal snap True hsnap)
    (fun w e he => (Sluice.refinement order wal snap True).gentle_of_orderly
      (fun {s c i} hn hcall h => ?_) he.1)
    fun _ hserves _ _ _ hcut => Sluice.reopens_after_snapshotCrash hsnap hserves hcut
  obtain ⟨node, ledger⟩ := w
  obtain rfl : node = .up s := hn
  subst hcall
  exact Sluice.legal hwal cap c h fun _ hne => Pillar.Encodable.firstSucceeds he.2 hne

namespace Sluice

/-- The snapshot of a queue with one message. -/
def jobSnapshot : Snapshot := ⟨1, [⟨⟨"acme"⟩, [⟨1, ⟨"acme"⟩, "6869"⟩]⟩], []⟩

/-- The bytes of that snapshot. -/
def jobBytes : Bytes :=
  asBytes (chars "\x7b\"next_id\":1,\"pending\":[\x7b\"tenant\":\"acme\",\"messages\":[" rfl ++
    chars "\x7b\"id\":1,\"tenant\":\"acme\",\"payload_hex\":\"6869\"\x7d]\x7d]," rfl ++
    chars "\"in_flight\":[]\x7d" rfl)

/-- A queue for these messages and for that snapshot. -/
noncomputable def jobSnapshotQueue : Pillar Inner WalRecord Snapshot EnqueueError
    (IterOrder TenantId (List Message) × IterOrder MessageId Message) :=
  fileBackedQueue (.unspecified _ _) jobLines.serde (.single jobSnapshot jobBytes)

/-- The queue after an enqueue. -/
def jobOpen : Store Inner where
  state :=
    { nextId := 1
      pending := ((∅ : Pending).upsert ⟨"acme"⟩ [] id).upsert ⟨"acme"⟩ []
        (· ++ [⟨⟨1⟩, ⟨"acme"⟩, [104, 105]⟩])
      inFlight := ∅
      total := 1 }
  snapshot := none
  tmp := none
  wal := ⟨(jobLines.rows.take 1).flatMap fun e => wireLine e.2, []⟩

theorem run_jobOpen : (Run.run (jobSnapshotQueue.step (plan 10)) (World.init _ _)
    [.openStore, .call enqueueJob []]).node = .up jobOpen := by rfl

theorem toWriter_jobOpen (order : IterOrder TenantId (List Message) × IterOrder MessageId Message) :
    jobSnapshotQueue.snapSerde.toWriter (jobSnapshotQueue.capture order jobOpen.state) =
      .ok jobBytes := by
  have hpending : order.1.entries jobOpen.state.pending =
      [(⟨"acme"⟩, [⟨⟨1⟩, ⟨"acme"⟩, [104, 105]⟩])] :=
    order.1.entries_singleton fun tenant => by
      simp only [jobOpen, lookup_upsert, Finmap.lookup_empty]
      split_ifs <;> rfl
  have hcapture : toSnapshot order jobOpen.state = jobSnapshot := by
    rw [toSnapshot, hpending, show jobOpen.state.inFlight = ∅ from rfl, IterOrder.entries_empty]
    decide +kernel
  exact (congrArg _ hcapture).trans (FileSerde.single_toWriter _ _)

theorem snapshotStage_jobOpen
    (order : IterOrder TenantId (List Message) × IterOrder MessageId Message) (k : Nat) :
    jobSnapshotQueue.snapshotStage order jobOpen k = .ofStep jobBytes.length k := by
  rw [Pillar.snapshotStage, toWriter_jobOpen]

/-- Before the rename a crash is invisible. -/
theorem queueSnapshot_exact_unrenamed :
    ∃ s', jobSnapshotQueue.openWithFsyncBackend
        (jobSnapshotQueue.snapshotCrash (.unspecified _ _, .unspecified _ _) jobOpen 3) = .ok s' ∧
      jobOpen.state.Same s'.state ∧ s'.state.NoDuplicates :=
  queueSnapshot_exact jobLines.faithful (FileSerde.single_faithful _ _) 10 _ _
    (by decide +kernel) run_jobOpen _ _
    (Or.inl ((snapshotStage_jobOpen _ 3).trans_ne (by decide +kernel)))

/-- A crash between the rename and the truncation duplicates the message. -/
theorem not_queueSnapshot_exact_renamed :
    ¬ jobSnapshotQueue.EveryStore (plan 10)
      (fun w e => e.Orderly ∧ jobSnapshotQueue.CallsEncodable (plan 10) w e)
      fun s _ => ∀ order' k, ∃ s', jobSnapshotQueue.openWithFsyncBackend
          (jobSnapshotQueue.snapshotCrash order' s k) = .ok s' ∧
        s.state.Same s'.state ∧ s'.state.NoDuplicates := by
  intro h
  obtain ⟨s', hs', hsame, -⟩ := h _ _ (by decide +kernel) run_jobOpen
    (.unspecified _ _, .unspecified _ _) (jobBytes.length + 2)
  obtain ⟨hsnap, hwal⟩ := jobSnapshotQueue.snapshotCrash_of_ok rfl (toWriter_jobOpen _)
    (jobBytes.length + 2)
  have hstage : SnapshotStage.ofStep jobBytes.length (jobBytes.length + 2) = .renamed := by
    simp [SnapshotStage.ofStep]
  rw [hstage] at hsnap hwal
  have hstate := jobSnapshotQueue.state_of_open hs'
  rw [Pillar.loadSnapshot, hsnap, hwal] at hstate
  have hlength : (s'.state.queue ⟨"acme"⟩).length = 2 := by
    have hq := congrArg (fun r => (Except.toOption r).map
      fun s => (Inner.queue s ⟨"acme"⟩).length) hstate
    exact (Option.some.inj hq).symm.trans (by decide +kernel)
  rw [hsame.pending] at hlength
  exact absurd hlength (by decide +kernel)

end Sluice

end Kaleidoscope
