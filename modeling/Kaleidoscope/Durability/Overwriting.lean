import Kaleidoscope.Beacon.StateStore
import Kaleidoscope.Cinder.FileBacked
import Kaleidoscope.Wal.Table

/-!
# Stores that overwrite

A second replay of the log does no harm to the tiering store and the rule-state store, so a
crash inside `snapshot` is invisible. Memory agrees with the files as long as an append that
fails leaves nothing of its record behind.
-/

namespace Kaleidoscope

open Aegis HashMap Utf8

/-- After a crash at any step of `snapshot`, and after a clean close, the tiering store opens
to the live map. -/
theorem tieringStore_reopens_exactly {wal : LineSerde Cinder.WalRecord}
    {snap : FileSerde Cinder.Snapshot} (hwal : ∀ r, wal.Faithful r)
    (hsnap : ∀ k, snap.Faithful k) :
    (Cinder.fileBackedTieringStore wal snap).EveryStore Cinder.plan (fun _ e => e.Orderly)
      fun s _ =>
        (∀ order k, (Cinder.fileBackedTieringStore wal snap).CrashInvisible Eq s order k) ∧
        ∃ s', (Cinder.fileBackedTieringStore wal snap).openWithFsyncBackend s.drop = .ok s' ∧
          s'.state = s.state := by
  let L := Cinder.lastWriter wal snap
  refine L.refinement.everyStore (L.restores hsnap)
    (fun _ _ he => L.refinement.gentle_of_orderly
      (fun _ _ h => Cinder.legal wal snap hwal _ [] _ _ h) he)
    fun _ hserves _ => ⟨fun order k => ?_, L.reopens hserves (Or.inr rfl)⟩
  obtain ⟨s', hs', hstate⟩ := L.reopens_snapshotCrash hsnap hserves order k
  exact ⟨s', hs', hstate.symm⟩

/-- Memory equals disk in the tiering store, and both hold exactly the records whose append
succeeded, as long as a failing append leaves nothing behind. -/
theorem tieringStore_memory_eq_disk {wal : LineSerde Cinder.WalRecord}
    {snap : FileSerde Cinder.Snapshot} (hwal : ∀ r, wal.Faithful r)
    (hsnap : ∀ k, snap.Faithful k) :
    (Cinder.fileBackedTieringStore wal snap).EveryStore Cinder.plan
      (fun w e => e.Untorn ∧
        (Cinder.fileBackedTieringStore wal snap).FaultsHarmless Cinder.plan w e)
      fun s ledger => s.state = ledger.foldl Cinder.applyToEntries ∅ ∧
        ∀ f, f = s.files ∨ f = s.drop →
          ∃ s', (Cinder.fileBackedTieringStore wal snap).openWithFsyncBackend f = .ok s' ∧
            s'.state = s.state := by
  let L := Cinder.lastWriter wal snap
  exact L.refinement.everyStore (L.restores hsnap)
    (fun _ _ he => L.refinement.gentle_of_harmless
      (fun _ _ h => Cinder.legal wal snap hwal _ _ _ _ h) he.2 (Or.inr ⟨L.idempotent, he.1⟩))
    fun hreach hserves _ => ⟨Eq.trans hserves.live (L.path_eq hreach.path),
      fun _ hf => L.reopens hserves hf⟩

/-- The rule-state store holds exactly the last acknowledged state of every rule, in memory
and in the files, through crashes at any step of `snapshot`, as long as a failing append
leaves nothing behind. -/
theorem ruleStateStore_holds_lastPut {wal : LineSerde Beacon.WalRecord}
    {snap : FileSerde Beacon.Snapshot} (hwal : ∀ r, wal.Faithful r)
    (hsnap : ∀ k, snap.Faithful k) :
    (Beacon.fileBackedRuleStateStore wal snap).EveryStore Beacon.plan
      (fun w e => e.Untorn ∧
        (Beacon.fileBackedRuleStateStore wal snap).FaultsHarmless Beacon.plan w e)
      (fun s ledger =>
        (∀ ruleName, (Beacon.loadAll s).lookup ruleName = Beacon.lastPut ledger ruleName) ∧
        ∀ f, f = s.files ∨ f = s.drop →
          ∃ s', (Beacon.fileBackedRuleStateStore wal snap).openWithFsyncBackend f = .ok s' ∧
            Beacon.loadAll s' = Beacon.loadAll s) ∧
    (Beacon.fileBackedRuleStateStore wal snap).Recovers Beacon.plan
      (fun w e => e.Untorn ∧
        (Beacon.fileBackedRuleStateStore wal snap).FaultsHarmless Beacon.plan w e)
      fun rules ledger => ∀ ruleName, rules.lookup ruleName = Beacon.lastPut ledger ruleName := by
  let L := Beacon.lastWriter wal snap
  have hgentle : ∀ w e, e.Untorn ∧
      (Beacon.fileBackedRuleStateStore wal snap).FaultsHarmless Beacon.plan w e →
        L.refinement.Gentle Beacon.plan w e := fun _ _ he =>
    L.refinement.gentle_of_harmless (fun _ _ h => Beacon.legal wal snap hwal _ _ _ _ h) he.2
      (Or.inr ⟨L.idempotent, he.1⟩)
  constructor
  · refine L.refinement.everyStore (L.restores hsnap) hgentle fun hreach hserves _ =>
      ⟨fun ruleName => ?_, fun _ hf => L.reopens hserves hf⟩
    rw [Beacon.loadAll, Eq.trans hserves.live (L.path_eq hreach.path)]
    exact Beacon.lookup_foldl_applyRecord _ ruleName
  · refine (L.recovers fun _ hevents => ?_).mono fun rules ledger hrules ruleName => ?_
    · exact (L.refinement.gentle_run (L.restores hsnap) Refinement.tidy_init
        (hevents.mono hgentle)).1
    · rw [hrules]
      exact Beacon.lookup_foldl_applyRecord ledger ruleName

namespace Cinder

/-- The JSON of the placement of a segment and of its migration. -/
def segmentLines : LineTable WalRecord where
  rows :=
    [(.place ⟨"acme"⟩ ⟨"segment"⟩ .hot 1000000000,
      chars "\x7b\"op\":\"place\",\"tenant\":\"acme\",\"item\":\"segment\",\"tier\":\"Hot\"," rfl ++
        chars "\"placed_at\":\x7b\"secs_since_epoch\":1,\"nanos_since_epoch\":0\x7d\x7d" rfl),
      (.migrate ⟨"acme"⟩ ⟨"segment"⟩ .warm 2000000000,
      chars "\x7b\"op\":\"migrate\",\"tenant\":\"acme\",\"item\":\"segment\"," rfl ++
        chars "\"to_tier\":\"Warm\",\"migrated_at\":" rfl ++
        chars "\x7b\"secs_since_epoch\":2,\"nanos_since_epoch\":0\x7d\x7d" rfl)]
  ascii := by decide +kernel
  oneLine := by decide +kernel
  prefixFree := by decide +kernel

/-- An item whose name is longer than the buffer of the writer. -/
@[irreducible] def archive : ItemId :=
  ⟨String.ofList (chars "archive-" rfl ++ List.replicate BufWriter.capacity 'a')⟩

/-- How the JSON of its placement begins. -/
def archiveHead : Text :=
  chars "\x7b\"op\":\"place\",\"tenant\":\"acme\",\"item\":\"archive-" rfl

/-- How it goes on. -/
@[irreducible] def archiveRest : Text :=
  List.replicate BufWriter.capacity 'a' ++ chars "\",\"tier\":\"Cold\"," rfl ++
    chars "\"placed_at\":\x7b\"secs_since_epoch\":1,\"nanos_since_epoch\":0\x7d\x7d" rfl

theorem plain_archive : (archiveHead ++ archiveRest).all plain = true := by
  simp only [archiveRest, List.all_append, all_plain_replicate, Bool.true_and, Bool.and_eq_true]
  decide +kernel

theorem capacity_le_archive :
    BufWriter.capacity ≤ (asBytes (archiveHead ++ archiveRest)).length := by
  refine le_trans ?_ (length_le_asBytes _)
  simp only [archiveRest, List.length_append, List.length_replicate]
  omega

/-- The JSON of these. -/
def segmentTable : LineTable WalRecord :=
  segmentLines.snoc (.place ⟨"acme"⟩ archive .cold 1000000000) archiveHead archiveRest
    plain_archive (by decide) (by decide +kernel)

/-- The snapshot after the migration. -/
def segmentSnapshot : Snapshot :=
  ⟨[⟨⟨"acme"⟩, ⟨"segment"⟩, ⟨.warm, 1000000000, 2000000000⟩⟩]⟩

/-- The bytes of that snapshot. -/
def segmentBytes : Bytes :=
  asBytes (chars "\x7b\"entries\":[\x7b\"tenant\":\"acme\",\"item\":\"segment\"," rfl ++
    chars "\"entry\":\x7b\"tier\":\"Warm\"," rfl ++
    chars "\"placed_at\":\x7b\"secs_since_epoch\":1,\"nanos_since_epoch\":0\x7d," rfl ++
    chars "\"migrated_at\":\x7b\"secs_since_epoch\":2,\"nanos_since_epoch\":0\x7d\x7d\x7d]\x7d" rfl)

/-- The placement of the segment. -/
def placeSegment : Call := .place ⟨"acme"⟩ ⟨"segment"⟩ .hot 1000000000

/-- Its migration. -/
def migrateSegment : Call := .migrate ⟨"acme"⟩ ⟨"segment"⟩ .warm 2000000000

/-- The placement of the item with the long name. -/
def placeArchive : Call := .place ⟨"acme"⟩ archive .cold 1000000000

/-- A tiering store for these. -/
def segmentStore : Pillar Entries WalRecord Snapshot MigrateError
    (IterOrder (TenantId × ItemId) TierEntry) :=
  fileBackedTieringStore segmentTable.serde (.single segmentSnapshot segmentBytes)

/-- The store after the placement. -/
def segmentPlaced : Store Entries where
  state := (∅ : Entries).insert (⟨"acme"⟩, ⟨"segment"⟩) ⟨.hot, 1000000000, 1000000000⟩
  snapshot := none
  tmp := none
  wal := ⟨(segmentLines.rows.take 1).flatMap fun e => wireLine e.2, []⟩

/-- The store after the migration. -/
def segmentOpen : Store Entries where
  state := (∅ : Entries).insert (⟨"acme"⟩, ⟨"segment"⟩) ⟨.warm, 1000000000, 2000000000⟩
  snapshot := none
  tmp := none
  wal := ⟨segmentLines.rows.flatMap fun e => wireLine e.2, []⟩

set_option maxRecDepth 4000 in
theorem run_segmentPlaced :
    Run.run (segmentStore.step plan) (World.init _ _) [.openStore, .call placeSegment []] =
      ⟨.up segmentPlaced, [.place ⟨"acme"⟩ ⟨"segment"⟩ .hot 1000000000]⟩ := by rfl

set_option maxRecDepth 4000 in
theorem run_segmentOpen : (Run.run (segmentStore.step plan) (World.init _ _)
    [.openStore, .call placeSegment [], .call migrateSegment []]).node = .up segmentOpen := by rfl

/-- In every order the snapshot of that store is the same. -/
theorem toWriter_segmentOpen (order : IterOrder (TenantId × ItemId) TierEntry) :
    segmentStore.snapSerde.toWriter (segmentStore.capture order segmentOpen.state) =
      .ok segmentBytes := by
  have hentries : order.entries segmentOpen.state =
      [((⟨"acme"⟩, ⟨"segment"⟩), ⟨.warm, 1000000000, 2000000000⟩)] := by
    refine order.entries_singleton fun j => ?_
    rw [segmentOpen, lookup_insert_ite, Finmap.lookup_empty]
  have hsnapshot : segmentStore.capture order segmentOpen.state = segmentSnapshot := by
    change toSnapshot order segmentOpen.state = segmentSnapshot
    rw [toSnapshot, hentries]
    rfl
  rw [hsnapshot]
  exact FileSerde.single_toWriter segmentSnapshot segmentBytes

/-- The store with a migrated segment reopens to it, wherever a crash inside its snapshot stops:
before the rename, behind it, or when the log is truncated. -/
theorem segmentStore_reopens :
    (∀ order, segmentStore.snapSerde.toWriter (segmentStore.capture order segmentOpen.state) =
      .ok segmentBytes) ∧
    (∀ order k, segmentStore.CrashInvisible Eq segmentOpen order k) ∧
      ∃ s', segmentStore.openWithFsyncBackend segmentOpen.drop = .ok s' ∧
        s'.state = segmentOpen.state :=
  ⟨toWriter_segmentOpen, tieringStore_reopens_exactly segmentTable.faithful
    (FileSerde.single_faithful _ _) _ _ (by decide +kernel) run_segmentOpen⟩

theorem toString_placeArchive :
    segmentStore.walSerde.toString (.place ⟨"acme"⟩ archive .cold 1000000000) =
      .ok (archiveHead ++ archiveRest) := by
  have hserde : segmentStore.walSerde = segmentTable.serde := rfl
  rw [hserde, segmentTable]
  exact segmentLines.toString_snoc _ _ _ (by simp [segmentLines])

theorem step_placeArchive (ledger : List WalRecord) :
    segmentStore.step plan ⟨.up segmentPlaced, ledger⟩ (.call placeArchive [.write 0 "EIO"]) =
      ⟨.up segmentPlaced, ledger⟩ :=
  segmentStore.step_of_bypass rfl ledger rfl toString_placeArchive capacity_le_archive "EIO"

set_option maxRecDepth 4000 in
/-- A placement whose append fails at its first byte is neither in memory nor on disk, and what
succeeded before and after it is in both. -/
theorem segmentStore_memory_eq_disk :
    segmentOpen.state = List.foldl applyToEntries ∅
        [.place ⟨"acme"⟩ ⟨"segment"⟩ .hot 1000000000,
          .migrate ⟨"acme"⟩ ⟨"segment"⟩ .warm 2000000000] ∧
      ∀ f, f = segmentOpen.files ∨ f = segmentOpen.drop →
        ∃ s', segmentStore.openWithFsyncBackend f = .ok s' ∧ s'.state = segmentOpen.state := by
  let events : List (Event Call (IterOrder (TenantId × ItemId) TierEntry)) :=
    [.openStore, .call placeSegment []] ++
      [.call placeArchive [.write 0 "EIO"], .call migrateSegment []]
  have hrun : Run.run (segmentStore.step plan) (World.init _ _) events =
      ⟨.up segmentOpen, [.place ⟨"acme"⟩ ⟨"segment"⟩ .hot 1000000000,
        .migrate ⟨"acme"⟩ ⟨"segment"⟩ .warm 2000000000]⟩ := by
    rw [Run.run_append, run_segmentPlaced, Run.run_cons, step_placeArchive]
    rfl
  have hsteps : Run.AllSteps (segmentStore.step plan)
      (fun w e => e.Untorn ∧ segmentStore.FaultsHarmless plan w e) (World.init _ _) events := by
    refine Run.allSteps_append.mpr ⟨by decide +kernel, ?_⟩
    rw [run_segmentPlaced]
    refine ⟨⟨trivial, segmentStore.harmless_of_bypass toString_placeArchive capacity_le_archive
      _ _⟩, ?_⟩
    rw [step_placeArchive]
    exact ⟨⟨trivial, segmentStore.harmless_nil _⟩, trivial⟩
  obtain ⟨hmemory, hfiles⟩ := tieringStore_memory_eq_disk segmentTable.faithful
    (FileSerde.single_faithful _ _) events segmentOpen hsteps (congrArg World.node hrun)
  exact ⟨hmemory.trans (congrArg (fun w => List.foldl applyToEntries ∅ w.ledger) hrun), hfiles⟩

/-- A placement whose fsync failed is on disk and not in memory. -/
theorem not_memory_eq_disk_failed_fsync :
    ¬ segmentStore.EveryStore plan (fun _ e => e.Crashless) fun s _ =>
      ∃ s', segmentStore.openWithFsyncBackend s.drop = .ok s' ∧ s'.state = s.state := by
  intro h
  obtain ⟨s', hs', hstate⟩ := h [.openStore, .call placeSegment [.fsync "EIO"]] _
    (by decide +kernel) rfl
  have hreopened := segmentStore.state_of_open hs'
  rw [hstate] at hreopened
  have hlookup := congrArg (fun r => (Except.toOption r).map
    fun entries => (Finmap.lookup (⟨"acme"⟩, ⟨"segment"⟩) entries).isSome) hreopened
  exact absurd hlookup (by decide +kernel)

end Cinder

namespace Beacon

/-- The JSON of two puts. -/
def putLines : LineTable WalRecord where
  rows :=
    [(.put "latency" (.firing 5000000000),
      chars "\x7b\"op\":\"put\",\"rule_name\":\"latency\",\"state\":\x7b\"Firing\":" rfl ++
        chars "\x7b\"since\":\x7b\"secs_since_epoch\":5,\"nanos_since_epoch\":0\x7d\x7d\x7d\x7d" rfl),
      (.put "latency" .inactive,
      chars "\x7b\"op\":\"put\",\"rule_name\":\"latency\",\"state\":\"Inactive\"\x7d" rfl)]
  ascii := by decide +kernel
  oneLine := by decide +kernel
  prefixFree := by decide +kernel

/-- The name of a rule that is longer than the buffer of the writer. -/
@[irreducible] def longName : String :=
  String.ofList (chars "quota-" rfl ++ List.replicate BufWriter.capacity 'a')

/-- How the JSON of its put begins. -/
def longHead : Text := chars "\x7b\"op\":\"put\",\"rule_name\":\"quota-" rfl

/-- How it goes on. -/
@[irreducible] def longRest : Text :=
  List.replicate BufWriter.capacity 'a' ++ chars "\",\"state\":\"Inactive\"\x7d" rfl

theorem longName_ne : longName ≠ "latency" := by
  have hfirst (rest : Text) : String.ofList (chars "quota-" rfl ++ rest) ≠ "latency" := by
    intro h
    have hhead := congrArg (fun name => name.toList.head?) h
    simp only [String.toList_ofList, chars, List.cons_append, List.head?_cons] at hhead
    exact absurd hhead (by decide)
  unfold longName
  exact hfirst _

theorem plain_long : (longHead ++ longRest).all plain = true := by
  simp only [longRest, List.all_append, all_plain_replicate, Bool.true_and, Bool.and_eq_true]
  decide +kernel

theorem capacity_le_long : BufWriter.capacity ≤ (asBytes (longHead ++ longRest)).length := by
  refine le_trans ?_ (length_le_asBytes _)
  simp only [longRest, List.length_append, List.length_replicate]
  omega

/-- The JSON of these. -/
def putTable : LineTable WalRecord :=
  putLines.snoc (.put longName .inactive) longHead longRest plain_long (by decide)
    (by decide +kernel)

/-- The bytes of a snapshot of one inactive rule. -/
def latencyBytes : Bytes :=
  asBytes (chars "\x7b\"rules\":\x7b\"latency\":\"Inactive\"\x7d\x7d" rfl)

/-- The put of an alert that fires. -/
def putFiring : Call := .put "latency" (.firing 5000000000)

/-- The put that overwrites it. -/
def putLatency : Call := .put "latency" .inactive

/-- The put of the rule with the long name. -/
def putLong : Call := .put longName .inactive

/-- A rule-state store for these. -/
def latencyStore : Pillar Rules WalRecord Snapshot RuleStateStoreError Unit :=
  fileBackedRuleStateStore putTable.serde
    (.single ⟨(∅ : Rules).insert "latency" .inactive⟩ latencyBytes)

/-- The store after the first put. -/
def latencyFiring : Store Rules where
  state := (∅ : Rules).insert "latency" (.firing 5000000000)
  snapshot := none
  tmp := none
  wal := ⟨(putLines.rows.take 1).flatMap fun e => wireLine e.2, []⟩

/-- The store after a crash between the rename and the truncation in its snapshot. -/
def latencyOpen : Store Rules where
  state := (∅ : Rules).insert "latency" .inactive
  snapshot := some latencyBytes
  tmp := none
  wal := ⟨putLines.rows.flatMap fun e => wireLine e.2, []⟩

theorem run_latencyFiring :
    Run.run (latencyStore.step plan) (World.init _ _) [.openStore, .call putFiring []] =
      ⟨.up latencyFiring, [.put "latency" (.firing 5000000000)]⟩ := by rfl

theorem toString_putLong : latencyStore.walSerde.toString (.put longName .inactive) =
    .ok (longHead ++ longRest) := by
  have hserde : latencyStore.walSerde = putTable.serde := rfl
  rw [hserde, putTable]
  exact putLines.toString_snoc _ _ _ (by simp [putLines, longName_ne.symm])

theorem step_putLong (ledger : List WalRecord) :
    latencyStore.step plan ⟨.up latencyFiring, ledger⟩ (.call putLong [.write 0 "EIO"]) =
      ⟨.up latencyFiring, ledger⟩ :=
  latencyStore.step_of_bypass rfl ledger rfl toString_putLong capacity_le_long "EIO"

set_option maxRecDepth 4000 in
/-- A put that fails at its first byte leaves no trace, and one that overwrites another holds in
memory and on disk, behind a crash in the snapshot as well. -/
theorem latencyStore_holds_lastPut :
    (∀ ruleName, (loadAll latencyOpen).lookup ruleName =
        lastPut [.put "latency" (.firing 5000000000), .put "latency" .inactive] ruleName) ∧
      ∀ f, f = latencyOpen.files ∨ f = latencyOpen.drop →
        ∃ s', latencyStore.openWithFsyncBackend f = .ok s' ∧ loadAll s' = loadAll latencyOpen := by
  let events : List (Kaleidoscope.Event Call Unit) := [.openStore, .call putFiring []] ++
    [.call putLong [.write 0 "EIO"], .call putLatency [],
      .crashInSnapshot () (latencyBytes.length + 2), .openStore]
  have hrun : Run.run (latencyStore.step plan) (World.init _ _) events =
      ⟨.up latencyOpen, [.put "latency" (.firing 5000000000), .put "latency" .inactive]⟩ := by
    rw [Run.run_append, run_latencyFiring, Run.run_cons, step_putLong]
    rfl
  have hsteps : Run.AllSteps (latencyStore.step plan)
      (fun w e => e.Untorn ∧ latencyStore.FaultsHarmless plan w e) (World.init _ _) events := by
    refine Run.allSteps_append.mpr ⟨by decide +kernel, ?_⟩
    rw [run_latencyFiring]
    refine ⟨⟨trivial, latencyStore.harmless_of_bypass toString_putLong capacity_le_long _ _⟩, ?_⟩
    rw [step_putLong]
    exact ⟨⟨trivial, latencyStore.harmless_nil _⟩, ⟨trivial, trivial⟩, ⟨trivial, trivial⟩, trivial⟩
  obtain ⟨hputs, hfiles⟩ := (ruleStateStore_holds_lastPut putTable.faithful
    (FileSerde.single_faithful _ _)).1 events latencyOpen hsteps (congrArg World.node hrun)
  exact ⟨fun ruleName => (hputs ruleName).trans
    (congrArg (fun w => lastPut w.ledger ruleName) hrun), hfiles⟩

/-- A put whose fsync failed takes effect after the store is dropped. -/
theorem not_holds_lastPut_failed_fsync :
    ¬ latencyStore.Recovers plan (fun _ e => e.Untorn) fun rules ledger =>
      ∀ ruleName, rules.lookup ruleName = lastPut ledger ruleName := by
  intro h
  obtain ⟨s', hs', hrules⟩ := h [.openStore, .call putLatency [.fsync "EIO"], .close]
    (by decide +kernel)
  have hreopened := latencyStore.state_of_open hs'
  have hlookup := congrArg (fun r => (Except.toOption r).map
    fun rules => (Finmap.lookup "latency" rules).isSome) hreopened
  change _ = some (s'.state.lookup "latency").isSome at hlookup
  rw [hrules] at hlookup
  exact absurd hlookup (by decide +kernel)

end Beacon

end Kaleidoscope
