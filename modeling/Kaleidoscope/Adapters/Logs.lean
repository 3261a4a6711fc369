import Kaleidoscope.Durability.TornTail
import Kaleidoscope.Lumen.Memory

/-!
# The two log stores

After the same ingests the file-backed store answers every query with the list the in-memory
store answers, however often it was snapshotted and reopened in between.
-/

namespace Kaleidoscope.Lumen

open Aegis HashMap StableSort Utf8

/-- The orders in which a snapshot visits the tenants. -/
abbrev SnapshotOrder := IterOrder TenantId (List LogRecord)

/-- The records an action ingests for a tenant. -/
def ingestedBy (tenant : TenantId) : Action Call SnapshotOrder → List LogRecord
  | .request (.ingest t batch) => if tenant = t then batch.records else []
  | _ => []

/-- What actions ingest for a tenant, in the order of the ingests. -/
def ingestedFor (tenant : TenantId) (actions : List (Action Call SnapshotOrder)) :
    List LogRecord := actions.flatMap (ingestedBy tenant)

/-- The in-memory store sorts on every ingest, which comes to sorting once at the end. -/
theorem bucket_run (actions : List (Action Call SnapshotOrder)) (perTenant : PerTenant)
    (tenant : TenantId)
    (hsorted : sortBucket (bucket perTenant tenant) = bucket perTenant tenant) :
    bucket (Run.run (Action.perform InMemoryLogStore.ask) perTenant actions) tenant =
      sortBucket (bucket perTenant tenant ++ ingestedFor tenant actions) := by
  induction actions generalizing perTenant with
  | nil => simpa [ingestedFor] using hsorted.symm
  | cons a actions ih =>
    rw [Run.run_cons, ingestedFor, List.flatMap_cons, ← ingestedFor]
    cases a with
    | request c =>
      obtain ⟨t, batch⟩ := c
      have hbucket := bucket_ingest perTenant t tenant batch
      change bucket (Run.run _ (InMemoryLogStore.ingest perTenant t batch).2 actions) tenant =
        sortBucket (_ ++ ((if tenant = t then batch.records else []) ++ _))
      split_ifs at hbucket ⊢ with ht
      · rw [ih _ (by rw [hbucket]; exact sortByKey_sortByKey _ _), hbucket, ht,
          ← List.append_assoc]
        exact sortByKey_append_left _ _ _
      · rw [ih _ (by rw [hbucket, hsorted]), hbucket, List.nil_append]
    | snapshot order => exact ih perTenant hsorted
    | reopen => exact ih perTenant hsorted

section FileBacked

variable {wal : LineSerde WalRecord} {snap : FileSerde Snapshot}

/-- Two states with the same buckets. -/
def SameBuckets (perTenant m : PerTenant) : Prop :=
  ∀ tenant, bucket perTenant tenant = bucket m tenant

/-- Ingest by ingest the file-backed store answers as the in-memory store, and at the end it
has the same buckets. -/
theorem ask_simulates (hwal : ∀ r, wal.Faithful r) (hsnap : ∀ k, snap.Faithful k)
    {actions : List (Action Call SnapshotOrder)}
    (h : Run.AllSteps ((fileBackedLogStore wal snap).perform (ask wal snap))
      ((fileBackedLogStore wal snap).Serialises plan)
      ((fileBackedLogStore wal snap).openNode .none) actions) :
    Run.transcript ((fileBackedLogStore wal snap).perform (ask wal snap))
        (Pillar.reply (ask wal snap)) ((fileBackedLogStore wal snap).openNode .none) actions =
      Run.transcript (Action.perform InMemoryLogStore.ask) (Action.reply InMemoryLogStore.ask) ∅
        actions ∧
    (appendOnly wal snap).refinement.Agrees SameBuckets
      (Run.run ((fileBackedLogStore wal snap).perform (ask wal snap))
        ((fileBackedLogStore wal snap).openNode .none) actions)
      (Run.run (Action.perform InMemoryLogStore.ask) ∅ actions) := by
  have hR : (appendOnly wal snap).refinement.Restores := (appendOnly wal snap).restores hsnap
  refine (appendOnly wal snap).refinement.simulates _ _ hR
    (fun {ledger s i m c} hservice hagree henc => ?_) (fun hlive hdisk hagree tenant => ?_)
    (fun _ => rfl) h
  · obtain ⟨tenant, batch⟩ := c
    obtain ⟨hresult, hstate, j, -, hnext⟩ := hservice.succeeds hR
      (fun hlive => legal wal snap hwal _ [] _ _ hlive) henc
    refine ⟨?_, fun t => ?_, _, j, hnext⟩
    · change Except.map _ _ = _
      rw [hresult]
      rfl
    · change bucket (Pillar.call _ _ _ _).store.state t = _
      rw [hstate, bucket_outcome hservice.live]
      change _ = bucket (InMemoryLogStore.ingest m tenant batch).2 t
      rw [bucket_ingest, hagree tenant, hagree t]
  · rw [bucket_reopened hlive hdisk]
    exact hagree tenant

end FileBacked

/-- A file-backed store answers as the in-memory store and lists records of equal time in the
order in which they were ingested. -/
structure AnswersAs (s : Store PerTenant) (m : PerTenant)
    (ingested : TenantId → List LogRecord) : Prop where
  query_eq : ∀ tenant range, query s tenant range = InMemoryLogStore.query m tenant range
  queryWith_eq : ∀ tenant range predicate,
    queryWith s tenant range predicate = InMemoryLogStore.queryWith m tenant range predicate
  query_inOrder : ∀ tenant range time,
    ((query s tenant range).filter fun r => r.observedTimeUnixNano = time) =
      (ingested tenant).filter fun r =>
        r.observedTimeUnixNano = time && range.contains r.observedTimeUnixNano
  queryWith_inOrder : ∀ tenant range predicate time,
    ((queryWith s tenant range predicate).filter fun r => r.observedTimeUnixNano = time) =
      (ingested tenant).filter fun r => r.observedTimeUnixNano = time &&
        (range.contains r.observedTimeUnixNano && predicate.matchesRecord r)

/-- For every series of ingests, with snapshots and reopens anywhere between them, the
file-backed store is open and answers as the in-memory store. -/
theorem logs_survive_restarts {wal : LineSerde WalRecord} {snap : FileSerde Snapshot}
    (hwal : ∀ r, wal.Faithful r) (hsnap : ∀ k, snap.Faithful k)
    (actions : List (Action Call SnapshotOrder))
    (h : Run.AllSteps ((fileBackedLogStore wal snap).perform (ask wal snap))
      ((fileBackedLogStore wal snap).Serialises plan)
      ((fileBackedLogStore wal snap).openNode .none) actions) :
    ∃ s, Run.run ((fileBackedLogStore wal snap).perform (ask wal snap))
        ((fileBackedLogStore wal snap).openNode .none) actions = .up s ∧
      AnswersAs s (Run.run (Action.perform InMemoryLogStore.ask) ∅ actions)
        fun tenant => ingestedFor tenant actions := by
  obtain ⟨s, ledger, i, hs, -, hsame⟩ := (ask_simulates hwal hsnap h).2
  have hmatching (tenant : TenantId) (wanted : LogRecord → Bool) :
      matching s.state tenant wanted = matching
        (Run.run (Action.perform InMemoryLogStore.ask) ∅ actions) tenant wanted := by
    rw [matching_eq, matching_eq, hsame]
  have hinOrder (tenant : TenantId) (wanted : LogRecord → Bool) (time : Nat) :
      ((matching s.state tenant wanted).filter fun r => r.observedTimeUnixNano = time) =
        (ingestedFor tenant actions).filter fun r =>
          r.observedTimeUnixNano = time && wanted r := by
    have hbucket : bucket s.state tenant = sortBucket (ingestedFor tenant actions) := by
      rw [hsame, bucket_run actions ∅ tenant rfl, bucket_empty, List.nil_append]
    rw [matching_eq, hbucket, List.filter_comm, sortBucket, filter_sortByKey, List.filter_comm,
      List.filter_filter]
  exact ⟨s, hs, fun _ _ => hmatching _ _, fun _ _ _ => hmatching _ _,
    fun _ _ _ => hinOrder _ _ _, fun _ _ _ _ => hinOrder _ _ _⟩

/-- Another record of the same time. -/
def listening : LogRecord := { started with body := "listening" }

/-- An earlier one, below the others. -/
def idle : LogRecord :=
  { started with
    observedTimeUnixNano := 0
    severityNumber := ⟨5⟩
    severityText := "DEBUG"
    body := "idle" }

/-- The JSON of the log lines with these records. -/
def startLines : LineTable WalRecord where
  rows := startedLine.rows ++
    [(.ingest ⟨"acme"⟩ [listening],
      chars "\x7b\"op\":\"ingest\",\"tenant\":\"acme\",\"records\":[" rfl ++
        chars "\x7b\"observed_time_unix_nano\":1,\"severity_number\":9," rfl ++
        chars "\"severity_text\":\"INFO\",\"body\":\"listening\"," rfl ++
        chars "\"attributes\":\x7b\x7d,\"resource_attributes\":\x7b\x7d," rfl ++
        chars "\"trace_id\":null,\"span_id\":null\x7d]\x7d" rfl),
    (.ingest ⟨"acme"⟩ [idle],
      chars "\x7b\"op\":\"ingest\",\"tenant\":\"acme\",\"records\":[" rfl ++
        chars "\x7b\"observed_time_unix_nano\":0,\"severity_number\":5," rfl ++
        chars "\"severity_text\":\"DEBUG\",\"body\":\"idle\"," rfl ++
        chars "\"attributes\":\x7b\x7d,\"resource_attributes\":\x7b\x7d," rfl ++
        chars "\"trace_id\":null,\"span_id\":null\x7d]\x7d" rfl)]
  ascii := by decide +kernel
  oneLine := by decide +kernel
  prefixFree := by decide +kernel

/-- The snapshot of the first two. -/
def startSnapshot : Snapshot := ⟨[⟨⟨"acme"⟩, [started, listening]⟩]⟩

/-- The bytes of that snapshot. -/
def startBytes : Bytes :=
  asBytes (chars "\x7b\"per_tenant\":[\x7b\"tenant\":\"acme\",\"records\":[" rfl ++
    chars "\x7b\"observed_time_unix_nano\":1,\"severity_number\":9," rfl ++
    chars "\"severity_text\":\"INFO\",\"body\":\"started\"," rfl ++
    chars "\"attributes\":\x7b\x7d,\"resource_attributes\":\x7b\x7d," rfl ++
    chars "\"trace_id\":null,\"span_id\":null\x7d," rfl ++
    chars "\x7b\"observed_time_unix_nano\":1,\"severity_number\":9," rfl ++
    chars "\"severity_text\":\"INFO\",\"body\":\"listening\"," rfl ++
    chars "\"attributes\":\x7b\x7d,\"resource_attributes\":\x7b\x7d," rfl ++
    chars "\"trace_id\":null,\"span_id\":null\x7d]\x7d]\x7d" rfl)

/-- A log store for these. -/
abbrev startStore : Pillar PerTenant WalRecord Snapshot LogStoreError SnapshotOrder :=
  fileBackedLogStore startLines.serde (.single startSnapshot startBytes)

/-- Two ingests with a reopen between them. -/
def startIngests : List (Action Call SnapshotOrder) :=
  [.request ingestStarted, .reopen, .request (.ingest ⟨"acme"⟩ ⟨[listening]⟩)]

/-- A reopen, an empty ingest and a third one. -/
def idleIngests : List (Action Call SnapshotOrder) :=
  [.reopen, .request (.ingest ⟨"acme"⟩ ⟨[]⟩), .request (.ingest ⟨"acme"⟩ ⟨[idle]⟩)]

/-- A snapshot comes between these. -/
noncomputable def startedActions : List (Action Call SnapshotOrder) :=
  startIngests ++ .snapshot (.unspecified _ _) :: idleIngests

/-- The store when the snapshot is taken. -/
def startOpen : Store PerTenant where
  state := (∅ : PerTenant).insert ⟨"acme"⟩ [started, listening]
  snapshot := none
  tmp := none
  wal := ⟨(startLines.rows.take 2).flatMap fun e => wireLine e.2, []⟩

/-- The store in the end. -/
def idleOpen : Store PerTenant where
  state := (∅ : PerTenant).insert ⟨"acme"⟩ [idle, started, listening]
  snapshot := some startBytes
  tmp := none
  wal := ⟨(startLines.rows.drop 2).flatMap fun e => wireLine e.2, []⟩

set_option maxRecDepth 4000 in
theorem run_startIngests : Run.run (startStore.perform
      (ask startLines.serde (.single startSnapshot startBytes)))
    (startStore.openNode .none) startIngests = .up startOpen := by rfl

theorem toWriter_startOpen (order : SnapshotOrder) :
    startStore.snapSerde.toWriter (startStore.capture order startOpen.state) =
      .ok startBytes := by
  have hentries : order.entries startOpen.state = [(⟨"acme"⟩, [started, listening])] :=
    order.entries_singleton fun tenant => by
      rw [startOpen, lookup_insert_ite, Finmap.lookup_empty]
  have hcapture : toSnapshot order startOpen.state = startSnapshot := by
    rw [toSnapshot, hentries]
    rfl
  exact (congrArg _ hcapture).trans (FileSerde.single_toWriter _ _)

set_option maxRecDepth 4000 in
theorem run_startedActions : Run.run (startStore.perform
      (ask startLines.serde (.single startSnapshot startBytes)))
    (startStore.openNode .none) startedActions = .up idleOpen :=
  (startStore.run_snapshot _ run_startIngests (toWriter_startOpen _) _).trans (by rfl)

theorem serialises_startedActions : Run.AllSteps (startStore.perform
      (ask startLines.serde (.single startSnapshot startBytes)))
    (startStore.Serialises plan) (startStore.openNode .none) startedActions :=
  startStore.allSteps_snapshot _ run_startIngests (toWriter_startOpen _) (by decide +kernel)
    trivial (by decide +kernel)

/-- The file-backed store then answers as the in-memory store. -/
theorem startedActions_survive :
    ∃ s, Run.run (startStore.perform (ask startLines.serde (.single startSnapshot startBytes)))
        (startStore.openNode .none) startedActions = .up s ∧
      AnswersAs s (Run.run (Action.perform InMemoryLogStore.ask) ∅ startedActions)
        fun tenant => ingestedFor tenant startedActions :=
  logs_survive_restarts startLines.faithful (FileSerde.single_faithful _ _) startedActions
    serialises_startedActions

end Kaleidoscope.Lumen
