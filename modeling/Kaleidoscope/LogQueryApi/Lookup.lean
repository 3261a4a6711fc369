import Kaleidoscope.Adapters.Logs
import Kaleidoscope.LogQueryApi.Handler
import Kaleidoscope.Storage.Kept

/-!
# Logs of a trace

A lookup by trace id scans all of time, a range that ends before the last nanosecond there is.
-/

namespace Kaleidoscope.LogQueryApi

open Aegis HashMap Lumen QueryApi StableSort

/-! ## What ingests store -/

section Ingests

variable (wal : LineSerde WalRecord) (snap : FileSerde Snapshot)

/-- An ingest, and what goes wrong with its append. -/
structure Attempt where
  tenant : TenantId
  batch : LogBatch
  fault : Fault

/-- A store that was opened without files. -/
def freshStore : Store PerTenant := ⟨∅, none, none, .new []⟩

/-- An attempt at an ingest of the file-backed store. -/
def attempt (store : Store PerTenant) (a : Attempt) :
    Except LogStoreError IngestReceipt × Store PerTenant :=
  ingest wal snap store a.tenant a.batch a.fault

/-- The store after attempts. -/
def afterAttempts (store : Store PerTenant) (attempts : List Attempt) : Store PerTenant :=
  Run.run (fun store a => (attempt wal snap store a).2) store attempts

/-- The records of a tenant whose ingests succeed, in the order of the ingests. -/
def accepted (tenant : TenantId) : Store PerTenant → List Attempt → List LogRecord
  | _, [] => []
  | store, a :: attempts =>
    (if (attempt wal snap store a).1.isOk ∧ tenant = a.tenant then a.batch.records else []) ++
      accepted tenant (attempt wal snap store a).2 attempts

/-- Every bucket of a store is in the order of time. -/
def InOrder (store : Store PerTenant) : Prop :=
  ∀ tenant, sortBucket (bucket store.state tenant) = bucket store.state tenant

/-- An ingest that succeeds appends to the bucket of its tenant and sorts it; one that fails
changes no bucket. -/
theorem bucket_attempt {store : Store PerTenant} (h : InOrder store) (a : Attempt)
    (tenant : TenantId) : bucket (attempt wal snap store a).2.state tenant =
      sortBucket (bucket store.state tenant ++
        if (attempt wal snap store a).1.isOk ∧ tenant = a.tenant then a.batch.records else []) := by
  obtain ⟨t, batch, fault⟩ := a
  by_cases hempty : batch.isEmpty = true
  · have hrecords : batch.records = [] := by simpa [LogBatch.isEmpty] using hempty
    simp only [attempt, ingest, plan, ingestSteps, if_pos hempty, hrecords, ite_self,
      List.append_nil, h tenant]
    rfl
  · have hsteps : ingestSteps t batch = [_] := if_neg hempty
    simp only [attempt, ingest, plan, hsteps]
    rcases (fileBackedLogStore wal snap).call_singleton store.state _ fault store with
      ⟨hresult, hstate⟩ | ⟨e, hresult, hstate⟩
    · rw [hresult, hstate]
      refine (bucket_ingest store.state t tenant batch).trans ?_
      by_cases ht : tenant = t
      · simp [ht, Except.map, Except.isOk, Except.toBool]
      · simp [ht, h tenant]
    · rw [hresult, hstate]
      simp [Except.map, Except.isOk, Except.toBool, h tenant]

/-- What attempts leave in a bucket. -/
theorem bucket_afterAttempts {store : Store PerTenant} (h : InOrder store)
    (attempts : List Attempt) (tenant : TenantId) :
    bucket (afterAttempts wal snap store attempts).state tenant =
      sortBucket (bucket store.state tenant ++ accepted wal snap tenant store attempts) := by
  induction attempts generalizing store with
  | nil => rw [accepted, List.append_nil, h tenant]; rfl
  | cons a attempts ih =>
    have hnext : InOrder (attempt wal snap store a).2 := by
      intro t
      rw [bucket_attempt wal snap h]
      exact sortByKey_sortByKey _ _
    rw [afterAttempts, Run.run_cons, ← afterAttempts, ih hnext, bucket_attempt wal snap h, accepted,
      ← List.append_assoc]
    exact sortByKey_append_left _ _ _

end Ingests

/-! ## What a lookup returns -/

/-- The records of a trace among stored ones, in the order of time. -/
def carrying (id : Vector UInt8 16) (stored : List LogRecord) : List LogRecord :=
  (sortBucket stored).filter fun record => record.traceId = some id

/-- A lookup by trace id returns every stored record of the trace. -/
structure FindsAll (compile : Compile)
    (parseTimeRange : String → String → Except String EpochRange) (reads : LogReads)
    (tenant : TenantId) (id : Vector UInt8 16) (stored : List LogRecord) : Prop where
  lookup : logsForTrace reads tenant id = .ok ((carrying id stored).map LogView.ofRecord)
  /-- A request with the trace id alone, below the row cap. -/
  listing : ∀ raw, parseTraceId raw = .ok id → (carrying id stored).length ≤ maxResultRows →
    handleLogs compile parseTimeRange reads (.ok tenant) { traceId := some raw } =
      .success ((carrying id stored).map LogView.ofRecord)

/-- All of time ends before the last nanosecond. -/
theorem contains_all_iff (t : Nat) : TimeRange.all.contains t = true ↔ t < Pulse.u64Max := by
  rw [TimeRange.contains, Bool.and_eq_true, decide_eq_true_eq, decide_eq_true_eq]
  exact and_iff_right (Nat.zero_le t)

/-- The records that a scan of all of time returns. -/
def scanned (stored : List LogRecord) : List LogRecord :=
  (sortBucket stored).filter fun record => TimeRange.all.contains record.observedTimeUnixNano

/-- Those of a trace among them. -/
theorem filter_scanned (id : Vector UInt8 16) (stored : List LogRecord) :
    (scanned stored).filter (fun record => record.traceId = some id) =
      (carrying id stored).filter fun record =>
        TimeRange.all.contains record.observedTimeUnixNano := by
  rw [scanned, carrying, List.filter_comm]

theorem mem_carrying {id : Vector UInt8 16} {stored : List LogRecord} {record : LogRecord} :
    record ∈ carrying id stored ↔ record ∈ stored ∧ record.traceId = some id := by
  rw [carrying, List.mem_filter, sortBucket, (sortByKey_perm _ _).mem_iff, decide_eq_true_eq]

/-- The scan misses none of a trace exactly if none is at the last nanosecond. -/
theorem filter_scanned_eq_iff {id : Vector UInt8 16} {stored : List LogRecord} :
    ((scanned stored).filter fun record => record.traceId = some id).length =
        (carrying id stored).length ↔
      ∀ record ∈ stored, record.traceId = some id →
        record.observedTimeUnixNano < Pulse.u64Max := by
  rw [filter_scanned, List.length_filter_eq_length_iff]
  simp only [mem_carrying, contains_all_iff, and_imp]

section Lookup

variable {compile : Compile} {parseTimeRange : String → String → Except String EpochRange}
  {reads : LogReads} {tenant : TenantId} {id : Vector UInt8 16} {stored : List LogRecord}

theorem logsForTrace_eq (hquery : reads.query tenant .all = .ok (scanned stored)) :
    logsForTrace reads tenant id = .ok
      (((scanned stored).filter fun record => record.traceId = some id).map LogView.ofRecord) := by
  rw [logsForTrace, hquery]
  rfl

theorem handleLogs_trace (hquery : reads.query tenant .all = .ok (scanned stored)) {raw : String}
    (hraw : parseTraceId raw = .ok id) :
    handleLogs compile parseTimeRange reads (.ok tenant) { traceId := some raw } =
      LogsRequest.respond ⟨.all, none, none, none, none, 0, some id⟩ (scanned stored) := by
  simp only [handleLogs, parseParams_trace, hraw, Except.map, LogReads.dispatch, hquery]

/-- A lookup over the scan of all of time returns every record of the trace exactly if none is at
the last nanosecond. -/
theorem findsAll_iff (hquery : reads.query tenant .all = .ok (scanned stored)) :
    FindsAll compile parseTimeRange reads tenant id stored ↔
      ∀ record ∈ stored, record.traceId = some id →
        record.observedTimeUnixNano < Pulse.u64Max := by
  rw [← filter_scanned_eq_iff]
  constructor
  · intro h
    have hlookup := h.lookup
    rw [logsForTrace_eq hquery] at hlookup
    simpa using congrArg List.length (Except.ok.inj hlookup)
  · intro h
    have heq : (scanned stored).filter (fun record => record.traceId = some id) =
        carrying id stored := by
      rw [filter_scanned] at h ⊢
      exact List.filter_eq_self.mpr (List.length_filter_eq_length_iff.mp h)
    refine ⟨by rw [logsForTrace_eq hquery, heq], fun raw hraw hcap => ?_⟩
    rw [handleLogs_trace hquery hraw]
    simp only [LogsRequest.respond, heq, if_neg (Nat.not_lt.mpr hcap), List.drop_zero]

end Lookup

/-- The reads of the file-backed store scan its bucket. -/
theorem query_fileBackedReads {store : Store PerTenant} {tenant : TenantId}
    {stored : List LogRecord} (h : bucket store.state tenant = sortBucket stored) :
    (fileBackedReads store).query tenant .all = .ok (scanned stored) := by
  rw [scanned, ← h]
  exact congrArg Except.ok (matching_eq store.state tenant _)

/-- So do those of the store in memory. -/
theorem query_inMemoryReads {perTenant : PerTenant} {tenant : TenantId}
    {stored : List LogRecord} (h : bucket perTenant tenant = sortBucket stored) :
    (inMemoryReads perTenant).query tenant .all = .ok (scanned stored) := by
  rw [scanned, ← h]
  exact congrArg Except.ok (matching_eq perTenant tenant _)

/-- After any ingests, of either store, the lookup of a trace returns every record of it that was
accepted exactly if none of them was observed at the last nanosecond, the one that all of time does
not contain. -/
theorem findsAll_after_ingests (compile : Compile)
    (parseTimeRange : String → String → Except String EpochRange) :
    (∀ t : UInt64, TimeRange.all.contains t.toNat = true ↔ t.toNat ≠ Pulse.u64Max) ∧
    (∀ wal snap attempts tenant id,
      FindsAll compile parseTimeRange
          (fileBackedReads (afterAttempts wal snap freshStore attempts)) tenant id
          (accepted wal snap tenant freshStore attempts) ↔
        ∀ record ∈ accepted wal snap tenant freshStore attempts, record.traceId = some id →
          record.observedTimeUnixNano < Pulse.u64Max) ∧
    (∀ actions tenant id,
      FindsAll compile parseTimeRange
          (inMemoryReads (Run.run (Action.perform InMemoryLogStore.ask) ∅ actions)) tenant id
          (ingestedFor tenant actions) ↔
        ∀ record ∈ ingestedFor tenant actions, record.traceId = some id →
          record.observedTimeUnixNano < Pulse.u64Max) := by
  refine ⟨fun t => ?_, fun wal snap attempts tenant id => ?_, fun actions tenant id => ?_⟩
  · have := t.toNat_lt
    rw [contains_all_iff, Pulse.u64Max]
    omega
  · refine findsAll_iff (query_fileBackedReads ?_)
    have hfresh : InOrder freshStore := fun _ => rfl
    rw [bucket_afterAttempts wal snap hfresh]
    rfl
  · refine findsAll_iff (query_inMemoryReads ?_)
    rw [bucket_run actions ∅ tenant rfl, bucket_empty, List.nil_append]

/-- The same holds with snapshots and reopens between the ingests. -/
theorem findsAll_after_restarts {wal : LineSerde WalRecord} {snap : FileSerde Snapshot}
    (hwal : ∀ r, wal.Faithful r) (hsnap : ∀ k, snap.Faithful k)
    {actions : List (Action Call SnapshotOrder)}
    (h : Run.AllSteps ((fileBackedLogStore wal snap).perform (ask wal snap))
      ((fileBackedLogStore wal snap).Serialises plan)
      ((fileBackedLogStore wal snap).openNode .none) actions)
    (compile : Compile) (parseTimeRange : String → String → Except String EpochRange)
    (tenant : TenantId) (id : Vector UInt8 16) :
    ∃ store, Run.run ((fileBackedLogStore wal snap).perform (ask wal snap))
        ((fileBackedLogStore wal snap).openNode .none) actions = .up store ∧
      (FindsAll compile parseTimeRange (fileBackedReads store) tenant id
          (ingestedFor tenant actions) ↔
        ∀ record ∈ ingestedFor tenant actions, record.traceId = some id →
          record.observedTimeUnixNano < Pulse.u64Max) := by
  obtain ⟨store, -, -, hup, -, hsame⟩ := (ask_simulates hwal hsnap h).2
  refine ⟨store, hup, findsAll_iff (query_fileBackedReads ?_)⟩
  rw [hsame tenant, bucket_run actions ∅ tenant rfl, bucket_empty, List.nil_append]

/-- A record of a trace, observed at the last nanosecond. -/
def lastRecord : LogRecord where
  observedTimeUnixNano := Pulse.u64Max
  severityNumber := ⟨9⟩
  severityText := "INFO"
  body := "late"
  attributes := .empty
  resourceAttributes := .empty
  traceId := some (.replicate 16 1)
  spanId := none

/-- The JSON of a log line with it. -/
def lastLine : LineTable WalRecord where
  rows :=
    [(.ingest ⟨"acme"⟩ [lastRecord],
      chars "\x7b\"op\":\"ingest\",\"tenant\":\"acme\",\"records\":[" rfl ++
        chars "\x7b\"observed_time_unix_nano\":18446744073709551615," rfl ++
        chars "\"severity_number\":9,\"severity_text\":\"INFO\",\"body\":\"late\"," rfl ++
        chars "\"attributes\":\x7b\x7d,\"resource_attributes\":\x7b\x7d," rfl ++
        chars "\"trace_id\":[1,1,1,1,1,1,1,1,1,1,1,1,1,1,1,1],\"span_id\":null\x7d]\x7d" rfl)]
  ascii := by decide +kernel
  oneLine := by decide +kernel
  prefixFree := by simp

/-- One ingest of it. -/
def lastAttempts : List Attempt := [⟨⟨"acme"⟩, ⟨[lastRecord]⟩, .none⟩]

/-- The store after the ingest. -/
def lastStore : Store PerTenant :=
  afterAttempts lastLine.serde (.single ⟨[]⟩ []) freshStore lastAttempts

/-- The record is accepted, and the lookup of its trace returns nothing. -/
theorem last_record_missed :
    accepted lastLine.serde (.single ⟨[]⟩ []) ⟨"acme"⟩ freshStore lastAttempts = [lastRecord] ∧
      logsForTrace (fileBackedReads lastStore) ⟨"acme"⟩ (.replicate 16 1) = .ok [] ∧
      ∀ compile parseTimeRange, ¬FindsAll compile parseTimeRange (fileBackedReads lastStore)
        ⟨"acme"⟩ (.replicate 16 1) [lastRecord] := by
  have hlookup : logsForTrace (fileBackedReads lastStore) ⟨"acme"⟩ (.replicate 16 1) = .ok [] := by
    have hscan : query lastStore ⟨"acme"⟩ .all = [] := by decide +kernel
    simp only [logsForTrace, fileBackedReads, hscan]
    rfl
  refine ⟨by decide +kernel, hlookup, fun compile parseTimeRange h => ?_⟩
  have hfound := h.lookup
  rw [hlookup] at hfound
  cases hfound

end Kaleidoscope.LogQueryApi
