import Kaleidoscope.Aegis.Validator
import Kaleidoscope.Lumen.Record
import Kaleidoscope.Wal.AppendOnly

/-!
# The file-backed log store
-/

namespace Kaleidoscope.Lumen

open Aegis HashMap StableSort

/-- Typed store failures. -/
inductive LogStoreError where
  | persistenceFailed (reason : String)
  deriving DecidableEq, Repr

/-- Successful ingest response. -/
structure IngestReceipt where
  count : Nat
  deriving DecidableEq, Repr

/-- One line of the log. -/
inductive WalRecord where
  | ingest (tenant : TenantId) (records : List LogRecord)
  deriving DecidableEq

/-- The records of one tenant in a snapshot. -/
structure TenantBucket where
  tenant : TenantId
  records : List LogRecord
  deriving DecidableEq

/-- The snapshot file. -/
structure Snapshot where
  perTenant : List TenantBucket
  deriving DecidableEq

/-- The records of each tenant. -/
abbrev PerTenant := HashMap TenantId (List LogRecord)

/-- The map `open` builds from a snapshot. -/
def fromSnapshot (snap : Snapshot) : PerTenant :=
  snap.perTenant.foldl (fun perTenant b => perTenant.insert b.tenant b.records) ∅

/-- The closure `open` replays the log with. -/
def applyRecord (perTenant : PerTenant) : WalRecord → PerTenant
  | .ingest tenant records => perTenant.upsert tenant [] (· ++ records)

/-- Sort a bucket on the observed time. -/
def sortBucket (bucket : List LogRecord) : List LogRecord :=
  sortByKey LogRecord.observedTimeUnixNano bucket

/-- The snapshot of the current state. -/
def toSnapshot (order : IterOrder TenantId (List LogRecord)) (perTenant : PerTenant) : Snapshot :=
  ⟨(order.entries perTenant).map fun e => ⟨e.1, e.2⟩⟩

/-- `FileBackedLogStore`. -/
def fileBackedLogStore (wal : LineSerde WalRecord) (snap : FileSerde Snapshot) :
    Pillar PerTenant WalRecord Snapshot LogStoreError (IterOrder TenantId (List LogRecord)) where
  walSerde := wal
  snapSerde := snap
  persistenceFailed := .persistenceFailed
  empty := ∅
  restore snap := .ok (fromSnapshot snap)
  apply perTenant record := .ok (applyRecord perTenant record)
  replayLoop := .tornTail fun line error =>
    .persistenceFailed s!"WAL parse error at line {line}: {error}"
  settle perTenant := perTenant.mapValues sortBucket
  capture := toSnapshot

/-- The operations that write to the log. -/
inductive Call where
  | ingest (tenant : TenantId) (batch : LogBatch)

/-- What `ingest` appends: nothing for an empty batch. -/
def ingestSteps (tenant : TenantId) (batch : LogBatch) : List (LogStep PerTenant WalRecord) :=
  if batch.isEmpty then []
  else
    [{ record := .ingest tenant batch.records
       commit := fun perTenant =>
         perTenant.upsert tenant [] fun bucket => sortBucket (bucket ++ batch.records) }]

/-- The appends of an operation. -/
def plan : Call → PerTenant → Plan PerTenant WalRecord
  | .ingest tenant batch, perTenant => ⟨perTenant, ingestSteps tenant batch⟩

section Operations

variable (wal : LineSerde WalRecord) (snap : FileSerde Snapshot)

/-- `ingest`. -/
def ingest (store : Store PerTenant) (tenant : TenantId) (batch : LogBatch) (fault : Fault) :
    Except LogStoreError IngestReceipt × Store PerTenant :=
  let ran := (fileBackedLogStore wal snap).call (plan (.ingest tenant batch) store.state)
    [fault] store
  (ran.result.map fun _ => ⟨batch.len⟩, ran.store)

/-- `query`. -/
def query (store : Store PerTenant) (tenant : TenantId) (range : TimeRange) : List LogRecord :=
  match store.state.lookup tenant with
  | some bucket => bucket.filter fun r => range.contains r.observedTimeUnixNano
  | none => []

/-- What a log record files. -/
def WalRecord.items : WalRecord → List (TenantId × LogRecord)
  | .ingest tenant records => records.map fun r => (tenant, r)

theorem fromSnapshot_toSnapshot (order : IterOrder TenantId (List LogRecord))
    (perTenant : PerTenant) : fromSnapshot (toSnapshot order perTenant) = perTenant := by
  rw [fromSnapshot, toSnapshot, List.foldl_map]
  exact order.insertAll_entries perTenant

/-- The log store only ever files records under tenants. -/
def appendOnly : AppendOnly (fileBackedLogStore wal snap) TenantId LogRecord where
  time := LogRecord.observedTimeUnixNano
  keeps := .stable _
  bucket := bucket
  items := WalRecord.items
  good r := r.items ≠ []
  bucket_empty := bucket_empty
  apply_ok perTenant record := by
    refine ⟨_, rfl, fun k => ?_⟩
    obtain ⟨tenant, records⟩ := record
    rw [applyRecord, bucket_upsert, WalRecord.items, valuesAt_map_pair]
    by_cases h : tenant = k
    · simp [h]
    · simp [h, Ne.symm h]
  bucket_settle perTenant k := bucket_mapValues perTenant k rfl
  restore_capture order perTenant _ _ :=
    ⟨perTenant, congrArg Except.ok (fromSnapshot_toSnapshot order perTenant), fun _ => rfl⟩

theorem good_ingest {tenant : TenantId} {batch : LogBatch} (h : ¬ batch.isEmpty = true) :
    (WalRecord.ingest tenant batch.records).items ≠ [] := by
  simpa [WalRecord.items, LogBatch.isEmpty] using h

/-- Every ingest is legal. -/
theorem legal (hwal : ∀ r, wal.Faithful r) (c : Call) (faults : List Fault) (perTenant : PerTenant)
    (i : List WalRecord) (h : (appendOnly wal snap).refinement.live perTenant i) :
    (appendOnly wal snap).refinement.Legal (plan c perTenant) faults i := by
  obtain ⟨tenant, batch⟩ := c
  rw [plan, ingestSteps]
  split_ifs with hempty
  · exact ⟨Or.inl h, trivial⟩
  · refine (appendOnly wal snap).legal_ingest (hwal _) (good_ingest hempty)
      (fun s hsorted k => ?_) h faults
    change bucket (s.upsert tenant [] _) k =
      sortBucket (bucket s k ++ valuesAt k (batch.records.map fun r => (tenant, r)))
    rw [bucket_upsert, valuesAt_map_pair]
    by_cases hk : tenant = k
    · simp [hk]
    · rw [if_neg (Ne.symm hk), if_neg hk, List.append_nil]
      exact (sortByKey_of_pairwise _ (hsorted k)).symm

end Operations

end Kaleidoscope.Lumen
