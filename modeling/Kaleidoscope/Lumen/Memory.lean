import Kaleidoscope.Lumen.FileBacked
import Kaleidoscope.Wal.Session

/-!
# The in-memory log store

The adapter without files, and the queries of both adapters. Each bucket is sorted on every
ingest here, and on every ingest and every `open` there; the sort is stable, so the buckets
are the same lists.
-/

namespace Kaleidoscope.Lumen

open Aegis HashMap StableSort

/-- Query predicate; a filter that is not set accepts every record. -/
structure Predicate where
  service : Option String
  minSeverity : Option SeverityNumber
  bodyContains : Option String
  /-- The compiled expression, as the test it makes of a body. -/
  bodyRegex : Option (String → Bool)

/-- The empty predicate. -/
def Predicate.new : Predicate := ⟨none, none, none, none⟩

/-- `str::contains`. -/
def containsText (body target : String) : Bool := decide (target.toList <:+: body.toList)

/-- `matches`: every filter that is set passes. -/
def Predicate.matchesRecord (predicate : Predicate) (record : LogRecord) : Bool :=
  (predicate.service.all fun target =>
      record.resourceAttributes.get "service.name" = some target) &&
    (predicate.minSeverity.all fun floor =>
      ¬ record.severityNumber.number < floor.number) &&
    (predicate.bodyContains.all fun target => containsText record.body target) &&
    predicate.bodyRegex.all fun isMatch => isMatch record.body

/-- The records of a tenant that are wanted, in the order of its bucket. -/
def matching (perTenant : PerTenant) (tenant : TenantId) (wanted : LogRecord → Bool) :
    List LogRecord :=
  match perTenant.lookup tenant with
  | some bucket => bucket.filter wanted
  | none => []

/-- `query_with` of the file-backed store. -/
def queryWith (store : Store PerTenant) (tenant : TenantId) (range : TimeRange)
    (predicate : Predicate) : List LogRecord :=
  matching store.state tenant fun r =>
    range.contains r.observedTimeUnixNano && predicate.matchesRecord r

namespace InMemoryLogStore

/-- `ingest`, of an empty batch as well. -/
def ingest (perTenant : PerTenant) (tenant : TenantId) (batch : LogBatch) :
    Except LogStoreError IngestReceipt × PerTenant :=
  (.ok ⟨batch.len⟩,
    perTenant.upsert tenant [] fun bucket => sortBucket (bucket ++ batch.records))

/-- `query`. -/
def query (perTenant : PerTenant) (tenant : TenantId) (range : TimeRange) : List LogRecord :=
  matching perTenant tenant fun r => range.contains r.observedTimeUnixNano

/-- `query_with`. -/
def queryWith (perTenant : PerTenant) (tenant : TenantId) (range : TimeRange)
    (predicate : Predicate) : List LogRecord :=
  matching perTenant tenant fun r =>
    range.contains r.observedTimeUnixNano && predicate.matchesRecord r

/-- An ingest as a request. -/
def ask (perTenant : PerTenant) : Call → Except LogStoreError IngestReceipt × PerTenant
  | .ingest tenant batch => ingest perTenant tenant batch

end InMemoryLogStore

theorem matching_eq (perTenant : PerTenant) (tenant : TenantId) (wanted : LogRecord → Bool) :
    matching perTenant tenant wanted = (bucket perTenant tenant).filter wanted := by
  rw [matching, HashMap.bucket]
  cases perTenant.lookup tenant <;> rfl

/-- A filtered query is the query, filtered. -/
theorem InMemoryLogStore.queryWith_eq (perTenant : PerTenant) (tenant : TenantId)
    (range : TimeRange) (predicate : Predicate) :
    queryWith perTenant tenant range predicate =
      (query perTenant tenant range).filter predicate.matchesRecord := by
  rw [queryWith, query, matching_eq, matching_eq, List.filter_filter]
  exact List.filter_congr fun record _ => Bool.and_comm _ _

/-- Without filters a predicate asks for the range alone. -/
theorem queryWith_new (perTenant : PerTenant) (tenant : TenantId) (range : TimeRange) :
    InMemoryLogStore.queryWith perTenant tenant range .new =
      InMemoryLogStore.query perTenant tenant range := by
  rw [InMemoryLogStore.queryWith, InMemoryLogStore.query]
  exact congrArg _ (funext fun r => by simp [Predicate.matchesRecord, Predicate.new])

/-- An ingest appends to the bucket of its tenant and sorts it. -/
theorem bucket_ingest (perTenant : PerTenant) (tenant t : TenantId) (batch : LogBatch) :
    bucket (InMemoryLogStore.ingest perTenant tenant batch).2 t =
      if t = tenant then sortBucket (bucket perTenant tenant ++ batch.records)
      else bucket perTenant t :=
  bucket_upsert _ _ _ _

section FileBacked

variable (wal : LineSerde WalRecord) (snap : FileSerde Snapshot)

/-- An ingest of the file-backed store as a request, while no append fails. -/
def ask (store : Store PerTenant) : Call → Except LogStoreError IngestReceipt × Store PerTenant
  | .ingest tenant batch => ingest wal snap store tenant batch .none

variable {wal snap}

/-- The buckets of a store in service are sorted. -/
theorem sortBucket_of_live {perTenant : PerTenant} {i : List WalRecord}
    (h : (appendOnly wal snap).refinement.live perTenant i) (tenant : TenantId) :
    sortBucket (bucket perTenant tenant) = bucket perTenant tenant :=
  sortByKey_of_pairwise _ (h.2 tenant)

/-- Memory after an ingest: the file-backed store leaves a bucket alone that an empty batch
would sort again. -/
theorem bucket_outcome {perTenant : PerTenant} {i : List WalRecord}
    (h : (appendOnly wal snap).refinement.live perTenant i) (tenant t : TenantId)
    (batch : LogBatch) : bucket (plan (.ingest tenant batch) perTenant).outcome t =
      if t = tenant then sortBucket (bucket perTenant tenant ++ batch.records)
      else bucket perTenant t := by
  rw [plan, ingestSteps]
  by_cases hempty : batch.isEmpty
  · rw [if_pos hempty]
    change bucket perTenant t = _
    have hnil : batch.records = [] := by simpa [LogBatch.isEmpty] using hempty
    rw [hnil, List.append_nil, sortBucket_of_live h]
    split_ifs with ht
    · rw [ht]
    · rfl
  · rw [if_neg hempty]
    exact bucket_ingest perTenant tenant t batch

/-- Replay and the sort after it rebuild every bucket as it was. -/
theorem bucket_reopened {perTenant d : PerTenant} {i : List WalRecord}
    (h : (appendOnly wal snap).refinement.live perTenant i)
    (hd : (appendOnly wal snap).refinement.disk d i) (tenant : TenantId) :
    bucket ((fileBackedLogStore wal snap).settle d) tenant = bucket perTenant tenant := by
  have hdisk : sortBucket (bucket d tenant) = _ := hd tenant
  have hlive : sortBucket (bucket perTenant tenant) = _ := h.1 tenant
  calc bucket ((fileBackedLogStore wal snap).settle d) tenant
      = sortBucket (bucket d tenant) := (appendOnly wal snap).bucket_settle d tenant
    _ = sortBucket (bucket perTenant tenant) := hdisk.trans hlive.symm
    _ = bucket perTenant tenant := sortBucket_of_live h tenant

end FileBacked

end Kaleidoscope.Lumen
