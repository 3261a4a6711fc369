import Kaleidoscope.Ray.FileBacked

/-!
# The in-memory trace store

The adapter without files, and the filtered query of both adapters. An ingest sorts the buckets
it touched, so from sorted indices it leaves sorted ones.
-/

namespace Kaleidoscope.Ray

open Aegis HashMap StableSort

/-- Query predicate; a filter that is not set accepts every span. -/
structure Predicate where
  spanName : Option String
  kind : Option SpanKind
  status : Option StatusCode
  deriving DecidableEq

/-- The empty predicate. -/
def Predicate.new : Predicate := ⟨none, none, none⟩

/-- `matches`: every filter that is set passes. -/
def Predicate.matchesSpan (predicate : Predicate) (span : Span) : Bool :=
  (predicate.spanName.all fun target => span.name = target) &&
    (predicate.kind.all fun kind => span.kind = kind) &&
    predicate.status.all fun code => span.status.code = code

/-- `query_with` of the file-backed store. -/
def queryWith (store : Store Indices) (tenant : TenantId) (service : ServiceName)
    (range : TimeRange) (predicate : Predicate) : List Span :=
  match store.state.byService.lookup (tenant, service) with
  | some bucket => bucket.filter fun s =>
      range.contains s.startTimeUnixNano && predicate.matchesSpan s
  | none => []

namespace InMemoryTraceStore

/-- `ingest`. -/
def ingest (indices : Indices) (tenant : TenantId) (batch : SpanBatch) :
    Except TraceStoreError IngestReceipt × Indices :=
  let (indices, touched) := applyIngest indices tenant batch.spans
  (.ok ⟨batch.len⟩, sortTouched indices tenant touched)

/-- `get_trace`. -/
def getTrace (indices : Indices) (tenant : TenantId) (traceId : TraceId) : List Span :=
  (indices.byTrace.lookup (tenant, traceId)).getD []

/-- `query`. -/
def query (indices : Indices) (tenant : TenantId) (service : ServiceName) (range : TimeRange) :
    List Span :=
  match indices.byService.lookup (tenant, service) with
  | some bucket => bucket.filter fun s => range.contains s.startTimeUnixNano
  | none => []

/-- `query_with`. -/
def queryWith (indices : Indices) (tenant : TenantId) (service : ServiceName)
    (range : TimeRange) (predicate : Predicate) : List Span :=
  match indices.byService.lookup (tenant, service) with
  | some bucket => bucket.filter fun s =>
      range.contains s.startTimeUnixNano && predicate.matchesSpan s
  | none => []

end InMemoryTraceStore

/-- Every bucket of both indices is in the order of time. -/
def Indices.Sorted (indices : Indices) : Prop :=
  ∀ k, (indices.bucket k).Pairwise fun a b => a.startTimeUnixNano ≤ b.startTimeUnixNano

theorem Indices.sorted_empty : Indices.empty.Sorted := by
  rintro (k | k) <;> simp [Indices.bucket, Indices.empty]

theorem InMemoryTraceStore.getTrace_eq (indices : Indices) (tenant : TenantId)
    (traceId : TraceId) :
    getTrace indices tenant traceId = indices.bucket (.inl (tenant, traceId)) :=
  rfl

theorem InMemoryTraceStore.query_eq (indices : Indices) (tenant : TenantId)
    (service : ServiceName) (range : TimeRange) : query indices tenant service range =
      (indices.bucket (.inr (tenant, service))).filter
        fun s => range.contains s.startTimeUnixNano := by
  rw [query, Indices.bucket, HashMap.bucket]
  cases indices.byService.lookup (tenant, service) <;> rfl

/-- A filtered query is the query, filtered. -/
theorem InMemoryTraceStore.queryWith_eq (indices : Indices) (tenant : TenantId)
    (service : ServiceName) (range : TimeRange) (predicate : Predicate) :
    queryWith indices tenant service range predicate =
      (query indices tenant service range).filter predicate.matchesSpan := by
  rw [queryWith, query]
  cases indices.byService.lookup (tenant, service) with
  | none => rfl
  | some bucket => rw [List.filter_filter]; simp only [Bool.and_comm]

/-- An ingest appends to the buckets of its spans and sorts them. -/
theorem InMemoryTraceStore.bucket_ingest {indices : Indices} (h : indices.Sorted)
    (tenant : TenantId) (batch : SpanBatch) (k : Key) :
    (ingest indices tenant batch).2.bucket k =
      sortBucket (indices.bucket k ++ valuesAt k (WalRecord.ingest tenant batch.spans).items) :=
  bucket_sortTouched h tenant batch.spans k

theorem InMemoryTraceStore.sorted_ingest {indices : Indices} (h : indices.Sorted)
    (tenant : TenantId) (batch : SpanBatch) : (ingest indices tenant batch).2.Sorted := by
  intro k
  rw [bucket_ingest h]
  exact pairwise_sortByKey _ _

/-- What is filed under a trace. -/
theorem valuesAt_traceItems (spans : List (TenantId × Span)) (tenant : TenantId)
    (traceId : TraceId) : valuesAt (.inl (tenant, traceId)) (itemsOf spans) =
      (spans.filter fun e => e.1 = tenant ∧ e.2.traceId = traceId).map Prod.snd := by
  rw [itemsOf, valuesAt_inl]
  induction spans with
  | nil => rfl
  | cons e spans ih =>
    rw [List.map_cons, valuesAt_cons, ih, traceItem, List.filter_cons]
    by_cases he : e.1 = tenant ∧ e.2.traceId = traceId
    · simp [he]
    · simp [he]

/-- What is filed under a service. -/
theorem valuesAt_serviceItems (spans : List (TenantId × Span)) (tenant : TenantId)
    (service : ServiceName) : valuesAt (.inr (tenant, service)) (itemsOf spans) =
      (valuesAt tenant spans).filter fun span =>
        span.serviceName = service.name ∧ span.serviceName ≠ "" := by
  rw [itemsOf, valuesAt_inr]
  induction spans with
  | nil => rfl
  | cons e spans ih =>
    have hkey : (e.1, ServiceName.mk e.2.serviceName) = (tenant, service) ↔
        e.1 = tenant ∧ e.2.serviceName = service.name := by
      rw [Prod.mk.injEq, ← ServiceName.mk.injEq]
    rw [valuesAt_cons, List.filter_append, ← ih, List.filterMap_cons, serviceItem]
    by_cases hname : e.2.serviceName = ""
    · rw [if_pos hname]
      split_ifs <;> simp [hname]
    · simp only [if_neg hname, valuesAt_cons, hkey]
      by_cases ht : e.1 = tenant
      · by_cases hs : e.2.serviceName = service.name
        · rw [hs] at hname
          simp [ht, hs, hname]
        · simp [hs]
      · simp [ht]

/-- What an ingest files under a trace: its spans of that trace, for its tenant. -/
theorem valuesAt_ingest_trace (tenant : TenantId) (spans : List Span) (t : TenantId)
    (traceId : TraceId) : valuesAt (.inl (t, traceId)) (WalRecord.ingest tenant spans).items =
      if tenant = t then spans.filter fun span => span.traceId = traceId else [] := by
  rw [WalRecord.items, valuesAt_traceItems, WalRecord.spans, List.filter_map, List.map_map]
  split_ifs with ht
  · simp [ht, Function.comp_def]
  · simp [ht, Function.comp_def]

/-- What an ingest files under a service: its spans of that service, for its tenant. -/
theorem valuesAt_ingest_service (tenant : TenantId) (spans : List Span) (t : TenantId)
    (service : ServiceName) :
    valuesAt (.inr (t, service)) (WalRecord.ingest tenant spans).items =
      if tenant = t then
        spans.filter fun span => span.serviceName = service.name ∧ span.serviceName ≠ ""
      else [] := by
  rw [WalRecord.items, valuesAt_serviceItems, WalRecord.spans, valuesAt_map_pair]
  split_ifs <;> rfl

end Kaleidoscope.Ray
