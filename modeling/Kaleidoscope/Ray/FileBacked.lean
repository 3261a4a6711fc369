import Kaleidoscope.Aegis.Validator
import Kaleidoscope.Ray.Span
import Kaleidoscope.Wal.AppendOnly

/-!
# The file-backed trace store

Spans are filed twice, by trace and by service; only the first index is part of a
snapshot, and the second is rebuilt from it.
-/

namespace Kaleidoscope.Ray

open Aegis HashMap StableSort

/-- Typed store failures. -/
inductive TraceStoreError where
  | persistenceFailed (reason : String)
  deriving DecidableEq, Repr

/-- Successful ingest response. -/
structure IngestReceipt where
  count : Nat
  deriving DecidableEq, Repr

/-- One line of the log. -/
inductive WalRecord where
  | ingest (tenant : TenantId) (spans : List Span)
  deriving DecidableEq

/-- The spans of one trace in a snapshot. -/
structure TraceBucket where
  tenant : TenantId
  traceId : TraceId
  spans : List Span
  deriving DecidableEq

/-- The snapshot file. -/
structure Snapshot where
  traces : List TraceBucket
  deriving DecidableEq

/-- The two indices of the store. -/
structure Indices where
  byTrace : HashMap (TenantId × TraceId) (List Span)
  byService : HashMap (TenantId × ServiceName) (List Span)

/-- Indices without spans. -/
def Indices.empty : Indices := ⟨∅, ∅⟩

/-- The buckets one `apply_ingest` touched. -/
structure Touched where
  traces : List TraceId
  services : List ServiceName

/-- `apply_ingest`: every span goes into the index by trace, and into the index by service
when it names one. -/
def applyIngest (indices : Indices) (tenant : TenantId) (spans : List Span) :
    Indices × Touched :=
  spans.foldl
    (fun (indices, touched) span =>
      let indices :=
        { indices with
          byTrace := indices.byTrace.upsert (tenant, span.traceId) [] (· ++ [span]) }
      let touched := { touched with traces := touched.traces ++ [span.traceId] }
      if span.serviceName = "" then (indices, touched)
      else
        let service := ServiceName.mk span.serviceName
        ({ indices with
            byService := indices.byService.upsert (tenant, service) [] (· ++ [span]) },
          { touched with services := touched.services ++ [service] }))
    (indices, ⟨[], []⟩)

/-- Sort a bucket on the start time of its spans. -/
def sortBucket (bucket : List Span) : List Span := sortByKey Span.startTimeUnixNano bucket

/-- `sort_touched`. -/
def sortTouched (indices : Indices) (tenant : TenantId) (touched : Touched) : Indices :=
  { byTrace := indices.byTrace.modifyAll (touched.traces.map fun t => (tenant, t)) sortBucket
    byService :=
      indices.byService.modifyAll (touched.services.map fun s => (tenant, s)) sortBucket }

/-- `sort_all`. -/
def sortAll (indices : Indices) : Indices :=
  { byTrace := indices.byTrace.mapValues sortBucket
    byService := indices.byService.mapValues sortBucket }

/-- The indices `open` rebuilds from a snapshot. -/
def fromSnapshot (snap : Snapshot) : Indices :=
  snap.traces.foldl (fun indices b => (applyIngest indices b.tenant b.spans).1) .empty

/-- The closure `open` replays the log with. -/
def applyRecord (indices : Indices) : WalRecord → Indices
  | .ingest tenant spans => (applyIngest indices tenant spans).1

/-- The snapshot of the current state. -/
def toSnapshot (order : IterOrder (TenantId × TraceId) (List Span)) (indices : Indices) :
    Snapshot :=
  ⟨(order.entries indices.byTrace).map fun e => ⟨e.1.1, e.1.2, e.2⟩⟩

/-- `FileBackedTraceStore`. -/
def fileBackedTraceStore (wal : LineSerde WalRecord) (snap : FileSerde Snapshot) :
    Pillar Indices WalRecord Snapshot TraceStoreError
      (IterOrder (TenantId × TraceId) (List Span)) where
  walSerde := wal
  snapSerde := snap
  persistenceFailed := .persistenceFailed
  empty := .empty
  restore snap := .ok (fromSnapshot snap)
  apply indices record := .ok (applyRecord indices record)
  replayLoop := .tornTail fun line error =>
    .persistenceFailed s!"WAL parse error at line {line}: {error}"
  settle := sortAll
  capture := toSnapshot

/-- The operations that write to the log. -/
inductive Call where
  | ingest (tenant : TenantId) (batch : SpanBatch)

/-- What `ingest` appends: nothing for an empty batch. -/
def ingestSteps (tenant : TenantId) (batch : SpanBatch) : List (LogStep Indices WalRecord) :=
  if batch.isEmpty then []
  else
    [{ record := .ingest tenant batch.spans
       commit := fun indices =>
         let (indices, touched) := applyIngest indices tenant batch.spans
         sortTouched indices tenant touched }]

/-- The appends of an operation. -/
def plan : Call → Indices → Plan Indices WalRecord
  | .ingest tenant batch, indices => ⟨indices, ingestSteps tenant batch⟩

/-- A key of either index. -/
abbrev Key := TenantId × TraceId ⊕ TenantId × ServiceName

/-- The spans filed under a key of either index. -/
def Indices.bucket (indices : Indices) : Key → List Span
  | .inl key => HashMap.bucket indices.byTrace key
  | .inr key => HashMap.bucket indices.byService key

/-- The spans of a log record. -/
def WalRecord.spans : WalRecord → List (TenantId × Span)
  | .ingest tenant spans => spans.map fun span => (tenant, span)

/-- Where the index by trace files a span. -/
def traceItem (e : TenantId × Span) : (TenantId × TraceId) × Span := ((e.1, e.2.traceId), e.2)

/-- Where the index by service files a span, if anywhere. -/
def serviceItem (e : TenantId × Span) : Option ((TenantId × ServiceName) × Span) :=
  if e.2.serviceName = "" then none else some ((e.1, ⟨e.2.serviceName⟩), e.2)

/-- What a list of spans files in the two indices. -/
def itemsOf (spans : List (TenantId × Span)) : List (Key × Span) :=
  sumItems (spans.map traceItem) (spans.filterMap serviceItem)

/-- What a log record files. -/
def WalRecord.items (record : WalRecord) : List (Key × Span) := itemsOf record.spans

/-- `apply_ingest` files every span in both indices and touches its keys. -/
theorem applyIngest_eq (indices : Indices) (tenant : TenantId) (spans : List Span) :
    let filed := (WalRecord.ingest tenant spans).spans
    applyIngest indices tenant spans =
      (⟨indices.byTrace.pushAll (filed.map traceItem),
          indices.byService.pushAll (filed.filterMap serviceItem)⟩,
        ⟨(filed.map traceItem).map fun e => e.1.2,
          (filed.filterMap serviceItem).map fun e => e.1.2⟩) := by
  induction spans using List.reverseRecOn with
  | nil => rfl
  | append_singleton spans span ih =>
    dsimp only at ih ⊢
    rw [applyIngest, List.foldl_append, ← applyIngest, ih]
    simp only [List.foldl_cons, List.foldl_nil, WalRecord.spans, List.map_append,
      List.filterMap_append, List.map_cons, List.map_nil, List.filterMap_cons,
      List.filterMap_nil, traceItem, serviceItem]
    split_ifs
    · simp [pushAll, List.foldl_append]
    · simp [pushAll, List.foldl_append]

theorem bucket_applyIngest (indices : Indices) (tenant : TenantId) (spans : List Span)
    (k : Key) :
    (applyIngest indices tenant spans).1.bucket k =
      indices.bucket k ++ valuesAt k (WalRecord.ingest tenant spans).items := by
  rw [applyIngest_eq, WalRecord.items, itemsOf]
  cases k with
  | inl k => rw [valuesAt_inl]; exact bucket_pushAll _ _ k
  | inr k => rw [valuesAt_inr]; exact bucket_pushAll _ _ k

theorem bucket_sortAll (indices : Indices) (k : Key) :
    (sortAll indices).bucket k = sortBucket (indices.bucket k) := by
  cases k with
  | inl k => exact bucket_mapValues _ k rfl
  | inr k => exact bucket_mapValues _ k rfl

/-- Sorting the touched buckets sorts every bucket of a sorted store. -/
theorem bucket_sortTouched {indices : Indices} (hsorted : ∀ k, (indices.bucket k).Pairwise
      fun a b => a.startTimeUnixNano ≤ b.startTimeUnixNano) (tenant : TenantId)
    (spans : List Span) (k : Key) :
    (sortTouched (applyIngest indices tenant spans).1 tenant
        (applyIngest indices tenant spans).2).bucket k =
      sortBucket (indices.bucket k ++ valuesAt k (WalRecord.ingest tenant spans).items) := by
  have hkeys {K : Type} (items : List ((TenantId × K) × Span))
      (h : ∀ e ∈ items, e.1.1 = tenant) :
      (items.map fun e => e.1.2).map (fun k => (tenant, k)) = items.map Prod.fst := by
    rw [List.map_map]
    exact List.map_congr_left fun e he => by rw [← h e he]; rfl
  have htraces : ∀ e ∈ (WalRecord.ingest tenant spans).spans.map traceItem, e.1.1 = tenant := by
    simp [WalRecord.spans, traceItem]
  have hservices : ∀ e ∈ (WalRecord.ingest tenant spans).spans.filterMap serviceItem,
      e.1.1 = tenant := by
    simp only [WalRecord.spans, serviceItem, List.mem_filterMap, List.mem_map]
    rintro e ⟨_, ⟨span, -, rfl⟩, he⟩
    split_ifs at he
    cases he
    rfl
  rw [applyIngest_eq, WalRecord.items, itemsOf]
  simp only [sortTouched, hkeys _ htraces, hkeys _ hservices]
  cases k with
  | inl k =>
    rw [valuesAt_inl]
    exact bucket_modifyAll_pushAll rfl (sortByKey_sortByKey _)
      (fun k => sortByKey_of_pairwise _ (hsorted (.inl k))) _ k
  | inr k =>
    rw [valuesAt_inr]
    exact bucket_modifyAll_pushAll rfl (sortByKey_sortByKey _)
      (fun k => sortByKey_of_pairwise _ (hsorted (.inr k))) _ k

theorem valuesAt_itemsOf_append (spans spans' : List (TenantId × Span)) (k : Key) :
    valuesAt k (itemsOf (spans ++ spans')) =
      valuesAt k (itemsOf spans) ++ valuesAt k (itemsOf spans') := by
  cases k with
  | inl k => simp only [itemsOf, valuesAt_inl, List.map_append, valuesAt_append]
  | inr k => simp only [itemsOf, valuesAt_inr, List.filterMap_append, valuesAt_append]

/-- The spans a list of records holds, as the indices file them. -/
theorem valuesAt_flatMap_items (records : List WalRecord) (k : Key) :
    valuesAt k (records.flatMap WalRecord.items) =
      valuesAt k (itemsOf (records.flatMap WalRecord.spans)) := by
  induction records with
  | nil => rfl
  | cons r records ih =>
    rw [List.flatMap_cons, valuesAt_append, ih, List.flatMap_cons, valuesAt_itemsOf_append,
      WalRecord.items]

/-- The records a snapshot amounts to. -/
def Snapshot.records (snap : Snapshot) : List WalRecord :=
  snap.traces.map fun b => .ingest b.tenant b.spans

theorem bucket_fromSnapshot (snap : Snapshot) (k : Key) :
    (fromSnapshot snap).bucket k = valuesAt k (itemsOf (snap.records.flatMap WalRecord.spans)) := by
  rw [← valuesAt_flatMap_items, Snapshot.records]
  have hfold : ∀ (traces : List TraceBucket) (indices : Indices),
      (traces.foldl (fun indices b => (applyIngest indices b.tenant b.spans).1) indices).bucket k =
        indices.bucket k ++ valuesAt k ((traces.map fun b =>
          WalRecord.ingest b.tenant b.spans).flatMap WalRecord.items) := by
    intro traces
    induction traces with
    | nil => intro indices; simp
    | cons b traces ih =>
      intro indices
      rw [List.foldl_cons, ih, bucket_applyIngest, List.map_cons, List.flatMap_cons,
        valuesAt_append, List.append_assoc]
  rw [fromSnapshot, hfold]
  cases k <;> simp [Indices.bucket, Indices.empty]

/-- The filings of the index by trace carry the tenant and the span: they hold all spans that
were filed. -/
theorem spans_filings (order : IterOrder (TenantId × TraceId) (List Span)) {indices : Indices}
    {spans : List (TenantId × Span)}
    (h : ∀ k, (indices.bucket k).Perm (valuesAt k (itemsOf spans))) :
    ((filings order indices.byTrace).map fun e => (e.1.1, e.2)).Perm spans := by
  have hfilings : (filings order indices.byTrace).Perm (spans.map traceItem) := by
    refine perm_of_valuesAt fun k => ?_
    have hk := h (.inl k)
    rw [itemsOf, valuesAt_inl] at hk
    rw [valuesAt_filings]
    exact hk
  have hmap := hfilings.map fun e => (e.1.1, e.2)
  rw [List.map_map, show ((fun e : (TenantId × TraceId) × Span => (e.1.1, e.2)) ∘ traceItem) =
    id from rfl, List.map_id] at hmap
  exact hmap

/-- The spans of a snapshot are those of the records the index by trace was built from. -/
theorem spans_toSnapshot (order : IterOrder (TenantId × TraceId) (List Span))
    {indices : Indices} {records : List WalRecord}
    (h : ∀ k, (indices.bucket k).Perm (valuesAt k (records.flatMap WalRecord.items))) :
    ((toSnapshot order indices).records.flatMap WalRecord.spans).Perm
      (records.flatMap WalRecord.spans) := by
  refine .trans (.of_eq ?_) (spans_filings order fun k => by
    rw [← valuesAt_flatMap_items]
    exact h k)
  simp only [toSnapshot, Snapshot.records, filings, List.map_map, List.flatMap_map,
    List.map_flatMap, Function.comp_def, WalRecord.spans]

section Operations

variable (wal : LineSerde WalRecord) (snap : FileSerde Snapshot)

/-- The trace store only ever files spans, and a snapshot keeps them as multisets: the
index by service comes back in another order. -/
def appendOnly : AppendOnly (fileBackedTraceStore wal snap) Key Span where
  time := Span.startTimeUnixNano
  keeps := .multiset _
  bucket := Indices.bucket
  items := WalRecord.items
  good r := r.items ≠ []
  bucket_empty k := by cases k <;> exact bucket_empty _
  apply_ok indices record := by
    obtain ⟨tenant, spans⟩ := record
    exact ⟨_, rfl, bucket_applyIngest indices tenant spans⟩
  bucket_settle := bucket_sortAll
  restore_capture order indices records h := by
    refine ⟨_, rfl, fun k => ?_⟩
    have hspans := spans_toSnapshot order h
    change ((fromSnapshot (toSnapshot order indices)).bucket k).Perm (indices.bucket k)
    refine .trans (.of_eq (bucket_fromSnapshot _ k)) (.trans ?_ (h k).symm)
    rw [valuesAt_flatMap_items]
    cases k with
    | inl k =>
      simp only [itemsOf, valuesAt_inl]
      exact (hspans.map _).filterMap _
    | inr k =>
      simp only [itemsOf, valuesAt_inr]
      exact (hspans.filterMap _).filterMap _

theorem good_ingest {tenant : TenantId} {batch : SpanBatch} (h : ¬ batch.isEmpty = true) :
    (WalRecord.ingest tenant batch.spans).items ≠ [] := by
  simp only [SpanBatch.isEmpty, List.isEmpty_iff] at h
  simp [WalRecord.items, WalRecord.spans, itemsOf, sumItems, h]

/-- Every ingest is legal. -/
theorem legal (hwal : ∀ r, wal.Faithful r) (c : Call) (faults : List Fault) (indices : Indices)
    (i : List WalRecord) (h : (appendOnly wal snap).refinement.live indices i) :
    (appendOnly wal snap).refinement.Legal (plan c indices) faults i := by
  obtain ⟨tenant, batch⟩ := c
  rw [plan, ingestSteps]
  split_ifs with hempty
  · exact ⟨Or.inl h, trivial⟩
  · refine (appendOnly wal snap).legal_ingest (hwal _) (good_ingest hempty)
      (fun s hsorted k => ?_) h faults
    exact bucket_sortTouched hsorted tenant batch.spans k

/-- `ingest`. -/
def ingest (store : Store Indices) (tenant : TenantId) (batch : SpanBatch) (fault : Fault) :
    Except TraceStoreError IngestReceipt × Store Indices :=
  let ran := (fileBackedTraceStore wal snap).call (plan (.ingest tenant batch) store.state)
    [fault] store
  (ran.result.map fun _ => ⟨batch.len⟩, ran.store)

/-- `get_trace`. -/
def getTrace (store : Store Indices) (tenant : TenantId) (traceId : TraceId) : List Span :=
  (store.state.byTrace.lookup (tenant, traceId)).getD []

/-- `query`. -/
def query (store : Store Indices) (tenant : TenantId) (service : ServiceName)
    (range : TimeRange) : List Span :=
  match store.state.byService.lookup (tenant, service) with
  | some bucket => bucket.filter fun s => range.contains s.startTimeUnixNano
  | none => []

end Operations

end Kaleidoscope.Ray
