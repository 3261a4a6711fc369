import Kaleidoscope.DemoOverlay.Identity
import Kaleidoscope.Library.ReadStore
import Kaleidoscope.Ray.Memory

/-!
# The trace overlay

A store files a span under its trace and under its service, so the trace of an id may have spans of
several services.
-/

namespace Kaleidoscope.DemoOverlay.Trace

open Aegis Ray HashMap StableSort

/-- `DemoSpanSpec`. -/
structure DemoSpanSpec where
  traceId : TraceId
  spanId : SpanId
  parentSpanId : SpanId
  name : String
  statusCode : StatusCode
  statusMessage : String
  customerId : String
  startOffsetNanos : Nat
  durationNanos : Nat

/-- A healthy trace, named by the byte that fills its ids. -/
def healthy (fill last : UInt8) (name customerId : String) (startOffsetNanos durationNanos : Nat) :
    DemoSpanSpec :=
  ⟨⟨.replicate 16 fill⟩, ⟨(Vector.replicate 7 fill).push last⟩, ⟨.replicate 8 fill⟩, name, .ok, "",
    customerId, startOffsetNanos, durationNanos⟩

/-- `DEMO_SPANS`. -/
def demoSpans : List DemoSpanSpec :=
  [{ traceId := ⟨failedCheckoutTraceId⟩
     spanId := ⟨failedCheckoutSpanId⟩
     parentSpanId := ⟨#v[0x00, 0xf0, 0x67, 0xaa, 0x0b, 0xa9, 0x02, 0xb7]⟩
     name := "POST /api/v1/checkout"
     statusCode := .error
     statusMessage := failedCheckoutErrorMessage
     customerId := failedCheckoutCustomerId
     startOffsetNanos := 30_000_000_000
     durationNanos := 250_000_000 },
    healthy 0xa1 0xb1 "POST /api/v1/checkout" "alice" 45_000_000_000 120_000_000,
    healthy 0xa2 0xb2 "GET /api/v1/cart" "alice" 55_000_000_000 20_000_000,
    healthy 0xb2 0xc2 "GET /api/v1/products" "bob" 60_000_000_000 35_000_000,
    healthy 0xb3 0xc3 "POST /api/v1/checkout" "bob" 65_000_000_000 130_000_000,
    healthy 0xc3 0xd3 "GET /api/v1/cart" "carol" 75_000_000_000 20_000_000]

/-- `is_demo_service`. -/
def isDemoService (service : ServiceName) : Bool := service.name = demoServiceName

/-- `demo_spec_for_trace`. -/
def demoSpecForTrace (traceId : TraceId) : Option DemoSpanSpec :=
  demoSpans.find? fun spec => spec.traceId = traceId

/-- `synthesize_span`; the end is capped at the last nanosecond. -/
def synthesizeSpan (nowUnixNano : Nat) (spec : DemoSpanSpec) : Span where
  traceId := spec.traceId
  spanId := spec.spanId
  parentSpanId := some spec.parentSpanId
  name := spec.name
  kind := .server
  startTimeUnixNano := nowUnixNano - spec.startOffsetNanos
  endTimeUnixNano := min (nowUnixNano - spec.startOffsetNanos + spec.durationNanos) (2 ^ 64 - 1)
  status := ⟨spec.statusCode, spec.statusMessage⟩
  attributes := .single demoCustomerIdKey spec.customerId
  resourceAttributes := .single "service.name" demoServiceName
  events := []
  links := []

/-- `synthesize_all`. -/
def synthesizeAll (nowUnixNano : Nat) : List Span := demoSpans.map (synthesizeSpan nowUnixNano)

/-- `TimeRange::all`. -/
def allTime : TimeRange := ⟨0, 2 ^ 64 - 1⟩

/-- A read of a trace store. -/
inductive TraceRead where
  | getTrace (tenant : TenantId) (traceId : TraceId)
  | query (tenant : TenantId) (service : ServiceName) (range : TimeRange)
  | queryWith (tenant : TenantId) (service : ServiceName) (range : TimeRange)
    (predicate : Predicate)

namespace TraceRead

/-- The tenant that is asked about. -/
def tenant : TraceRead → TenantId
  | getTrace tenant _ => tenant
  | query tenant _ _ => tenant
  | queryWith tenant _ _ _ => tenant

/-- Whether what is asked for is part of the demo. -/
def isDemo : TraceRead → Bool
  | getTrace tenant traceId => isDemoTenant tenant && (demoSpecForTrace traceId).isSome
  | query tenant service _ => isDemoTenant tenant && isDemoService service
  | queryWith tenant service _ _ => isDemoTenant tenant && isDemoService service

/-- The bucket that is read. -/
def key : TraceRead → Key
  | getTrace tenant traceId => .inl (tenant, traceId)
  | query tenant service _ => .inr (tenant, service)
  | queryWith tenant service _ _ => .inr (tenant, service)

/-- The spans that are filed there. -/
def files : TraceRead → Span → Bool
  | getTrace _ traceId, span => span.traceId = traceId
  | query _ service _, span => span.serviceName = service.name ∧ span.serviceName ≠ ""
  | queryWith _ service _ _, span => span.serviceName = service.name ∧ span.serviceName ≠ ""

/-- The spans that are kept of a bucket. -/
def keeps : TraceRead → Span → Bool
  | getTrace _ _, _ => true
  | query _ _ range, span => range.contains span.startTimeUnixNano
  | queryWith _ _ range predicate, span =>
    range.contains span.startTimeUnixNano && predicate.matchesSpan span

end TraceRead

/-- `TraceStore`. -/
abbrev TraceStore (State : Type) :=
  ReadStore State (TenantId × SpanBatch) (Except TraceStoreError IngestReceipt) TraceRead
    (Except TraceStoreError (List Span))

/-- `InMemoryTraceStore`. -/
def inMemory : TraceStore Indices where
  write indices w := InMemoryTraceStore.ingest indices w.1 w.2
  read indices
    | .getTrace tenant traceId => .ok (InMemoryTraceStore.getTrace indices tenant traceId)
    | .query tenant service range => .ok (InMemoryTraceStore.query indices tenant service range)
    | .queryWith tenant service range predicate =>
      .ok (InMemoryTraceStore.queryWith indices tenant service range predicate)

/-- `DemoTraceOverlay`, at a time. -/
def overlay {State : Type} (inner : TraceStore State) (nowUnixNano : Nat) : TraceStore State where
  write := inner.write
  read state
    | .getTrace tenant traceId =>
      if !isDemoTenant tenant then inner.read state (.getTrace tenant traceId)
      else
        match demoSpecForTrace traceId with
        | some spec =>
          extend Span.startTimeUnixNano true (inner.read state (.getTrace tenant traceId))
            [synthesizeSpan nowUnixNano spec]
        | none => inner.read state (.getTrace tenant traceId)
    | .query tenant service range =>
      extend Span.startTimeUnixNano (isDemoTenant tenant && isDemoService service)
        (inner.read state (.query tenant service range))
        ((synthesizeAll nowUnixNano).filter fun span => range.contains span.startTimeUnixNano)
    | .queryWith tenant service range predicate =>
      extend Span.startTimeUnixNano (isDemoTenant tenant && isDemoService service)
        (inner.read state (.queryWith tenant service range predicate))
        ((synthesizeAll nowUnixNano).filter fun span =>
          range.contains span.startTimeUnixNano && predicate.matchesSpan span)

/-- What the overlay adds to an answer. -/
def added (nowUnixNano : Nat) (read : TraceRead) : List Span :=
  if read.tenant = demoTenant then
    (synthesizeAll nowUnixNano).filter fun span => read.files span && read.keeps span
  else []

/-- A span is filed under its trace as under its service. -/
def Agree (indices : Indices) : Prop :=
  ∀ tenant traceId service,
    ((indices.bucket (.inl (tenant, traceId))).filter fun span =>
        span.serviceName = service ∧ span.serviceName ≠ "") =
      (indices.bucket (.inr (tenant, ⟨service⟩))).filter fun span => span.traceId = traceId

/-- The overlay answers like the store with the demo in it. -/
structure Unites (nowUnixNano : Nat) (indices : Indices) : Prop where
  reference : ∀ read, (overlay inMemory nowUnixNano).read indices read =
    inMemory.read (inMemory.write indices (demoTenant, ⟨synthesizeAll nowUnixNano⟩)).2 read
  filtered : ∀ tenant service range predicate,
    (overlay inMemory nowUnixNano).read indices (.queryWith tenant service range predicate) =
      ((overlay inMemory nowUnixNano).read indices (.query tenant service range)).map
        fun spans => spans.filter predicate.matchesSpan
  merged : ∀ read, ∃ stored spans, inMemory.read indices read = .ok stored ∧
    (overlay inMemory nowUnixNano).read indices read = .ok spans ∧
      Merges Span.startTimeUnixNano stored (added nowUnixNano read) spans
  others : ∀ read : TraceRead, read.isDemo = false →
    (overlay inMemory nowUnixNano).read indices read = inMemory.read indices read
  /-- A trace agrees with the query over all time on the spans that the query is about. -/
  agrees : ∀ traceId, (demoSpecForTrace traceId).isSome → ∃ trace spans,
    (overlay inMemory nowUnixNano).read indices (.getTrace demoTenant traceId) = .ok trace ∧
      (overlay inMemory nowUnixNano).read indices
          (.query demoTenant ⟨demoServiceName⟩ allTime) = .ok spans ∧
        (trace.filter fun span =>
            span.serviceName = demoServiceName ∧ allTime.contains span.startTimeUnixNano) =
          spans.filter fun span => span.traceId = traceId

theorem valuesAt_files (tenant : TenantId) (spans : List Span) (read : TraceRead) :
    valuesAt read.key (WalRecord.ingest tenant spans).items =
      if tenant = read.tenant then spans.filter read.files else [] := by
  cases read with
  | getTrace t traceId => exact valuesAt_ingest_trace tenant spans t traceId
  | query t service range => exact valuesAt_ingest_service tenant spans t service
  | queryWith t service range predicate => exact valuesAt_ingest_service tenant spans t service

/-- What is filed in both indices agrees. -/
theorem Agree.write {indices : Indices} (hsorted : indices.Sorted) (h : Agree indices)
    (w : TenantId × SpanBatch) : Agree (inMemory.write indices w).2 := by
  intro tenant traceId service
  change ((InMemoryTraceStore.ingest indices w.1 w.2).2.bucket _).filter _ =
    ((InMemoryTraceStore.ingest indices w.1 w.2).2.bucket _).filter _
  rw [InMemoryTraceStore.bucket_ingest hsorted, InMemoryTraceStore.bucket_ingest hsorted,
    sortBucket, sortBucket, filter_sortByKey_comm, filter_sortByKey_comm, List.filter_append,
    List.filter_append, h tenant traceId service, valuesAt_ingest_trace, valuesAt_ingest_service]
  split_ifs
  · rw [List.filter_filter, List.filter_filter]
    simp only [Bool.and_comm]
  · rfl

/-- Whatever was written, both indices are sorted and agree. -/
theorem kept_after (writes : List (TenantId × SpanBatch)) :
    (inMemory.after .empty writes).Sorted ∧ Agree (inMemory.after .empty writes) := by
  have hempty : Agree .empty := fun tenant traceId service => by
    simp [Indices.bucket, Indices.empty]
  refine inMemory.after_induction (fun indices => indices.Sorted ∧ Agree indices)
    ⟨Indices.sorted_empty, hempty⟩ (fun indices w h => ?_) writes
  exact ⟨InMemoryTraceStore.sorted_ingest h.1 w.1 w.2, h.2.write h.1 w⟩

/-- Of elements with different keys at most one has a key. -/
theorem filter_eq_find? {V K : Type} [DecidableEq K] (key : V → K) (k : K) {l : List V}
    (h : l.Pairwise fun a b => key a ≠ key b) :
    (l.filter fun v => key v = k) = (l.find? fun v => key v = k).toList := by
  induction l with
  | nil => rfl
  | cons v l ih =>
    obtain ⟨hv, hl⟩ := List.pairwise_cons.mp h
    rw [List.filter_cons, List.find?_cons]
    by_cases hk : key v = k
    · have hnone : (l.filter fun w => key w = k) = [] := by
        rw [List.filter_eq_nil_iff]
        intro w hw hsame
        exact hv w hw (hk.trans (of_decide_eq_true hsame).symm)
      rw [hnone]
      simp [hk]
    · rw [ih hl]
      simp [hk]

/-- The demo has one span of each of its traces. -/
theorem filter_demoSpans (traceId : TraceId) :
    (demoSpans.filter fun spec => spec.traceId = traceId) = (demoSpecForTrace traceId).toList :=
  filter_eq_find? DemoSpanSpec.traceId traceId (by decide)

/-- The demo is filed under its service. -/
theorem serviceName_synthesizeAll {nowUnixNano : Nat} {span : Span}
    (h : span ∈ synthesizeAll nowUnixNano) : span.serviceName = demoServiceName := by
  obtain ⟨spec, -, rfl⟩ := List.mem_map.mp h
  rfl

section Reads

variable (nowUnixNano : Nat) (indices : Indices) (read : TraceRead)

/-- A read of the store lists the spans that are kept of a bucket. -/
theorem read_inMemory : inMemory.read indices read =
    .ok ((indices.bucket read.key).filter read.keeps) := by
  cases read with
  | getTrace tenant traceId =>
    refine congrArg Except.ok ((InMemoryTraceStore.getTrace_eq indices tenant traceId).trans ?_)
    exact (List.filter_eq_self.mpr fun _ _ => rfl).symm
  | query tenant service range =>
    exact congrArg Except.ok (InMemoryTraceStore.query_eq indices tenant service range)
  | queryWith tenant service range predicate =>
    refine congrArg Except.ok ?_
    rw [InMemoryTraceStore.queryWith_eq, InMemoryTraceStore.query_eq, List.filter_filter]
    exact List.filter_congr fun span _ => Bool.and_comm _ _

/-- Of the demo the service asked for has all or nothing. -/
theorem filter_service (service : ServiceName) (keeps : Span → Bool) :
    ((synthesizeAll nowUnixNano).filter fun span =>
        decide (span.serviceName = service.name ∧ span.serviceName ≠ "") && keeps span) =
      if isDemoService service then (synthesizeAll nowUnixNano).filter keeps else [] := by
  have hname : demoServiceName ≠ "" := by decide
  split_ifs with hservice
  · refine List.filter_congr fun span hspan => ?_
    rw [serviceName_synthesizeAll hspan]
    simp [(of_decide_eq_true hservice : service.name = demoServiceName), hname]
  · rw [List.filter_eq_nil_iff]
    intro span hspan
    rw [serviceName_synthesizeAll hspan]
    have hother : demoServiceName ≠ service.name := fun h => hservice (decide_eq_true h.symm)
    simp [hother]

/-- A read for a trace adds its span of the demo. -/
theorem added_getTrace (tenant : TenantId) (traceId : TraceId) :
    added nowUnixNano (.getTrace tenant traceId) =
      if isDemoTenant tenant && (demoSpecForTrace traceId).isSome then
        (demoSpecForTrace traceId).toList.map (synthesizeSpan nowUnixNano)
      else [] := by
  have hfilter : ((synthesizeAll nowUnixNano).filter fun span => span.traceId = traceId) =
      (demoSpecForTrace traceId).toList.map (synthesizeSpan nowUnixNano) := by
    rw [synthesizeAll, List.filter_map, ← filter_demoSpans]
    rfl
  simp only [added, TraceRead.tenant, TraceRead.files, TraceRead.keeps, Bool.and_true, hfilter]
  cases demoSpecForTrace traceId <;> simp [isDemoTenant]

/-- A read for a service adds what is kept of the demo. -/
theorem added_service {read : TraceRead} {service : ServiceName}
    (hfiles : read.files = fun span : Span =>
      decide (span.serviceName = service.name ∧ span.serviceName ≠ "")) :
    added nowUnixNano read =
      if isDemoTenant read.tenant && isDemoService service then
        (synthesizeAll nowUnixNano).filter read.keeps
      else [] := by
  rw [added, hfiles, filter_service]
  by_cases htenant : read.tenant = demoTenant <;> simp [isDemoTenant, htenant]

/-- A read of the overlay merges the wanted part of the demo into the answer. -/
theorem read_overlay (h : indices.Sorted) :
    (overlay inMemory nowUnixNano).read indices read =
      .ok (sortByKey Span.startTimeUnixNano
        ((indices.bucket read.key).filter read.keeps ++ added nowUnixNano read)) := by
  have hsorted := (h read.key).filter read.keeps
  have hinner := read_inMemory indices read
  cases read with
  | getTrace tenant traceId =>
    have hextend : (overlay inMemory nowUnixNano).read indices (.getTrace tenant traceId) =
        extend Span.startTimeUnixNano (isDemoTenant tenant && (demoSpecForTrace traceId).isSome)
          (inMemory.read indices (.getTrace tenant traceId))
          ((demoSpecForTrace traceId).toList.map (synthesizeSpan nowUnixNano)) := by
      change (if !isDemoTenant tenant then _ else match demoSpecForTrace traceId with
        | some spec => _
        | none => _) = _
      cases isDemoTenant tenant <;> cases demoSpecForTrace traceId <;> rfl
    rw [hextend, hinner, extend_sorted _ _ hsorted, added_getTrace]
  | query tenant service range =>
    change extend _ _ (inMemory.read indices (.query tenant service range)) _ = _
    rw [hinner, extend_sorted _ _ hsorted, added_service nowUnixNano rfl]
    rfl
  | queryWith tenant service range predicate =>
    change extend _ _ (inMemory.read indices (.queryWith tenant service range predicate)) _ = _
    rw [hinner, extend_sorted _ _ hsorted, added_service nowUnixNano rfl]
    rfl

end Reads

/-- Nothing is added unless part of the demo is asked for. -/
theorem added_of_not_demo (nowUnixNano : Nat) {read : TraceRead} (h : read.isDemo = false) :
    added nowUnixNano read = [] := by
  cases read with
  | getTrace tenant traceId =>
    rw [added_getTrace]
    exact if_neg (Bool.eq_false_iff.mp h)
  | query tenant service range =>
    rw [added_service nowUnixNano rfl]
    exact if_neg (Bool.eq_false_iff.mp h)
  | queryWith tenant service range predicate =>
    rw [added_service nowUnixNano rfl]
    exact if_neg (Bool.eq_false_iff.mp h)

/-- The store with the demo in it. -/
def withDemo (nowUnixNano : Nat) (indices : Indices) : Indices :=
  (inMemory.write indices (demoTenant, ⟨synthesizeAll nowUnixNano⟩)).2

/-- A read of the overlay is a read of the store with the demo in it. -/
theorem read_overlay_eq (nowUnixNano : Nat) {indices : Indices} (h : indices.Sorted)
    (read : TraceRead) : (overlay inMemory nowUnixNano).read indices read =
      inMemory.read (withDemo nowUnixNano indices) read := by
  have hbucket : (withDemo nowUnixNano indices).bucket read.key =
      sortBucket (indices.bucket read.key ++ if demoTenant = read.tenant then
        (synthesizeAll nowUnixNano).filter read.files else []) :=
    (InMemoryTraceStore.bucket_ingest h demoTenant _ read.key).trans
      (by rw [valuesAt_files])
  rw [read_overlay _ _ _ h, read_inMemory, hbucket, sortBucket, filter_sortByKey_comm,
    List.filter_append, added]
  by_cases htenant : read.tenant = demoTenant
  · rw [if_pos htenant, if_pos htenant.symm, List.filter_filter]
    simp only [Bool.and_comm]
  · rw [if_neg htenant, if_neg (Ne.symm htenant), List.filter_nil]

/-- A trace agrees with its service on the spans that both list. -/
theorem Agree.getTrace {indices : Indices} (h : Agree indices) (tenant : TenantId)
    (traceId : TraceId) {service : ServiceName} (hservice : service.name ≠ "")
    (range : TimeRange) :
    ((InMemoryTraceStore.getTrace indices tenant traceId).filter fun span =>
        span.serviceName = service.name ∧ range.contains span.startTimeUnixNano) =
      (InMemoryTraceStore.query indices tenant service range).filter
        fun span => span.traceId = traceId := by
  have hboth := congrArg (List.filter fun span => range.contains span.startTimeUnixNano)
    (h tenant traceId service.name)
  rw [List.filter_filter, List.filter_filter] at hboth
  rw [InMemoryTraceStore.getTrace_eq, InMemoryTraceStore.query_eq, List.filter_filter]
  refine Eq.trans (List.filter_congr fun span _ => ?_)
    (hboth.trans (List.filter_congr fun span _ => ?_))
  · by_cases hname : span.serviceName = service.name <;> simp [hname, hservice]
  · exact Bool.and_comm _ _

theorem unites (nowUnixNano : Nat) {indices : Indices} (h : indices.Sorted)
    (hagree : Agree indices) : Unites nowUnixNano indices where
  reference := read_overlay_eq nowUnixNano h
  filtered tenant service range predicate := by
    rw [read_overlay_eq nowUnixNano h, read_overlay_eq nowUnixNano h]
    exact congrArg Except.ok (InMemoryTraceStore.queryWith_eq _ tenant service range predicate)
  merged read := by
    refine ⟨_, _, read_inMemory indices read, read_overlay nowUnixNano indices read h, ?_⟩
    exact merges_sortByKey _ _ _
  others read hread := by
    rw [read_overlay _ _ _ h, added_of_not_demo nowUnixNano hread, List.append_nil,
      sortByKey_of_pairwise _ ((h read.key).filter _), read_inMemory]
  agrees traceId _ := by
    refine ⟨_, _, read_overlay_eq nowUnixNano h _, read_overlay_eq nowUnixNano h _, ?_⟩
    exact (hagree.write h _).getTrace demoTenant traceId (by decide) allTime

end Kaleidoscope.DemoOverlay.Trace
