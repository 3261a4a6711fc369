import Kaleidoscope.DemoOverlay.Union
import Kaleidoscope.QueryHttpCommon.Tenant
import Kaleidoscope.QueryHttpCommon.TimeRange
import Kaleidoscope.Storage.Isolation
import Kaleidoscope.Storage.Sink
import Kaleidoscope.TraceQueryApi.ById

/-!
# The consolidated runtime

One process ingests for all tenants and answers their reads from the stores that it ingests into.
-/

namespace Kaleidoscope.Runtime

open Aegis Aperture Otlp QueryApi QueryHttpCommon Storage

/-! ## Composition -/

/-- What the process relies on. -/
structure Ports where
  doubles : Doubles
  encodings : Encodings
  decode : Decode
  compile : Compile
  rfc3339 : String → Option Int

/-- `ConsolidatedConfig`. -/
structure ConsolidatedConfig where
  defaultIngestTenant : Option String
  metricsQueryTenant : Option String
  logsQueryTenant : Option String
  tracesQueryTenant : Option String
  readAuth : Option Validator
  demoOverlayEnabled : Bool

/-- The stores that the sink writes to and the routers read. -/
structure SharedStores where
  logStore : Store Lumen.PerTenant
  traceStore : Store Ray.Indices
  metricStore : Store Pulse.Inner

/-- `sink_config`. -/
def sinkConfig (config : ConsolidatedConfig) : StorageSinkConfig := ⟨config.defaultIngestTenant⟩

/-- The sink over the stores. -/
def SharedStores.sink (stores : SharedStores) (config : ConsolidatedConfig) : StorageSink :=
  ⟨sinkConfig config, some stores.logStore, some stores.traceStore, some stores.metricStore⟩

/-- `SharedLogStore`. -/
def sharedLogStore (encodings : Encodings) : DemoOverlay.Log.LogStore (Store Lumen.PerTenant) where
  write store w := Lumen.ingest encodings.lumenWal encodings.lumenSnap store w.1 w.2 .none
  read store
    | .query tenant range => .ok (Lumen.query store tenant range)
    | .queryWith tenant range predicate => .ok (Lumen.queryWith store tenant range predicate)

/-- `SharedTraceStore`. -/
def sharedTraceStore (encodings : Encodings) :
    DemoOverlay.Trace.TraceStore (Store Ray.Indices) where
  write store w := Ray.ingest encodings.rayWal encodings.raySnap store w.1 w.2 .none
  read store
    | .getTrace tenant traceId => .ok (Ray.getTrace store tenant traceId)
    | .query tenant service range => .ok (Ray.query store tenant service range)
    | .queryWith tenant service range predicate =>
      .ok (Ray.queryWith store tenant service range predicate)

/-- `SharedMetricStore`, with the order in which it visits its series. -/
def sharedMetricStore (encodings : Encodings) (visit : VisitOrder) :
    DemoOverlay.Metric.MetricStore (Store Pulse.Inner) where
  write store w := Pulse.ingest encodings.pulseOrder encodings.pulseWal encodings.pulseSnap store
    w.1 w.2 .none
  read store
    | .query tenant metricName range => .ok (Pulse.query visit store.state tenant metricName range)
    | .queryWith tenant metricName range predicate =>
      .ok (Pulse.queryWith visit store.state tenant metricName range predicate)

section Process

variable (ports : Ports) (config : ConsolidatedConfig)

/-- The log store as the routers read it, at a time. -/
def logRead (now : Nat) : DemoOverlay.Log.LogStore (Store Lumen.PerTenant) :=
  if config.demoOverlayEnabled then DemoOverlay.Log.overlay (sharedLogStore ports.encodings) now
  else sharedLogStore ports.encodings

/-- The trace store as the routers read it, at a time. -/
def traceRead (now : Nat) : DemoOverlay.Trace.TraceStore (Store Ray.Indices) :=
  if config.demoOverlayEnabled then DemoOverlay.Trace.overlay (sharedTraceStore ports.encodings) now
  else sharedTraceStore ports.encodings

/-- The metric store as the routers read it, at a time. -/
def metricRead (visit : VisitOrder) (now : Nat) :
    DemoOverlay.Metric.MetricStore (Store Pulse.Inner) :=
  if config.demoOverlayEnabled then
    DemoOverlay.Metric.overlay (sharedMetricStore ports.encodings visit) now
  else sharedMetricStore ports.encodings visit

namespace SharedStores

/-- The reads of the log routers. -/
def logReads (stores : SharedStores) (now : Nat) : LogQueryApi.LogReads where
  query tenant range := (logRead ports config now).read stores.logStore (.query tenant range)
  queryWith tenant range predicate :=
    (logRead ports config now).read stores.logStore (.queryWith tenant range predicate)

/-- The listing of the trace routers. -/
def traceQuery (stores : SharedStores) (now : Nat) (tenant : TenantId) (service : Ray.ServiceName)
    (range : Ray.TimeRange) : Except String (List Ray.Span) :=
  ((traceRead ports config now).read stores.traceStore (.query tenant service range)).mapError
    StorageSink.traceStoreError

/-- The lookup of the trace routers. -/
def traceGet (stores : SharedStores) (now : Nat) : TraceQueryApi.GetTrace := fun tenant traceId =>
  ((traceRead ports config now).read stores.traceStore (.getTrace tenant traceId)).mapError
    StorageSink.traceStoreError

/-- The query of the metrics router. -/
def metricQuery (stores : SharedStores) (visit : VisitOrder) (now : Nat) (tenant : TenantId)
    (name : Pulse.MetricName) (range : Pulse.TimeRange) : Except String (List Row) :=
  ((metricRead ports config visit now).read stores.metricStore
    (.query tenant name range)).mapError StorageSink.metricStoreError

end SharedStores

/-! ## Requests -/

/-- What every read comes with: its authorization, the time at which it is let in, and the time at
which the demo is made up. -/
structure Asked where
  authorization : Option (List UInt8)
  now : Int
  overlayNow : Nat

/-- A request to one of the listeners. -/
inductive Request where
  | ingest (record : SinkRecord OtlpResource) (fault : Fault)
  | queryRange (asked : Asked) (query start stop : String)
  | logs (asked : Asked) (params : LogQueryApi.LogsParams)
  | traces (asked : Asked) (params : TraceQueryApi.TracesParams) (start stop : Option String)
  | tracesById (asked : Asked) (traceId : Option String)
  | tracesWithLogs (asked : Asked) (logsNow : Nat) (traceId : Option String)

/-- What a request is answered. Which matrix a range query is answered depends on the order in which
the store visits its series. -/
inductive Reply where
  | ingested (answer : Except SinkError Unit)
  | matrix (possible : Set QueryApi.Response)
  | logs (response : LogQueryApi.Response)
  | traces (response : TraceQueryApi.Response)
  | traceWithLogs (response : TraceQueryApi.CombinedResponse)

/-- The tenant that a router reads for. -/
def readFor (tenant : Option String) (serviceLabel subject : String) (asked : Asked) :
    Except Refusal TenantId :=
  (resolveRequestTenantOrRefuse ports.decode config.readAuth asked.authorization
    (tenant.map TenantId.mk) serviceLabel subject asked.now).1

/-- The tenant of a range query. -/
def metricsFor (asked : Asked) : Except Refusal TenantId :=
  readFor ports config config.metricsQueryTenant "the query" "query_range" asked

/-- The tenant of a read of logs. -/
def logsFor (asked : Asked) : Except Refusal TenantId :=
  readFor ports config config.logsQueryTenant "the log query" "log_query" asked

/-- The tenant of a read of traces. -/
def tracesFor (asked : Asked) : Except Refusal TenantId :=
  readFor ports config config.tracesQueryTenant "the trace query" "trace_query" asked

/-- The tenant that the sink files a record under. -/
def filedUnder : SinkRecord OtlpResource → Except SinkError TenantId
  | .logs tagged => unwired.resolveTenant ports.doubles tagged.inner
  | .traces tagged => unwired.resolveTraceTenant ports.doubles tagged.inner
  | .metrics tagged => unwired.resolveMetricTenant ports.doubles tagged.inner
where
  unwired : StorageSink := ⟨sinkConfig config, none, none, none⟩

/-- The tenant of a request, unless it is refused for having none. -/
def tenantOf : Request → Option TenantId
  | .ingest record _ => (filedUnder ports config record).toOption
  | .queryRange asked _ _ _ => (metricsFor ports config asked).toOption
  | .logs asked _ => (logsFor ports config asked).toOption
  | .traces asked _ _ _ => (tracesFor ports config asked).toOption
  | .tracesById asked _ => (tracesFor ports config asked).toOption
  | .tracesWithLogs asked _ _ => (tracesFor ports config asked).toOption

namespace SharedStores

/-- What a request is answered. -/
def reply (stores : SharedStores) : Request → Reply
  | .ingest record fault =>
    .ingested ((stores.sink config).accept ports.doubles ports.encodings record fault).1
  | .queryRange asked query start stop =>
    .matrix {response | ∃ visit, response = handleQueryRangeOver Binary64.display ports.compile
      (stores.metricQuery ports config visit asked.overlayNow)
      ((metricsFor ports config asked).mapError fun refusal =>
        .error refusal.status refusal.reason)
      (parseTimeRange ports.rfc3339 start stop) (QueryApi.parse query)}
  | .logs asked params =>
    .logs (LogQueryApi.handleLogs ports.compile (parseTimeRange ports.rfc3339)
      (stores.logReads ports config asked.overlayNow)
      ((logsFor ports config asked).mapError fun refusal => .error refusal.status refusal.reason)
      params)
  | .traces asked params start stop =>
    .traces (TraceQueryApi.handleTraces (stores.traceQuery ports config asked.overlayNow)
      ((tracesFor ports config asked).mapError fun refusal => .error refusal.status refusal.reason)
      params (parseTimeRange ports.rfc3339 (start.getD "") (stop.getD "")))
  | .tracesById asked traceId =>
    .traces (TraceQueryApi.handleTracesById (stores.traceGet ports config asked.overlayNow)
      ((tracesFor ports config asked).mapError fun refusal => .error refusal.status refusal.reason)
      traceId)
  | .tracesWithLogs asked logsNow traceId =>
    .traceWithLogs (TraceQueryApi.handleTracesWithLogs
      (stores.traceGet ports config asked.overlayNow) (stores.logReads ports config logsNow)
      ((tracesFor ports config asked).mapError fun refusal => .error refusal.status refusal.reason)
      traceId)

/-- The stores after a request. -/
def step (stores : SharedStores) : Request → SharedStores
  | .ingest record fault =>
    let sink := ((stores.sink config).accept ports.doubles ports.encodings record fault).2
    ⟨sink.logStore.getD stores.logStore, sink.traceStore.getD stores.traceStore,
      sink.metricStore.getD stores.metricStore⟩
  | _ => stores

end SharedStores

end Process

/-! ## Accepts -/

section Accepts

variable (ports : Ports) (config : ConsolidatedConfig) {t : TenantId}

/-- What an accept of a record that is filed under a tenant answers, and the stores after it. -/
def SharedStores.ingested (stores : SharedStores) (t : TenantId) (fault : Fault) :
    SinkRecord OtlpResource → Except SinkError Unit × SharedStores
  | .logs tagged =>
    match translateLogs ports.doubles tagged.inner with
    | .error e => (.error (.internal ("log translation refused: " ++ e.toString)), stores)
    | .ok records =>
      let done := Lumen.ingest ports.encodings.lumenWal ports.encodings.lumenSnap stores.logStore t
        ⟨records⟩ fault
      (StorageSink.answer "lumen ingest failed: " StorageSink.logStoreError done.1,
        { stores with logStore := done.2 })
  | .traces tagged =>
    match translateTraces ports.doubles tagged.inner with
    | .error e => (.error (.internal ("trace translation refused: " ++ e.toString)), stores)
    | .ok spans =>
      let done := Ray.ingest ports.encodings.rayWal ports.encodings.raySnap stores.traceStore t
        ⟨spans⟩ fault
      (StorageSink.answer "ray ingest failed: " StorageSink.traceStoreError done.1,
        { stores with traceStore := done.2 })
  | .metrics tagged =>
    let done := Pulse.ingest ports.encodings.pulseOrder ports.encodings.pulseWal
      ports.encodings.pulseSnap stores.metricStore t ⟨translateMetrics ports.doubles tagged.inner⟩
      fault
    (StorageSink.answer "pulse ingest failed: " StorageSink.metricStoreError done.1,
      { stores with metricStore := done.2 })

/-- Without a tenant the sink refuses the record. -/
theorem ingest_of_refused {record : SinkRecord OtlpResource} {e : SinkError}
    (h : filedUnder ports config record = .error e) (stores : SharedStores) (fault : Fault) :
    stores.reply ports config (.ingest record fault) = .ingested (.error e) ∧
      stores.step ports config (.ingest record fault) = stores := by
  cases record with
  | logs tagged =>
    have hresolve : (stores.sink config).resolveTenant ports.doubles tagged.inner = .error e := h
    simp only [SharedStores.reply, SharedStores.step, StorageSink.accept, StorageSink.acceptLogs,
      hresolve]
    exact ⟨rfl, rfl⟩
  | traces tagged =>
    have hresolve : (stores.sink config).resolveTraceTenant ports.doubles tagged.inner =
      .error e := h
    simp only [SharedStores.reply, SharedStores.step, StorageSink.accept, StorageSink.acceptTraces,
      hresolve]
    exact ⟨rfl, rfl⟩
  | metrics tagged =>
    have hresolve : (stores.sink config).resolveMetricTenant ports.doubles tagged.inner =
      .error e := h
    simp only [SharedStores.reply, SharedStores.step, StorageSink.accept,
      StorageSink.acceptMetrics, hresolve]
    exact ⟨rfl, rfl⟩

/-- With one it ingests the record for it. -/
theorem ingest_of_filed {record : SinkRecord OtlpResource}
    (h : filedUnder ports config record = .ok t) (stores : SharedStores) (fault : Fault) :
    stores.reply ports config (.ingest record fault) =
        .ingested (stores.ingested ports t fault record).1 ∧
      stores.step ports config (.ingest record fault) =
        (stores.ingested ports t fault record).2 := by
  cases record with
  | logs tagged =>
    have hresolve : (stores.sink config).resolveTenant ports.doubles tagged.inner = .ok t := h
    simp only [SharedStores.reply, SharedStores.step, StorageSink.accept, StorageSink.acceptLogs,
      hresolve, SharedStores.ingested]
    cases translateLogs ports.doubles tagged.inner <;> exact ⟨rfl, rfl⟩
  | traces tagged =>
    have hresolve : (stores.sink config).resolveTraceTenant ports.doubles tagged.inner = .ok t := h
    simp only [SharedStores.reply, SharedStores.step, StorageSink.accept, StorageSink.acceptTraces,
      hresolve, SharedStores.ingested]
    cases translateTraces ports.doubles tagged.inner <;> exact ⟨rfl, rfl⟩
  | metrics tagged =>
    have hresolve : (stores.sink config).resolveMetricTenant ports.doubles tagged.inner = .ok t := h
    simp only [SharedStores.reply, SharedStores.step, StorageSink.accept,
      StorageSink.acceptMetrics, hresolve]
    exact ⟨rfl, rfl⟩

end Accepts

end Kaleidoscope.Runtime

/-!
# Its tenants

What a tenant is answered depends on the requests of that tenant alone.
-/

namespace Kaleidoscope.Runtime

open Aegis Aperture Otlp QueryApi Storage

/-! ## What belongs to a tenant -/

/-- What a trace store holds of a tenant. -/
structure TracePart where
  byTrace : Ray.TraceId → List Ray.Span
  byService : Ray.ServiceName → List Ray.Span

/-- What a metric store holds of a tenant. -/
structure MetricPart where
  series : Pulse.SeriesKey → Option Pulse.SeriesEntry
  count : Nat

def tracePart (t : TenantId) (indices : Ray.Indices) : TracePart where
  byTrace traceId := indices.bucket (.inl (t, traceId))
  byService service := indices.bucket (.inr (t, service))

def metricPart (t : TenantId) (inner : Pulse.Inner) : MetricPart where
  series key := inner.series.lookup (t, key)
  count := inner.count t

/-- What the stores hold of a tenant. -/
structure Part where
  logs : List Lumen.LogRecord
  traces : TracePart
  metrics : MetricPart

def SharedStores.part (stores : SharedStores) (t : TenantId) : Part where
  logs := HashMap.bucket stores.logStore.state t
  traces := tracePart t stores.traceStore.state
  metrics := metricPart t stores.metricStore.state

/-- Every series is in the order of time. -/
def InOrder (inner : Pulse.Inner) : Prop :=
  ∀ k entry, inner.series.lookup k = some entry → Pulse.sortEntry entry = entry

/-- What the stores keep. -/
structure SharedStores.Kept (stores : SharedStores) : Prop where
  traces : stores.traceStore.state.Sorted
  metrics : InOrder stores.metricStore.state

section Views

variable {σ ρ κ ε ω V : Type} (P : Pillar σ ρ κ ε ω) {view : σ → V} {steps : List (LogStep σ ρ)}

/-- When no write fails, an operation of at most one append comes to the same in stores that look
alike, and leaves stores that do. -/
theorem call_alike (hone : steps.length ≤ 1) {fault : Fault} (hwritten : fault.device = none)
    {s s' : Store σ} (hview : view s.state = view s'.state)
    (hcommit : ∀ step ∈ steps, view (step.commit s.state) = view (step.commit s'.state)) :
    (P.call ⟨s.state, steps⟩ [fault] s).result = (P.call ⟨s'.state, steps⟩ [fault] s').result ∧
      view (P.call ⟨s.state, steps⟩ [fault] s).store.state =
        view (P.call ⟨s'.state, steps⟩ [fault] s').store.state := by
  match steps, hone with
  | [], _ => exact ⟨rfl, hview⟩
  | [step], _ =>
    obtain ⟨hresult, hstate⟩ := P.call_singleton_of_written s.state step hwritten s
    obtain ⟨hresult', hstate'⟩ := P.call_singleton_of_written s'.state step hwritten s'
    rw [hresult, hresult', hstate, hstate']
    refine ⟨rfl, ?_⟩
    split_ifs
    · exact hcommit step List.mem_cons_self
    · exact hview

end Views

/-! ## Commits -/

theorem tracePart_ingest_alike {indices indices' : Ray.Indices} (h : indices.Sorted)
    (h' : indices'.Sorted) {t : TenantId} (halike : tracePart t indices = tracePart t indices')
    (batch : Ray.SpanBatch) :
    tracePart t (Ray.InMemoryTraceStore.ingest indices t batch).2 =
      tracePart t (Ray.InMemoryTraceStore.ingest indices' t batch).2 := by
  obtain ⟨htrace, hservice⟩ := TracePart.mk.inj halike
  rw [tracePart, tracePart, TracePart.mk.injEq]
  constructor
  · funext traceId
    rw [Ray.InMemoryTraceStore.bucket_ingest h, Ray.InMemoryTraceStore.bucket_ingest h',
      congrFun htrace traceId]
  · funext service
    rw [Ray.InMemoryTraceStore.bucket_ingest h, Ray.InMemoryTraceStore.bucket_ingest h',
      congrFun hservice service]

theorem tracePart_ingest_other {indices : Ray.Indices} (h : indices.Sorted) {t other : TenantId}
    (hne : t ≠ other) (batch : Ray.SpanBatch) :
    tracePart t (Ray.InMemoryTraceStore.ingest indices other batch).2 = tracePart t indices := by
  obtain ⟨htrace, hservice⟩ := ray_bucket_ingest_of_ne h hne batch.spans
  rw [tracePart, tracePart, TracePart.mk.injEq]
  exact ⟨funext htrace, funext hservice⟩

theorem metricPart_eq_iff {t : TenantId} {inner inner' : Pulse.Inner} :
    metricPart t inner = metricPart t inner' ↔
      (∀ key, inner.series.lookup (t, key) = inner'.series.lookup (t, key)) ∧
        inner.count t = inner'.count t := by
  rw [metricPart, metricPart, MetricPart.mk.injEq, funext_iff]

/-- A metric is refused, or filed, by what is held of its tenant. -/
theorem metricPart_applyMetric_alike {t : TenantId} {inner inner' : Pulse.Inner}
    (halike : metricPart t inner = metricPart t inner') (applied applied' : Pulse.Applied)
    (metric : Pulse.Metric) :
    metricPart t (Pulse.applyMetric t true (inner, applied) metric).1 =
      metricPart t (Pulse.applyMetric t true (inner', applied') metric).1 := by
  obtain ⟨hseries, hcount⟩ := metricPart_eq_iff.mp halike
  have hrefuses : inner.Refuses t metric ↔ inner'.Refuses t metric := by
    rw [Pulse.Inner.Refuses, Pulse.Inner.Refuses, hseries, hcount]
  by_cases hrefused : inner.Refuses t metric
  · rw [Pulse.applyMetric, Pulse.applyMetric, if_pos ⟨rfl, hrefused⟩,
      if_pos ⟨rfl, hrefuses.mp hrefused⟩]
    exact halike
  · rw [Pulse.applyMetric, Pulse.applyMetric, if_neg fun h => hrefused h.2,
      if_neg fun h => hrefused (hrefuses.mpr h.2)]
    refine metricPart_eq_iff.mpr ⟨fun key => ?_, ?_⟩
    · rw [Pulse.lookup_file, Pulse.lookup_file, hseries]
    · have hcounted := Pulse.count_counted inner t metric t
      have hcounted' := Pulse.count_counted inner' t metric t
      rw [← hseries, ← hcount, ← hcounted] at hcounted'
      exact hcounted'.symm

/-- Another tenant's metric does not show. -/
theorem metricPart_applyMetric_other {t other : TenantId} (hne : t ≠ other) (inner : Pulse.Inner)
    (applied : Pulse.Applied) (metric : Pulse.Metric) :
    metricPart t (Pulse.applyMetric other true (inner, applied) metric).1 = metricPart t inner := by
  rw [Pulse.applyMetric]
  split_ifs
  · rfl
  · refine metricPart_eq_iff.mpr ⟨fun key => ?_, ?_⟩
    · rw [Pulse.lookup_file, if_neg fun h => hne (Prod.mk.inj h).1]
    · have hcounted := Pulse.count_counted inner other metric t
      rwa [if_neg fun h => hne h.1, Nat.add_zero] at hcounted

theorem metricPart_sortAll {t : TenantId} {inner inner' : Pulse.Inner}
    (halike : metricPart t inner = metricPart t inner') :
    metricPart t { inner with series := Pulse.sortAll inner.series } =
      metricPart t { inner' with series := Pulse.sortAll inner'.series } := by
  obtain ⟨hseries, hcount⟩ := metricPart_eq_iff.mp halike
  refine metricPart_eq_iff.mpr ⟨fun key => ?_, hcount⟩
  rw [Pulse.lookup_sortAll, Pulse.lookup_sortAll, hseries]

theorem metricPart_commitIngest_alike {t : TenantId} {inner inner' : Pulse.Inner}
    (halike : metricPart t inner = metricPart t inner') (metrics : List Pulse.Metric) :
    metricPart t (Pulse.commitIngest t metrics inner) =
      metricPart t (Pulse.commitIngest t metrics inner') := by
  refine metricPart_sortAll ?_
  induction metrics using List.reverseRecOn with
  | nil => exact halike
  | append_singleton metrics metric ih =>
    rw [Pulse.applyIngest_snoc, Pulse.applyIngest_snoc]
    exact metricPart_applyMetric_alike ih _ _ metric

theorem metricPart_commitIngest_other {t other : TenantId} (hne : t ≠ other) {inner : Pulse.Inner}
    (h : InOrder inner) (metrics : List Pulse.Metric) :
    metricPart t (Pulse.commitIngest other metrics inner) = metricPart t inner := by
  have happly : metricPart t (Pulse.applyIngest inner other metrics true).1 =
      metricPart t inner := by
    induction metrics using List.reverseRecOn with
    | nil => rfl
    | append_singleton metrics metric ih =>
      rw [Pulse.applyIngest_snoc]
      exact (metricPart_applyMetric_other hne _ _ metric).trans ih
  refine (metricPart_sortAll happly).trans (metricPart_eq_iff.mpr ⟨fun key => ?_, rfl⟩)
  rw [Pulse.lookup_sortAll]
  cases hentry : inner.series.lookup (t, key) with
  | none => rfl
  | some entry => rw [Option.map_some, h _ _ hentry]

theorem inOrder_sortAll (series : Pulse.Series) (counts : HashMap TenantId Nat) :
    InOrder ⟨Pulse.sortAll series, counts⟩ := by
  intro k entry hk
  rw [Pulse.lookup_sortAll] at hk
  obtain ⟨entry', -, rfl⟩ := Option.map_eq_some_iff.mp hk
  simp only [Pulse.sortEntry, StableSort.sortByKey_sortByKey]

/-! ## Ingests -/

section Ingests

variable (encodings : Encodings) {t other : TenantId} {fault : Fault}

theorem lumen_ingest_alike (hwritten : fault.device = none) {store store' : Store Lumen.PerTenant}
    (halike : HashMap.bucket store.state t = HashMap.bucket store'.state t)
    (batch : Lumen.LogBatch) :
    let done := Lumen.ingest encodings.lumenWal encodings.lumenSnap store t batch fault
    let done' := Lumen.ingest encodings.lumenWal encodings.lumenSnap store' t batch fault
    done.1 = done'.1 ∧ HashMap.bucket done.2.state t = HashMap.bucket done'.2.state t := by
  have hone : (Lumen.ingestSteps t batch).length ≤ 1 := by
    rw [Lumen.ingestSteps]
    split_ifs <;> simp
  obtain ⟨hresult, hstate⟩ := @call_alike _ _ _ _ _ _
    (Lumen.fileBackedLogStore encodings.lumenWal encodings.lumenSnap)
    (fun perTenant => HashMap.bucket perTenant t) _ hone _ hwritten store store' halike
    fun step hstep => by
      rw [Lumen.ingestSteps] at hstep
      split_ifs at hstep
      · cases hstep
      · rw [List.mem_singleton.mp hstep]
        simp only [HashMap.bucket_upsert, if_true, halike]
  exact ⟨congrArg (Except.map fun _ => (⟨batch.len⟩ : Lumen.IngestReceipt)) hresult, hstate⟩

theorem lumen_ingest_other (hne : t ≠ other) (store : Store Lumen.PerTenant)
    (batch : Lumen.LogBatch) (fault : Fault) :
    HashMap.bucket (Lumen.ingest encodings.lumenWal encodings.lumenSnap store other batch
      fault).2.state t = HashMap.bucket store.state t := by
  rcases lumen_ingest_state store other batch.records fault with hstate | hstate
  · exact congrArg (fun perTenant => HashMap.bucket perTenant t) hstate
  · refine (congrArg (fun perTenant => HashMap.bucket perTenant t) hstate).trans ?_
    rw [Lumen.bucket_ingest, if_neg hne]

theorem ray_ingest_alike (hwritten : fault.device = none) {store store' : Store Ray.Indices}
    (hsorted : store.state.Sorted) (hsorted' : store'.state.Sorted)
    (halike : tracePart t store.state = tracePart t store'.state) (batch : Ray.SpanBatch) :
    let done := Ray.ingest encodings.rayWal encodings.raySnap store t batch fault
    let done' := Ray.ingest encodings.rayWal encodings.raySnap store' t batch fault
    done.1 = done'.1 ∧ tracePart t done.2.state = tracePart t done'.2.state := by
  have hone : (Ray.ingestSteps t batch).length ≤ 1 := by
    rw [Ray.ingestSteps]
    split_ifs <;> simp
  obtain ⟨hresult, hstate⟩ := call_alike
    (Ray.fileBackedTraceStore encodings.rayWal encodings.raySnap) hone hwritten halike
    fun step hstep => by
      rw [Ray.ingestSteps] at hstep
      split_ifs at hstep
      · cases hstep
      · rw [List.mem_singleton.mp hstep]
        exact tracePart_ingest_alike hsorted hsorted' halike batch
  exact ⟨congrArg (Except.map fun _ => (⟨batch.len⟩ : Ray.IngestReceipt)) hresult, hstate⟩

theorem ray_ingest_other (hne : t ≠ other) {store : Store Ray.Indices}
    (hsorted : store.state.Sorted) (batch : Ray.SpanBatch) (fault : Fault) :
    tracePart t (Ray.ingest encodings.rayWal encodings.raySnap store other batch fault).2.state =
      tracePart t store.state := by
  rcases ray_ingest_state store other batch.spans fault with hstate | ⟨-, hstate⟩
  · exact congrArg (tracePart t) hstate
  · exact (congrArg (tracePart t) hstate).trans (tracePart_ingest_other hsorted hne batch)

theorem pulse_ingest_alike (hwritten : fault.device = none) {store store' : Store Pulse.Inner}
    (halike : metricPart t store.state = metricPart t store'.state) (batch : Pulse.MetricBatch) :
    let done := Pulse.ingest encodings.pulseOrder encodings.pulseWal encodings.pulseSnap store t
      batch fault
    let done' := Pulse.ingest encodings.pulseOrder encodings.pulseWal encodings.pulseSnap store' t
      batch fault
    StorageSink.answer "pulse ingest failed: " StorageSink.metricStoreError done.1 =
        StorageSink.answer "pulse ingest failed: " StorageSink.metricStoreError done'.1 ∧
      metricPart t done.2.state = metricPart t done'.2.state := by
  have hone : (Pulse.ingestSteps t batch).length ≤ 1 := by
    rw [Pulse.ingestSteps]
    split_ifs <;> simp
  obtain ⟨hresult, hstate⟩ := call_alike (Pulse.fileBackedMetricStore encodings.pulseOrder
    encodings.pulseWal encodings.pulseSnap) hone hwritten halike
    fun step hstep => by
      rw [Pulse.ingestSteps] at hstep
      split_ifs at hstep
      · cases hstep
      · rw [List.mem_singleton.mp hstep]
        exact metricPart_commitIngest_alike halike batch.metrics
  refine ⟨?_, hstate⟩
  simp only [Pulse.ingest, Pulse.plan, hresult]
  cases ((Pulse.fileBackedMetricStore encodings.pulseOrder encodings.pulseWal
    encodings.pulseSnap).call ⟨store'.state, Pulse.ingestSteps t batch⟩ [fault] store').result <;>
    rfl

theorem pulse_ingest_other (hne : t ≠ other) {store : Store Pulse.Inner}
    (horder : InOrder store.state) (batch : Pulse.MetricBatch) (fault : Fault) :
    metricPart t (Pulse.ingest encodings.pulseOrder encodings.pulseWal encodings.pulseSnap store
      other batch fault).2.state = metricPart t store.state := by
  rcases pulse_ingest_state store other batch.metrics fault with hstate | hstate
  · exact congrArg (metricPart t) hstate
  · exact (congrArg (metricPart t) hstate).trans
      (metricPart_commitIngest_other hne horder batch.metrics)

end Ingests

/-! ## Accepts -/

section Accepts

variable (ports : Ports) {stores stores' : SharedStores} {t : TenantId}

/-- An ingest comes to the same in stores that hold the same of its tenant. -/
theorem ingested_alike (hkept : stores.Kept) (hkept' : stores'.Kept)
    (halike : stores.part t = stores'.part t) {fault : Fault} (hwritten : fault.device = none)
    (record : SinkRecord OtlpResource) :
    (stores.ingested ports t fault record).1 = (stores'.ingested ports t fault record).1 ∧
      (stores.ingested ports t fault record).2.part t =
        (stores'.ingested ports t fault record).2.part t := by
  obtain ⟨hlogs, htraces, hmetrics⟩ := Part.mk.inj halike
  cases record with
  | logs tagged =>
    simp only [SharedStores.ingested]
    cases translateLogs ports.doubles tagged.inner with
    | error e => exact ⟨rfl, halike⟩
    | ok records =>
      obtain ⟨hresult, hstate⟩ := lumen_ingest_alike ports.encodings hwritten hlogs ⟨records⟩
      exact ⟨congrArg (StorageSink.answer _ StorageSink.logStoreError) hresult,
        Part.mk.injEq .. ▸ ⟨hstate, htraces, hmetrics⟩⟩
  | traces tagged =>
    simp only [SharedStores.ingested]
    cases translateTraces ports.doubles tagged.inner with
    | error e => exact ⟨rfl, halike⟩
    | ok spans =>
      obtain ⟨hresult, hstate⟩ := ray_ingest_alike ports.encodings hwritten hkept.traces
        hkept'.traces htraces ⟨spans⟩
      exact ⟨congrArg (StorageSink.answer _ StorageSink.traceStoreError) hresult,
        Part.mk.injEq .. ▸ ⟨hlogs, hstate, hmetrics⟩⟩
  | metrics tagged =>
    obtain ⟨hresult, hstate⟩ := pulse_ingest_alike ports.encodings hwritten hmetrics
      ⟨translateMetrics ports.doubles tagged.inner⟩
    exact ⟨hresult, Part.mk.injEq .. ▸ ⟨hlogs, htraces, hstate⟩⟩

/-- An ingest for another tenant does not show. -/
theorem ingested_other {other : TenantId} (hne : t ≠ other) (hkept : stores.Kept) (fault : Fault)
    (record : SinkRecord OtlpResource) :
    (stores.ingested ports other fault record).2.part t = stores.part t := by
  cases record with
  | logs tagged =>
    simp only [SharedStores.ingested]
    cases translateLogs ports.doubles tagged.inner with
    | error e => rfl
    | ok records =>
      exact Part.mk.injEq .. ▸ ⟨lumen_ingest_other ports.encodings hne _ _ _, rfl, rfl⟩
  | traces tagged =>
    simp only [SharedStores.ingested]
    cases translateTraces ports.doubles tagged.inner with
    | error e => rfl
    | ok spans =>
      exact Part.mk.injEq .. ▸ ⟨rfl, ray_ingest_other ports.encodings hne hkept.traces _ _, rfl⟩
  | metrics tagged =>
    exact Part.mk.injEq .. ▸ ⟨rfl, rfl, pulse_ingest_other ports.encodings hne hkept.metrics _ _⟩

/-- Every ingest keeps what the stores keep. -/
theorem SharedStores.Kept.ingested (hkept : stores.Kept) (t : TenantId) (fault : Fault)
    (record : SinkRecord OtlpResource) : (stores.ingested ports t fault record).2.Kept := by
  cases record with
  | logs tagged =>
    simp only [SharedStores.ingested]
    cases translateLogs ports.doubles tagged.inner with
    | error e => exact hkept
    | ok records => exact ⟨hkept.traces, hkept.metrics⟩
  | traces tagged =>
    simp only [SharedStores.ingested]
    cases translateTraces ports.doubles tagged.inner with
    | error e => exact hkept
    | ok spans =>
      refine ⟨?_, hkept.metrics⟩
      rcases ray_ingest_state stores.traceStore t spans fault with hstate | ⟨-, hstate⟩
      · exact hstate ▸ hkept.traces
      · exact hstate ▸ Ray.InMemoryTraceStore.sorted_ingest hkept.traces t ⟨spans⟩
  | metrics tagged =>
    refine ⟨hkept.traces, ?_⟩
    rcases pulse_ingest_state stores.metricStore t (translateMetrics ports.doubles tagged.inner)
      fault with hstate | hstate
    · exact hstate ▸ hkept.metrics
    · exact hstate ▸ inOrder_sortAll _ _

end Accepts

/-! ## Reads -/

section Reads

variable (ports : Ports) (config : ConsolidatedConfig) {t : TenantId} (now : Nat)

/-- The overlay reads stores alike that read alike for a tenant. -/
theorem logRead_alike {store store' : Store Lumen.PerTenant}
    (halike : HashMap.bucket store.state t = HashMap.bucket store'.state t)
    {read : DemoOverlay.Log.LogRead} (hread : read.tenant = t) :
    (logRead ports config now).read store read = (logRead ports config now).read store' read := by
  subst hread
  have hshared : (sharedLogStore ports.encodings).read store read =
      (sharedLogStore ports.encodings).read store' read := by
    cases read with
    | query tenant range =>
      exact congrArg Except.ok ((lumen_query_eq store tenant range).trans
        ((congrArg _ halike).trans (lumen_query_eq store' tenant range).symm))
    | queryWith tenant range predicate =>
      exact congrArg Except.ok ((Lumen.matching_eq store.state tenant _).trans
        ((congrArg _ halike).trans (Lumen.matching_eq store'.state tenant _).symm))
  rw [logRead]
  split_ifs
  · cases read <;> simp only [DemoOverlay.Log.overlay, hshared]
  · exact hshared

theorem traceRead_alike {store store' : Store Ray.Indices}
    (halike : tracePart t store.state = tracePart t store'.state)
    {read : DemoOverlay.Trace.TraceRead} (hread : read.tenant = t) :
    (traceRead ports config now).read store read =
      (traceRead ports config now).read store' read := by
  subst hread
  obtain ⟨htraces, hservices⟩ := TracePart.mk.inj halike
  obtain ⟨hget, hquery⟩ := ray_same_of_bucket (congrFun htraces) (congrFun hservices)
  have hshared : (sharedTraceStore ports.encodings).read store read =
      (sharedTraceStore ports.encodings).read store' read := by
    cases read with
    | getTrace tenant traceId => exact congrArg Except.ok (hget traceId)
    | query tenant service range => exact congrArg Except.ok (hquery service range).1
    | queryWith tenant service range predicate =>
      exact congrArg Except.ok ((hquery service range).2 predicate)
  rw [traceRead]
  split_ifs
  · cases read <;> simp only [DemoOverlay.Trace.overlay, hshared]
  · exact hshared

/-- Whatever the order in which one store visits its series, the other may visit those of the
tenant alike. -/
theorem metricRead_alike {store store' : Store Pulse.Inner}
    (halike : metricPart t store.state = metricPart t store'.state) (visit : VisitOrder) :
    ∃ visit', ∀ read : DemoOverlay.Metric.MetricRead, read.tenant = t →
      (metricRead ports config visit' now).read store' read =
        (metricRead ports config visit now).read store read := by
  have hseries (key : Pulse.Key) (hkey : decide (key.1 = t) = true) :
      store'.state.series.lookup key = store.state.series.lookup key := by
    obtain ⟨tenant, series⟩ := key
    obtain rfl : tenant = t := of_decide_eq_true hkey
    exact ((metricPart_eq_iff.mp halike).1 series).symm
  obtain ⟨visit', hvisit⟩ := visit.exists_entries_alike (fun key => decide (key.1 = t)) hseries
  refine ⟨visit', fun read hread => ?_⟩
  subst hread
  have hentries (name : Pulse.MetricName) : ((visit'.entries store'.state.series).filter fun e =>
      e.1.1 = read.tenant ∧ e.1.2.name = name) = (visit.entries store.state.series).filter fun e =>
        e.1.1 = read.tenant ∧ e.1.2.name = name := by
    have hfilter := congrArg (List.filter fun e => decide (e.1.2.name = name)) hvisit
    simp only [List.filter_filter] at hfilter
    simpa only [Bool.decide_and, Bool.and_comm] using hfilter
  have hshared : (sharedMetricStore ports.encodings visit').read store' read =
      (sharedMetricStore ports.encodings visit).read store read := by
    cases read with
    | query tenant name range =>
      exact congrArg Except.ok (congrArg _ (hentries name))
    | queryWith tenant name range predicate =>
      exact congrArg Except.ok (congrArg _ (hentries name))
  rw [metricRead, metricRead]
  split_ifs
  · cases read <;> simp only [DemoOverlay.Metric.overlay, hshared]
  · exact hshared

end Reads

/-! ## Replies -/

section Replies

variable {t : TenantId}

theorem handleLogs_alike {reads reads' : LogQueryApi.LogReads}
    (hquery : ∀ range, reads.query t range = reads'.query t range)
    (hwith : ∀ range predicate,
      reads.queryWith t range predicate = reads'.queryWith t range predicate)
    (compile : Compile) (parseTimeRange : String → String → Except String EpochRange)
    (params : LogQueryApi.LogsParams) :
    LogQueryApi.handleLogs compile parseTimeRange reads (.ok t) params =
      LogQueryApi.handleLogs compile parseTimeRange reads' (.ok t) params := by
  have hdispatch (request : LogQueryApi.LogsRequest) :
      reads.dispatch t request = reads'.dispatch t request := by
    simp only [LogQueryApi.LogReads.dispatch, hquery, hwith]
  simp only [LogQueryApi.handleLogs, hdispatch]

variable (ports : Ports) (config : ConsolidatedConfig)

/-- No write of an ingest fails. -/
def Request.Written : Request → Prop
  | .ingest _ fault => fault.device = none
  | _ => True

/-- Every matrix that one store may answer a tenant, the other may. -/
theorem matrix_subset {stores stores' : SharedStores}
    (halike : metricPart t stores.metricStore.state = metricPart t stores'.metricStore.state)
    (now : Nat) (tenant : Except QueryApi.Response TenantId) (bounds : Except String EpochRange)
    (parsed : Except String Selector) (htenant : tenant = .ok t) :
    {response | ∃ visit, response = handleQueryRangeOver Binary64.display ports.compile
      (stores.metricQuery ports config visit now) tenant bounds parsed} ⊆
    {response | ∃ visit, response = handleQueryRangeOver Binary64.display ports.compile
      (stores'.metricQuery ports config visit now) tenant bounds parsed} := by
  rintro _ ⟨visit, rfl⟩
  obtain ⟨visit', hvisit⟩ := metricRead_alike ports config now halike visit
  have hquery : stores.metricQuery ports config visit now t =
      stores'.metricQuery ports config visit' now t := by
    funext name range
    rw [SharedStores.metricQuery, SharedStores.metricQuery, hvisit _ rfl]
  refine ⟨visit', ?_⟩
  simp only [htenant, handleQueryRangeOver, hquery]

theorem ok_of_toOption {ε α : Type} {result : Except ε α} {a : α}
    (h : result.toOption = some a) : result = .ok a := by
  cases result with
  | error e => cases h
  | ok b => exact congrArg Except.ok (Option.some.inj h)

/-- What a tenant is answered depends on what the stores hold of it. -/
theorem reply_alike {stores stores' : SharedStores} (hkept : stores.Kept) (hkept' : stores'.Kept)
    (halike : stores.part t = stores'.part t) {request : Request}
    (hmine : tenantOf ports config request = some t) (hwritten : request.Written) :
    stores.reply ports config request = stores'.reply ports config request ∧
      (stores.step ports config request).part t = (stores'.step ports config request).part t := by
  obtain ⟨hlogs, htraces, hmetrics⟩ := Part.mk.inj halike
  have hreads (now : Nat) := @logRead_alike ports config t now _ _ hlogs
  have hspans (now : Nat) := @traceRead_alike ports config t now _ _ htraces
  cases request with
  | ingest record fault =>
    have hfiled := ok_of_toOption hmine
    obtain ⟨hreply, hstep⟩ := ingest_of_filed ports config hfiled stores fault
    obtain ⟨hreply', hstep'⟩ := ingest_of_filed ports config hfiled stores' fault
    obtain ⟨hresult, hpart⟩ := ingested_alike ports hkept hkept' halike hwritten record
    rw [hreply, hreply', hstep, hstep', hresult]
    exact ⟨rfl, hpart⟩
  | queryRange asked query start stop =>
    refine ⟨congrArg Reply.matrix ?_, halike⟩
    have htenant : ((metricsFor ports config asked).mapError fun refusal =>
        QueryApi.Response.error refusal.status refusal.reason) = .ok t := by
      rw [ok_of_toOption hmine]
      rfl
    exact (matrix_subset ports config hmetrics _ _ _ _ htenant).antisymm
      (matrix_subset ports config hmetrics.symm _ _ _ _ htenant)
  | logs asked params =>
    refine ⟨congrArg Reply.logs ?_, halike⟩
    rw [ok_of_toOption hmine]
    exact handleLogs_alike (fun range => hreads _ rfl) (fun range predicate => hreads _ rfl) _ _ _
  | traces asked params start stop =>
    refine ⟨congrArg Reply.traces ?_, halike⟩
    rw [ok_of_toOption hmine]
    have hquery : stores.traceQuery ports config asked.overlayNow t =
        stores'.traceQuery ports config asked.overlayNow t := by
      funext service range
      rw [SharedStores.traceQuery, SharedStores.traceQuery, hspans _ rfl]
    simp only [Except.mapError, TraceQueryApi.handleTraces, hquery]
  | tracesById asked traceId =>
    refine ⟨congrArg Reply.traces ?_, halike⟩
    rw [ok_of_toOption hmine]
    have hget : stores.traceGet ports config asked.overlayNow t =
        stores'.traceGet ports config asked.overlayNow t := by
      funext traceId
      rw [SharedStores.traceGet, SharedStores.traceGet, hspans _ rfl]
    simp only [Except.mapError, TraceQueryApi.handleTracesById, hget]
  | tracesWithLogs asked logsNow traceId =>
    refine ⟨congrArg Reply.traceWithLogs ?_, halike⟩
    rw [ok_of_toOption hmine]
    have hget : stores.traceGet ports config asked.overlayNow t =
        stores'.traceGet ports config asked.overlayNow t := by
      funext traceId
      rw [SharedStores.traceGet, SharedStores.traceGet, hspans _ rfl]
    have hquery : (stores.logReads ports config logsNow).query t =
        (stores'.logReads ports config logsNow).query t := by
      funext range
      exact hreads _ rfl
    simp only [Except.mapError, TraceQueryApi.handleTracesWithLogs, LogQueryApi.logsForTrace, hget,
      hquery]

/-- The requests of others do not show. -/
theorem step_other {stores : SharedStores} (hkept : stores.Kept) {request : Request}
    (hother : tenantOf ports config request ≠ some t) :
    (stores.step ports config request).part t = stores.part t := by
  cases request with
  | ingest record fault =>
    cases hfiled : filedUnder ports config record with
    | error e => rw [(ingest_of_refused ports config hfiled stores fault).2]
    | ok other =>
      have hne : t ≠ other := by
        rintro rfl
        exact hother (congrArg Except.toOption hfiled)
      rw [(ingest_of_filed ports config hfiled stores fault).2]
      exact ingested_other ports hne hkept fault record
  | _ => rfl

theorem SharedStores.Kept.step {stores : SharedStores} (hkept : stores.Kept) (request : Request) :
    (stores.step ports config request).Kept := by
  cases request with
  | ingest record fault =>
    cases hfiled : filedUnder ports config record with
    | error e =>
      rw [(ingest_of_refused ports config hfiled stores fault).2]
      exact hkept
    | ok tenant =>
      rw [(ingest_of_filed ports config hfiled stores fault).2]
      exact hkept.ingested ports tenant fault record
  | _ => exact hkept

theorem SharedStores.Kept.of_opened {stores : SharedStores}
    (hopened : (stores.sink config).Opened ports.encodings) : stores.Kept where
  traces := hopened.kept.traces _ rfl
  metrics := by
    obtain ⟨f, hopen⟩ := hopened.metrics _ rfl
    obtain ⟨inner, -, hstate⟩ := (Pulse.fileBackedMetricStore ports.encodings.pulseOrder
      ports.encodings.pulseWal ports.encodings.pulseSnap).open_keeps (p := fun _ => True) trivial
        (fun _ _ _ => trivial) (fun _ _ _ _ _ => trivial) hopen
    rw [hstate]
    exact inOrder_sortAll _ _

/-- The requests of a tenant. -/
def ofTenant (t : TenantId) (request : Request) : Bool :=
  decide (tenantOf ports config request = some t)

/-- One request does not carry anything from one tenant to another. -/
theorem unwinding (t : TenantId) :
    Noninterference.Unwinding (SharedStores.step ports config) (SharedStores.reply ports config)
      (ofTenant ports config t) SharedStores.Kept (fun stores stores' => stores.part t =
        stores'.part t) Request.Written where
  keep _ request hkept := hkept.step ports config request
  own _ _ _ hkept hkept' halike hmine hwritten :=
    reply_alike ports config hkept hkept' halike (of_decide_eq_true hmine) hwritten
  other _ _ _ hkept halike hother :=
    (step_other ports config hkept (of_decide_eq_false hother)).trans halike

/-- A tenant is answered what it would be if nobody else sent anything, whichever of the others'
writes fail. -/
theorem replies_alone {stores : SharedStores}
    (hopened : (stores.sink config).Opened ports.encodings) (t : TenantId)
    {requests : List Request}
    (hwritten : ∀ request ∈ requests, ofTenant ports config t request = true → request.Written) :
    Noninterference.observed (SharedStores.step ports config) (SharedStores.reply ports config)
        (ofTenant ports config t) stores requests =
      Run.transcript (SharedStores.step ports config) (SharedStores.reply ports config) stores
        (requests.filter (ofTenant ports config t)) := by
  have hkept := SharedStores.Kept.of_opened ports config hopened
  exact ((unwinding ports config t).observed_eq hkept hkept rfl hwritten).1

end Replies

/-- Ports of a process that takes the log record of `globexText` and validates nothing. -/
noncomputable def startedPorts : Ports where
  doubles := noDoubles
  encodings := encodingsOf globexText
  decode _ _ := .error .other
  compile _ := none
  rfc3339 _ := none

/-- A process that files for `acme` what names no tenant, and reads for `globex`. -/
def startedConfig : ConsolidatedConfig where
  defaultIngestTenant := some "acme"
  metricsQueryTenant := none
  logsQueryTenant := some "globex"
  tracesQueryTenant := some "globex"
  readAuth := none
  demoOverlayEnabled := true

/-- New stores. -/
def newStores : SharedStores where
  logStore := ⟨∅, none, none, BufWriter.new []⟩
  traceStore := ⟨.empty, none, none, BufWriter.new []⟩
  metricStore := ⟨.empty, none, none, BufWriter.new []⟩

theorem opened_newStores : (newStores.sink startedConfig).Opened startedPorts.encodings where
  logs := by
    rintro _ ⟨⟩
    exact ⟨Files.none, rfl⟩
  traces := by
    rintro _ ⟨⟩
    exact ⟨Files.none, rfl⟩
  metrics := by
    rintro _ ⟨⟩
    refine ⟨Files.none, ?_⟩
    change Except.ok (Store.mk (Pillar.settle _ Pulse.Inner.empty) none none (BufWriter.new [])) = _
    rw [Pulse.settle_empty]
    rfl

/-- A write for `acme` fails half way before `globex` sends a record and asks for its logs. -/
def startedRequests : List Request :=
  let asked : Asked := ⟨none, 0, 0⟩
  [.ingest (.logs ⟨⟨"acme"⟩, startedRequest none⟩) (.write 40 "no space left"),
    .ingest (.logs ⟨⟨"globex"⟩, startedRequest
      (some ⟨[.mk "tenant.id" (some (.string "globex"))]⟩)⟩) .none,
    .logs asked { traceId := some "00000000000000000000000000000000" },
    .tracesWithLogs asked 0 (some "00000000000000000000000000000000")]

theorem globex_alone :
    Noninterference.observed (SharedStores.step startedPorts startedConfig)
        (SharedStores.reply startedPorts startedConfig)
        (ofTenant startedPorts startedConfig ⟨"globex"⟩) newStores startedRequests =
      Run.transcript (SharedStores.step startedPorts startedConfig)
        (SharedStores.reply startedPorts startedConfig) newStores
        (startedRequests.filter (ofTenant startedPorts startedConfig ⟨"globex"⟩)) := by
  refine replies_alone startedPorts startedConfig opened_newStores ⟨"globex"⟩ ?_
  intro request hrequest hmine
  simp only [startedRequests, List.mem_cons, List.not_mem_nil, or_false] at hrequest
  rcases hrequest with rfl | rfl | rfl | rfl
  · exact absurd (of_decide_eq_true hmine) (by decide)
  · rfl
  · trivial
  · trivial

end Kaleidoscope.Runtime
