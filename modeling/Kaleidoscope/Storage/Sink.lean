import Kaleidoscope.Lumen.Memory
import Kaleidoscope.Pulse.Rows
import Kaleidoscope.Ray.Memory
import Kaleidoscope.Storage.Translate

/-!
# The storage sink

The tenant of a request is the one its first resource names, else the configured default. The
tenant that was authenticated is handed over with the request and not asked for.
-/

namespace Kaleidoscope.Storage

open Aegis Aperture Otlp
open Sieve (TenantScoped)

/-- The encodings of the three stores. -/
structure Encodings where
  lumenWal : LineSerde Lumen.WalRecord
  lumenSnap : FileSerde Lumen.Snapshot
  rayWal : LineSerde Ray.WalRecord
  raySnap : FileSerde Ray.Snapshot
  pulseOrder : HashMap.IterOrder Pulse.Key Pulse.SeriesEntry
  pulseWal : LineSerde Pulse.WalRecord
  pulseSnap : FileSerde Pulse.Snapshot

/-- Every log record serialises. -/
structure Encodings.Serialise (encodings : Encodings) : Prop where
  lumen : ∀ r, ∃ t, encodings.lumenWal.toString r = .ok t
  ray : ∀ r, ∃ t, encodings.rayWal.toString r = .ok t
  pulse : ∀ r, ∃ t, encodings.pulseWal.toString r = .ok t

/-- `StorageSinkConfig`. -/
structure StorageSinkConfig where
  defaultTenant : Option String

/-- `StorageSink`. -/
structure StorageSink where
  config : StorageSinkConfig
  logStore : Option (Store Lumen.PerTenant)
  traceStore : Option (Store Ray.Indices)
  metricStore : Option (Store Pulse.Inner)

namespace StorageSink

variable (doubles : Doubles) (encodings : Encodings)

/-- The refusal of a request without a tenant. -/
def noTenant : SinkError :=
  .internal ("no tenant: record carries no tenant.id resource attribute and no " ++
    "default_tenant is configured; refusing per ADR-0041 Decision 2")

/-- The tenant that a request names, else the default. -/
def resolve (sink : StorageSink) (explicit : Option String) : Except SinkError TenantId :=
  match explicit, sink.config.defaultTenant with
  | some explicit, _ => .ok ⟨explicit⟩
  | none, some defaultTenant => .ok ⟨defaultTenant⟩
  | none, none => .error noTenant

/-- `resolve_tenant`. -/
def resolveTenant (sink : StorageSink) (request : LogsRequest) : Except SinkError TenantId :=
  sink.resolve (resolveTenantId doubles request)

/-- `resolve_trace_tenant`. -/
def resolveTraceTenant (sink : StorageSink) (request : TracesRequest) :
    Except SinkError TenantId :=
  sink.resolve (resolveTraceTenantId doubles request)

/-- `resolve_metric_tenant`. -/
def resolveMetricTenant (sink : StorageSink) (request : MetricsRequest) :
    Except SinkError TenantId :=
  sink.resolve (resolveMetricTenantId doubles request)

/-- `LogStoreError::to_string`. -/
def logStoreError : Lumen.LogStoreError → String
  | .persistenceFailed reason => "persistence failed: " ++ reason

/-- `TraceStoreError::to_string`. -/
def traceStoreError : Ray.TraceStoreError → String
  | .persistenceFailed reason => "persistence failed: " ++ reason

/-- `MetricStoreError::to_string`. -/
def metricStoreError : Pulse.MetricStoreError → String
  | .persistenceFailed reason => "persistence failed: " ++ reason

/-- What a store answered, as the answer of the sink. -/
def answer {R E : Type} (failed : String) (display : E → String) :
    Except E R → Except SinkError Unit
  | .ok _ => .ok ()
  | .error e => .error (.internal (failed ++ display e))

/-- `accept_logs`. -/
def acceptLogs (sink : StorageSink) (request : LogsRequest) (fault : Fault) :
    Except SinkError Unit × StorageSink :=
  match sink.logStore with
  | none => (.error (.internal "no log store wired into this StorageSink"), sink)
  | some store =>
    match sink.resolveTenant doubles request with
    | .error err => (.error err, sink)
    | .ok tenant =>
      match translateLogs doubles request with
      | .error e => (.error (.internal ("log translation refused: " ++ e.toString)), sink)
      | .ok records =>
        let (result, store) :=
          Lumen.ingest encodings.lumenWal encodings.lumenSnap store tenant ⟨records⟩ fault
        (answer "lumen ingest failed: " logStoreError result, { sink with logStore := some store })

/-- `accept_traces`. -/
def acceptTraces (sink : StorageSink) (request : TracesRequest) (fault : Fault) :
    Except SinkError Unit × StorageSink :=
  match sink.traceStore with
  | none => (.error (.internal "no trace store wired into this StorageSink"), sink)
  | some store =>
    match sink.resolveTraceTenant doubles request with
    | .error err => (.error err, sink)
    | .ok tenant =>
      match translateTraces doubles request with
      | .error e => (.error (.internal ("trace translation refused: " ++ e.toString)), sink)
      | .ok spans =>
        let (result, store) :=
          Ray.ingest encodings.rayWal encodings.raySnap store tenant ⟨spans⟩ fault
        (answer "ray ingest failed: " traceStoreError result,
          { sink with traceStore := some store })

/-- `accept_metrics`. -/
def acceptMetrics (sink : StorageSink) (request : MetricsRequest) (fault : Fault) :
    Except SinkError Unit × StorageSink :=
  match sink.metricStore with
  | none => (.error (.internal "no metric store wired into this StorageSink"), sink)
  | some store =>
    match sink.resolveMetricTenant doubles request with
    | .error err => (.error err, sink)
    | .ok tenant =>
      let metrics := translateMetrics doubles request
      let (result, store) := Pulse.ingest encodings.pulseOrder encodings.pulseWal
        encodings.pulseSnap store tenant ⟨metrics⟩ fault
      (answer "pulse ingest failed: " metricStoreError result,
        { sink with metricStore := some store })

/-- `accept`. -/
def accept (sink : StorageSink) (record : SinkRecord OtlpResource) (fault : Fault) :
    Except SinkError Unit × StorageSink :=
  match record with
  | .logs tagged => sink.acceptLogs doubles encodings tagged.inner fault
  | .traces tagged => sink.acceptTraces doubles encodings tagged.inner fault
  | .metrics tagged => sink.acceptMetrics doubles encodings tagged.inner fault

end StorageSink

/-- The tenant that a record was authenticated for. -/
def authenticated : SinkRecord OtlpResource → TenantId
  | .logs tagged => tagged.tenant
  | .traces tagged => tagged.tenant
  | .metrics tagged => tagged.tenant

/-- What every store of a sink keeps from one ingest to the next. -/
structure StorageSink.Kept (sink : StorageSink) : Prop where
  logs : ∀ store ∈ sink.logStore, ∀ tenant,
    Lumen.sortBucket (HashMap.bucket store.state tenant) = HashMap.bucket store.state tenant
  traces : ∀ store ∈ sink.traceStore, store.state.Sorted
  metrics : ∀ store ∈ sink.metricStore, Pulse.Keyed store.state.series

/-- Two sinks answer every query of a tenant alike; `u64::MAX` is the latest end of a range. -/
structure StorageSink.SameFor (tenant : TenantId) (sink sink' : StorageSink) : Prop where
  logs : ∀ store ∈ sink.logStore, ∀ store' ∈ sink'.logStore, ∀ range : Lumen.TimeRange,
    range.endUnixNano ≤ Pulse.u64Max →
      Lumen.query store' tenant range = Lumen.query store tenant range ∧
        ∀ predicate, Lumen.queryWith store' tenant range predicate =
          Lumen.queryWith store tenant range predicate
  traces : ∀ store ∈ sink.traceStore, ∀ store' ∈ sink'.traceStore,
    (∀ traceId, Ray.getTrace store' tenant traceId = Ray.getTrace store tenant traceId) ∧
      ∀ service range,
        Ray.query store' tenant service range = Ray.query store tenant service range ∧
        ∀ predicate, Ray.queryWith store' tenant service range predicate =
          Ray.queryWith store tenant service range predicate
  metrics : ∀ store ∈ sink.metricStore, ∀ store' ∈ sink'.metricStore,
    Pulse.SameRows tenant store.state store'.state

end Kaleidoscope.Storage
