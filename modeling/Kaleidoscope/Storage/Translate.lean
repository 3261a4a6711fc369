import Kaleidoscope.Aperture.Ingest
import Kaleidoscope.Library.Hex
import Kaleidoscope.Lumen.Record
import Kaleidoscope.Pulse.Metric
import Kaleidoscope.Ray.Span

/-!
# From requests to records

A request is translated as a whole before anything is stored: an identifier of a wrong length
refuses it. Metrics are never refused; what the store has no type for is skipped.
-/

namespace Kaleidoscope.Storage

open Aperture Otlp Utf8
open Pulse (F64)

mutual

/-- `AnyValue`; `unset` has no value. -/
inductive AnyValue where
  | unset
  | string (s : String)
  | bool (b : Bool)
  | int (i : Int)
  | double (d : F64)
  | bytes (bytes : Bytes)
  | array (values : List AnyValue)
  | kvlist (values : List KeyValue)

/-- `KeyValue`. -/
inductive KeyValue where
  | mk (key : String) (value : Option AnyValue)

end

/-- The key of an attribute. -/
def KeyValue.key : KeyValue → String
  | .mk key _ => key

/-- The value of an attribute. -/
def KeyValue.value : KeyValue → Option AnyValue
  | .mk _ value => value

/-- `Resource`. -/
structure Resource where
  attributes : List KeyValue

/-- `logs::v1::LogRecord`. -/
structure ProtoLogRecord where
  timeUnixNano : Nat
  observedTimeUnixNano : Nat
  severityNumber : Int
  severityText : String
  body : Option AnyValue
  attributes : List KeyValue
  traceId : Bytes
  spanId : Bytes

/-- `ScopeLogs`. -/
structure ScopeLogs where
  logRecords : List ProtoLogRecord

/-- `ResourceLogs`. -/
structure ResourceLogs where
  resource : Option Resource
  scopeLogs : List ScopeLogs

/-- `span::Event`. -/
structure ProtoEvent where
  timeUnixNano : Nat
  name : String
  attributes : List KeyValue

/-- `span::Link`. -/
structure ProtoLink where
  traceId : Bytes
  spanId : Bytes
  attributes : List KeyValue

/-- `trace::v1::Status`. -/
structure ProtoStatus where
  message : String
  code : Int

/-- `trace::v1::Span`. -/
structure ProtoSpan where
  traceId : Bytes
  spanId : Bytes
  parentSpanId : Bytes
  name : String
  kind : Int
  startTimeUnixNano : Nat
  endTimeUnixNano : Nat
  attributes : List KeyValue
  events : List ProtoEvent
  links : List ProtoLink
  status : Option ProtoStatus

/-- `ScopeSpans`. -/
structure ScopeSpans where
  spans : List ProtoSpan

/-- `ResourceSpans`. -/
structure ResourceSpans where
  resource : Option Resource
  scopeSpans : List ScopeSpans

/-- `number_data_point::Value`. -/
inductive NumberValue where
  | asDouble (d : F64)
  | asInt (i : Int)

/-- `NumberDataPoint`. -/
structure NumberDataPoint where
  attributes : List KeyValue
  startTimeUnixNano : Nat
  timeUnixNano : Nat
  value : Option NumberValue

/-- `metric::Data`. -/
inductive Data where
  | gauge (dataPoints : List NumberDataPoint)
  | sum (dataPoints : List NumberDataPoint)
  | histogram
  | exponentialHistogram
  | summary

/-- `metrics::v1::Metric`. -/
structure ProtoMetric where
  name : String
  description : String
  unit : String
  data : Option Data

/-- `ScopeMetrics`. -/
structure ScopeMetrics where
  metrics : List ProtoMetric

/-- `ResourceMetrics`. -/
structure ResourceMetrics where
  resource : Option Resource
  scopeMetrics : List ScopeMetrics

/-- The resources of the requests of each signal. -/
def OtlpResource : SignalType → Type
  | .logs => ResourceLogs
  | .traces => ResourceSpans
  | .metrics => ResourceMetrics

/-- `ExportLogsServiceRequest`. -/
abbrev LogsRequest := ExportServiceRequest OtlpResource .logs

/-- `ExportTraceServiceRequest`. -/
abbrev TracesRequest := ExportServiceRequest OtlpResource .traces

/-- `ExportMetricsServiceRequest`. -/
abbrev MetricsRequest := ExportServiceRequest OtlpResource .metrics

/-- `request.resource_logs`. -/
def resourceLogs (request : LogsRequest) : List ResourceLogs := request.resources

/-- `request.resource_spans`. -/
def resourceSpans (request : TracesRequest) : List ResourceSpans := request.resources

/-- `request.resource_metrics`. -/
def resourceMetrics (request : MetricsRequest) : List ResourceMetrics := request.resources

/-- `TENANT_ID_ATTRIBUTE`. -/
def TENANT_ID_ATTRIBUTE : String := "tenant.id"

/-- `TranslationError`. -/
inductive TranslationError where
  | malformedByteId (field : String) (expected actual : Nat)
  deriving DecidableEq, Repr

/-- `TranslationError::to_string`. -/
def TranslationError.toString : TranslationError → String
  | .malformedByteId field expected actual =>
    s!"malformed {field}: expected {expected} bytes, got {actual}"

/-- Doubles, as far as the translation computes with them. -/
structure Doubles where
  /-- `f64::to_string`. -/
  display : F64 → String
  /-- `as f64` of an `i64`. -/
  ofInt : Int → F64

section Values

variable (doubles : Doubles)

mutual

/-- `any_value_to_string`, of a value that is there. -/
def valueToString : AnyValue → String
  | .unset => ""
  | .string s => s
  | .bool b => if b then "true" else "false"
  | .int i => ToString.toString i
  | .double d => doubles.display d
  | .bytes bytes => Hex.lower bytes
  | .array values => "[" ++ ",".intercalate (renderValues values) ++ "]"
  | .kvlist values => "\x7b" ++ ",".intercalate (renderEntries values) ++ "\x7d"

/-- The values of `render_array`. -/
def renderValues : List AnyValue → List String
  | [] => []
  | value :: values => valueToString value :: renderValues values

/-- The entries of `render_kvlist`. -/
def renderEntries : List KeyValue → List String
  | [] => []
  | .mk key value :: values => (key ++ "=" ++ anyValueToString value) :: renderEntries values

/-- `any_value_to_string`. -/
def anyValueToString : Option AnyValue → String
  | none => ""
  | some value => valueToString value

end

/-- `fold_attributes`: of the attributes with one key the last is kept. -/
def foldAttributes (attributes : List KeyValue) : BTreeMap String :=
  attributes.foldl (fun folded kv => folded.insert kv.key (anyValueToString doubles kv.value))
    .empty

/-- `fold_resource_attributes`, of the resources of any signal. -/
def foldResourceAttributes : Option Resource → BTreeMap String
  | some resource => foldAttributes doubles resource.attributes
  | none => .empty

/-- The tenant that the first of the resources names. -/
def resolveFrom (resources : List (Option Resource)) : Option String :=
  resources.head?.bind fun first => first.bind fun resource =>
    (resource.attributes.find? fun kv => kv.key = TENANT_ID_ATTRIBUTE).map
      fun kv => anyValueToString doubles kv.value

/-- `resolve_tenant_id`. -/
def resolveTenantId (request : LogsRequest) : Option String :=
  resolveFrom doubles ((resourceLogs request).map ResourceLogs.resource)

/-- `resolve_trace_tenant_id`. -/
def resolveTraceTenantId (request : TracesRequest) : Option String :=
  resolveFrom doubles ((resourceSpans request).map ResourceSpans.resource)

/-- `resolve_metric_tenant_id`. -/
def resolveMetricTenantId (request : MetricsRequest) : Option String :=
  resolveFrom doubles ((resourceMetrics request).map ResourceMetrics.resource)

/-- `byte_id`. -/
def byteId (n : Nat) (bytes : Bytes) (field : String) :
    Except TranslationError (Option (Vector UInt8 n)) :=
  if bytes.isEmpty then .ok none
  else if h : bytes.length = n then .ok (some ⟨bytes.toArray, by simpa using h⟩)
  else .error (.malformedByteId field n bytes.length)

/-- `byte_id_16`. -/
def byteId16 := byteId 16

/-- `byte_id_8`. -/
def byteId8 := byteId 8

/-- An identifier that must be there. -/
def requireId (n : Nat) (bytes : Bytes) (field : String) :
    Except TranslationError (Vector UInt8 n) :=
  (byteId n bytes field).bind fun
    | some array => .ok array
    | none => .error (.malformedByteId field n 0)

/-- `require_trace_id`. -/
def requireTraceId (bytes : Bytes) (field : String) : Except TranslationError Ray.TraceId :=
  (requireId 16 bytes field).map Ray.TraceId.mk

/-- `require_span_id`. -/
def requireSpanId (bytes : Bytes) (field : String) : Except TranslationError Ray.SpanId :=
  (requireId 8 bytes field).map Ray.SpanId.mk

/-- `span_kind_from_i32`. -/
def spanKindFromI32 : Int → Ray.SpanKind
  | 1 => .internal
  | 2 => .server
  | 3 => .client
  | 4 => .producer
  | 5 => .consumer
  | _ => .unspecified

/-- `status_code_from_i32`. -/
def statusCodeFromI32 : Int → Ray.StatusCode
  | 1 => .ok
  | 2 => .error
  | _ => .unset

/-- `span_status`. -/
def spanStatus : Option ProtoStatus → Ray.SpanStatus
  | none => ⟨.unset, ""⟩
  | some status => ⟨statusCodeFromI32 status.code, status.message⟩

/-- `translate_events`. -/
def translateEvents (events : List ProtoEvent) : List Ray.SpanEvent :=
  events.map fun event => ⟨event.timeUnixNano, event.name, foldAttributes doubles event.attributes⟩

/-- `translate_links`. -/
def translateLinks (links : List ProtoLink) : Except TranslationError (List Ray.SpanLink) :=
  links.mapM fun link => do
    let traceId ← requireTraceId link.traceId "link.trace_id"
    let spanId ← requireSpanId link.spanId "link.span_id"
    return ⟨traceId, spanId, foldAttributes doubles link.attributes⟩

/-- `translate_span`. -/
def translateSpan (proto : ProtoSpan) (resourceAttributes : BTreeMap String) :
    Except TranslationError Ray.Span := do
  let traceId ← requireTraceId proto.traceId "trace_id"
  let spanId ← requireSpanId proto.spanId "span_id"
  let parentSpanId ← byteId8 proto.parentSpanId "parent_span_id"
  let links ← translateLinks doubles proto.links
  return {
    traceId
    spanId
    parentSpanId := parentSpanId.map Ray.SpanId.mk
    name := proto.name
    kind := spanKindFromI32 proto.kind
    startTimeUnixNano := proto.startTimeUnixNano
    endTimeUnixNano := proto.endTimeUnixNano
    status := spanStatus proto.status
    attributes := foldAttributes doubles proto.attributes
    resourceAttributes
    events := translateEvents doubles proto.events
    links }

/-- `translate_traces`. -/
def translateTraces (request : TracesRequest) : Except TranslationError (List Ray.Span) :=
  let protos := (resourceSpans request).flatMap fun resourceSpans =>
    let resourceAttributes := foldResourceAttributes doubles resourceSpans.resource
    (resourceSpans.scopeSpans.flatMap ScopeSpans.spans).map fun proto => (proto, resourceAttributes)
  protos.mapM fun (proto, resourceAttributes) => translateSpan doubles proto resourceAttributes

/-- `observed_time`. -/
def observedTime (proto : ProtoLogRecord) : Nat :=
  if proto.observedTimeUnixNano ≠ 0 then proto.observedTimeUnixNano else proto.timeUnixNano

/-- `translate_record`. -/
def translateRecord (proto : ProtoLogRecord) (resourceAttributes : BTreeMap String) :
    Except TranslationError Lumen.LogRecord := do
  let traceId ← byteId16 proto.traceId "trace_id"
  let spanId ← byteId8 proto.spanId "span_id"
  return {
    observedTimeUnixNano := observedTime proto
    severityNumber := ⟨proto.severityNumber⟩
    severityText := proto.severityText
    body := anyValueToString doubles proto.body
    attributes := foldAttributes doubles proto.attributes
    resourceAttributes
    traceId
    spanId }

/-- `translate_logs`. -/
def translateLogs (request : LogsRequest) : Except TranslationError (List Lumen.LogRecord) :=
  let protos := (resourceLogs request).flatMap fun resourceLogs =>
    let resourceAttributes := foldResourceAttributes doubles resourceLogs.resource
    (resourceLogs.scopeLogs.flatMap ScopeLogs.logRecords).map
      fun proto => (proto, resourceAttributes)
  protos.mapM fun (proto, resourceAttributes) => translateRecord doubles proto resourceAttributes

/-- `number_point_value`. -/
def numberPointValue (proto : NumberDataPoint) : Option F64 :=
  proto.value.map fun
    | .asDouble d => d
    | .asInt i => doubles.ofInt i

/-- `translate_number_points`. -/
def translateNumberPoints (dataPoints : List NumberDataPoint) : List Pulse.MetricPoint :=
  dataPoints.filterMap fun proto => (numberPointValue doubles proto).map fun value =>
    { timeUnixNano := proto.timeUnixNano
      startTimeUnixNano := proto.startTimeUnixNano
      attributes := foldAttributes doubles proto.attributes
      value }

/-- `translate_metric`. -/
def translateMetric (proto : ProtoMetric) (resourceAttributes : BTreeMap String) :
    Option Pulse.Metric :=
  let translated (kind : Pulse.MetricKind) (dataPoints : List NumberDataPoint) : Pulse.Metric :=
    { name := ⟨proto.name⟩
      description := proto.description
      unit := proto.unit
      kind
      points := translateNumberPoints doubles dataPoints
      resourceAttributes }
  match proto.data with
  | some (.gauge dataPoints) => some (translated .gauge dataPoints)
  | some (.sum dataPoints) => some (translated .sum dataPoints)
  | _ => none

/-- `translate_metrics`. -/
def translateMetrics (request : MetricsRequest) : List Pulse.Metric :=
  (resourceMetrics request).flatMap fun resourceMetrics =>
    let resourceAttributes := foldResourceAttributes doubles resourceMetrics.resource
    (resourceMetrics.scopeMetrics.flatMap ScopeMetrics.metrics).filterMap
      fun proto => translateMetric doubles proto resourceAttributes

end Values

end Kaleidoscope.Storage
