import Kaleidoscope.Otlp.V1
import Kaleidoscope.Sieve.Decorator

/-!
# The two transports of the gateway

A body that is posted is validated as it was sent. A message of an export call has been decoded
before the service sees it, and what the service validates is that request encoded again.
-/

namespace Kaleidoscope.Aperture

open Aegis Otlp Protobuf Utf8
open Sieve (TenantScoped)

/-- `Transport`. -/
inductive Transport where
  | grpc
  | httpProtobuf
  deriving DecidableEq

/-- `framing_for_transport`. -/
def framingForTransport : Transport → Framing
  | .grpc => .grpcProtobuf
  | .httpProtobuf => .httpProtobuf

/-- `SinkError`. -/
inductive SinkError where
  | downstreamUnavailable (reason : String)
  | downstreamTimeout (elapsedMs : Nat)
  | internal (message : String)
  deriving DecidableEq

/-- `ExportLogsServiceRequest`, `ExportTraceServiceRequest`, `ExportMetricsServiceRequest`. -/
structure ExportServiceRequest (Resource : SignalType → Type) (signal : SignalType) where
  resources : List (Resource signal)

/-- `SinkRecord`. -/
inductive SinkRecord (Resource : SignalType → Type) where
  | logs (tagged : TenantScoped (ExportServiceRequest Resource .logs))
  | traces (tagged : TenantScoped (ExportServiceRequest Resource .traces))
  | metrics (tagged : TenantScoped (ExportServiceRequest Resource .metrics))

/-- `IngestOutcome`. -/
inductive IngestOutcome where
  | accepted
  | rejected (violation : OtlpViolation)
  | sinkRefused (err : SinkError)
  | bodyTooLarge

/-- `active_cap`. -/
def activeCap : Option UInt32 → Option UInt32
  | some limit => if 0 < limit then some limit else none
  | none => none

/-- `DEFAULT_HTTP_BODY_LIMIT_BYTES`. -/
def DEFAULT_HTTP_BODY_LIMIT_BYTES : Nat := 2 * 1024 * 1024

/-- The longest body that is read of a post. -/
def httpLimit (recvBodyCap : Option UInt32) : Nat :=
  ((activeCap recvBodyCap).map UInt32.toNat).getD DEFAULT_HTTP_BODY_LIMIT_BYTES

/-- The longest message that is decoded of a call: tonic's own limit where none is set. -/
def grpcLimit (recvBodyCap : Option UInt32) : Nat :=
  ((activeCap recvBodyCap).map UInt32.toNat).getD (4 * 1024 * 1024)

/-- Whether a body is longer than the cap. -/
def exceeds (recvBodyCap : Option UInt32) (body : Bytes) : Bool :=
  match activeCap recvBodyCap with
  | some limit => decide (limit.toNat < body.length)
  | none => false

/-- `secondary_body_size_guard`. -/
def secondaryBodySizeGuard (body : Bytes) (recvBodyCap : Option UInt32) : Option IngestOutcome :=
  if exceeds recvBodyCap body then some .bodyTooLarge else none

/-- How prost holds the resources of a signal: `read` merges the fields of a resource, and `write`
is the encoding of one. -/
structure Codec (Resource : SignalType → Type) where
  read : (signal : SignalType) → Fields → Resource signal
  write : (signal : SignalType) → Resource signal → Bytes

section

variable {Inner : Type} (descriptors : Descriptors Inner) (prost : Prost Inner)
  {Resource : SignalType → Type} (codec : Codec Resource)

/-- Prost undoes its own encoding. -/
def Codec.RoundTrips : Prop :=
  ∀ signal resource, (codec.write signal resource).length < 2 ^ 64 ∧
    (decode descriptors.schema (.resource signal) (codec.write signal resource)).map
      (codec.read signal) = some resource

/-- The request that was decoded. -/
def Codec.request (signal : SignalType) (fields : Fields) : ExportServiceRequest Resource signal :=
  ⟨(submessages RESOURCE_FIELD_NUMBER fields).map (codec.read signal)⟩

/-- `encode_to_vec`. -/
def Codec.encodeToVec {signal : SignalType} (request : ExportServiceRequest Resource signal) :
    Bytes :=
  request.resources.flatMap fun resource =>
    writeField (RESOURCE_FIELD_NUMBER, .delimited (codec.write signal resource))

/-- A sink, in the state it is in. -/
abbrev OtlpSink (Resource : SignalType → Type) := SinkRecord Resource → Except SinkError Unit

/-- The record of a signal. -/
def sinkRecord : (signal : SignalType) →
    TenantScoped (ExportServiceRequest Resource signal) → SinkRecord Resource
  | .logs => .logs
  | .traces => .traces
  | .metrics => .metrics

/-- The ingest path of a signal, with the record that the sink was handed. -/
def ingest (signal : SignalType) (body : Bytes) (transport : Transport) (tenant : TenantId)
    (recvBodyCap : Option UInt32) (sink : OtlpSink Resource) :
    IngestOutcome × Option (SinkRecord Resource) :=
  match secondaryBodySizeGuard body recvBodyCap with
  | some outcome => (outcome, none)
  | none =>
    match validate descriptors prost signal body (framingForTransport transport) with
    | .ok fields =>
      let tagged := sinkRecord signal ⟨tenant, codec.request signal fields⟩
      match sink tagged with
      | .ok () => (.accepted, some tagged)
      | .error err => (.sinkRefused err, some tagged)
    | .error violation => (.rejected violation, none)

/-- `ingest_logs`. -/
def ingestLogs := ingest descriptors prost codec .logs

/-- `ingest_traces`. -/
def ingestTraces := ingest descriptors prost codec .traces

/-- `ingest_metrics`. -/
def ingestMetrics := ingest descriptors prost codec .metrics

/-- The answer to a post. -/
inductive HttpResponse where
  | ok
  | badRequest (violation : OtlpViolation)
  | serviceUnavailable (err : SinkError)
  | payloadTooLarge
  deriving DecidableEq

/-- The answer to a call. -/
inductive GrpcResponse where
  | ok
  | invalidArgument (violation : OtlpViolation)
  | unavailable (err : SinkError)
  | resourceExhausted
  | internal (err : DecodeError)
  deriving DecidableEq

/-- The answer that a handler gives for an outcome. -/
def httpResponse : IngestOutcome → HttpResponse
  | .accepted => .ok
  | .rejected violation => .badRequest violation
  | .sinkRefused err => .serviceUnavailable err
  | .bodyTooLarge => .payloadTooLarge

/-- The answer that a service gives for an outcome. -/
def grpcResponse : IngestOutcome → GrpcResponse
  | .accepted => .ok
  | .rejected violation => .invalidArgument violation
  | .bodyTooLarge => .resourceExhausted
  | .sinkRefused err => .unavailable err

/-- The handler of a signal, once the caller is authenticated and the content type is right. -/
def handle (signal : SignalType) (recvBodyCap : Option UInt32) (sink : OtlpSink Resource)
    (tenant : TenantId) (body : Bytes) : HttpResponse × Option (SinkRecord Resource) :=
  if httpLimit recvBodyCap < body.length then (.payloadTooLarge, none)
  else
    (ingest descriptors prost codec signal body .httpProtobuf tenant recvBodyCap sink).map
      httpResponse id

/-- `handle_logs`. -/
def handleLogs := handle descriptors prost codec .logs

/-- `handle_traces`. -/
def handleTraces := handle descriptors prost codec .traces

/-- `handle_metrics`. -/
def handleMetrics := handle descriptors prost codec .metrics

/-- `export` of the service of a signal, once the caller is authenticated. -/
def exportRequest {signal : SignalType} (recvBodyCap : Option UInt32) (sink : OtlpSink Resource)
    (tenant : TenantId) (request : ExportServiceRequest Resource signal) :
    GrpcResponse × Option (SinkRecord Resource) :=
  (ingest descriptors prost codec signal (codec.encodeToVec request) .grpc tenant recvBodyCap
    sink).map grpcResponse id

/-- A call with a message: the frame is measured, tonic decodes it, the service exports it. -/
def call (signal : SignalType) (recvBodyCap : Option UInt32) (sink : OtlpSink Resource)
    (tenant : TenantId) (message : Bytes) : GrpcResponse × Option (SinkRecord Resource) :=
  if grpcLimit recvBodyCap < message.length then (.resourceExhausted, none)
  else
    match decodeMessage descriptors prost (.request signal) message with
    | .ok fields =>
      exportRequest descriptors prost codec recvBodyCap sink tenant (codec.request signal fields)
    | .error err => (.internal err, none)

end

end Kaleidoscope.Aperture
