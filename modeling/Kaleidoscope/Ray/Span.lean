import Kaleidoscope.Library.BTreeMap

/-!
# Spans
-/

namespace Kaleidoscope.Ray

/-- W3C trace context, 128 bits. -/
structure TraceId where
  bytes : Vector UInt8 16
  deriving DecidableEq

/-- W3C span context, 64 bits. -/
structure SpanId where
  bytes : Vector UInt8 8
  deriving DecidableEq

/-- Service name, the stable key of the per-service index. -/
structure ServiceName where
  name : String
  deriving DecidableEq, Repr

/-- OTLP span kind. -/
inductive SpanKind where
  | unspecified
  | internal
  | server
  | client
  | producer
  | consumer
  deriving DecidableEq, Repr

/-- OTLP span status code. -/
inductive StatusCode where
  | unset
  | ok
  | error
  deriving DecidableEq, Repr

/-- OTLP span status. -/
structure SpanStatus where
  code : StatusCode
  message : String
  deriving DecidableEq

/-- One event recorded inside a span. -/
structure SpanEvent where
  timeUnixNano : Nat
  name : String
  attributes : BTreeMap String
  deriving DecidableEq

/-- Link to another span. -/
structure SpanLink where
  traceId : TraceId
  spanId : SpanId
  attributes : BTreeMap String
  deriving DecidableEq

/-- One OTLP span. -/
structure Span where
  traceId : TraceId
  spanId : SpanId
  /-- `none` for trace roots. -/
  parentSpanId : Option SpanId
  name : String
  kind : SpanKind
  startTimeUnixNano : Nat
  endTimeUnixNano : Nat
  status : SpanStatus
  attributes : BTreeMap String
  resourceAttributes : BTreeMap String
  events : List SpanEvent
  links : List SpanLink
  deriving DecidableEq

/-- The `service.name` resource attribute, or the empty string. -/
def Span.serviceName (span : Span) : String :=
  (span.resourceAttributes.get "service.name").getD ""

/-- A batch of spans of one tenant. -/
structure SpanBatch where
  spans : List Span

/-- The number of spans in a batch. -/
def SpanBatch.len (batch : SpanBatch) : Nat := batch.spans.length

/-- Whether a batch has no spans. -/
def SpanBatch.isEmpty (batch : SpanBatch) : Bool := batch.spans.isEmpty

/-- Half-open time range in nanoseconds since the Unix epoch. -/
structure TimeRange where
  startUnixNano : Nat
  endUnixNano : Nat

/-- Whether a time falls into the range. -/
def TimeRange.contains (range : TimeRange) (t : Nat) : Bool :=
  range.startUnixNano ≤ t && t < range.endUnixNano

end Kaleidoscope.Ray
