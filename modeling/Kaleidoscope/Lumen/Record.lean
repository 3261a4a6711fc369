import Kaleidoscope.Library.BTreeMap

/-!
# Log records
-/

namespace Kaleidoscope.Lumen

/-- Severity number of the OpenTelemetry logs specification. -/
structure SeverityNumber where
  number : Int
  deriving DecidableEq, Repr

/-- One OTLP log record. -/
structure LogRecord where
  /-- When the event was observed; the sort key of time-range queries. -/
  observedTimeUnixNano : Nat
  severityNumber : SeverityNumber
  severityText : String
  body : String
  attributes : BTreeMap String
  resourceAttributes : BTreeMap String
  traceId : Option (Vector UInt8 16)
  spanId : Option (Vector UInt8 8)
  deriving DecidableEq

/-- A batch of log records of one tenant. -/
structure LogBatch where
  records : List LogRecord

/-- The number of records in a batch. -/
def LogBatch.len (batch : LogBatch) : Nat := batch.records.length

/-- Whether a batch has no records. -/
def LogBatch.isEmpty (batch : LogBatch) : Bool := batch.records.isEmpty

/-- Half-open time range in nanoseconds since the Unix epoch. -/
structure TimeRange where
  startUnixNano : Nat
  endUnixNano : Nat

/-- Whether a time falls into the range. -/
def TimeRange.contains (range : TimeRange) (observedTimeUnixNano : Nat) : Bool :=
  range.startUnixNano ≤ observedTimeUnixNano && observedTimeUnixNano < range.endUnixNano

/-- `TimeRange::all`. -/
def TimeRange.all : TimeRange := ⟨0, 2 ^ 64 - 1⟩

end Kaleidoscope.Lumen
