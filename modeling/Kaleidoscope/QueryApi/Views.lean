import Kaleidoscope.Library.Hex
import Kaleidoscope.Library.Json
import Kaleidoscope.Lumen.Record
import Kaleidoscope.Ray.Span

/-!
# Records and spans in responses

serde writes a struct as an object with a member for every field, a missing value as `null` and a
unit variant as its name.
-/

namespace Kaleidoscope.QueryApi

/-- A response body; every number in one is an integer. -/
abbrev Document := Json Int

/-- A text that may be missing. -/
def optionalText (text : Option String) : Document := text.elim .null .string

/-- A map of texts. -/
def textMap (map : BTreeMap String) : Document :=
  .object (map.entries.map fun e => (e.1, .string e.2))

/-- The body of the loop in `to_lowercase_hex`. -/
def pushByte (hex : String) (byte : UInt8) : String :=
  (hex.push (Hex.fromDigit (byte >>> 4).toNat)).push (Hex.fromDigit (byte &&& 0x0f).toNat)

/-- `to_lowercase_hex`. -/
def toLowercaseHex (bytes : List UInt8) : String := bytes.foldl pushByte ""

/-- `parse_trace_id` of the log query service: both failures have one reason. -/
def parseTraceId (raw : String) : Except String (Vector UInt8 16) :=
  let reason := "invalid trace_id: expected a 32-character hex string"
  Hex.decode 16 reason (fun _ => reason) raw

/-- `LogView`. -/
structure LogView where
  observedTimeUnixNano : Nat
  severityNumber : Lumen.SeverityNumber
  severityText : String
  body : String
  attributes : BTreeMap String
  resourceAttributes : BTreeMap String
  traceId : Option String
  spanId : Option String

/-- `LogView::from`. -/
def LogView.ofRecord (record : Lumen.LogRecord) : LogView where
  observedTimeUnixNano := record.observedTimeUnixNano
  severityNumber := record.severityNumber
  severityText := record.severityText
  body := record.body
  attributes := record.attributes
  resourceAttributes := record.resourceAttributes
  traceId := record.traceId.map fun bytes => toLowercaseHex bytes.toList
  spanId := record.spanId.map fun bytes => toLowercaseHex bytes.toList

/-- A view as it is serialised. -/
def LogView.serialize (view : LogView) : Document :=
  .object
    [("observed_time_unix_nano", .number view.observedTimeUnixNano),
      ("severity_number", .number view.severityNumber.number),
      ("severity_text", .string view.severityText),
      ("body", .string view.body),
      ("attributes", textMap view.attributes),
      ("resource_attributes", textMap view.resourceAttributes),
      ("trace_id", optionalText view.traceId),
      ("span_id", optionalText view.spanId)]

/-- `success_response` of the log query service. -/
def logResponse (records : List Lumen.LogRecord) : Document :=
  .array (records.map fun record => (LogView.ofRecord record).serialize)

/-- The name of a kind. -/
def kindName : Ray.SpanKind → String
  | .unspecified => "Unspecified"
  | .internal => "Internal"
  | .server => "Server"
  | .client => "Client"
  | .producer => "Producer"
  | .consumer => "Consumer"

/-- The name of a status code. -/
def codeName : Ray.StatusCode → String
  | .unset => "Unset"
  | .ok => "Ok"
  | .error => "Error"

/-- A trace id as it is serialised. -/
def serializeTraceId (id : Ray.TraceId) : String := toLowercaseHex id.bytes.toList

/-- A span id as it is serialised. -/
def serializeSpanId (id : Ray.SpanId) : String := toLowercaseHex id.bytes.toList

/-- A status as it is serialised. -/
def serializeStatus (status : Ray.SpanStatus) : Document :=
  .object [("code", .string (codeName status.code)), ("message", .string status.message)]

/-- An event as it is serialised. -/
def serializeEvent (event : Ray.SpanEvent) : Document :=
  .object
    [("time_unix_nano", .number event.timeUnixNano), ("name", .string event.name),
      ("attributes", textMap event.attributes)]

/-- A link as it is serialised. -/
def serializeLink (link : Ray.SpanLink) : Document :=
  .object
    [("trace_id", .string (serializeTraceId link.traceId)),
      ("span_id", .string (serializeSpanId link.spanId)),
      ("attributes", textMap link.attributes)]

/-- A span as it is serialised. -/
def serializeSpan (span : Ray.Span) : Document :=
  .object
    [("trace_id", .string (serializeTraceId span.traceId)),
      ("span_id", .string (serializeSpanId span.spanId)),
      ("parent_span_id", optionalText (span.parentSpanId.map serializeSpanId)),
      ("name", .string span.name),
      ("kind", .string (kindName span.kind)),
      ("start_time_unix_nano", .number span.startTimeUnixNano),
      ("end_time_unix_nano", .number span.endTimeUnixNano),
      ("status", serializeStatus span.status),
      ("attributes", textMap span.attributes),
      ("resource_attributes", textMap span.resourceAttributes),
      ("events", .array (span.events.map serializeEvent)),
      ("links", .array (span.links.map serializeLink))]

/-- `success_response` of the trace query service. -/
def spanResponse (spans : List Ray.Span) : Document := .array (spans.map serializeSpan)

private theorem pushByte_eq (hex : String) (byte : UInt8) :
    pushByte hex byte = String.ofList (hex.toList ++ Hex.digits byte) := by
  have hhi : (byte >>> 4).toNat = byte.toNat / 16 := by
    simp [UInt8.toNat_shiftRight, Nat.shiftRight_eq_div_pow]
  have hlo : (byte &&& 0x0f).toNat = byte.toNat % 16 := by
    simpa using Nat.and_two_pow_sub_one_eq_mod byte.toNat 4
  rw [pushByte, hhi, hlo]
  exact String.toList_injective (by simp [Hex.digits])

/-- The loop writes the digits of one byte after the other. -/
theorem toLowercaseHex_eq (bytes : List UInt8) : toLowercaseHex bytes = Hex.lower bytes := by
  have hall : ∀ hex : String,
      bytes.foldl pushByte hex = String.ofList (hex.toList ++ bytes.flatMap Hex.digits) := by
    induction bytes with
    | nil => simp
    | cons byte bytes ih =>
      intro hex
      rw [List.foldl_cons, ih, pushByte_eq]
      simp
  simpa [toLowercaseHex, Hex.lower] using hall ""

/-- The text of a trace id has 32 lowercase digits. -/
theorem length_traceId (bytes : Vector UInt8 16) : (toLowercaseHex bytes.toList).length = 32 := by
  rw [← String.length_toList, toLowercaseHex_eq, Hex.length_lower, Vector.length_toList]

/-- A trace id is read back from its text. -/
theorem parseTraceId_toLowercaseHex (bytes : Vector UInt8 16) :
    parseTraceId (toLowercaseHex bytes.toList) = .ok bytes := by
  rw [toLowercaseHex_eq, parseTraceId]
  exact Hex.decode_lower _ _ bytes

/-- Different trace ids have different texts. -/
theorem toLowercaseHex_injective {a b : Vector UInt8 16}
    (h : toLowercaseHex a.toList = toLowercaseHex b.toList) : a = b := by
  have ha := parseTraceId_toLowercaseHex a
  rw [h, parseTraceId_toLowercaseHex] at ha
  exact (Except.ok.inj ha).symm

end Kaleidoscope.QueryApi
