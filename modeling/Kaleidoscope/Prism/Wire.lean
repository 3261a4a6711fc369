import Kaleidoscope.QueryApi.Views

/-!
# What Prism accepts

The narrowing functions look at a parsed response and accept it as spans or logs. Whatever the
services serialise is accepted.
-/

namespace Kaleidoscope.Prism

open QueryApi

variable {N : Type}

/-- `isStringRecord`. -/
def isStringRecord (value : Json N) : Bool := value.isObject && value.values.all Json.isString

/-- `value === text`. -/
def equalsText (text : String) : Json N → Bool
  | .string s => s = text
  | _ => false

/-- `isSpanStatus`. -/
def isSpanStatus (value : Json N) : Bool :=
  value.isObject &&
    (value.hasMember (equalsText "Unset") "code" || value.hasMember (equalsText "Ok") "code" ||
      value.hasMember (equalsText "Error") "code") &&
    value.hasMember Json.isString "message"

/-- `Array.isArray`. -/
def isArray (value : Json N) : Bool := value.elements?.isSome

/-- `isSpan`. -/
def isSpan (value : Json N) : Bool :=
  value.isObject &&
    value.hasMember Json.isString "trace_id" &&
    value.hasMember Json.isString "span_id" &&
    value.hasMember Json.isString "name" &&
    value.hasMember Json.isString "kind" &&
    value.hasMember Json.isNumber "start_time_unix_nano" &&
    value.hasMember Json.isNumber "end_time_unix_nano" &&
    value.hasMember isSpanStatus "status" &&
    value.hasMember isStringRecord "attributes" &&
    value.hasMember isStringRecord "resource_attributes" &&
    value.hasMember isArray "events" &&
    value.hasMember isArray "links"

/-- `isSpanArray`. -/
def isSpanArray (value : Json N) : Bool := value.elements?.any fun spans => spans.all isSpan

/-- `isLogView`. -/
def isLogView (value : Json N) : Bool :=
  value.isObject &&
    value.hasMember Json.isNumber "observed_time_unix_nano" &&
    value.hasMember Json.isNumber "severity_number" &&
    value.hasMember Json.isString "severity_text" &&
    value.hasMember Json.isString "body" &&
    value.hasMember isStringRecord "attributes" &&
    value.hasMember isStringRecord "resource_attributes"

/-- `isLogViewArray`. -/
def isLogViewArray (value : Json N) : Bool := value.elements?.any fun logs => logs.all isLogView

theorem isStringRecord_textMap (map : BTreeMap String) : isStringRecord (textMap map) = true := by
  simp [isStringRecord, textMap, Json.isObject, Json.values, Json.isString]

theorem isSpanStatus_serializeStatus (status : Ray.SpanStatus) :
    isSpanStatus (serializeStatus status) = true := by
  obtain ⟨code, message⟩ := status
  cases code <;> rfl

/-- Every serialised view is accepted. -/
theorem isLogView_serialize (view : LogView) : isLogView view.serialize = true := by
  simp [isLogView, LogView.serialize, Json.hasMember, Json.member?, Json.isObject, Json.isNumber,
    Json.isString, isStringRecord_textMap]

/-- Every serialised span is accepted. -/
theorem isSpan_serializeSpan (span : Ray.Span) : isSpan (serializeSpan span) = true := by
  simp [isSpan, serializeSpan, Json.hasMember, Json.member?, Json.isObject, Json.isNumber,
    Json.isString, isArray, Json.elements?, isStringRecord_textMap, isSpanStatus_serializeStatus]

/-- Every log response is accepted. -/
theorem isLogViewArray_logResponse (records : List Lumen.LogRecord) :
    isLogViewArray (logResponse records) = true := by
  simp [isLogViewArray, logResponse, Json.elements?, isLogView_serialize]

/-- Every span response is accepted. -/
theorem isSpanArray_spanResponse (spans : List Ray.Span) :
    isSpanArray (spanResponse spans) = true := by
  simp [isSpanArray, spanResponse, Json.elements?, isSpan_serializeSpan]

end Kaleidoscope.Prism
