import Kaleidoscope.Otlp.Schema

/-!
# The validators of the conformance harness

A body is decoded as the asserted signal. When that fails, the other two signals are tried, in a
fixed order, and the first that decodes is named in the violation.
-/

namespace Kaleidoscope.Otlp

open Protobuf Utf8

/-- `Framing`, which is carried into violations only. -/
inductive Framing where
  | httpProtobuf
  | grpcProtobuf
  deriving DecidableEq

/-- `ByteOffset`. -/
inductive ByteOffset where
  | known (n : Nat)
  | unknown
  deriving DecidableEq

/-- `WireTypeRule`. -/
inductive WireTypeRule where
  | protobufDecode
  | signalMismatch (observed asserted : SignalType)
  deriving DecidableEq

/-- `Rule`. -/
inductive Rule where
  | emptyInput
  | wireType (rule : WireTypeRule)
  deriving DecidableEq

/-- `prost::DecodeError`. -/
structure DecodeError where
  description : String
  deriving DecidableEq

/-- `DecodeError::to_string`. -/
def DecodeError.toString (err : DecodeError) : String :=
  "failed to decode Protobuf message: " ++ err.description

/-- `OtlpViolation`. -/
structure OtlpViolation where
  rule : Rule
  locus : ByteOffset
  expected : String
  observed : String
  signalAsserted : SignalType
  framingAsserted : Framing
  source : Option DecodeError
  deriving DecidableEq

/-- `empty_input_violation`. -/
def emptyInputViolation (signal : SignalType) (framing : Framing) : OtlpViolation where
  rule := .emptyInput
  locus := .known 0
  expected := "non-empty OTLP body"
  observed := "0 bytes"
  signalAsserted := signal
  framingAsserted := framing
  source := none

/-- `str::contains`. -/
def containsText (text target : String) : Bool := decide (target.toList <:+: text.toList)

/-- `matches_eof_category`. -/
def matchesEofCategory (lower : String) : Bool :=
  containsText lower "buffer underflow" || containsText lower "unexpected end" ||
    containsText lower "eof"

/-- `matches_wire_type_category`. -/
def matchesWireTypeCategory (lower : String) : Bool := containsText lower "wire type"

/-- `matches_length_delimiter_category`. -/
def matchesLengthDelimiterCategory (lower : String) : Bool :=
  containsText lower "length delimiter" || containsText lower "missing length-delimited"

/-- `classify_prost_decode_error`. -/
def classifyProstDecodeError (err : DecodeError) : String :=
  let raw := err.toString
  let lower := raw.toLower
  if matchesEofCategory lower then "unexpected EOF in length-delimited field"
  else if containsText lower "invalid varint" then "invalid varint"
  else if matchesWireTypeCategory lower then "wire type error"
  else if matchesLengthDelimiterCategory lower then "missing length-delimited data"
  else raw

/-- `protobuf_decode_violation`. -/
def protobufDecodeViolation (signal : SignalType) (framing : Framing) (inputLen : Nat)
    (prostErr : DecodeError) : OtlpViolation where
  rule := .wireType .protobufDecode
  locus := .known inputLen
  expected := "valid protobuf wire bytes per opentelemetry-proto descriptor"
  observed := classifyProstDecodeError prostErr
  signalAsserted := signal
  framingAsserted := framing
  source := some prostErr

/-- `signal_mismatch_violation`. -/
def signalMismatchViolation (observed asserted : SignalType) (framing : Framing) :
    OtlpViolation where
  rule := .wireType (.signalMismatch observed asserted)
  locus := .known 0
  expected := "OTLP body matching the asserted signal"
  observed := "OTLP body matching a different signal than asserted"
  signalAsserted := asserted
  framingAsserted := framing
  source := none

/-- `RESOURCE_FIELD_NUMBER`. -/
def RESOURCE_FIELD_NUMBER : Nat := 1

/-- What prost says where it fails. -/
structure Prost (Inner : Type) where
  keyError : Bytes → DecodeError
  bodyError : MessageType Inner → Bytes → DecodeError

section Decode

variable {Inner : Type} (descriptors : Descriptors Inner) (prost : Prost Inner)

/-- `decode_key`. -/
def decodeKey (bytes : Bytes) : Except DecodeError (Nat × Nat) :=
  match readKey bytes with
  | some (number, code, _) => .ok (number, code)
  | none => .error (prost.keyError bytes)

/-- `first_tag_references_resource_field`. -/
def firstTagReferencesResourceField (bytes : Bytes) : Except DecodeError Unit :=
  (decodeKey prost bytes).bind fun (fieldNumber, _) =>
    if fieldNumber ≠ RESOURCE_FIELD_NUMBER then
      .error ⟨s!"wire type error: unknown top-level field {fieldNumber}"⟩
    else .ok ()

/-- `Message::decode`. -/
def decodeMessage (name : MessageType Inner) (bytes : Bytes) : Except DecodeError Fields :=
  match decode descriptors.schema name bytes with
  | some fields => .ok fields
  | none => .error (prost.bodyError name bytes)

/-- `decode_strict`. -/
def decodeStrict (signal : SignalType) (bytes : Bytes) : Except DecodeError Fields :=
  (firstTagReferencesResourceField prost bytes).bind fun _ =>
    decodeMessage descriptors prost (.request signal) bytes

/-- `signal_decodes_bytes`. -/
def signalDecodesBytes (signal : SignalType) (bytes : Bytes) : Bool :=
  (decodeStrict descriptors prost signal bytes).isOk

/-- `first_alternative_signal_that_decodes`. -/
def firstAlternativeSignalThatDecodes (bytes : Bytes) (asserted : SignalType) :
    Option SignalType :=
  [SignalType.logs, .traces, .metrics].find? fun candidate =>
    candidate ≠ asserted && signalDecodesBytes descriptors prost candidate bytes

/-- `reject_with_signal_mismatch_fallback`. -/
def rejectWithSignalMismatchFallback (bytes : Bytes) (framing : Framing) (asserted : SignalType)
    (prostErr : DecodeError) : OtlpViolation :=
  match firstAlternativeSignalThatDecodes descriptors prost bytes asserted with
  | some observed => signalMismatchViolation observed asserted framing
  | none => protobufDecodeViolation asserted framing bytes.length prostErr

/-- The decoder of a signal. -/
def decodeSignal (signal : SignalType) (bytes : Bytes) (framing : Framing) :
    Except OtlpViolation Fields :=
  match decodeStrict descriptors prost signal bytes with
  | .ok record => .ok record
  | .error prostErr =>
    .error (rejectWithSignalMismatchFallback descriptors prost bytes framing signal prostErr)

/-- `decode_logs`. -/
def decodeLogs (bytes : Bytes) (framing : Framing) : Except OtlpViolation Fields :=
  decodeSignal descriptors prost .logs bytes framing

/-- `decode_traces`. -/
def decodeTraces (bytes : Bytes) (framing : Framing) : Except OtlpViolation Fields :=
  decodeSignal descriptors prost .traces bytes framing

/-- `decode_metrics`. -/
def decodeMetrics (bytes : Bytes) (framing : Framing) : Except OtlpViolation Fields :=
  decodeSignal descriptors prost .metrics bytes framing

/-- `validate_logs`. -/
def validateLogs (bytes : Bytes) (framing : Framing) : Except OtlpViolation Fields :=
  if bytes.isEmpty then .error (emptyInputViolation .logs framing)
  else decodeLogs descriptors prost bytes framing

/-- `validate_traces`. -/
def validateTraces (bytes : Bytes) (framing : Framing) : Except OtlpViolation Fields :=
  if bytes.isEmpty then .error (emptyInputViolation .traces framing)
  else decodeTraces descriptors prost bytes framing

/-- `validate_metrics`. -/
def validateMetrics (bytes : Bytes) (framing : Framing) : Except OtlpViolation Fields :=
  if bytes.isEmpty then .error (emptyInputViolation .metrics framing)
  else decodeMetrics descriptors prost bytes framing

/-- The validator of a signal. -/
def validate : SignalType → Bytes → Framing → Except OtlpViolation Fields
  | .logs => validateLogs descriptors prost
  | .traces => validateTraces descriptors prost
  | .metrics => validateMetrics descriptors prost

variable {descriptors prost}

theorem validate_eq (signal : SignalType) (bytes : Bytes) (framing : Framing) :
    validate descriptors prost signal bytes framing =
      if bytes.isEmpty then .error (emptyInputViolation signal framing)
      else decodeSignal descriptors prost signal bytes framing := by
  cases signal <;> rfl

theorem validate_of_ne_nil {bytes : Bytes} (h : bytes ≠ []) (signal : SignalType)
    (framing : Framing) :
    validate descriptors prost signal bytes framing =
      decodeSignal descriptors prost signal bytes framing := by
  rw [validate_eq, if_neg (by simpa using h)]

/-- The empty body is refused by every validator. -/
theorem validate_nil (signal : SignalType) (framing : Framing) :
    validate descriptors prost signal [] framing = .error (emptyInputViolation signal framing) := by
  rw [validate_eq]
  rfl

/-- A violation names what was asserted, and it has a source exactly when it is a decode error. -/
theorem validate_error {signal : SignalType} {bytes : Bytes} {framing : Framing}
    {violation : OtlpViolation}
    (h : validate descriptors prost signal bytes framing = .error violation) :
    violation.signalAsserted = signal ∧ violation.framingAsserted = framing ∧
      (violation.source.isSome ↔ violation.rule = .wireType .protobufDecode) := by
  rw [validate_eq] at h
  split_ifs at h
  · cases h
    simp [emptyInputViolation]
  · unfold decodeSignal at h
    split at h
    · cases h
    · cases h
      unfold rejectWithSignalMismatchFallback
      split <;> simp [signalMismatchViolation, protobufDecodeViolation]

/-- The other signal that is tried first is one that decodes. -/
theorem firstAlternativeSignalThatDecodes_eq_some {bytes : Bytes} {asserted observed : SignalType}
    (h : firstAlternativeSignalThatDecodes descriptors prost bytes asserted = some observed) :
    observed ≠ asserted ∧ signalDecodesBytes descriptors prost observed bytes = true := by
  have hfound := List.find?_some h
  rwa [Bool.and_eq_true, decide_eq_true_iff] at hfound

/-- A signal is observed when it alone decodes, of the signals that are not asserted. -/
theorem firstAlternativeSignalThatDecodes_of_unique {bytes : Bytes} {asserted observed : SignalType}
    (hne : observed ≠ asserted)
    (hdecodes : signalDecodesBytes descriptors prost observed bytes = true)
    (hunique : ∀ other, other ≠ asserted → other ≠ observed →
      signalDecodesBytes descriptors prost other bytes = false) :
    firstAlternativeSignalThatDecodes descriptors prost bytes asserted = some observed := by
  cases hfirst : firstAlternativeSignalThatDecodes descriptors prost bytes asserted with
  | none =>
    have hmem : observed ∈ [SignalType.logs, .traces, .metrics] := by cases observed <;> simp
    have := List.find?_eq_none.mp hfirst observed hmem
    simp [hne, hdecodes] at this
  | some first =>
    obtain ⟨hfirstNe, hfirstDecodes⟩ := firstAlternativeSignalThatDecodes_eq_some hfirst
    by_contra hother
    have := hunique first hfirstNe fun h => hother (congrArg some h)
    rw [hfirstDecodes] at this
    cases this

end Decode

end Kaleidoscope.Otlp
