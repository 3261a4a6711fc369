import Kaleidoscope.Library.Traverse
import Kaleidoscope.Storage.Sink

/-!
# Whole requests

A request is translated record by record in its nested order. The lengths of its identifiers alone
decide whether it is, and a request that is refused leaves the sink as it was.
-/

namespace Kaleidoscope.Storage

open Aperture Otlp Traverse Utf8

section Identifiers

variable {n : Nat} {bytes : Bytes} {field : String}

/-- An optional identifier is the bytes it was read from. -/
theorem byteId_eq_ok_iff (hpos : 0 < n) {id : Option (Vector UInt8 n)} :
    byteId n bytes field = .ok id ↔ (id.map Vector.toList).getD [] = bytes := by
  rw [byteId]
  split_ifs with hempty hlength
  · obtain rfl := List.isEmpty_iff.mp hempty
    cases id with
    | none => simp
    | some id =>
      have hne : id.toList ≠ [] := List.ne_nil_of_length_pos (by simpa using hpos)
      simp [hne]
  · have hne : bytes ≠ [] := fun h => hempty (List.isEmpty_iff.mpr h)
    cases id with
    | none => simp [hne.symm]
    | some id =>
      rw [Except.ok.injEq, Option.some.injEq, ← Vector.toList_inj, eq_comm]
      simp
  · simp only [false_iff]
    rintro rfl
    cases id with
    | none => exact hempty rfl
    | some id => exact hlength (by simp)

/-- A required identifier is the bytes it was read from. -/
theorem requireId_eq_ok_iff (hpos : 0 < n) {id : Vector UInt8 n} :
    requireId n bytes field = .ok id ↔ id.toList = bytes := by
  have hbind : requireId n bytes field = .ok id ↔ byteId n bytes field = .ok (some id) := by
    rw [requireId]
    cases byteId n bytes field with
    | error e => simp [Except.bind]
    | ok read => cases read <;> simp [Except.bind]
  rw [hbind, byteId_eq_ok_iff hpos, Option.map_some, Option.getD_some]

theorem requireTraceId_eq_ok_iff {id : Ray.TraceId} :
    requireTraceId bytes field = .ok id ↔ id.bytes.toList = bytes := by
  obtain ⟨id⟩ := id
  rw [requireTraceId, ← requireId_eq_ok_iff (by decide)]
  cases requireId 16 bytes field <;> simp [Except.map]

theorem requireSpanId_eq_ok_iff {id : Ray.SpanId} :
    requireSpanId bytes field = .ok id ↔ id.bytes.toList = bytes := by
  obtain ⟨id⟩ := id
  rw [requireSpanId, ← requireId_eq_ok_iff (by decide)]
  cases requireId 8 bytes field <;> simp [Except.map]

/-- Bytes are an optional identifier if there are none or as many as it has. -/
theorem exists_optional_iff :
    (∃ id : Option (Vector UInt8 n), (id.map Vector.toList).getD [] = bytes) ↔
      bytes.length = 0 ∨ bytes.length = n := by
  constructor
  · rintro ⟨id, rfl⟩
    cases id <;> simp
  · rintro (h | h)
    · exact ⟨none, (List.length_eq_zero_iff.mp h).symm⟩
    · exact ⟨some ⟨bytes.toArray, h⟩, rfl⟩

/-- Bytes are an identifier if there are as many as it has. -/
theorem exists_required_iff :
    (∃ id : Vector UInt8 n, id.toList = bytes) ↔ bytes.length = n := by
  constructor
  · rintro ⟨id, rfl⟩
    simp
  · exact fun h => ⟨⟨bytes.toArray, h⟩, rfl⟩

end Identifiers

section Spans

/-- The identifiers of a link have their lengths. -/
structure LinkIds (link : ProtoLink) : Prop where
  traceId : link.traceId.length = 16
  spanId : link.spanId.length = 8

/-- The identifiers of a span and of its links have their lengths. -/
structure SpanIds (proto : ProtoSpan) : Prop where
  traceId : proto.traceId.length = 16
  spanId : proto.spanId.length = 8
  parentSpanId : proto.parentSpanId.length = 0 ∨ proto.parentSpanId.length = 8
  links : ∀ link ∈ proto.links, LinkIds link

variable (doubles : Doubles)

/-- The stored link is the received one. -/
structure LinkOf (link : ProtoLink) (stored : Ray.SpanLink) : Prop where
  traceId : stored.traceId.bytes.toList = link.traceId
  spanId : stored.spanId.bytes.toList = link.spanId
  attributes : stored.attributes = foldAttributes doubles link.attributes

/-- The stored span is the received one, with the attributes of a resource. -/
structure SpanOf (resource : Option Resource) (proto : ProtoSpan) (span : Ray.Span) : Prop where
  traceId : span.traceId.bytes.toList = proto.traceId
  spanId : span.spanId.bytes.toList = proto.spanId
  parentSpanId : (span.parentSpanId.map fun id => id.bytes.toList).getD [] = proto.parentSpanId
  name : span.name = proto.name
  kind : span.kind = spanKindFromI32 proto.kind
  startTimeUnixNano : span.startTimeUnixNano = proto.startTimeUnixNano
  endTimeUnixNano : span.endTimeUnixNano = proto.endTimeUnixNano
  status : span.status = spanStatus proto.status
  attributes : span.attributes = foldAttributes doubles proto.attributes
  resourceAttributes : span.resourceAttributes = foldResourceAttributes doubles resource
  events : span.events = translateEvents doubles proto.events
  links : List.Forall₂ (LinkOf doubles) proto.links span.links

/-- The spans of a request with their resources, in the order of resources, scopes and spans. -/
def nestedSpans (request : TracesRequest) : List (Option Resource × ProtoSpan) :=
  (resourceSpans request).flatMap fun resourceSpans =>
    resourceSpans.scopeSpans.flatMap fun scopeSpans =>
      scopeSpans.spans.map fun proto => (resourceSpans.resource, proto)

theorem translateLinks_eq_ok_iff {links : List ProtoLink} {stored : List Ray.SpanLink} :
    translateLinks doubles links = .ok stored ↔ List.Forall₂ (LinkOf doubles) links stored := by
  have hlink (link : ProtoLink) (stored : Ray.SpanLink) :
      (do
        let traceId ← requireTraceId link.traceId "link.trace_id"
        let spanId ← requireSpanId link.spanId "link.span_id"
        return ⟨traceId, spanId, foldAttributes doubles link.attributes⟩ :
          Except TranslationError Ray.SpanLink) = .ok stored ↔ LinkOf doubles link stored := by
    simp only [bind_eq_ok_iff, requireTraceId_eq_ok_iff, requireSpanId_eq_ok_iff]
    constructor
    · rintro ⟨traceId, htraceId, spanId, hspanId, h⟩
      cases h
      exact ⟨htraceId, hspanId, rfl⟩
    · rintro ⟨htraceId, hspanId, hattributes⟩
      exact ⟨_, htraceId, _, hspanId, by rw [← hattributes]; rfl⟩
  simp only [translateLinks, mapM_eq_ok_iff, hlink]

theorem translateSpan_eq_ok_iff {resource : Option Resource} {proto : ProtoSpan}
    {span : Ray.Span} :
    translateSpan doubles proto (foldResourceAttributes doubles resource) = .ok span ↔
      SpanOf doubles resource proto span := by
  simp only [translateSpan, bind_eq_ok_iff, requireTraceId_eq_ok_iff, requireSpanId_eq_ok_iff,
    byteId8, byteId_eq_ok_iff (Nat.zero_lt_succ 7), translateLinks_eq_ok_iff]
  constructor
  · rintro ⟨traceId, htraceId, spanId, hspanId, parentSpanId, hparent, links, hlinks, h⟩
    cases h
    refine ⟨htraceId, hspanId, ?_, rfl, rfl, rfl, rfl, rfl, rfl, rfl, rfl, hlinks⟩
    rwa [Option.map_map]
  · intro h
    refine ⟨_, h.traceId, _, h.spanId, span.parentSpanId.map Ray.SpanId.bytes, ?_, _, h.links, ?_⟩
    · rw [Option.map_map]
      exact h.parentSpanId
    · have hparent : (span.parentSpanId.map Ray.SpanId.bytes).map Ray.SpanId.mk =
          span.parentSpanId := by
        rw [Option.map_map]
        exact Option.map_id'
      rw [hparent, ← h.name, ← h.kind, ← h.startTimeUnixNano, ← h.endTimeUnixNano, ← h.status,
        ← h.attributes, ← h.resourceAttributes, ← h.events]
      rfl

/-- A link can be stored if its identifiers have their lengths. -/
theorem exists_linkOf_iff {link : ProtoLink} :
    (∃ stored, LinkOf doubles link stored) ↔ LinkIds link := by
  constructor
  · rintro ⟨stored, h⟩
    exact ⟨exists_required_iff.mp ⟨_, h.traceId⟩, exists_required_iff.mp ⟨_, h.spanId⟩⟩
  · intro h
    obtain ⟨traceId, htraceId⟩ := exists_required_iff.mpr h.traceId
    obtain ⟨spanId, hspanId⟩ := exists_required_iff.mpr h.spanId
    exact ⟨⟨⟨traceId⟩, ⟨spanId⟩, _⟩, htraceId, hspanId, rfl⟩

/-- A span can be stored if its identifiers and those of its links have their lengths. -/
theorem exists_spanOf_iff {resource : Option Resource} {proto : ProtoSpan} :
    (∃ span, SpanOf doubles resource proto span) ↔ SpanIds proto := by
  constructor
  · rintro ⟨span, h⟩
    refine ⟨exists_required_iff.mp ⟨_, h.traceId⟩, exists_required_iff.mp ⟨_, h.spanId⟩,
      exists_optional_iff.mp ⟨span.parentSpanId.map Ray.SpanId.bytes, ?_⟩, fun link hlink => ?_⟩
    · rw [Option.map_map]
      exact h.parentSpanId
    · exact (exists_linkOf_iff doubles).mp (exists_forall₂_iff.mp ⟨_, h.links⟩ link hlink)
  · intro h
    obtain ⟨traceId, htraceId⟩ := exists_required_iff.mpr h.traceId
    obtain ⟨spanId, hspanId⟩ := exists_required_iff.mpr h.spanId
    obtain ⟨parentSpanId, hparent⟩ := exists_optional_iff.mpr h.parentSpanId
    obtain ⟨links, hlinks⟩ := exists_forall₂_iff.mpr fun link hlink =>
      (exists_linkOf_iff doubles).mpr (h.links link hlink)
    refine ⟨⟨⟨traceId⟩, ⟨spanId⟩, parentSpanId.map Ray.SpanId.mk, _, _, _, _, _, _, _, _, links⟩,
      htraceId, hspanId, ?_, rfl, rfl, rfl, rfl, rfl, rfl, rfl, rfl, hlinks⟩
    rwa [Option.map_map]

/-- The translation pushes span after span. -/
theorem translateTraces_loop (request : TracesRequest) :
    translateTraces doubles request =
      (resourceSpans request).foldlM (fun spans resourceSpans =>
        resourceSpans.scopeSpans.foldlM (fun spans scopeSpans =>
          scopeSpans.spans.foldlM (fun spans proto => do
            return spans ++ [← translateSpan doubles proto
              (foldResourceAttributes doubles resourceSpans.resource)]) spans) spans) [] := by
  have hpush := foldlM_push (m := Except TranslationError)
    (f := fun p : ProtoSpan × BTreeMap String => translateSpan doubles p.1 p.2)
    (l := (resourceSpans request).flatMap fun resourceSpans =>
      (resourceSpans.scopeSpans.flatMap ScopeSpans.spans).map fun proto =>
        (proto, foldResourceAttributes doubles resourceSpans.resource)) []
  simp only [List.nil_append, id_map'] at hpush
  rw [translateTraces, ← hpush, foldlM_flatMap]
  simp only [List.foldlM_map, foldlM_flatMap]

/-- What a request of spans is translated to. -/
theorem translateTraces_eq_ok_iff {request : TracesRequest} {spans : List Ray.Span} :
    translateTraces doubles request = .ok spans ↔
      List.Forall₂ (fun p => SpanOf doubles p.1 p.2) (nestedSpans request) spans := by
  have hprotos : ((resourceSpans request).flatMap fun resourceSpans =>
      (resourceSpans.scopeSpans.flatMap ScopeSpans.spans).map fun proto =>
        (proto, foldResourceAttributes doubles resourceSpans.resource)) =
      (nestedSpans request).map fun p => (p.2, foldResourceAttributes doubles p.1) := by
    simp only [nestedSpans, List.map_flatMap, List.map_map, Function.comp_def]
  simp only [translateTraces, hprotos, mapM_eq_ok_iff, List.forall₂_map_left_iff,
    translateSpan_eq_ok_iff]

/-- A request of spans is translated if all identifiers have their lengths. -/
theorem exists_translateTraces_iff {request : TracesRequest} :
    (∃ spans, translateTraces doubles request = .ok spans) ↔
      ∀ p ∈ nestedSpans request, SpanIds p.2 := by
  simp only [translateTraces_eq_ok_iff, exists_forall₂_iff, exists_spanOf_iff]

/-- A refused request of spans leaves the sink as it was. -/
theorem acceptTraces_of_error {encodings : Encodings} {sink : StorageSink}
    {request : TracesRequest} {fault : Fault} {e : TranslationError}
    (h : translateTraces doubles request = .error e) :
    ∃ err, sink.acceptTraces doubles encodings request fault = (.error err, sink) := by
  rw [StorageSink.acceptTraces]
  cases sink.traceStore with
  | none => exact ⟨_, rfl⟩
  | some store =>
    cases htenant : sink.resolveTraceTenant doubles request with
    | error err => exact ⟨err, rfl⟩
    | ok tenant =>
      simp only [h]
      exact ⟨_, rfl⟩

end Spans

section Logs

/-- The identifiers of a log record have their lengths. -/
structure RecordIds (proto : ProtoLogRecord) : Prop where
  traceId : proto.traceId.length = 0 ∨ proto.traceId.length = 16
  spanId : proto.spanId.length = 0 ∨ proto.spanId.length = 8

variable (doubles : Doubles)

/-- The stored record is the received one, with the attributes of a resource. -/
structure RecordOf (resource : Option Resource) (proto : ProtoLogRecord)
    (record : Lumen.LogRecord) : Prop where
  observedTimeUnixNano : record.observedTimeUnixNano = observedTime proto
  severityNumber : record.severityNumber = ⟨proto.severityNumber⟩
  severityText : record.severityText = proto.severityText
  body : record.body = anyValueToString doubles proto.body
  attributes : record.attributes = foldAttributes doubles proto.attributes
  resourceAttributes : record.resourceAttributes = foldResourceAttributes doubles resource
  traceId : (record.traceId.map Vector.toList).getD [] = proto.traceId
  spanId : (record.spanId.map Vector.toList).getD [] = proto.spanId

/-- The records of a request with their resources, in the order of resources, scopes and records. -/
def nestedRecords (request : LogsRequest) : List (Option Resource × ProtoLogRecord) :=
  (resourceLogs request).flatMap fun resourceLogs =>
    resourceLogs.scopeLogs.flatMap fun scopeLogs =>
      scopeLogs.logRecords.map fun proto => (resourceLogs.resource, proto)

theorem translateRecord_eq_ok_iff {resource : Option Resource} {proto : ProtoLogRecord}
    {record : Lumen.LogRecord} :
    translateRecord doubles proto (foldResourceAttributes doubles resource) = .ok record ↔
      RecordOf doubles resource proto record := by
  simp only [translateRecord, bind_eq_ok_iff, byteId16, byteId8,
    byteId_eq_ok_iff (Nat.zero_lt_succ 7), byteId_eq_ok_iff (Nat.zero_lt_succ 15)]
  constructor
  · rintro ⟨traceId, htraceId, spanId, hspanId, h⟩
    cases h
    exact ⟨rfl, rfl, rfl, rfl, rfl, rfl, htraceId, hspanId⟩
  · intro h
    refine ⟨_, h.traceId, _, h.spanId, ?_⟩
    rw [← h.observedTimeUnixNano, ← h.severityNumber, ← h.severityText, ← h.body, ← h.attributes,
      ← h.resourceAttributes]
    rfl

/-- A record can be stored if its identifiers have their lengths. -/
theorem exists_recordOf_iff {resource : Option Resource} {proto : ProtoLogRecord} :
    (∃ record, RecordOf doubles resource proto record) ↔ RecordIds proto := by
  constructor
  · rintro ⟨record, h⟩
    exact ⟨exists_optional_iff.mp ⟨_, h.traceId⟩, exists_optional_iff.mp ⟨_, h.spanId⟩⟩
  · intro h
    obtain ⟨traceId, htraceId⟩ := exists_optional_iff.mpr h.traceId
    obtain ⟨spanId, hspanId⟩ := exists_optional_iff.mpr h.spanId
    exact ⟨⟨_, _, _, _, _, _, traceId, spanId⟩, rfl, rfl, rfl, rfl, rfl, rfl, htraceId, hspanId⟩

/-- The translation pushes record after record. -/
theorem translateLogs_loop (request : LogsRequest) :
    translateLogs doubles request =
      (resourceLogs request).foldlM (fun records resourceLogs =>
        resourceLogs.scopeLogs.foldlM (fun records scopeLogs =>
          scopeLogs.logRecords.foldlM (fun records proto => do
            return records ++ [← translateRecord doubles proto
              (foldResourceAttributes doubles resourceLogs.resource)]) records) records) [] := by
  have hpush := foldlM_push (m := Except TranslationError)
    (f := fun p : ProtoLogRecord × BTreeMap String => translateRecord doubles p.1 p.2)
    (l := (resourceLogs request).flatMap fun resourceLogs =>
      (resourceLogs.scopeLogs.flatMap ScopeLogs.logRecords).map fun proto =>
        (proto, foldResourceAttributes doubles resourceLogs.resource)) []
  simp only [List.nil_append, id_map'] at hpush
  rw [translateLogs, ← hpush, foldlM_flatMap]
  simp only [List.foldlM_map, foldlM_flatMap]

/-- What a request of records is translated to. -/
theorem translateLogs_eq_ok_iff {request : LogsRequest} {records : List Lumen.LogRecord} :
    translateLogs doubles request = .ok records ↔
      List.Forall₂ (fun p => RecordOf doubles p.1 p.2) (nestedRecords request) records := by
  have hprotos : ((resourceLogs request).flatMap fun resourceLogs =>
      (resourceLogs.scopeLogs.flatMap ScopeLogs.logRecords).map fun proto =>
        (proto, foldResourceAttributes doubles resourceLogs.resource)) =
      (nestedRecords request).map fun p => (p.2, foldResourceAttributes doubles p.1) := by
    simp only [nestedRecords, List.map_flatMap, List.map_map, Function.comp_def]
  simp only [translateLogs, hprotos, mapM_eq_ok_iff, List.forall₂_map_left_iff,
    translateRecord_eq_ok_iff]

/-- A request of records is translated if all identifiers have their lengths. -/
theorem exists_translateLogs_iff {request : LogsRequest} :
    (∃ records, translateLogs doubles request = .ok records) ↔
      ∀ p ∈ nestedRecords request, RecordIds p.2 := by
  simp only [translateLogs_eq_ok_iff, exists_forall₂_iff, exists_recordOf_iff]

/-- A refused request of records leaves the sink as it was. -/
theorem acceptLogs_of_error {encodings : Encodings} {sink : StorageSink}
    {request : LogsRequest} {fault : Fault} {e : TranslationError}
    (h : translateLogs doubles request = .error e) :
    ∃ err, sink.acceptLogs doubles encodings request fault = (.error err, sink) := by
  rw [StorageSink.acceptLogs]
  cases sink.logStore with
  | none => exact ⟨_, rfl⟩
  | some store =>
    cases htenant : sink.resolveTenant doubles request with
    | error err => exact ⟨err, rfl⟩
    | ok tenant =>
      simp only [h]
      exact ⟨_, rfl⟩

end Logs

/-- Requests are translated whole, in their nested order, or refused without a trace. -/
theorem translation_complete (doubles : Doubles) (encodings : Encodings) :
    (∀ request : TracesRequest,
      ((∃ spans, translateTraces doubles request = .ok spans) ↔
        ∀ p ∈ nestedSpans request, SpanIds p.2) ∧
      (∀ spans, translateTraces doubles request = .ok spans ↔
        List.Forall₂ (fun p => SpanOf doubles p.1 p.2) (nestedSpans request) spans) ∧
      ∀ e, translateTraces doubles request = .error e → ∀ (sink : StorageSink) fault, ∃ err,
        sink.acceptTraces doubles encodings request fault = (.error err, sink)) ∧
    ∀ request : LogsRequest,
      ((∃ records, translateLogs doubles request = .ok records) ↔
        ∀ p ∈ nestedRecords request, RecordIds p.2) ∧
      (∀ records, translateLogs doubles request = .ok records ↔
        List.Forall₂ (fun p => RecordOf doubles p.1 p.2) (nestedRecords request) records) ∧
      ∀ e, translateLogs doubles request = .error e → ∀ (sink : StorageSink) fault, ∃ err,
        sink.acceptLogs doubles encodings request fault = (.error err, sink) :=
  ⟨fun _ => ⟨exists_translateTraces_iff doubles, fun _ => translateTraces_eq_ok_iff doubles,
      fun _ h _ _ => acceptTraces_of_error doubles h⟩,
    fun _ => ⟨exists_translateLogs_iff doubles, fun _ => translateLogs_eq_ok_iff doubles,
      fun _ h _ _ => acceptLogs_of_error doubles h⟩⟩

end Kaleidoscope.Storage
