import Kaleidoscope.LogQueryApi.Handler
import Kaleidoscope.TraceQueryApi.Filters

/-!
# Traces by their id

A trace is looked up alone or together with its logs. The combined answer is what the two lookups
answer one by one, but that it is not cut off at the row cap.
-/

namespace Kaleidoscope.TraceQueryApi

open Aegis QueryApi Ray

/-- `parse_trace_id`. -/
def parseTraceId (raw : String) : Except String TraceId :=
  (Hex.decode 16 "invalid trace_id" (fun _ => "invalid trace_id") raw).map TraceId.mk

/-- The required id of a lookup. -/
def readTraceId (traceId : Option String) : Except String TraceId :=
  match traceId with
  | none => .error "invalid trace_id"
  | some raw =>
    match parseTraceId raw with
    | .ok id => .ok id
    | .error _ => .error "invalid trace_id"

/-- The lookup of a trace in a store, which may fail. -/
abbrev GetTrace := TenantId → TraceId → Except String (List Span)

/-- `handle_traces_by_id`, from the resolved tenant. -/
def handleTracesById (getTrace : GetTrace) (resolved : Except Response TenantId)
    (traceId : Option String) : Response :=
  match resolved with
  | .error response => response
  | .ok tenant =>
    match readTraceId traceId with
    | .error reason => .error 400 reason
    | .ok id =>
      match getTrace tenant id with
      | .error _ => .error 500 "the backing trace store could not be read"
      | .ok spans =>
        if spans.length > maxResultRows then .error 400 reasonTooManyRows else .success spans

/-- `TraceWithLogs`. -/
structure TraceWithLogs where
  traceId : TraceId
  spans : List Span
  logs : List LogView

/-- What the combined lookup answers. -/
inductive CombinedResponse where
  | success (body : TraceWithLogs)
  | error (status : Nat) (reason : String)

/-- `handle_traces_with_logs`, from the resolved tenant. -/
def handleTracesWithLogs (getTrace : GetTrace) (reads : LogQueryApi.LogReads)
    (resolved : Except CombinedResponse TenantId) (traceId : Option String) : CombinedResponse :=
  match resolved with
  | .error response => response
  | .ok tenant =>
    match readTraceId traceId with
    | .error reason => .error 400 reason
    | .ok id =>
      match getTrace tenant id with
      | .error _ => .error 500 "the backing trace store could not be read"
      | .ok spans =>
        match LogQueryApi.logsForTrace reads tenant id.bytes with
        | .error _ => .error 500 "the backing log store could not be read"
        | .ok logs => .success ⟨id, spans, logs⟩

/-- A trace id that is shown is read back. -/
theorem readTraceId_serialize (id : TraceId) :
    readTraceId (some (serializeTraceId id)) = .ok id := by
  rw [serializeTraceId, toLowercaseHex_eq, readTraceId, parseTraceId, Hex.decode_lower]
  rfl

/-- The two services read ids alike, but for the text of a refusal. -/
theorem readTraceId_eq (raw : String) : readTraceId (some raw) =
    ((QueryApi.parseTraceId raw).mapError fun _ => "invalid trace_id").map TraceId.mk := by
  have hparse : parseTraceId raw =
      ((QueryApi.parseTraceId raw).mapError fun _ => "invalid trace_id").map TraceId.mk := by
    rw [QueryApi.parseTraceId, Hex.decode_mapError]
    rfl
  rw [readTraceId, hparse]
  cases QueryApi.parseTraceId raw <;> rfl

section Joins

variable (compile : Compile) (parseTimeRange : String → String → Except String EpochRange)
  (getTrace : GetTrace) (reads : LogQueryApi.LogReads) (tenant : TenantId)

/-- What a lookup of logs by a trace id alone answers. -/
def logsById (raw : String) : LogQueryApi.Response :=
  LogQueryApi.handleLogs compile parseTimeRange reads (.ok tenant) { traceId := some raw }

/-- A combined answer is what the two lookups answer, each up to the row cap; the id that it shows
leads to the same answer. -/
structure Joins (raw : String) (body : TraceWithLogs) : Prop where
  spans : handleTracesById getTrace (.ok tenant) (some raw) =
    if body.spans.length > maxResultRows then .error 400 reasonTooManyRows
    else .success body.spans
  logs : logsById compile parseTimeRange reads tenant raw =
    if body.logs.length > maxResultRows then .error 400 reasonTooManyRows
    else .success body.logs
  again : handleTracesWithLogs getTrace reads (.ok tenant)
    (some (serializeTraceId body.traceId)) = .success body

/-- The combined lookup joins the two: it succeeds with what they answer, is refused with what one
of them is refused with, and passes on every refusal but that of the row cap. -/
structure JoinsLookups (traceId : Option String) : Prop where
  success : ∀ body, handleTracesWithLogs getTrace reads (.ok tenant) traceId = .success body →
    ∃ raw, traceId = some raw ∧ Joins compile parseTimeRange getTrace reads tenant raw body
  refused : ∀ status reason,
    handleTracesWithLogs getTrace reads (.ok tenant) traceId = .error status reason →
      handleTracesById getTrace (.ok tenant) traceId = .error status reason ∨
        ∃ raw, traceId = some raw ∧
          logsById compile parseTimeRange reads tenant raw = .error status reason
  passedOn : ∀ status reason,
    handleTracesById getTrace (.ok tenant) traceId = .error status reason →
      handleTracesWithLogs getTrace reads (.ok tenant) traceId = .error status reason ∨
        reason = reasonTooManyRows

variable {compile parseTimeRange getTrace reads tenant}

theorem logsById_eq {raw : String} {id : TraceId} (hraw : readTraceId (some raw) = .ok id) :
    logsById compile parseTimeRange reads tenant raw =
      match LogQueryApi.logsForTrace reads tenant id.bytes with
      | .error _ => .error 500 "the backing log store could not be read"
      | .ok logs =>
        if logs.length > maxResultRows then .error 400 reasonTooManyRows else .success logs := by
  have hparse : QueryApi.parseTraceId raw = .ok id.bytes := by
    rw [readTraceId_eq] at hraw
    cases hlog : QueryApi.parseTraceId raw with
    | error reason =>
      rw [hlog] at hraw
      cases hraw
    | ok bytes =>
      rw [hlog] at hraw
      cases hraw
      rfl
  simp only [logsById, LogQueryApi.handleLogs, LogQueryApi.parseParams_trace, hparse, Except.map,
    LogQueryApi.LogReads.dispatch, LogQueryApi.logsForTrace]
  cases reads.query tenant .all with
  | error e => rfl
  | ok records =>
    simp only [LogQueryApi.LogsRequest.respond, List.drop_zero, List.length_map]

/-- Whatever the stores answer, the lookups are joined. -/
theorem traceWithLogs_joins (traceId : Option String) :
    JoinsLookups compile parseTimeRange getTrace reads tenant traceId := by
  cases hread : readTraceId traceId with
  | error reason =>
    have hcombined : handleTracesWithLogs getTrace reads (.ok tenant) traceId =
        .error 400 reason := by
      simp only [handleTracesWithLogs, hread]
    have hbyId : handleTracesById getTrace (.ok tenant) traceId = .error 400 reason := by
      simp only [handleTracesById, hread]
    refine ⟨fun body h => ?_, fun status reason' h => ?_, fun status reason' h => ?_⟩
    · cases hcombined.symm.trans h
    · cases hcombined.symm.trans h
      exact .inl hbyId
    · cases hbyId.symm.trans h
      exact .inl hcombined
  | ok id =>
    obtain ⟨raw, rfl⟩ : ∃ raw, traceId = some raw := by
      cases traceId with
      | none => cases hread
      | some raw => exact ⟨raw, rfl⟩
    have hagain := readTraceId_serialize id
    cases htrace : getTrace tenant id with
    | error reason =>
      have hcombined : handleTracesWithLogs getTrace reads (.ok tenant) (some raw) =
          .error 500 "the backing trace store could not be read" := by
        simp only [handleTracesWithLogs, hread, htrace]
      have hbyId : handleTracesById getTrace (.ok tenant) (some raw) =
          .error 500 "the backing trace store could not be read" := by
        simp only [handleTracesById, hread, htrace]
      refine ⟨fun body h => ?_, fun status reason' h => ?_, fun status reason' h => ?_⟩
      · cases hcombined.symm.trans h
      · cases hcombined.symm.trans h
        exact .inl hbyId
      · cases hbyId.symm.trans h
        exact .inl hcombined
    | ok spans =>
      have hbyId : handleTracesById getTrace (.ok tenant) (some raw) =
          if spans.length > maxResultRows then .error 400 reasonTooManyRows
          else .success spans := by
        simp only [handleTracesById, hread, htrace]
      have hrefused : ∀ status reason,
          handleTracesById getTrace (.ok tenant) (some raw) = .error status reason →
            reason = reasonTooManyRows := by
        intro status reason h
        rw [hbyId] at h
        split_ifs at h
        cases h
        rfl
      have hlogsById := @logsById_eq compile parseTimeRange reads tenant raw id hread
      cases hlogs : LogQueryApi.logsForTrace reads tenant id.bytes with
      | error e =>
        have hcombined : handleTracesWithLogs getTrace reads (.ok tenant) (some raw) =
            .error 500 "the backing log store could not be read" := by
          simp only [handleTracesWithLogs, hread, htrace, hlogs]
        rw [hlogs] at hlogsById
        refine ⟨fun body h => ?_, fun status reason h => ?_, fun status reason h =>
          .inr (hrefused status reason h)⟩
        · cases hcombined.symm.trans h
        · cases hcombined.symm.trans h
          exact .inr ⟨raw, rfl, hlogsById⟩
      | ok logs =>
        have hcombined : handleTracesWithLogs getTrace reads (.ok tenant) (some raw) =
            .success ⟨id, spans, logs⟩ := by
          simp only [handleTracesWithLogs, hread, htrace, hlogs]
        rw [hlogs] at hlogsById
        refine ⟨fun body h => ?_, fun status reason h => ?_, fun status reason h =>
          .inr (hrefused status reason h)⟩
        · cases hcombined.symm.trans h
          refine ⟨raw, rfl, hbyId, hlogsById, ?_⟩
          simp only [handleTracesWithLogs, hagain, htrace, hlogs]
        · cases hcombined.symm.trans h

end Joins

end Kaleidoscope.TraceQueryApi
