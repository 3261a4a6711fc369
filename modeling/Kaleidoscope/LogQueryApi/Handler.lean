import Kaleidoscope.Lumen.Memory
import Kaleidoscope.QueryApi.QueryRange
import Kaleidoscope.QueryApi.Views

/-!
# Log queries

The handler parses every parameter before it asks the store. A request needs a window or a trace
id; without a window it asks for all of time.
-/

namespace Kaleidoscope.LogQueryApi

open Aegis Lumen QueryApi

/-! ## Parameters -/

/-- The parameters of a request. -/
structure LogsParams where
  start : Option String := none
  end_ : Option String := none
  minSeverity : Option String := none
  bodyContains : Option String := none
  bodyRegex : Option String := none
  limit : Option String := none
  offset : Option String := none
  traceId : Option String := none

/-- The names of severities. -/
def severityNames : List (String × SeverityNumber) :=
  [("TRACE", ⟨1⟩), ("DEBUG", ⟨5⟩), ("INFO", ⟨9⟩), ("WARN", ⟨13⟩), ("ERROR", ⟨17⟩), ("FATAL", ⟨21⟩)]

/-- `parse_min_severity`. -/
def parseMinSeverity (raw : String) : Except String SeverityNumber :=
  match severityNames.find? fun e => raw.toLower = e.1.toLower with
  | some e => .ok e.2
  | none => .error "unknown severity"

/-- `MAX_BODY_CONTAINS_LEN`, in bytes. -/
def maxBodyContainsLen : Nat := 1024

/-- `MAX_BODY_REGEX_LEN`, in bytes. -/
def maxBodyRegexLen : Nat := 1024

/-- `parse_body_contains`. -/
def parseBodyContains (raw : String) : Except String String :=
  if raw.isEmpty then .error "invalid body_contains"
  else if raw.utf8ByteSize > maxBodyContainsLen then .error "invalid body_contains"
  else .ok raw

/-- `parse_body_regex`. -/
def parseBodyRegex (compile : Compile) (raw : String) : Except String (String → Bool) :=
  if raw.isEmpty then .error "invalid body_regex"
  else if raw.utf8ByteSize > maxBodyRegexLen then .error "invalid body_regex"
  else (compile raw).elim (.error "invalid body_regex") .ok

/-- `str::parse::<usize>`: digits, after a plus sign or not. -/
def parseUsize (raw : String) : Option Nat :=
  let digits : List Char := match raw.toList with
    | '+' :: digits => digits
    | digits => digits
  let value := digits.foldl (fun n c => 10 * n + (c.toNat - '0'.toNat)) 0
  if digits ≠ [] ∧ digits.all Char.isDigit ∧ value ≤ Pulse.u64Max then some value else none

/-- `parse_limit`. -/
def parseLimit (raw : String) : Except String Nat :=
  match parseUsize raw with
  | none => .error "invalid limit"
  | some n =>
    if n = 0 then .error "invalid limit"
    else if n > maxResultRows then .error "invalid limit"
    else .ok n

/-- `parse_offset`. -/
def parseOffset (raw : String) : Except String Nat :=
  (parseUsize raw).elim (.error "invalid offset") .ok

/-- A parameter that may be missing. -/
def optionally {α : Type} (parse : String → Except String α) :
    Option String → Except String (Option α)
  | none => .ok none
  | some raw => (parse raw).map some

/-- The window of a request: both bounds or none. -/
def parseWindow (parseTimeRange : String → String → Except String EpochRange) :
    Option String → Option String → Except String (Option TimeRange)
  | some start, some end_ => do
    let tr ← parseTimeRange start end_
    if tr.endSecs - tr.startSecs > maxWindowSeconds then throw reasonWindowTooLarge
    return some ⟨secondsToNanos tr.startSecs, secondsToNanos tr.endSecs⟩
  | none, none => return none
  | _, _ => throw "a time window requires both start and end"

/-- What the parameters ask for. -/
structure LogsRequest where
  range : TimeRange
  minSeverity : Option SeverityNumber
  bodyContains : Option String
  bodyRegex : Option (String → Bool)
  limit : Option Nat
  offset : Nat
  traceId : Option (Vector UInt8 16)

/-- The part of `handle_logs` before the store is asked. -/
def parseParams (compile : Compile) (parseTimeRange : String → String → Except String EpochRange)
    (params : LogsParams) : Except String LogsRequest := do
  let window ← parseWindow parseTimeRange params.start params.end_
  if window.isNone && params.traceId.isNone then
    throw "a time window (start and end) or a trace_id is required"
  let minSeverity ← optionally parseMinSeverity params.minSeverity
  let bodyContains ← optionally parseBodyContains params.bodyContains
  if bodyContains.isSome && params.bodyRegex.isSome then
    throw "specify body_regex or body_contains, not both"
  let bodyRegex ← optionally (parseBodyRegex compile) params.bodyRegex
  let limit ← optionally parseLimit params.limit
  let offset ← optionally parseOffset params.offset
  let traceId ← optionally parseTraceId params.traceId
  return ⟨window.getD .all, minSeverity, bodyContains, bodyRegex, limit, offset.getD 0, traceId⟩

/-! ## The store -/

/-- The reads of a log store. -/
structure LogReads where
  query : TenantId → TimeRange → Except LogStoreError (List LogRecord)
  queryWith : TenantId → TimeRange → Predicate → Except LogStoreError (List LogRecord)

/-- The reads of the file-backed store. -/
def fileBackedReads (store : Store PerTenant) : LogReads where
  query tenant range := .ok (query store tenant range)
  queryWith tenant range predicate := .ok (queryWith store tenant range predicate)

/-- The reads of the store in memory. -/
def inMemoryReads (perTenant : PerTenant) : LogReads where
  query tenant range := .ok (InMemoryLogStore.query perTenant tenant range)
  queryWith tenant range predicate :=
    .ok (InMemoryLogStore.queryWith perTenant tenant range predicate)

/-- The read that a request leads to. -/
def LogReads.dispatch (reads : LogReads) (tenant : TenantId) (request : LogsRequest) :
    Except LogStoreError (List LogRecord) :=
  match request.minSeverity, request.bodyContains, request.bodyRegex with
  | none, none, none => reads.query tenant request.range
  | minSeverity, bodyContains, bodyRegex =>
    reads.queryWith tenant request.range ⟨none, minSeverity, bodyContains, bodyRegex⟩

/-- What the handler answers. -/
inductive Response where
  | success (views : List LogView)
  | error (status : Nat) (reason : String)

/-- The page of a request; the cap is on what it is taken from. -/
def LogsRequest.respond (request : LogsRequest) (records : List LogRecord) : Response :=
  let records := match request.traceId with
    | none => records
    | some id => records.filter fun record => record.traceId = some id
  if records.length > maxResultRows then .error 400 reasonTooManyRows
  else
    let rest := records.drop request.offset
    let page := match request.limit with
      | none => rest
      | some n => rest.take n
    .success (page.map LogView.ofRecord)

/-- `handle_logs`, from the resolved tenant. -/
def handleLogs (compile : Compile) (parseTimeRange : String → String → Except String EpochRange)
    (reads : LogReads) (resolved : Except Response TenantId) (params : LogsParams) : Response :=
  match resolved with
  | .error response => response
  | .ok tenant =>
    match parseParams compile parseTimeRange params with
    | .error reason => .error 400 reason
    | .ok request =>
      match reads.dispatch tenant request with
      | .error _ => .error 500 "the backing log store could not be read"
      | .ok records => request.respond records

/-- `logs_for_trace`. -/
def logsForTrace (reads : LogReads) (tenant : TenantId) (id : Vector UInt8 16) :
    Except LogStoreError (List LogView) :=
  (reads.query tenant .all).map fun records =>
    (records.filter fun record => record.traceId = some id).map LogView.ofRecord

/-- A request for a trace asks for all of time and nothing else. -/
theorem parseParams_trace (compile : Compile)
    (parseTimeRange : String → String → Except String EpochRange) (raw : String) :
    parseParams compile parseTimeRange { traceId := some raw } =
      (parseTraceId raw).map fun id => ⟨.all, none, none, none, none, 0, some id⟩ := by
  cases h : parseTraceId raw with
  | error reason =>
    simp only [parseParams, parseWindow, optionally, h]
    rfl
  | ok id =>
    simp only [parseParams, parseWindow, optionally, h]
    rfl

end Kaleidoscope.LogQueryApi
