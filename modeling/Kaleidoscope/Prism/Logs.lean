import Kaleidoscope.Prism.Wire

/-!
# Log rows

A row offers a pivot to the trace of its record. `pivotTraceId` excludes an id that is not there,
but the service writes such an id as `null`, whose length is asked for.
-/

namespace Kaleidoscope.Prism

open QueryApi

/-- What a search ends with when its response parsed. -/
inductive FindLogsOutcome (N : Type) where
  | success (logs : List (Json N))
  | empty
  | shape (message : String)

section Panel

variable {N : Type}

/-- The part of `findLogs` after the response was parsed. -/
def findLogs (json : Json N) : FindLogsOutcome N :=
  if isLogViewArray json then
    match json.elements? with
    | some [] => .empty
    | some logs => .success logs
    | none => .empty
  else .shape "response was not a log array"

/-- `value.length`: it throws for `null`, and what is neither a text nor an array has none. -/
def lengthOf : Json N → Option (Option Nat)
  | .null => none
  | .string text => some (some text.length)
  | .array values => some (some values.length)
  | _ => some none

/-- `pivotTraceId`, or `none` where it throws. -/
def pivotTraceId (log : Json N) : Option (Option (Json N)) :=
  match log.member? "trace_id" with
  | none => some none
  | some traceId => do
    let length ← lengthOf traceId
    return if length.any (0 < ·) then some traceId else none

/-- A row, with the trace id that its pivot leads to. -/
structure LogRow (N : Type) where
  severityText : Option (Json N)
  body : Option (Json N)
  traceId : Option (Json N)

/-- One row of `LogResults`. -/
def logRow (log : Json N) : Option (LogRow N) := do
  let traceId ← pivotTraceId log
  return ⟨log.member? "severity_text", log.member? "body", traceId⟩

/-- The rows of `LogResults`, or `none` where the rendering throws. -/
def logResults : FindLogsOutcome N → Option (List (LogRow N))
  | .success logs => logs.mapM logRow
  | .empty => some []
  | .shape _ => some []

end Panel

/-- A row shows a record: its pivot leads to the trace of the record and is there only if the record
is of one. -/
structure Shows (record : Lumen.LogRecord) (row : LogRow Int) : Prop where
  severityText : row.severityText = some (.string record.severityText)
  body : row.body = some (.string record.body)
  pivot : ∀ id, record.traceId = some id → ∃ text, row.traceId = some (.string text) ∧
    text.length = 32 ∧ (∀ c ∈ text.toList, c ∈ Hex.lowercase) ∧ parseTraceId text = .ok id
  noPivot : record.traceId = none → row.traceId = none

/-- A response is accepted, and every record of it is shown. -/
def Rendered (records : List Lumen.LogRecord) : Prop :=
  isLogViewArray (logResponse records) = true ∧
    ∃ rows, logResults (findLogs (logResponse records)) = some rows ∧
      List.Forall₂ Shows records rows

/-- The row of a record of a trace. -/
def pivotRow (record : Lumen.LogRecord) (id : Vector UInt8 16) : LogRow Int where
  severityText := some (.string record.severityText)
  body := some (.string record.body)
  traceId := some (.string (toLowercaseHex id.toList))

theorem shows_pivotRow {record : Lumen.LogRecord} {id : Vector UInt8 16}
    (h : record.traceId = some id) : Shows record (pivotRow record id) where
  severityText := rfl
  body := rfl
  pivot id' h' := by
    obtain rfl : id = id' := Option.some.inj (h.symm.trans h')
    refine ⟨_, rfl, length_traceId id, fun c hc => ?_, parseTraceId_toLowercaseHex id⟩
    rw [toLowercaseHex_eq] at hc
    exact Hex.mem_lower hc
  noPivot h' := by simp [h] at h'

/-- The row of a record is made only if the record is of a trace. -/
theorem logRow_serialize (record : Lumen.LogRecord) :
    logRow (LogView.ofRecord record).serialize = record.traceId.map (pivotRow record) := by
  cases h : record.traceId with
  | none =>
    simp [logRow, pivotTraceId, LogView.serialize, LogView.ofRecord, Json.member?, optionalText, h,
      lengthOf]
  | some id =>
    simp [logRow, pivotTraceId, LogView.serialize, LogView.ofRecord, Json.member?, optionalText, h,
      lengthOf, length_traceId, pivotRow]

/-- Where every element has its result, each has one. -/
theorem isSome_of_mapM {α β : Type} {f : α → Option β} {l : List α} {l' : List β}
    (h : l.mapM f = some l') : ∀ a ∈ l, (f a).isSome := by
  induction l generalizing l' with
  | nil => simp
  | cons a l ih =>
    rw [List.mapM_cons] at h
    obtain ⟨b, hb, h⟩ := Option.bind_eq_some_iff.mp h
    obtain ⟨bs, hbs, -⟩ := Option.bind_eq_some_iff.mp h
    exact List.forall_mem_cons.mpr ⟨Option.isSome_of_eq_some hb, ih hbs⟩

/-- The rows of a response are the rows of its records. -/
theorem logResults_logResponse (records : List Lumen.LogRecord) :
    logResults (findLogs (logResponse records)) =
      records.mapM fun record => record.traceId.map (pivotRow record) := by
  have hparsed : findLogs (logResponse records) = .success
      (records.map fun record => (LogView.ofRecord record).serialize) ∨ records = [] ∧
        findLogs (logResponse records) = .empty := by
    rw [findLogs, if_pos (isLogViewArray_logResponse records)]
    cases records with
    | nil => exact .inr ⟨rfl, rfl⟩
    | cons record records => exact .inl rfl
  rcases hparsed with h | ⟨rfl, h⟩
  · rw [h, logResults, List.mapM_map]
    exact congrArg (records.mapM ·) (funext logRow_serialize)
  · rw [h]
    rfl

/-- A response is rendered exactly when every record of it is of a trace. -/
theorem rendered_iff (records : List Lumen.LogRecord) :
    Rendered records ↔ ∀ record ∈ records, record.traceId.isSome := by
  rw [Rendered, logResults_logResponse]
  constructor
  · rintro ⟨-, rows, hrows, -⟩ record hrecord
    simpa using isSome_of_mapM hrows record hrecord
  · intro hall
    refine ⟨isLogViewArray_logResponse records, ?_⟩
    induction records with
    | nil => exact ⟨[], rfl, .nil⟩
    | cons record records ih =>
      obtain ⟨hrecord, hall⟩ := List.forall_mem_cons.mp hall
      obtain ⟨id, hid⟩ := Option.isSome_iff_exists.mp hrecord
      obtain ⟨rows, hrows, hshows⟩ := ih hall
      refine ⟨pivotRow record id :: rows, ?_, .cons (shows_pivotRow hid) hshows⟩
      simp [hid, hrows]

/-- A record of no trace. -/
def plainRecord : Lumen.LogRecord where
  observedTimeUnixNano := 1_700_000_000_000_000_000
  severityNumber := ⟨9⟩
  severityText := "INFO"
  body := "ready"
  attributes := .empty
  resourceAttributes := .empty
  traceId := none
  spanId := none

/-- One record of no trace, and the rendering throws. -/
theorem plain_not_rendered : ¬Rendered [plainRecord] := by
  rintro ⟨-, rows, hrows, -⟩
  rw [logResults_logResponse] at hrows
  cases hrows

end Kaleidoscope.Prism
