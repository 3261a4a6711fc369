import Kaleidoscope.Library.Grouping
import Kaleidoscope.Prism.Explorer
import Kaleidoscope.Prism.Wire

/-!
# Trace rows

The listing has a row for every trace, labelled with an operation of it. `primaryOperation` looks
for a span whose parent is undefined, but the service writes a parent that is not there as `null`.
-/

namespace Kaleidoscope.Prism

open QueryApi Grouping

section Panel

variable {N : Type}

/-- `span.trace_id`, which `isSpan` has seen to be a text. -/
def traceIdOf (span : Json N) : String :=
  match span.member? "trace_id" with
  | some (.string traceId) => traceId
  | _ => ""

/-- `TraceGroup`. -/
structure TraceGroup (N : Type) where
  traceId : String
  spans : List (Json N)

/-- `groupSpansByTrace`. -/
def groupSpansByTrace (spans : List (Json N)) : List (TraceGroup N) :=
  (groupBy traceIdOf spans).map fun group => ⟨group.1, group.2⟩

/-- The part of `fetchTraceList` after the response was parsed. -/
def fetchTraceList (json : Json N) (queryMs : Nat) : TracesOutcome (List (TraceGroup N)) :=
  if isSpanArray json then
    match json.elements? with
    | some [] => .empty queryMs
    | some spans => .success (groupSpansByTrace spans) queryMs
    | none => .empty queryMs
  else .transportError (.shape "response was not a span array") queryMs

/-- `value ?? text`. -/
def orText (value : Option (Json N)) (text : String) : Json N :=
  match value with
  | none => .string text
  | some .null => .string text
  | some value => value

/-- `traceService`. -/
def traceService (group : TraceGroup N) : Json N :=
  orText (do ((← group.spans.head?).member? "resource_attributes" >>= (·.member? "service.name")))
    "(unknown service)"

/-- `primaryOperation`. -/
def primaryOperation (group : TraceGroup N) : Json N :=
  let root := group.spans.find? fun span => (span.member? "parent_span_id").isNone
  orText (do (← root.or group.spans.head?).member? "name") "(unnamed)"

/-- `isErrorTrace`. -/
def isErrorTrace (group : TraceGroup N) : Bool :=
  group.spans.any fun span => span.hasMember (Json.hasMember (equalsText "Error") · "code") "status"

/-- A row of the listing. -/
structure TraceRow (N : Type) where
  traceId : String
  operation : Json N
  service : Json N
  failed : Bool

/-- One row of `TraceList`. -/
def traceRow (group : TraceGroup N) : TraceRow N :=
  ⟨group.traceId, primaryOperation group, traceService group, isErrorTrace group⟩

/-- The rows of `TraceList`. -/
def traceList : TracesOutcome (List (TraceGroup N)) → List (TraceRow N)
  | .success traces _ => traces.map traceRow
  | _ => []

end Panel

/-- The traces that spans belong to. -/
def tracesOf (spans : List Ray.Span) : List (Ray.TraceId × List Ray.Span) :=
  groupsOf Ray.Span.traceId spans

/-- The operation of a trace: its first root is of it, or else its first span. -/
def operationOf (spans : List Ray.Span) : Option String :=
  ((spans.find? fun span => span.parentSpanId.isNone).or spans.head?).map Ray.Span.name

/-- A row tells the truth about a trace. -/
structure RowOf (trace : Ray.TraceId × List Ray.Span) (row : TraceRow Int) : Prop where
  traceId : row.traceId = serializeTraceId trace.1
  failed : row.failed = true ↔ ∃ span ∈ trace.2, span.status.code = .error
  operation : some row.operation = (operationOf trace.2).map .string

/-- The listing tells the truth about every trace. -/
structure TellsTruth (spans : List Ray.Span) : Prop where
  accepted : isSpanArray (spanResponse spans) = true
  grouped : Partitions traceIdOf (spans.map serializeSpan)
    ((groupSpansByTrace (spans.map serializeSpan)).map fun group => (group.traceId, group.spans))
  rows : ∀ queryMs,
    List.Forall₂ RowOf (tracesOf spans) (traceList (fetchTraceList (spanResponse spans) queryMs))

/-- Where a trace has a root, its first root is called what its first span is called. -/
def RootsFirst (spans : List Ray.Span) : Prop :=
  ∀ trace ∈ tracesOf spans, ∀ root ∈ trace.2.find? fun span => span.parentSpanId.isNone,
    ∀ first ∈ trace.2.head?, root.name = first.name

/-- Spans are grouped as they are listed. -/
theorem grouped (spans : List (Json Int)) : Partitions traceIdOf spans
    ((groupSpansByTrace spans).map fun group => (group.traceId, group.spans)) := by
  rw [groupSpansByTrace, List.map_map, groupBy_eq]
  exact (List.map_id _).symm ▸ partitions_groupsOf traceIdOf spans

theorem traceIdOf_serializeSpan (span : Ray.Span) :
    traceIdOf (serializeSpan span) = serializeTraceId span.traceId := by
  simp [traceIdOf, serializeSpan, Json.member?]

theorem serializeTraceId_injective : Function.Injective serializeTraceId := by
  intro a b h
  obtain ⟨a⟩ := a
  obtain ⟨b⟩ := b
  exact congrArg Ray.TraceId.mk (toLowercaseHex_injective h)

/-- The group of a trace. -/
def groupOf (trace : Ray.TraceId × List Ray.Span) : TraceGroup Int :=
  ⟨serializeTraceId trace.1, trace.2.map serializeSpan⟩

/-- The groups of a response are those of its traces. -/
theorem groupSpansByTrace_map (spans : List Ray.Span) :
    groupSpansByTrace (spans.map serializeSpan) = (tracesOf spans).map groupOf := by
  rw [groupSpansByTrace, groupBy_eq,
    groupsOf_map serializeTraceId_injective traceIdOf_serializeSpan, List.map_map]
  rfl

/-- The rows of a response are those of its traces. -/
theorem traceList_spanResponse (spans : List Ray.Span) (queryMs : Nat) :
    traceList (fetchTraceList (spanResponse spans) queryMs) =
      (tracesOf spans).map fun trace => traceRow (groupOf trace) := by
  rw [fetchTraceList, if_pos (isSpanArray_spanResponse spans)]
  cases spans with
  | nil => rfl
  | cons span spans =>
    change (groupSpansByTrace ((span :: spans).map serializeSpan)).map traceRow = _
    rw [groupSpansByTrace_map, List.map_map]
    rfl

/-- A trace is badged as failed if a span of it failed. -/
theorem isErrorTrace_groupOf (trace : Ray.TraceId × List Ray.Span) :
    isErrorTrace (groupOf trace) = true ↔ ∃ span ∈ trace.2, span.status.code = .error := by
  have hstatus (span : Ray.Span) :
      (serializeSpan span).hasMember (Json.hasMember (equalsText "Error") · "code") "status" =
        true ↔ span.status.code = .error := by
    cases h : span.status.code <;>
      simp [serializeSpan, serializeStatus, Json.hasMember, Json.member?, codeName, equalsText, h]
  simp only [isErrorTrace, groupOf, List.any_map, List.any_eq_true, Function.comp_apply, hstatus]

/-- A span is never taken for a root, so a trace is labelled with its first span. -/
theorem primaryOperation_groupOf (trace : Ray.TraceId × List Ray.Span) :
    primaryOperation (groupOf trace) =
      (trace.2.head?.map fun span => .string span.name).getD (.string "(unnamed)") := by
  have hroot : ((trace.2.map serializeSpan).find? fun span =>
      (span.member? "parent_span_id").isNone) = none := by
    rw [List.find?_eq_none]
    intro span hspan
    obtain ⟨span, -, rfl⟩ := List.mem_map.mp hspan
    simp [serializeSpan, Json.member?]
  rw [primaryOperation, groupOf, hroot]
  cases trace.2 with
  | nil => rfl
  | cons span spans => simp [serializeSpan, Json.member?, orText]

/-- Every row names its trace and badges it rightly. Its label is right if the first root, where
there is one, is called what the first span is called. -/
theorem rowOf_iff {trace : Ray.TraceId × List Ray.Span} (hspans : trace.2 ≠ []) :
    RowOf trace (traceRow (groupOf trace)) ↔
      ∀ root ∈ trace.2.find? fun span => span.parentSpanId.isNone,
        ∀ first ∈ trace.2.head?, root.name = first.name := by
  obtain ⟨first, hfirst⟩ := Option.isSome_iff_exists.mp (List.isSome_head?.mpr hspans)
  have hlabel : primaryOperation (groupOf trace) = .string first.name := by
    rw [primaryOperation_groupOf, hfirst]
    rfl
  have hoperation : some (.string first.name) = (operationOf trace.2).map (Json.string (N := Int)) ↔
      ∀ root ∈ trace.2.find? fun span => span.parentSpanId.isNone, root.name = first.name := by
    rw [operationOf, hfirst]
    cases trace.2.find? fun span => span.parentSpanId.isNone with
    | none => simp
    | some root => simp [eq_comm]
  constructor
  · intro h root hroot first' hfirst'
    obtain rfl := Option.mem_unique hfirst' hfirst
    exact hoperation.mp (hlabel ▸ h.operation) root hroot
  · intro h
    refine ⟨rfl, isErrorTrace_groupOf trace, ?_⟩
    rw [traceRow, hlabel, hoperation]
    exact fun root hroot => h root hroot first hfirst

/-- The rows are those of the traces if the roots are called what the first spans are called. -/
theorem rows_iff (spans : List Ray.Span) (queryMs : Nat) :
    List.Forall₂ RowOf (tracesOf spans)
      (traceList (fetchTraceList (spanResponse spans) queryMs)) ↔ RootsFirst spans := by
  have hspans : ∀ trace ∈ tracesOf spans, trace.2 ≠ [] := fun _ => groupsOf_ne_nil
  rw [traceList_spanResponse, List.forall₂_map_right_iff, List.forall₂_same]
  exact forall₂_congr fun trace htrace => rowOf_iff (hspans trace htrace)

/-- The listing tells the truth exactly when the roots of the traces, where there are any, are
called what their first spans are called. -/
theorem tellsTruth_iff (spans : List Ray.Span) : TellsTruth spans ↔ RootsFirst spans := by
  constructor
  · exact fun h => (rows_iff spans 0).mp (h.rows 0)
  · intro h
    exact ⟨isSpanArray_spanResponse spans, grouped _, fun queryMs => (rows_iff spans queryMs).mpr h⟩

/-- A span of one trace. -/
def spanNamed (name : String) (parentSpanId : Option Ray.SpanId) : Ray.Span where
  traceId := ⟨.replicate 16 1⟩
  spanId := ⟨.replicate 8 2⟩
  parentSpanId := parentSpanId
  name := name
  kind := .server
  startTimeUnixNano := 1_700_000_000_000_000_000
  endTimeUnixNano := 1_700_000_000_000_000_500
  status := ⟨.unset, ""⟩
  attributes := .empty
  resourceAttributes := .single "service.name" "checkout"
  events := []
  links := []

/-- A trace whose root comes second is labelled with the child. -/
theorem child_for_root :
    ¬TellsTruth [spanNamed "charge card" (some ⟨.replicate 8 3⟩), spanNamed "checkout" none] := by
  intro h
  have hroots := (rows_iff _ 0).mp (h.rows 0)
  revert hroots
  unfold RootsFirst
  decide +kernel

end Kaleidoscope.Prism
