import Kaleidoscope.Aegis.Validator
import Kaleidoscope.Sieve.Sampler

/-!
# The sampling sink

A request is taken apart into the spans of each of its traces, the sampler is asked once for
each, and the request goes on with the spans of the traces that were kept.
-/

namespace Kaleidoscope.Sieve

open Aegis HashMap

variable {P C R : Type}

/-- The spans of one scope. -/
structure ScopeSpans (P C : Type) where
  scope : Option C
  spans : List (Span P)
  schemaUrl : String

/-- The spans of one resource. -/
structure ResourceSpans (P C R : Type) where
  resource : Option R
  scopeSpans : List (ScopeSpans P C)
  schemaUrl : String

/-- A trace request. -/
structure ExportTraceServiceRequest (P C R : Type) where
  resourceSpans : List (ResourceSpans P C R)

/-- A payload with the tenant it was authenticated for. -/
structure TenantScoped (A : Type) where
  tenant : TenantId
  inner : A

/-- What a sink accepts; `L` and `M` are the requests of the signals that are not sampled. -/
inductive SinkRecord (P C R L M : Type) where
  | traces (tagged : TenantScoped (ExportTraceServiceRequest P C R))
  | logs (tagged : TenantScoped L)
  | metrics (tagged : TenantScoped M)

/-- The spans of a request, in their order. -/
def ExportTraceServiceRequest.spans (request : ExportTraceServiceRequest P C R) :
    List (Span P) :=
  request.resourceSpans.flatMap fun resource =>
    resource.scopeSpans.flatMap ScopeSpans.spans

/-- The well-formed spans of a trace among others. -/
def ofTrace (traceId : TraceId) (spans : List (Span P)) : List (Span P) :=
  spans.filter fun span => span.trace? = some traceId

/-- `group_spans_by_trace_id`. -/
def groupSpansByTraceId (request : ExportTraceServiceRequest P C R) :
    HashMap TraceId (List (Span P)) :=
  pushAll ∅ (request.spans.filterMap fun span => span.trace?.map fun traceId => (traceId, span))

/-- `span_is_kept`. -/
def spanIsKept (span : Span P) (kept : Finset TraceId) : Bool :=
  match span.trace? with
  | some traceId => traceId ∈ kept
  | none => false

/-- `filter_scope_spans`. -/
def filterScopeSpans (scopeSpans : ScopeSpans P C) (kept : Finset TraceId) :
    Option (ScopeSpans P C) :=
  let spans := scopeSpans.spans.filter (spanIsKept · kept)
  if spans.isEmpty then none else some { scopeSpans with spans }

/-- `filter_resource_spans`. -/
def filterResourceSpans (resourceSpans : ResourceSpans P C R) (kept : Finset TraceId) :
    Option (ResourceSpans P C R) :=
  let scopeSpans := resourceSpans.scopeSpans.filterMap (filterScopeSpans · kept)
  if scopeSpans.isEmpty then none else some { resourceSpans with scopeSpans }

/-- `filter_request_by_trace_ids`. -/
def filterRequestByTraceIds (request : ExportTraceServiceRequest P C R) (kept : Finset TraceId) :
    ExportTraceServiceRequest P C R :=
  ⟨request.resourceSpans.filterMap (filterResourceSpans · kept)⟩

/-- The counters of the periodic summary. -/
structure Counters where
  keptTotal : Nat
  keptErrorBearing : Nat
  dropped : Nat
  deriving DecidableEq, Repr

/-- `record_decision`. -/
def Counters.recordDecision (counters : Counters) (spans : List (Span P)) :
    Decision → Counters
  | .keep =>
    if isErrorBearing spans then
      { counters with
        keptTotal := counters.keptTotal + 1
        keptErrorBearing := counters.keptErrorBearing + 1 }
    else { counters with keptTotal := counters.keptTotal + 1 }
  | .drop => { counters with dropped := counters.dropped + 1 }

section Sink

variable {L M : Type} (xxh3_64 : TraceId → UInt64) (sampler : HeadSampler)

/-- One turn of the loop of `decide_kept_trace_ids`. -/
def decideTrace (acc : Finset TraceId × Counters) (group : TraceId × List (Span P)) :
    Finset TraceId × Counters :=
  let decision := sampler.sample xxh3_64 group.1 group.2
  (if decision = .keep then insert group.1 acc.1 else acc.1,
    acc.2.recordDecision group.2 decision)

/-- `decide_kept_trace_ids`; `order` is the order in which the groups are visited. -/
def decideKeptTraceIds (order : IterOrder TraceId (List (Span P))) (counters : Counters)
    (request : ExportTraceServiceRequest P C R) : Finset TraceId × Counters :=
  (order.entries (groupSpansByTraceId request)).foldl (decideTrace xxh3_64 sampler) (∅, counters)

/-- `accept`: what the inner sink is handed, and the counters. -/
def accept (counters : Counters)
    (arrival : IterOrder TraceId (List (Span P)) × SinkRecord P C R L M) :
    SinkRecord P C R L M × Counters :=
  match arrival.2 with
  | .traces tagged =>
    let decided := decideKeptTraceIds xxh3_64 sampler arrival.1 counters tagged.inner
    (.traces ⟨tagged.tenant, filterRequestByTraceIds tagged.inner decided.1⟩, decided.2)
  | .logs tagged => (.logs tagged, counters)
  | .metrics tagged => (.metrics tagged, counters)

/-- What the inner sink is handed for a sequence of records. -/
def forwarded (counters : Counters) :
    List (IterOrder TraceId (List (Span P)) × SinkRecord P C R L M) → List (SinkRecord P C R L M)
  | [] => []
  | arrival :: arrivals =>
    let accepted := accept xxh3_64 sampler counters arrival
    accepted.1 :: forwarded accepted.2 arrivals

end Sink

/-- The group of a trace has its spans in their order. -/
theorem bucket_groupSpansByTraceId (request : ExportTraceServiceRequest P C R)
    (traceId : TraceId) :
    (groupSpansByTraceId request).bucket traceId = ofTrace traceId request.spans := by
  rw [groupSpansByTraceId, bucket_pushAll, bucket_empty, List.nil_append, valuesAt,
    List.filterMap_filterMap, ofTrace, ← List.filterMap_eq_filter]
  refine List.filterMap_congr fun span _ => ?_
  cases h : span.trace? with
  | none => simp [Option.guard, h]
  | some other =>
    by_cases hother : other = traceId
    · simp [Option.guard, h, hother]
    · simp [Option.guard, h, hother]

/-- What is left of a scope, dropped or not. -/
private theorem spans_filterScopeSpans (scopeSpans : ScopeSpans P C) (kept : Finset TraceId) :
    (filterScopeSpans scopeSpans kept).elim [] ScopeSpans.spans =
      scopeSpans.spans.filter (spanIsKept · kept) := by
  rw [filterScopeSpans]
  split_ifs with hempty
  · exact (List.isEmpty_iff.mp hempty).symm
  · rfl

/-- Leaving out what has no elements leaves the elements. -/
theorem flatMap_filterMap_elim {A B E : Type} (f : A → Option B) (g : B → List E)
    (l : List A) : (l.filterMap f).flatMap g = l.flatMap fun a => (f a).elim [] g := by
  induction l with
  | nil => rfl
  | cons a l ih =>
    rw [List.filterMap_cons, List.flatMap_cons, ← ih]
    cases f a <;> rfl

/-- What is left of a request are its kept spans, in their order. -/
theorem spans_filterRequestByTraceIds (request : ExportTraceServiceRequest P C R)
    (kept : Finset TraceId) :
    (filterRequestByTraceIds request kept).spans =
      request.spans.filter (spanIsKept · kept) := by
  have hresource (resource : ResourceSpans P C R) :
      (filterResourceSpans resource kept).elim []
          (fun resource => resource.scopeSpans.flatMap ScopeSpans.spans) =
        (resource.scopeSpans.flatMap ScopeSpans.spans).filter (spanIsKept · kept) := by
    have hscopes : (resource.scopeSpans.filterMap (filterScopeSpans · kept)).flatMap
        ScopeSpans.spans = (resource.scopeSpans.flatMap ScopeSpans.spans).filter
          (spanIsKept · kept) := by
      rw [flatMap_filterMap_elim, List.filter_flatMap]
      exact List.flatMap_congr fun scope _ => spans_filterScopeSpans scope kept
    rw [filterResourceSpans, ← hscopes]
    split_ifs with hempty
    · rw [List.isEmpty_iff.mp hempty]
      rfl
    · rfl
  rw [filterRequestByTraceIds, ExportTraceServiceRequest.spans, flatMap_filterMap_elim,
    ExportTraceServiceRequest.spans, List.filter_flatMap]
  exact List.flatMap_congr fun resource _ => hresource resource

/-- The kept spans of a trace are all of them or none. -/
theorem ofTrace_filter (traceId : TraceId) (kept : Finset TraceId) (spans : List (Span P)) :
    ofTrace traceId (spans.filter (spanIsKept · kept)) =
      if traceId ∈ kept then ofTrace traceId spans else [] := by
  have hkept (span : Span P) (h : span.trace? = some traceId) :
      spanIsKept span kept = decide (traceId ∈ kept) := by rw [spanIsKept, h]
  rw [ofTrace, List.filter_filter]
  split_ifs with hmem
  · refine List.filter_congr fun span _ => ?_
    by_cases h : span.trace? = some traceId
    · simp [h, hkept span h, hmem]
    · simp [h]
  · refine List.filter_eq_nil_iff.mpr fun span _ hspan => ?_
    simp only [Bool.and_eq_true, decide_eq_true_eq] at hspan
    rw [hkept span hspan.1, decide_eq_true_eq] at hspan
    exact hmem hspan.2

section Decide

variable (xxh3_64 : TraceId → UInt64) (sampler : HeadSampler)

private theorem mem_foldl_decideTrace (groups : List (TraceId × List (Span P)))
    (acc : Finset TraceId × Counters) (traceId : TraceId) :
    traceId ∈ (groups.foldl (decideTrace xxh3_64 sampler) acc).1 ↔
      traceId ∈ acc.1 ∨ ∃ spans, (traceId, spans) ∈ groups ∧
        sampler.sample xxh3_64 traceId spans = .keep := by
  induction groups generalizing acc with
  | nil => simp
  | cons group groups ih =>
    rw [List.foldl_cons, ih, decideTrace]
    split_ifs with hkeep
    · rw [Finset.mem_insert]
      constructor
      · rintro ((rfl | hacc) | ⟨spans, hmem, hspans⟩)
        · exact .inr ⟨group.2, List.mem_cons_self, hkeep⟩
        · exact .inl hacc
        · exact .inr ⟨spans, List.mem_cons_of_mem _ hmem, hspans⟩
      · rintro (hacc | ⟨spans, hmem, hspans⟩)
        · exact .inl (.inr hacc)
        · rcases List.mem_cons.mp hmem with rfl | hmem
          · exact .inl (.inl rfl)
          · exact .inr ⟨spans, hmem, hspans⟩
    · refine or_congr_right (exists_congr fun spans => and_congr_left fun hspans => ?_)
      refine ⟨List.mem_cons_of_mem _, fun hmem => (List.mem_cons.mp hmem).resolve_left ?_⟩
      rintro rfl
      exact hkeep hspans

/-- A trace is kept when a request has spans of it, one of them bears an error or its hash
keeps it, in whatever order the groups are visited. -/
theorem mem_decideKeptTraceIds (order : IterOrder TraceId (List (Span P))) (counters : Counters)
    (request : ExportTraceServiceRequest P C R) (traceId : TraceId) :
    traceId ∈ (decideKeptTraceIds xxh3_64 sampler order counters request).1 ↔
      (∃ spans, (groupSpansByTraceId request).lookup traceId = some spans) ∧
        (isErrorBearing (ofTrace traceId request.spans) = true ∨
          sampler.Samples xxh3_64 traceId) := by
  rw [decideKeptTraceIds, mem_foldl_decideTrace, ← bucket_groupSpansByTraceId, bucket]
  simp only [Finset.notMem_empty, false_or, order.mem_iff, HeadSampler.sample_eq_keep]
  constructor
  · rintro ⟨spans, hgroup, hkeep⟩
    rw [hgroup]
    exact ⟨⟨spans, rfl⟩, hkeep⟩
  · rintro ⟨⟨spans, hgroup⟩, hkeep⟩
    rw [hgroup] at hkeep
    exact ⟨spans, hgroup, hkeep⟩

end Decide

end Kaleidoscope.Sieve
