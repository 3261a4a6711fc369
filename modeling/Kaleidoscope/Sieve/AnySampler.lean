import Kaleidoscope.Sieve.Decorator

/-!
# The sampling sink with any sampler

The sink asks its sampler once about every trace of a request and shows it all spans of the
trace. The spans of the traces that were kept go on, in the containers in which they came.
-/

namespace Kaleidoscope.Sieve

open HashMap

variable {P C R S : Type}

/-! ## The pass over the groups -/

/-- `Sampler`: the state is what an answer depends on besides the trace. -/
structure Sampler (S P : Type) where
  sample : S → TraceId → List (Span P) → Decision × S

/-- A head sampler has no state. -/
def HeadSampler.toSampler (xxh3_64 : TraceId → UInt64) (sampler : HeadSampler) :
    Sampler Unit P where
  sample _ traceId spans := (sampler.sample xxh3_64 traceId spans, ())

/-- The variables of `decide_kept_trace_ids`, with the state of the sampler. -/
structure Pass (S : Type) where
  state : S
  kept : Finset TraceId
  counters : Counters

namespace Sampler

variable (sampler : Sampler S P)

/-- One turn of the loop of `decide_kept_trace_ids`. -/
def decideTrace (pass : Pass S) (group : TraceId × List (Span P)) : Pass S :=
  let answer := sampler.sample pass.state group.1 group.2
  { state := answer.2
    kept := if answer.1 = .keep then insert group.1 pass.kept else pass.kept
    counters := pass.counters.recordDecision group.2 answer.1 }

/-- `decide_kept_trace_ids`; `order` is the order in which the groups are visited. -/
def decideKeptTraceIds (order : IterOrder TraceId (List (Span P))) (state : S)
    (counters : Counters) (request : ExportTraceServiceRequest P C R) : Pass S :=
  (order.entries (groupSpansByTraceId request)).foldl sampler.decideTrace ⟨state, ∅, counters⟩

end Sampler

/-- What `accept_traces` leaves: what the inner sink was handed, the counters and the state of
the sampler. -/
structure Accepted (S P C R : Type) where
  sent : TenantScoped (ExportTraceServiceRequest P C R)
  counters : Counters
  state : S

/-- `accept_traces`. -/
def Sampler.acceptTraces (sampler : Sampler S P) (order : IterOrder TraceId (List (Span P)))
    (state : S) (counters : Counters) (tagged : TenantScoped (ExportTraceServiceRequest P C R)) :
    Accepted S P C R :=
  let decided := sampler.decideKeptTraceIds order state counters tagged.inner
  { sent := ⟨tagged.tenant, filterRequestByTraceIds tagged.inner decided.kept⟩
    counters := decided.counters
    state := decided.state }

private theorem foldl_toSampler (xxh3_64 : TraceId → UInt64) (sampler : HeadSampler)
    (groups : List (TraceId × List (Span P))) (pass : Pass Unit) :
    groups.foldl (decideTrace xxh3_64 sampler) (pass.kept, pass.counters) =
      ((groups.foldl (sampler.toSampler xxh3_64).decideTrace pass).kept,
        (groups.foldl (sampler.toSampler xxh3_64).decideTrace pass).counters) := by
  induction groups generalizing pass with
  | nil => rfl
  | cons group groups ih =>
    rw [List.foldl_cons, List.foldl_cons, ← ih]
    rfl

/-- With a head sampler this is what the sink does with the traces it accepts. -/
theorem accept_eq_acceptTraces (xxh3_64 : TraceId → UInt64) (sampler : HeadSampler) (L M : Type)
    (order : IterOrder TraceId (List (Span P))) (counters : Counters)
    (tagged : TenantScoped (ExportTraceServiceRequest P C R)) :
    accept xxh3_64 sampler counters (order, (.traces tagged : SinkRecord P C R L M)) =
      (.traces ((sampler.toSampler xxh3_64).acceptTraces order () counters tagged).sent,
        ((sampler.toSampler xxh3_64).acceptTraces order () counters tagged).counters) := by
  have hdecided := foldl_toSampler xxh3_64 sampler
    (order.entries (groupSpansByTraceId tagged.inner)) ⟨(), ∅, counters⟩
  simp only [accept, Sieve.decideKeptTraceIds]
  rw [hdecided]
  rfl

/-! ## Questions and answers -/

/-- A question to the sampler and its answer. -/
structure Ask (P : Type) where
  traceId : TraceId
  spans : List (Span P)
  decision : Decision

namespace Ask

/-- What the sampler is shown. -/
def view (ask : Ask P) : TraceId × List (Span P) := (ask.traceId, ask.spans)

/-- The trace was kept, and one of its spans bears an error. -/
def keptWithError (ask : Ask P) : Bool := ask.decision = .keep ∧ isErrorBearing ask.spans = true

/-- The trace was kept, and none of its spans bears an error. -/
def keptWithoutError (ask : Ask P) : Bool :=
  ask.decision = .keep ∧ isErrorBearing ask.spans = false

/-- The trace was dropped. -/
def dropped (ask : Ask P) : Bool := ask.decision = .drop

end Ask

/-- The answers of a sampler that is asked about one trace after the other. -/
def Sampler.asks (sampler : Sampler S P) : S → List (TraceId × List (Span P)) → List (Ask P)
  | _, [] => []
  | state, (traceId, spans) :: groups =>
    let answer := sampler.sample state traceId spans
    ⟨traceId, spans, answer.1⟩ :: sampler.asks answer.2 groups

/-- The traces that a request has spans of. -/
def ExportTraceServiceRequest.traceIds (request : ExportTraceServiceRequest P C R) :
    Finset TraceId :=
  (request.spans.filterMap Span.trace?).toFinset

/-- The sampler is asked about each trace of a request once, and shown all its spans. -/
structure Sampler.Asked (sampler : Sampler S P) (state : S)
    (request : ExportTraceServiceRequest P C R) (asks : List (Ask P)) : Prop where
  answers : sampler.asks state (asks.map Ask.view) = asks
  once : (asks.map Ask.traceId).Nodup
  traces : (asks.map Ask.traceId).toFinset = request.traceIds
  whole : ∀ ask ∈ asks, ask.spans = ofTrace ask.traceId request.spans

theorem view_asks (sampler : Sampler S P) (state : S) (groups : List (TraceId × List (Span P))) :
    (sampler.asks state groups).map Ask.view = groups := by
  induction groups generalizing state with
  | nil => rfl
  | cons group groups ih =>
    rw [Sampler.asks, List.map_cons, ih]
    rfl

theorem mem_traceIds {request : ExportTraceServiceRequest P C R} {traceId : TraceId} :
    traceId ∈ request.traceIds ↔ ofTrace traceId request.spans ≠ [] := by
  simp [ExportTraceServiceRequest.traceIds, ofTrace]

/-- Every trace of a request has its spans for a group. -/
theorem mem_entries_iff (order : IterOrder TraceId (List (Span P)))
    {request : ExportTraceServiceRequest P C R} {traceId : TraceId} {spans : List (Span P)} :
    (traceId, spans) ∈ order.entries (groupSpansByTraceId request) ↔
      traceId ∈ request.traceIds ∧ spans = ofTrace traceId request.spans := by
  have hgroup : (groupSpansByTraceId request).lookup traceId ≠ some [] :=
    lookup_pushAll_ne_nil (fun k => by simp) _ traceId
  rw [order.mem_iff, lookup_eq_some_iff hgroup, bucket_groupSpansByTraceId, mem_traceIds]

/-- The loop asks the sampler as it should. -/
theorem asked (sampler : Sampler S P) (order : IterOrder TraceId (List (Span P))) (state : S)
    (request : ExportTraceServiceRequest P C R) :
    sampler.Asked state request
      (sampler.asks state (order.entries (groupSpansByTraceId request))) := by
  let groups := order.entries (groupSpansByTraceId request)
  have hview : (sampler.asks state groups).map Ask.view = groups := view_asks sampler state groups
  have hids : (sampler.asks state groups).map Ask.traceId = groups.map Prod.fst := by
    rw [← hview, List.map_map, hview]
    rfl
  refine ⟨congrArg _ hview, ?_, ?_, ?_⟩
  · rw [hids]
    exact order.nodup _
  · ext traceId
    rw [hids, List.mem_toFinset, List.mem_map]
    constructor
    · rintro ⟨⟨traceId, spans⟩, hmem, rfl⟩
      exact ((mem_entries_iff order).mp hmem).1
    · intro h
      exact ⟨(traceId, _), (mem_entries_iff order).mpr ⟨h, rfl⟩, rfl⟩
  · intro ask hask
    have hmem : ask.view ∈ groups := hview ▸ List.mem_map_of_mem hask
    exact ((mem_entries_iff order).mp hmem).2

/-- A trace is kept when the sampler answered so. -/
theorem mem_kept_foldl (sampler : Sampler S P) (groups : List (TraceId × List (Span P)))
    (pass : Pass S) (traceId : TraceId) :
    traceId ∈ (groups.foldl sampler.decideTrace pass).kept ↔ traceId ∈ pass.kept ∨
      ∃ ask ∈ sampler.asks pass.state groups, ask.traceId = traceId ∧ ask.decision = .keep := by
  induction groups generalizing pass with
  | nil => simp [Sampler.asks]
  | cons group groups ih =>
    rw [List.foldl_cons, ih, Sampler.asks, Sampler.decideTrace]
    simp only [List.mem_cons, exists_eq_or_imp]
    split_ifs with hkeep
    · rw [Finset.mem_insert, eq_comm, or_comm (a := group.1 = traceId), or_assoc]
      simp [hkeep]
    · simp [hkeep]

/-- An answer is counted as what it is. -/
theorem recordDecision_eq (counters : Counters) (ask : Ask P) :
    counters.recordDecision ask.spans ask.decision =
      { keptTotal := counters.keptTotal +
          ([ask].countP Ask.keptWithError + [ask].countP Ask.keptWithoutError)
        keptErrorBearing := counters.keptErrorBearing + [ask].countP Ask.keptWithError
        dropped := counters.dropped + [ask].countP Ask.dropped } := by
  obtain ⟨traceId, spans, decision⟩ := ask
  cases decision with
  | keep =>
    by_cases herror : isErrorBearing spans = true
    · simp [Counters.recordDecision, Ask.keptWithError, Ask.keptWithoutError, Ask.dropped, herror]
    · simp [Counters.recordDecision, Ask.keptWithError, Ask.keptWithoutError, Ask.dropped, herror]
  | drop =>
    simp [Counters.recordDecision, Ask.keptWithError, Ask.keptWithoutError, Ask.dropped]

/-- Every answer is counted. -/
theorem counters_foldl (sampler : Sampler S P) (groups : List (TraceId × List (Span P)))
    (pass : Pass S) :
    (groups.foldl sampler.decideTrace pass).counters =
      { keptTotal := pass.counters.keptTotal +
          ((sampler.asks pass.state groups).countP Ask.keptWithError +
            (sampler.asks pass.state groups).countP Ask.keptWithoutError)
        keptErrorBearing := pass.counters.keptErrorBearing +
          (sampler.asks pass.state groups).countP Ask.keptWithError
        dropped := pass.counters.dropped +
          (sampler.asks pass.state groups).countP Ask.dropped } := by
  induction groups generalizing pass with
  | nil => rfl
  | cons group groups ih =>
    let answer := sampler.sample pass.state group.1 group.2
    let ask : Ask P := ⟨group.1, group.2, answer.1⟩
    have hasks : sampler.asks pass.state (group :: groups) =
        [ask] ++ sampler.asks answer.2 groups := rfl
    have hstep : (sampler.decideTrace pass group).counters =
        pass.counters.recordDecision ask.spans ask.decision := rfl
    have hstate : (sampler.decideTrace pass group).state = answer.2 := rfl
    rw [List.foldl_cons, ih, hstep, hstate, recordDecision_eq, hasks]
    simp only [List.countP_append, Counters.mk.injEq]
    omega

/-- An answer is of one of the three kinds. -/
theorem length_eq_countP (asks : List (Ask P)) :
    asks.length = asks.countP Ask.keptWithError + asks.countP Ask.keptWithoutError +
      asks.countP Ask.dropped := by
  induction asks with
  | nil => rfl
  | cons ask asks ih =>
    have hkind : 1 = [ask].countP Ask.keptWithError + [ask].countP Ask.keptWithoutError +
        [ask].countP Ask.dropped := by
      obtain ⟨traceId, spans, decision⟩ := ask
      cases decision <;> cases herror : isErrorBearing spans <;>
        simp [Ask.keptWithError, Ask.keptWithoutError, Ask.dropped, herror]
    rw [← List.singleton_append, List.length_append, List.length_singleton, List.countP_append,
      List.countP_append, List.countP_append]
    omega

/-! ## What goes on -/

/-- A span of a request with its resource, its scope and their schemas. -/
structure Row (P C R : Type) where
  resource : Option R
  resourceSchema : String
  scope : Option C
  scopeSchema : String
  span : Span P

/-- The spans of a scope, as they stand in a resource. -/
def ScopeSpans.rows (resource : ResourceSpans P C R) (scope : ScopeSpans P C) :
    List (Row P C R) :=
  scope.spans.map fun span =>
    ⟨resource.resource, resource.schemaUrl, scope.scope, scope.schemaUrl, span⟩

/-- The spans of a resource. -/
def ResourceSpans.rows (resource : ResourceSpans P C R) : List (Row P C R) :=
  resource.scopeSpans.flatMap (ScopeSpans.rows resource)

/-- The spans of a request in their order, each with what stands around it. -/
def ExportTraceServiceRequest.rows (request : ExportTraceServiceRequest P C R) :
    List (Row P C R) :=
  request.resourceSpans.flatMap ResourceSpans.rows

/-- The trace of a span is well formed, and the sampler kept it. -/
def Keeps (asks : List (Ask P)) (span : Span P) : Prop :=
  ∃ ask ∈ asks, span.trace? = some ask.traceId ∧ ask.decision = .keep

instance (asks : List (Ask P)) (span : Span P) : Decidable (Keeps asks span) :=
  inferInstanceAs (Decidable (∃ ask ∈ asks, _))

/-- The spans of the kept traces go on for their tenant, no container is empty, and every answer
is counted. -/
structure ForwardsKept (asks : List (Ask P)) (counters : Counters)
    (tagged : TenantScoped (ExportTraceServiceRequest P C R)) (accepted : Accepted S P C R) :
    Prop where
  tenant : accepted.sent.tenant = tagged.tenant
  rows : accepted.sent.inner.rows = tagged.inner.rows.filter fun row => Keeps asks row.span
  resource_ne_nil : ∀ resource ∈ accepted.sent.inner.resourceSpans, resource.scopeSpans ≠ []
  scope_ne_nil : ∀ resource ∈ accepted.sent.inner.resourceSpans,
    ∀ scope ∈ resource.scopeSpans, scope.spans ≠ []
  keptErrorBearing : accepted.counters.keptErrorBearing =
    counters.keptErrorBearing + asks.countP Ask.keptWithError
  keptTotal : accepted.counters.keptTotal =
    counters.keptTotal + (asks.countP Ask.keptWithError + asks.countP Ask.keptWithoutError)
  dropped : accepted.counters.dropped = counters.dropped + asks.countP Ask.dropped
  total : accepted.counters.keptTotal + accepted.counters.dropped =
    counters.keptTotal + counters.dropped + tagged.inner.traceIds.card

/-- What is left of a scope, with what stands around it. -/
theorem rows_filterScopeSpans (resource : ResourceSpans P C R) (scope : ScopeSpans P C)
    (kept : Finset TraceId) :
    (filterScopeSpans scope kept).elim [] (ScopeSpans.rows resource) =
      (scope.rows resource).filter fun row => spanIsKept row.span kept := by
  have hspans : (scope.rows resource).filter (fun row => spanIsKept row.span kept) =
      ScopeSpans.rows resource { scope with spans := scope.spans.filter (spanIsKept · kept) } :=
    List.filter_map
  rw [filterScopeSpans, hspans]
  split_ifs with hempty
  · rw [List.isEmpty_iff.mp hempty]
    rfl
  · rfl

/-- What is left of a resource. -/
theorem rows_filterResourceSpans (resource : ResourceSpans P C R) (kept : Finset TraceId) :
    (filterResourceSpans resource kept).elim [] ResourceSpans.rows =
      resource.rows.filter fun row => spanIsKept row.span kept := by
  have hscopes : (resource.scopeSpans.filterMap (filterScopeSpans · kept)).flatMap
      (ScopeSpans.rows resource) =
        resource.rows.filter fun row => spanIsKept row.span kept := by
    rw [flatMap_filterMap_elim, ResourceSpans.rows, List.filter_flatMap]
    exact List.flatMap_congr fun scope _ => rows_filterScopeSpans resource scope kept
  rw [filterResourceSpans, ← hscopes]
  split_ifs with hempty
  · rw [List.isEmpty_iff.mp hempty]
    rfl
  · rfl

/-- What is left of a request are its kept spans, in their order and in their containers. -/
theorem rows_filterRequestByTraceIds (request : ExportTraceServiceRequest P C R)
    (kept : Finset TraceId) :
    (filterRequestByTraceIds request kept).rows =
      request.rows.filter fun row => spanIsKept row.span kept := by
  rw [filterRequestByTraceIds, ExportTraceServiceRequest.rows, flatMap_filterMap_elim,
    ExportTraceServiceRequest.rows, List.filter_flatMap]
  exact List.flatMap_congr fun resource _ => rows_filterResourceSpans resource kept

/-- No scope that is left is empty. -/
theorem spans_ne_nil {scope left : ScopeSpans P C} {kept : Finset TraceId}
    (h : filterScopeSpans scope kept = some left) : left.spans ≠ [] := by
  rw [filterScopeSpans] at h
  split_ifs at h with hempty
  obtain rfl := Option.some.inj h
  exact fun hnil => hempty (List.isEmpty_iff.mpr hnil)

/-- No resource that is left is empty. -/
theorem scopeSpans_ne_nil {resource left : ResourceSpans P C R} {kept : Finset TraceId}
    (h : filterResourceSpans resource kept = some left) :
    left.scopeSpans ≠ [] ∧ ∀ scope ∈ left.scopeSpans, scope.spans ≠ [] := by
  rw [filterResourceSpans] at h
  split_ifs at h with hempty
  obtain rfl := Option.some.inj h
  refine ⟨fun hnil => hempty (List.isEmpty_iff.mpr hnil), fun scope hscope => ?_⟩
  obtain ⟨_, _, hleft⟩ := List.mem_filterMap.mp hscope
  exact spans_ne_nil hleft

/-- The traces that the sampler keeps go on, whole and as they came, and no other span. -/
theorem acceptTraces_forwardsKept (sampler : Sampler S P)
    (order : IterOrder TraceId (List (Span P))) (state : S) (counters : Counters)
    (tagged : TenantScoped (ExportTraceServiceRequest P C R)) :
    ∃ asks, sampler.Asked state tagged.inner asks ∧
      ForwardsKept asks counters tagged (sampler.acceptTraces order state counters tagged) := by
  let groups := order.entries (groupSpansByTraceId tagged.inner)
  let asks := sampler.asks state groups
  have hasked : sampler.Asked state tagged.inner asks := asked sampler order state tagged.inner
  let pass := groups.foldl sampler.decideTrace ⟨state, ∅, counters⟩
  have hcounters : pass.counters =
      { keptTotal := counters.keptTotal +
          (asks.countP Ask.keptWithError + asks.countP Ask.keptWithoutError)
        keptErrorBearing := counters.keptErrorBearing + asks.countP Ask.keptWithError
        dropped := counters.dropped + asks.countP Ask.dropped } :=
    counters_foldl sampler groups ⟨state, ∅, counters⟩
  have hkept (span : Span P) : spanIsKept span pass.kept = decide (Keeps asks span) := by
    rw [Bool.eq_iff_iff, decide_eq_true_iff, spanIsKept, Keeps]
    cases htrace : span.trace? with
    | none => simp
    | some traceId => simp [pass, mem_kept_foldl, asks, eq_comm]
  have hcard : asks.length = tagged.inner.traceIds.card := by
    rw [← hasked.traces, List.toFinset_card_of_nodup hasked.once, List.length_map]
  refine ⟨asks, hasked, rfl, ?_, ?_, ?_, ?_, ?_, ?_, ?_⟩
  · refine (rows_filterRequestByTraceIds _ _).trans ?_
    exact List.filter_congr fun row _ => hkept row.span
  · intro resource hresource
    obtain ⟨_, _, hleft⟩ := List.mem_filterMap.mp hresource
    exact (scopeSpans_ne_nil hleft).1
  · intro resource hresource
    obtain ⟨_, _, hleft⟩ := List.mem_filterMap.mp hresource
    exact (scopeSpans_ne_nil hleft).2
  · exact congrArg Counters.keptErrorBearing hcounters
  · exact congrArg Counters.keptTotal hcounters
  · exact congrArg Counters.dropped hcounters
  · have hlength := length_eq_countP asks
    calc pass.counters.keptTotal + pass.counters.dropped
        = counters.keptTotal + counters.dropped + asks.length := by
          simp only [hcounters, hlength]
          omega
      _ = counters.keptTotal + counters.dropped + tagged.inner.traceIds.card := by rw [hcard]

end Kaleidoscope.Sieve
