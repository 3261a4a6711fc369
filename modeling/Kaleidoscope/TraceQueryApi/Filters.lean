import Kaleidoscope.Library.Grouping
import Kaleidoscope.QueryApi.QueryRange
import Kaleidoscope.Ray.Span

/-!
# Filtered trace listings

Each filter looks for evidence in the spans that it is given and keeps whole traces. The second
filter finds its evidence in what the first one has left.
-/

namespace Kaleidoscope.TraceQueryApi

open Aegis Grouping Ray

/-- A span with the status `Error`. -/
def Failed (span : Span) : Bool := span.status.code = .error

/-- A span whose attributes have a key with a value. -/
def Carries (key value : String) (span : Span) : Bool :=
  ((span.attributes.get key).map (· == value)).getD false

/-- `retain_failed_traces`. -/
def retainFailedTraces (spans : List Span) : List Span := retain Span.traceId Failed spans

/-- `retain_traces_with_attribute`. -/
def retainTracesWithAttribute (spans : List Span) (key value : String) : List Span :=
  retain Span.traceId (Carries key value) spans

/-! ## The handler -/

/-- `ErrorFilter`. -/
inductive ErrorFilter where
  | off
  | onlyFailedTraces
  deriving DecidableEq, Repr

/-- `parse_error_filter`. -/
def parseErrorFilter (raw : Option String) : Except String ErrorFilter :=
  match raw with
  | none => .ok .off
  | some value =>
    if value.toLower = "true" then .ok .onlyFailedTraces
    else if value.toLower = "false" then .ok .off
    else .error "invalid request: error must be true or false"

/-- `AttributeFilter`. -/
inductive AttributeFilter where
  | off
  | matchingTraces (key value : String)
  deriving DecidableEq, Repr

/-- `parse_attribute_filter`: both or neither. -/
def parseAttributeFilter (attrKey attrValue : Option String) : Except String AttributeFilter :=
  let key := attrKey.getD ""
  let value := attrValue.getD ""
  match key.isEmpty, value.isEmpty with
  | true, true => .ok .off
  | false, false => .ok (.matchingTraces key value)
  | _, _ => .error "invalid request: attr_key and attr_value must both be present"

/-- `read_required_service`. -/
def readRequiredService (raw : Option String) : Except String ServiceName :=
  match raw with
  | some s =>
    if s.isEmpty then .error "invalid request: service is empty" else .ok ⟨s⟩
  | none => .error "invalid request: service is required"

/-- The parameters of a listing besides its bounds. -/
structure TracesParams where
  service : Option String
  error : Option String
  attrKey : Option String
  attrValue : Option String

/-- What the handler answers. -/
inductive Response where
  | success (spans : List Span)
  | error (status : Nat) (reason : String)

/-- Apply the error filter. -/
def ErrorFilter.apply : ErrorFilter → List Span → List Span
  | off, spans => spans
  | onlyFailedTraces, spans => retainFailedTraces spans

/-- Apply the attribute filter. -/
def AttributeFilter.apply : AttributeFilter → List Span → List Span
  | off, spans => spans
  | matchingTraces key value, spans => retainTracesWithAttribute spans key value

/-- `handle_traces`, from the resolved tenant and what the bounds parse to, over the query of a
store. -/
def handleTraces (query : TenantId → ServiceName → TimeRange → Except String (List Span))
    (resolved : Except Response TenantId) (params : TracesParams)
    (bounds : Except String QueryApi.EpochRange) : Response :=
  match resolved with
  | .error response => response
  | .ok tenant =>
    match readRequiredService params.service with
    | .error reason => .error 400 reason
    | .ok service =>
      match bounds with
      | .error reason => .error 400 reason
      | .ok tr =>
        if tr.endSecs - tr.startSecs > QueryApi.maxWindowSeconds then
          .error 400 QueryApi.reasonWindowTooLarge
        else
          match parseErrorFilter params.error with
          | .error reason => .error 400 reason
          | .ok errorFilter =>
            match parseAttributeFilter params.attrKey params.attrValue with
            | .error reason => .error 400 reason
            | .ok attributeFilter =>
              match query tenant service
                ⟨QueryApi.secondsToNanos tr.startSecs, QueryApi.secondsToNanos tr.endSecs⟩ with
              | .error _ => .error 500 "the backing trace store could not be read"
              | .ok spans =>
                let spans := attributeFilter.apply (errorFilter.apply spans)
                if spans.length > QueryApi.maxResultRows then
                  .error 400 QueryApi.reasonTooManyRows
                else .success spans

/-! ## Whole traces -/

/-- Some span of a trace has failed. -/
def HasFailed (spans : List Span) (id : TraceId) : Prop :=
  ∃ span ∈ spans, span.status.code = .error ∧ span.traceId = id

/-- Some span of a trace has an attribute. -/
def HasAttribute (spans : List Span) (key value : String) (id : TraceId) : Prop :=
  ∃ span ∈ spans, span.attributes.get key = some value ∧ span.traceId = id

instance (spans : List Span) (id : TraceId) : Decidable (HasFailed spans id) :=
  inferInstanceAs (Decidable (∃ span ∈ spans, span.status.code = .error ∧ span.traceId = id))

instance (spans : List Span) (key value : String) (id : TraceId) :
    Decidable (HasAttribute spans key value id) :=
  inferInstanceAs (Decidable
    (∃ span ∈ spans, span.attributes.get key = some value ∧ span.traceId = id))

theorem carries_iff {key value : String} {span : Span} :
    Carries key value span = true ↔ span.attributes.get key = some value := by
  rw [Carries]
  cases span.attributes.get key <;> simp

theorem marked_failed_iff {spans : List Span} {id : TraceId} :
    Marked Span.traceId Failed spans id ↔ HasFailed spans id := by
  simp only [Marked, HasFailed, Failed, decide_eq_true_eq]

theorem marked_carries_iff {spans : List Span} {key value : String} {id : TraceId} :
    Marked Span.traceId (Carries key value) spans id ↔ HasAttribute spans key value id := by
  simp only [Marked, HasAttribute, carries_iff]

/-- What the filters do with spans. -/
structure TraceWise (spans : List Span) (key value : String) : Prop where
  failed : retainFailedTraces spans = spans.filter fun span => HasFailed spans span.traceId
  attributed : retainTracesWithAttribute spans key value =
    spans.filter fun span => HasAttribute spans key value span.traceId
  comm : retainTracesWithAttribute (retainFailedTraces spans) key value =
    retainFailedTraces (retainTracesWithAttribute spans key value)
  failed_idem : retainFailedTraces (retainFailedTraces spans) = retainFailedTraces spans
  attributed_idem :
    retainTracesWithAttribute (retainTracesWithAttribute spans key value) key value =
      retainTracesWithAttribute spans key value
  /-- The evidence of the two filters may be in different spans. -/
  both : retainTracesWithAttribute (retainFailedTraces spans) key value = spans.filter fun span =>
    HasFailed spans span.traceId ∧ HasAttribute spans key value span.traceId

/-- The filters work by traces, in any order and as often as one likes. -/
theorem traceWise (spans : List Span) (key value : String) : TraceWise spans key value where
  failed := by
    rw [retainFailedTraces, retain_eq_filter]
    simp only [marked_failed_iff]
  attributed := by
    rw [retainTracesWithAttribute, retain_eq_filter]
    simp only [marked_carries_iff]
  comm := retain_comm _ _ _ _
  failed_idem := retain_idem _ _ _
  attributed_idem := retain_idem _ _ _
  both := by
    rw [retainTracesWithAttribute, retainFailedTraces, retain_retain]
    simp only [marked_failed_iff, marked_carries_iff, and_comm]

/-! ## Filtered listings -/

/-- The spans of a listing, among those that the store returned. -/
def Listed (errorFilter : ErrorFilter) (attributeFilter : AttributeFilter) (found : List Span)
    (span : Span) : Prop :=
  (errorFilter = .onlyFailedTraces → HasFailed found span.traceId) ∧
    ∀ key value, attributeFilter = .matchingTraces key value →
      HasAttribute found key value span.traceId

/-- The filters of a request keep, in their order, the spans of the traces that have all the
evidence in the scope of the request. -/
theorem apply_filters (errorFilter : ErrorFilter) (attributeFilter : AttributeFilter)
    (found : List Span) :
    (attributeFilter.apply (errorFilter.apply found)).Sublist found ∧
      ∀ span, span ∈ attributeFilter.apply (errorFilter.apply found) ↔
        span ∈ found ∧ Listed errorFilter attributeFilter found span := by
  cases errorFilter with
  | off =>
    cases attributeFilter with
    | off => exact ⟨.refl _, fun span => by simp [ErrorFilter.apply, AttributeFilter.apply, Listed]⟩
    | matchingTraces key value =>
      rw [AttributeFilter.apply, ErrorFilter.apply, (traceWise found key value).attributed]
      exact ⟨List.filter_sublist, fun span => by simp [Listed]⟩
  | onlyFailedTraces =>
    cases attributeFilter with
    | off =>
      rw [AttributeFilter.apply, ErrorFilter.apply, (traceWise found "" "").failed]
      exact ⟨List.filter_sublist, fun span => by simp [Listed]⟩
    | matchingTraces key value =>
      rw [AttributeFilter.apply, ErrorFilter.apply, (traceWise found key value).both]
      exact ⟨List.filter_sublist, fun span => by simp [Listed]⟩

theorem eq_of_readRequiredService {raw : Option String} {service : ServiceName}
    (h : readRequiredService raw = .ok service) : raw = some service.name := by
  cases raw with
  | none => cases h
  | some s =>
    rw [readRequiredService] at h
    split_ifs at h
    cases h
    rfl

/-- A listing that is served has the spans that the store returned for its window, in their order,
of the traces with the evidence that its filters ask for. -/
theorem handleTraces_success
    {query : TenantId → ServiceName → TimeRange → Except String (List Span)} {tenant : TenantId}
    {params : TracesParams} {bounds : Except String QueryApi.EpochRange} {spans : List Span}
    (h : handleTraces query (.ok tenant) params bounds = .success spans) :
    ∃ service tr errorFilter attributeFilter found,
      params.service = some service.name ∧ bounds = .ok tr ∧
      parseErrorFilter params.error = .ok errorFilter ∧
      parseAttributeFilter params.attrKey params.attrValue = .ok attributeFilter ∧
      query tenant service
        ⟨QueryApi.secondsToNanos tr.startSecs, QueryApi.secondsToNanos tr.endSecs⟩ = .ok found ∧
      spans.Sublist found ∧
        ∀ span, span ∈ spans ↔ span ∈ found ∧ Listed errorFilter attributeFilter found span := by
  cases hservice : readRequiredService params.service with
  | error reason =>
    simp only [handleTraces, hservice] at h
    cases h
  | ok service =>
    cases bounds with
    | error reason =>
      simp only [handleTraces, hservice] at h
      cases h
    | ok tr =>
      simp only [handleTraces, hservice] at h
      split at h
      · cases h
      · split at h
        · cases h
        · next errorFilter herror =>
          split at h
          · cases h
          · next attributeFilter hattribute =>
            split at h
            · cases h
            · next found hfound =>
              split at h
              · cases h
              · obtain rfl := Response.success.inj h
                exact ⟨service, tr, errorFilter, attributeFilter, found,
                  eq_of_readRequiredService hservice, rfl, herror, hattribute, hfound,
                  apply_filters errorFilter attributeFilter found⟩

end Kaleidoscope.TraceQueryApi
