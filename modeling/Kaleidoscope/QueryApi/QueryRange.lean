import Kaleidoscope.Pulse.Memory
import Kaleidoscope.QueryApi.Matrix

/-!
# Range queries

The handler asks the store once for all points of the window and filters what it returns.
-/

namespace Kaleidoscope.QueryApi

open Aegis HashMap Pulse

/-- The order in which the store visits its series. -/
abbrev VisitOrder := IterOrder Pulse.Key SeriesEntry

/-- Time bounds in whole seconds, as `parse_time_range` reads them. -/
structure EpochRange where
  startSecs : Nat
  endSecs : Nat

/-- The widest window that is served. -/
def maxWindowSeconds : Nat := 86400

/-- The most series that are returned. -/
def maxResultRows : Nat := 100000

def reasonWindowTooLarge : String := "window exceeds 86400 seconds"

def reasonTooManyRows : String := "result exceeds 100000 rows"

/-- `seconds_to_nanos`, which saturates. -/
def secondsToNanos (seconds : Nat) : Nat := min (seconds * 1000000000) u64Max

/-- What the handler answers. -/
inductive Response where
  | success (result : List PromMatrixEntry)
  | error (status : Nat) (reason : String)

/-- The rows that the store returns and the filter retains. -/
def selectedRows (visit : VisitOrder) (state : Inner) (tenant : TenantId) (name : MetricName)
    (range : TimeRange) (filter : MatcherFilter) : List Row :=
  (query visit state tenant name range).filter fun row => keepRow row.1 row.2 filter

/-- `handle_query_range`, from the resolved tenant and what the bounds and the selector parse
to. -/
def handleQueryRange (display : UInt64 → String) (compile : Compile) (visit : VisitOrder)
    (state : Inner) (resolved : Except Response TenantId) (bounds : Except String EpochRange)
    (parsed : Except String Selector) : Response :=
  match resolved with
  | .error response => response
  | .ok tenant =>
    match bounds with
    | .error reason => .error 400 reason
    | .ok tr =>
      if tr.endSecs - tr.startSecs > maxWindowSeconds then .error 400 reasonWindowTooLarge
      else
        let range : TimeRange := ⟨secondsToNanos tr.startSecs, secondsToNanos tr.endSecs⟩
        match parsed with
        | .error reason => .error 400 reason
        | .ok selector =>
          match buildFilter compile selector.matchers with
          | .error reason => .error 400 reason
          | .ok filter =>
            let result :=
              toMatrix display (selectedRows visit state tenant selector.name range filter)
            if result.length > maxResultRows then .error 400 reasonTooManyRows
            else .success result

/-- `handle_query_range`, over the query of a store, which may fail. -/
def handleQueryRangeOver (display : UInt64 → String) (compile : Compile)
    (query : TenantId → MetricName → TimeRange → Except String (List Row))
    (resolved : Except Response TenantId) (bounds : Except String EpochRange)
    (parsed : Except String Selector) : Response :=
  match resolved with
  | .error response => response
  | .ok tenant =>
    match bounds with
    | .error reason => .error 400 reason
    | .ok tr =>
      if tr.endSecs - tr.startSecs > maxWindowSeconds then .error 400 reasonWindowTooLarge
      else
        match parsed with
        | .error reason => .error 400 reason
        | .ok selector =>
          match buildFilter compile selector.matchers with
          | .error reason => .error 400 reason
          | .ok filter =>
            match query tenant selector.name
              ⟨secondsToNanos tr.startSecs, secondsToNanos tr.endSecs⟩ with
            | .error _ => .error 500 "the backing metric store could not be read"
            | .ok rows =>
              let result := toMatrix display (rows.filter fun row => keepRow row.1 row.2 filter)
              if result.length > maxResultRows then .error 400 reasonTooManyRows
              else .success result

/-- The query of the file-backed store never fails. -/
theorem handleQueryRange_eq_over (display : UInt64 → String) (compile : Compile)
    (visit : VisitOrder) (state : Inner) (resolved : Except Response TenantId)
    (bounds : Except String EpochRange) (parsed : Except String Selector) :
    handleQueryRange display compile visit state resolved bounds parsed =
      handleQueryRangeOver display compile
        (fun tenant name range => .ok (query visit state tenant name range)) resolved bounds
        parsed := by
  rfl

/-- The series that a response returns are those of `to_matrix` for some selected rows. -/
theorem handleQueryRange_success {display : UInt64 → String} {compile : Compile}
    {visit : VisitOrder} {state : Inner} {tenant : TenantId} {bounds : Except String EpochRange}
    {parsed : Except String Selector} {result : List PromMatrixEntry}
    (h : handleQueryRange display compile visit state (.ok tenant) bounds parsed =
      .success result) :
    ∃ tr selector filter, bounds = .ok tr ∧ parsed = .ok selector ∧
      buildFilter compile selector.matchers = .ok filter ∧
      result = toMatrix display (selectedRows visit state tenant selector.name
        ⟨secondsToNanos tr.startSecs, secondsToNanos tr.endSecs⟩ filter) := by
  cases bounds with
  | error reason => cases h
  | ok tr =>
    simp only [handleQueryRange] at h
    split at h
    · cases h
    · cases parsed with
      | error reason => cases h
      | ok selector =>
        cases hfilter : buildFilter compile selector.matchers with
        | error reason =>
          simp only [hfilter] at h
          cases h
        | ok filter =>
          simp only [hfilter] at h
          split at h
          · cases h
          · exact ⟨tr, selector, filter, rfl, rfl, hfilter, (Response.success.inj h).symm⟩

end Kaleidoscope.QueryApi
