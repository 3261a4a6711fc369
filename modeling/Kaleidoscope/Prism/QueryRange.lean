import Kaleidoscope.Library.Json

/-!
# Answers to range queries

`queryRange` waits twice, for the head of the response and for its body. Whatever either wait ends
with becomes an outcome.
-/

namespace Kaleidoscope.Prism

/-- `RelativeOffset`. -/
inductive RelativeOffset where
  | last5m
  | last15m
  | last1h
  | last6h
  | last24h
  deriving DecidableEq, Repr

/-- `TimeRange`; the ends of an absolute one are in milliseconds. -/
inductive TimeRange where
  | relative (offset : RelativeOffset)
  | absolute (fromMs toMs : Int)
  deriving DecidableEq, Repr

/-- `QueryRangeRequest`. -/
structure QueryRangeRequest where
  q : String
  range : TimeRange
  deriving DecidableEq, Repr

/-- `TransportCause`. -/
inductive TransportCause where
  | network (message : String)
  | httpStatus (status : Nat) (message : String)
  | invalidJson (message : String)
  | shape (message : String)
  | aborted
  deriving DecidableEq, Repr

/-- `QueryOutcome`, with series from `S`. -/
inductive QueryOutcome (S : Type) where
  | success (series : List S) (queryMs : Nat)
  | empty (queryMs : Nat)
  | parseError (backendError : String) (queryMs : Nat)
  | transportError (cause : TransportCause) (queryMs : Nat)
  | configError (message : String) (queryMs : Nat)
  deriving DecidableEq, Repr

/-- What a promise is rejected with: an `Error`, or anything else with its `String(err)`. -/
inductive Thrown where
  | error (name message : String)
  | other (text : String)
  deriving DecidableEq, Repr

/-- Whether an error is the one an aborted `fetch` is rejected with. -/
def Thrown.IsAbort : Thrown → Prop
  | .error name _ => name = "AbortError"
  | .other _ => False

instance : DecidablePred Thrown.IsAbort
  | .error name _ => inferInstanceAs (Decidable (name = "AbortError"))
  | .other _ => isFalse id

/-- `err.message`, or `String(err)`. -/
def Thrown.text : Thrown → String
  | .error _ message => message
  | .other text => text

/-- The head of a response. -/
structure Head where
  ok : Bool
  status : Nat
  deriving DecidableEq, Repr

/-- A response whose body was waited for. -/
structure Response where
  head : Head
  text : Except Thrown String
  deriving DecidableEq

/-- What `queryRange` reads a body with: `JSON.parse`, and `parseSeries` with the labels of the
series, which throws at an entry that is none. -/
structure Reader (N S : Type) where
  json : String → Except Thrown (Json N)
  series : List (Json N) → Option (List S)

variable {N S : Type}

/-- `isPromError`, with the error. -/
def promError? (json : Json N) : Option String :=
  match json.member? "status", json.member? "error" with
  | some (.string "error"), some (.string error) => some error
  | _, _ => none

/-- `isPromSuccess`, with the result. -/
def promResult? (json : Json N) : Option (List (Json N)) :=
  match json.member? "status", json.member? "data" with
  | some (.string "success"), some data => (data.member? "result").bind Json.elements?
  | _, _ => none

/-- The outcome of a `fetch` that was rejected. -/
def fetchRejected (err : Thrown) (queryMs : Nat) : QueryOutcome S :=
  .transportError (if err.IsAbort then .aborted else .network err.text) queryMs

/-- The outcome of a body that is not read to its end. -/
def textRejected (err : Thrown) (queryMs : Nat) : QueryOutcome S :=
  .transportError (.network err.text) queryMs

/-- The first code units of a text, of which a character beyond the basic plane takes two. The half
of a character that is cut is shown as the replacement character. -/
def sliceUnits : Nat → List Char → List Char
  | 0, _ => []
  | _, [] => []
  | 1, c :: _ => if c.toNat < 0x10000 then [c] else ['\uFFFD']
  | n + 2, c :: t =>
    if c.toNat < 0x10000 then c :: sliceUnits (n + 1) t else c :: sliceUnits n t

/-- `body.slice(0, 200)`. -/
def excerpt (body : String) : String := String.ofList (sliceUnits 200 body.toList)

/-- The outcome of a body; none where the series are none. -/
def bodyRead (reader : Reader N S) (head : Head) (body : String) (queryMs : Nat) :
    Option (QueryOutcome S) :=
  let json := reader.json body
  if !head.ok then
    match json.toOption.bind promError? with
    | some error => some (.parseError error queryMs)
    | none => some (.transportError (.httpStatus head.status (excerpt body)) queryMs)
  else
    match json with
    | .error err => some (.transportError (.invalidJson err.text) queryMs)
    | .ok json =>
      match promError? json with
      | some error => some (.parseError error queryMs)
      | none =>
        match promResult? json with
        | none => some (.transportError (.shape "response missing data.result") queryMs)
        | some [] => some (.empty queryMs)
        | some result => (reader.series result).map fun series => .success series queryMs

/-- `queryRange` for a context without headers; none where it throws. -/
def queryRange (reader : Reader N S) (fetched : Except Thrown Response) (queryMs : Nat) :
    Option (QueryOutcome S) :=
  match fetched with
  | .error err => some (fetchRejected err queryMs)
  | .ok response =>
    match response.text with
    | .error err => some (textRejected err queryMs)
    | .ok body => bodyRead reader response.head body queryMs

/-- Whether an outcome is that of an aborted request. -/
def QueryOutcome.isAborted : QueryOutcome S → Bool
  | .transportError .aborted _ => true
  | _ => false

theorem isAborted_of_bodyRead {reader : Reader N S} {head : Head} {body : String} {queryMs : Nat}
    {outcome : QueryOutcome S} (h : bodyRead reader head body queryMs = some outcome) :
    outcome.isAborted = false := by
  simp only [bodyRead] at h
  split_ifs at h
  · split at h <;> cases h <;> rfl
  · split at h
    · cases h
      rfl
    · split at h
      · cases h
        rfl
      · split at h
        · cases h
          rfl
        · cases h
          rfl
        · obtain ⟨series, -, rfl⟩ := Option.map_eq_some_iff.mp h
          rfl

/-- Only a `fetch` that was rejected as aborted has the outcome of an aborted request. -/
theorem isAborted_iff {reader : Reader N S} {fetched : Except Thrown Response} {queryMs : Nat}
    {outcome : QueryOutcome S} (h : queryRange reader fetched queryMs = some outcome) :
    outcome.isAborted = true ↔ ∃ err, fetched = .error err ∧ err.IsAbort := by
  cases fetched with
  | error err =>
    cases h
    by_cases habort : err.IsAbort
    · simp [fetchRejected, habort, QueryOutcome.isAborted]
    · simp [fetchRejected, habort, QueryOutcome.isAborted]
  | ok response =>
    have hread : outcome.isAborted = false := by
      rw [queryRange] at h
      split at h
      · cases h
        rfl
      · exact isAborted_of_bodyRead h
    simp [hread]

end Kaleidoscope.Prism
