import Kaleidoscope.Library.Buckets

/-!
# The head sampler

A trace is kept when one of its spans bears an error, and otherwise by the hash of its id. The
sampler sees the spans that it is shown, which are those of one request.
-/

namespace Kaleidoscope.Sieve

/-- `StatusCode::Error`. -/
def statusCodeError : Int := 2

/-- The status of a span. -/
structure Status where
  message : String
  code : Int
  deriving DecidableEq, Repr

/-- A span; `rest` is what neither the sampler nor the decorator looks at. -/
structure Span (P : Type) where
  traceId : List UInt8
  status : Option Status
  rest : P
  deriving DecidableEq, Repr

/-- A canonical trace id. -/
abbrev TraceId := { bytes : List UInt8 // bytes.length = 16 }

/-- The trace of a span, if its trace id has the canonical length. -/
def Span.trace? {P : Type} (span : Span P) : Option TraceId :=
  if h : span.traceId.length = 16 then some ⟨span.traceId, h⟩ else none

/-- Whether a span carries the error code. -/
def Span.isError {P : Type} (span : Span P) : Bool :=
  span.status.map Status.code == some statusCodeError

/-- `is_error_bearing`. -/
def isErrorBearing {P : Type} (spans : List (Span P)) : Bool := spans.any Span.isError

/-- What is done with a trace. -/
inductive Decision where
  | keep
  | drop
  deriving DecidableEq, Repr

/-- A head sampler at a rate in the unit interval. -/
structure HeadSampler where
  rate : ℚ
  rate_nonneg : 0 ≤ rate
  rate_le_one : rate ≤ 1

/-- `hash as f64`: the nearest number of 53 significant bits, the even one of two. -/
def asF64 (hash : UInt64) : Nat :=
  let n := hash.toNat
  let exponent := n.log2 - 52
  let unit := 2 ^ exponent
  let floor := n / unit
  let rest := 2 * (n % unit)
  if unit < rest ∨ (rest = unit ∧ floor % 2 = 1) then (floor + 1) * unit else floor * unit

/-- `mapped_to_unit_interval`; dividing by a power of two is exact. -/
def mappedToUnitInterval (hash : UInt64) : ℚ := asF64 hash / 2 ^ 64

/-- Hashes are mapped in order into the closed interval: those at the top are mapped to one. -/
example : mappedToUnitInterval 0 = 0 ∧ mappedToUnitInterval (2 ^ 63) = 1 / 2 ∧
    mappedToUnitInterval (2 ^ 64 - 1) = 1 := by decide +kernel

variable {P : Type} (xxh3_64 : TraceId → UInt64)

/-- The hash of a trace id keeps the trace. -/
def HeadSampler.Samples (sampler : HeadSampler) (traceId : TraceId) : Prop :=
  mappedToUnitInterval (xxh3_64 traceId) < sampler.rate

instance (sampler : HeadSampler) (traceId : TraceId) :
    Decidable (sampler.Samples xxh3_64 traceId) :=
  inferInstanceAs (Decidable (_ < _))

/-- `sample`. -/
def HeadSampler.sample (sampler : HeadSampler) (traceId : TraceId) (spans : List (Span P)) :
    Decision :=
  if isErrorBearing spans then .keep
  else if sampler.Samples xxh3_64 traceId then .keep
  else .drop

theorem HeadSampler.sample_eq_keep {sampler : HeadSampler} {traceId : TraceId}
    {spans : List (Span P)} :
    sampler.sample xxh3_64 traceId spans = .keep ↔
      isErrorBearing spans = true ∨ sampler.Samples xxh3_64 traceId := by
  rw [sample]
  split_ifs with herror hsamples
  · exact iff_of_true rfl (.inl herror)
  · exact iff_of_true rfl (.inr hsamples)
  · exact iff_of_false (by simp) fun hc => hc.elim herror hsamples

end Kaleidoscope.Sieve
