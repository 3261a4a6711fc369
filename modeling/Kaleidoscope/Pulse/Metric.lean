import Kaleidoscope.Library.BTreeMap

/-!
# Metrics

A point carries its value as a double. The JSON document of a point carries a number or
`null` in the same place, so the types that hold points are generic in their values.
-/

namespace Kaleidoscope.Pulse

/-- An `f64`; finite values by their bit pattern. -/
inductive F64 where
  | finite (bits : UInt64)
  | nan
  | posInf
  | negInf
  deriving DecidableEq, Repr

/-- Whether a value is neither infinite nor not a number. -/
def F64.IsFinite (v : F64) : Prop := ∃ bits, v = .finite bits

/-- What a JSON document holds where a value is expected. -/
inductive JsonNumber where
  | number (bits : UInt64)
  | null
  deriving DecidableEq, Repr

/-- How `serde_json` writes an `f64`: a value that is not finite becomes `null`. -/
def F64.toJson : F64 → JsonNumber
  | .finite bits => .number bits
  | _ => .null

/-- What is read where a double was written: most of the time that double, else one close to it. -/
abbrev NumberReader := UInt64 → Except String UInt64

/-- How `serde_json` reads an `f64`. -/
def JsonNumber.toF64 (read : NumberReader) : JsonNumber → Except String F64
  | .number bits => (read bits).map .finite
  | .null => .error "invalid type: null, expected f64"

/-- Whether a value is finite and given back by the reader. -/
def F64.ReadsBack (read : NumberReader) (v : F64) : Prop :=
  ∃ bits, v = .finite bits ∧ read bits = .ok bits

/-- Such a value round-trips. -/
theorem F64.ReadsBack.toF64_toJson {read : NumberReader} {v : F64} (h : v.ReadsBack read) :
    v.toJson.toF64 read = .ok v := by
  obtain ⟨bits, rfl, hread⟩ := h
  rw [F64.toJson, JsonNumber.toF64, hread]
  rfl

/-- A reader that is exact gives back every finite value. -/
theorem F64.IsFinite.readsBack {v : F64} (h : v.IsFinite) : v.ReadsBack .ok := by
  obtain ⟨bits, rfl⟩ := h
  exact ⟨bits, rfl, rfl⟩

/-- A value that is not finite does not decode. -/
theorem F64.toF64_toJson_of_not (read : NumberReader) {v : F64} (h : ¬ v.IsFinite) :
    v.toJson.toF64 read = .error "invalid type: null, expected f64" := by
  cases v with
  | finite bits => exact absurd ⟨bits, rfl⟩ h
  | _ => rfl

/-- Metric name. -/
structure MetricName where
  name : String
  deriving DecidableEq, Repr

/-- The point shape of a metric. -/
inductive MetricKind where
  | gauge
  | sum
  deriving DecidableEq, Repr

/-- One observation. -/
structure MetricPointOf (V : Type) where
  timeUnixNano : Nat
  startTimeUnixNano : Nat
  attributes : BTreeMap String
  value : V
  deriving DecidableEq

/-- One metric definition with the points belonging to it. -/
structure MetricOf (V : Type) where
  name : MetricName
  description : String
  unit : String
  kind : MetricKind
  points : List (MetricPointOf V)
  resourceAttributes : BTreeMap String
  deriving DecidableEq

abbrev MetricPoint := MetricPointOf F64

abbrev Metric := MetricOf F64

/-- Series identity within a tenant: the name of a metric and its full label set. -/
structure SeriesKey where
  name : MetricName
  resourceAttributes : BTreeMap String
  deriving DecidableEq

/-- The series a metric belongs to. -/
def SeriesKey.of {V : Type} (metric : MetricOf V) : SeriesKey :=
  ⟨metric.name, metric.resourceAttributes⟩

/-- A batch of metrics of one tenant. -/
structure MetricBatch where
  metrics : List Metric

/-- Whether a batch has no metrics. -/
def MetricBatch.isEmpty (batch : MetricBatch) : Bool := batch.metrics.isEmpty

/-- Half-open time range in nanoseconds since the Unix epoch. -/
structure TimeRange where
  startUnixNano : Nat
  endUnixNano : Nat

/-- Whether a time falls into the range. -/
def TimeRange.contains (range : TimeRange) (t : Nat) : Bool :=
  range.startUnixNano ≤ t && t < range.endUnixNano

section Values

variable {V W : Type}

/-- Replace the value of a point. -/
def MetricPointOf.map (f : V → W) (p : MetricPointOf V) : MetricPointOf W :=
  ⟨p.timeUnixNano, p.startTimeUnixNano, p.attributes, f p.value⟩

/-- Replace the value of a point, where that may fail. -/
def MetricPointOf.mapM (f : V → Except String W) (p : MetricPointOf V) :
    Except String (MetricPointOf W) :=
  (f p.value).map fun v => ⟨p.timeUnixNano, p.startTimeUnixNano, p.attributes, v⟩

/-- Replace the values of a metric. -/
def MetricOf.map (f : V → W) (m : MetricOf V) : MetricOf W :=
  ⟨m.name, m.description, m.unit, m.kind, m.points.map (MetricPointOf.map f), m.resourceAttributes⟩

/-- Replace the values of a metric, where that may fail. -/
def MetricOf.mapM (f : V → Except String W) (m : MetricOf V) : Except String (MetricOf W) :=
  (m.points.mapM (MetricPointOf.mapM f)).map fun points =>
    ⟨m.name, m.description, m.unit, m.kind, points, m.resourceAttributes⟩

end Values

/-- Filters of a query; those that are set are all required. -/
structure Predicate where
  service : Option String
  labelEq : BTreeMap String

/-- Whether a point of a metric passes every filter. -/
def Predicate.isMatch (predicate : Predicate) (metric : Metric) (point : MetricPoint) : Bool :=
  (match predicate.service with
    | some target => metric.resourceAttributes.get "service.name" = some target
    | none => true) &&
  predicate.labelEq.entries.all fun e => point.attributes.get e.1 = some e.2

/-- Every value of the points has a property. -/
def AllValues (p : F64 → Prop) (points : List MetricPoint) : Prop := ∀ point ∈ points, p point.value

end Kaleidoscope.Pulse
