import Std.Data.String.ToNat
import Kaleidoscope.Library.Counter
import Kaleidoscope.Library.Json
import Kaleidoscope.Library.Traverse
import Kaleidoscope.Cinder.Tier

/-!
# Self-observation as OTLP-JSON lines

Both writers emit one line for an event, a `ResourceMetrics` with a single point, under a declared
temporality. The structs of the two lines are the same but for the number of point attributes.
-/

namespace Kaleidoscope.SelfObserve

open Counter

/-- A tenant. -/
abbrev TenantId := String

/-- A line as a parsed document. -/
abbrev Line := Json Int

/-- An `OtlpAttr`. -/
def otlpAttr (attr : String × String) : Line :=
  .object [("key", .string attr.1), ("value", .object [("stringValue", .string attr.2)])]

/-- An `OtlpNumberPoint`; the integers are strings. -/
def otlpNumberPoint (attributes : List (String × String)) (timeUnixNano asInt : String) : Line :=
  .object [("attributes", .array (attributes.map otlpAttr)), ("timeUnixNano", .string timeUnixNano),
    ("asInt", .string asInt)]

/-- An `OtlpSum` with a single point. -/
def otlpSum (aggregationTemporality : Nat) (isMonotonic : Bool) (point : Line) : Line :=
  .object [("aggregationTemporality", .number aggregationTemporality),
    ("isMonotonic", .bool isMonotonic), ("dataPoints", .array [point])]

/-- An `OtlpResourceMetrics` with a single metric. -/
def otlpResourceMetrics (tenant : TenantId) (scopeName metricName : String) (sum : Line) : Line :=
  .object [
    ("resource", .object [("attributes", .array [otlpAttr ("tenant_id", tenant)])]),
    ("scopeMetrics", .array [.object [
      ("scope", .object [("name", .string scopeName)]),
      ("metrics", .array [.object [("name", .string metricName), ("sum", sum)]])]])]

/-- `LumenToOtlpJsonWriter::emit` at the time `nowNs`. -/
def lumenEmit (nowNs : Nat) (tenant : TenantId) (metricName : String) (value : Nat) : Line :=
  otlpResourceMetrics tenant "kaleidoscope.lumen" metricName
    (otlpSum 2 true (otlpNumberPoint [("tenant_id", tenant)] (toString nowNs) (toString value)))

/-- `CinderToOtlpJsonWriter::emit` at the time `nowNs`. -/
def cinderEmit (nowNs : Nat) (tenant : TenantId) (metricName value : String)
    (pointAttrs : List (String × String)) : Line :=
  otlpResourceMetrics tenant "kaleidoscope.cinder" metricName
    (otlpSum 2 true (otlpNumberPoint pointAttrs (toString nowNs) value))

/-- `tier_lowercase`. -/
def tierLowercase : Cinder.Tier → String
  | .hot => "hot"
  | .warm => "warm"
  | .cold => "cold"

/-- A call of a recorder. -/
inductive Event where
  | ingest (tenant : TenantId) (recordCount : Nat)
  | query (tenant : TenantId) (matchedCount : Nat)
  | place (tenant : TenantId) (tier : Cinder.Tier)
  | migrate (tenant : TenantId) (source target : Cinder.Tier)
  | evaluate (tenant : TenantId) (migrated : Nat)
  deriving DecidableEq

/-- `record_ingest`, `record_query`, `record_place`, `record_migrate` and `record_evaluate`. -/
def Event.line (nowNs : Nat) : Event → Line
  | ingest tenant recordCount => lumenEmit nowNs tenant "lumen.ingest.count" recordCount
  | query tenant matchedCount => lumenEmit nowNs tenant "lumen.query.count" matchedCount
  | place tenant tier =>
    cinderEmit nowNs tenant "cinder.place.count" "1"
      [("tenant_id", tenant), ("tier", tierLowercase tier)]
  | migrate tenant source target =>
    cinderEmit nowNs tenant "cinder.migrate.count" "1"
      [("tenant_id", tenant), ("from", tierLowercase source), ("to", tierLowercase target)]
  | evaluate tenant migrated =>
    cinderEmit nowNs tenant "cinder.evaluate.migrated.count" (toString migrated)
      [("tenant_id", tenant)]

/-! ## Reading a line -/

/-- What a point belongs to. -/
structure Series where
  name : String
  tenant : String
  attributes : List (String × String)
  deriving DecidableEq

/-- The declared temporalities of the protocol. -/
def readTemporality : Int → Option Temporality
  | 1 => some .delta
  | 2 => some .cumulative
  | _ => none

/-- A key with its text. -/
def readAttribute (json : Line) : Option (String × String) := do
  let key ← (← json.member? "key").string?
  let value ← (← (← json.member? "value").member? "stringValue").string?
  return (key, value)

/-- The attributes under a key. -/
def readAttributes (json : Line) : Option (List (String × String)) := do
  (← (← json.member? "attributes").elements?).mapM readAttribute

/-- A point of a sum. -/
def readPoint (name tenant : String) (temporality : Temporality) (isMonotonic : Bool)
    (json : Line) : Option (Point Series) := do
  let attributes ← readAttributes json
  let value ← (← (← json.member? "asInt").string?).toNat?
  return ⟨⟨name, tenant, attributes⟩, temporality, isMonotonic, value⟩

/-- The points of a metric. -/
def readMetric (tenant : String) (json : Line) : Option (List (Point Series)) := do
  let name ← (← json.member? "name").string?
  let sum ← json.member? "sum"
  let temporality ← readTemporality (← (← sum.member? "aggregationTemporality").number?)
  let isMonotonic ← (← sum.member? "isMonotonic").bool?
  (← (← sum.member? "dataPoints").elements?).mapM (readPoint name tenant temporality isMonotonic)

/-- The points of the metrics of a scope. -/
def readScope (tenant : String) (json : Line) : Option (List (Point Series)) := do
  let points ← (← (← json.member? "metrics").elements?).mapM (readMetric tenant)
  return points.flatten

/-- The points of a line. -/
def readLine (json : Line) : Option (List (Point Series)) := do
  let resource ← readAttributes (← json.member? "resource")
  let tenant ← resource.lookup "tenant_id"
  let points ← (← (← json.member? "scopeMetrics").elements?).mapM (readScope tenant)
  return points.flatten

/-- The points of a stream of lines. -/
def readStream (lines : List Line) : Option (List (Point Series)) := do
  let points ← lines.mapM readLine
  return points.flatten

/-! ## What is counted -/

/-- The series of an event with what the event adds to it. -/
def Event.amount : Event → Series × Nat
  | ingest tenant recordCount =>
    (⟨"lumen.ingest.count", tenant, [("tenant_id", tenant)]⟩, recordCount)
  | query tenant matchedCount =>
    (⟨"lumen.query.count", tenant, [("tenant_id", tenant)]⟩, matchedCount)
  | place tenant tier =>
    (⟨"cinder.place.count", tenant, [("tenant_id", tenant), ("tier", tierLowercase tier)]⟩, 1)
  | migrate tenant source target =>
    (⟨"cinder.migrate.count", tenant,
      [("tenant_id", tenant), ("from", tierLowercase source), ("to", tierLowercase target)]⟩, 1)
  | evaluate tenant migrated =>
    (⟨"cinder.evaluate.migrated.count", tenant, [("tenant_id", tenant)]⟩, migrated)

/-- The stream of the events that happened, each with its time. -/
def stream (events : List (Nat × Event)) : List Line := events.map fun e => e.2.line e.1

/-- The amounts of the events that happened. -/
def amounts (events : List (Nat × Event)) : List (Series × Nat) := events.map fun e => e.2.amount

/-- Every prefix of the stream reads as points that report each series as it was counted, and the
values of a series never decrease. -/
def StreamCounts (events : List (Nat × Event)) : Prop :=
  ∀ n, ∃ points, readStream ((stream events).take n) = some points ∧
    (∀ s, reported points s = counted ((amounts events).take n) s) ∧ NeverDecreases points

/-! ## What a line says -/

/-- What is written element by element is read element by element. -/
theorem readAttributes_of_member {json : Line} {attributes : List (String × String)}
    (h : json.member? "attributes" = some (.array (attributes.map otlpAttr))) :
    readAttributes json = some attributes := by
  rw [readAttributes, h]
  exact Traverse.mapM_map_self fun _ _ => rfl

theorem readPoint_otlpNumberPoint (name tenant : String) (attributes : List (String × String))
    (time : String) (value : Nat) :
    readPoint name tenant .cumulative true (otlpNumberPoint attributes time (toString value)) =
      some ⟨⟨name, tenant, attributes⟩, .cumulative, true, value⟩ := by
  have hattributes : readAttributes (otlpNumberPoint attributes time (toString value)) =
      some attributes := readAttributes_of_member rfl
  have hasInt : (otlpNumberPoint attributes time (toString value)).member? "asInt" =
      some (.string (toString value)) := rfl
  have hvalue : (toString value).toNat? = some value := Nat.toNat?_repr value
  rw [readPoint, hattributes, hasInt]
  change ((toString value).toNat?.bind fun v => _) = _
  rw [hvalue]
  rfl

/-- A line of either writer reads as one point that declares itself cumulative and monotonic. -/
theorem readLine_otlpResourceMetrics (tenant : TenantId) (scopeName metricName : String)
    (attributes : List (String × String)) (time : String) (value : Nat) :
    readLine (otlpResourceMetrics tenant scopeName metricName
      (otlpSum 2 true (otlpNumberPoint attributes time (toString value)))) =
      some [⟨⟨metricName, tenant, attributes⟩, .cumulative, true, value⟩] := by
  have hmetric : readMetric tenant (.object [("name", .string metricName),
      ("sum", otlpSum 2 true (otlpNumberPoint attributes time (toString value)))]) =
      some [⟨⟨metricName, tenant, attributes⟩, .cumulative, true, value⟩] := by
    change List.mapM (readPoint metricName tenant .cumulative true) [_] = _
    rw [List.mapM_cons, readPoint_otlpNumberPoint]
    rfl
  change (List.mapM (readScope tenant) [_]).bind _ = _
  rw [List.mapM_cons, readScope]
  change (((List.mapM (readMetric tenant) [_]).bind _).bind _).bind _ = _
  rw [List.mapM_cons, hmetric]
  rfl

/-- What an event adds is what its line declares the total to be. -/
theorem readLine_line (event : Nat × Event) :
    readLine (event.2.line event.1) =
      some [⟨event.2.amount.1, .cumulative, true, event.2.amount.2⟩] := by
  obtain ⟨nowNs, event⟩ := event
  cases event with
  | ingest | query | evaluate => exact readLine_otlpResourceMetrics ..
  | place | migrate => exact readLine_otlpResourceMetrics _ _ _ _ _ 1

theorem readStream_stream (events : List (Nat × Event)) :
    readStream (stream events) = some (asCumulative (amounts events)) := by
  rw [readStream, stream, Traverse.mapM_map_pure fun e _ => readLine_line e]
  change some (List.map _ events).flatten = some (List.map _ (List.map _ events))
  rw [← List.flatMap_def, List.map_map, List.map_eq_flatMap]
  rfl

/-- A stream counts as its events do when their amounts are read as totals. -/
theorem streamCounts_iff_countsRight (events : List (Nat × Event)) :
    StreamCounts events ↔ CountsRight (amounts events) (asCumulative (amounts events)) := by
  have htake : ∀ n, readStream ((stream events).take n) =
      some ((asCumulative (amounts events)).take n) := by
    intro n
    rw [stream, ← List.map_take, ← stream, readStream_stream]
    simp only [asCumulative, amounts, List.map_take]
  simp only [StreamCounts, htake, Option.some.injEq, exists_eq_left']
  constructor
  · exact fun h n => (h n).1
  · exact fun h n => ⟨h n, h.neverDecreases.sublist (List.take_sublist n _)⟩

/-- Two objects placed into one tier of a tenant: the stream reports a total of one. -/
theorem second_place_not_counted :
    ¬ StreamCounts [(1700000000, .place "acme" .hot), (1700000001, .place "acme" .hot)] := by
  rw [streamCounts_iff_countsRight]
  intro h
  exact absurd (h 2 (Event.place "acme" .hot).amount.1) (by decide)

/-- The stream counts right exactly as long as an event of a series follows only events of it that
added nothing. -/
theorem streamCounts_iff (events : List (Nat × Event)) :
    StreamCounts events ↔
      events.Pairwise fun a b => a.2.amount.1 = b.2.amount.1 → a.2.amount.2 = 0 := by
  rw [streamCounts_iff_countsRight, countsRight_iff, amounts, List.pairwise_map]

end Kaleidoscope.SelfObserve
