import Kaleidoscope.Otlp.Mismatch

/-!
# The v1 descriptors

The tables of the v1 protocol, the item fields that tell a signal from both others, and requests
that leave all of them unset.
-/

namespace Kaleidoscope.Otlp

open Protobuf Utf8

/-- The messages within the items of the v1 protocol. -/
inductive V1 where
  | resource
  | instrumentationScope
  | anyValue
  | arrayValue
  | keyValueList
  | keyValue
  | event
  | link
  | status
  | gauge
  | sum
  | histogram
  | exponentialHistogram
  | summary
  | numberDataPoint
  | histogramDataPoint
  | exponentialHistogramDataPoint
  | buckets
  | summaryDataPoint
  | valueAtQuantile
  | exemplar

/-- A field that holds messages of a type of the table. -/
abbrev V1.field (name : V1) : Option (Kind (MessageType V1)) := some (.message (.inner name))

/-- `LogRecord`, `Span` and `Metric`. -/
def V1.item : SignalType → Nat → Option (Kind (MessageType V1))
  | .logs, 1 => some .fixed64
  | .logs, 2 => some (.varint .int32)
  | .logs, 3 => some .string
  | .logs, 5 => V1.anyValue.field
  | .logs, 6 => V1.keyValue.field
  | .logs, 7 => some (.varint .uint32)
  | .logs, 8 => some .fixed32
  | .logs, 9 => some .bytes
  | .logs, 10 => some .bytes
  | .logs, 11 => some .fixed64
  | .traces, 1 => some .bytes
  | .traces, 2 => some .bytes
  | .traces, 3 => some .string
  | .traces, 4 => some .bytes
  | .traces, 5 => some .string
  | .traces, 6 => some (.varint .int32)
  | .traces, 7 => some .fixed64
  | .traces, 8 => some .fixed64
  | .traces, 9 => V1.keyValue.field
  | .traces, 10 => some (.varint .uint32)
  | .traces, 11 => V1.event.field
  | .traces, 12 => some (.varint .uint32)
  | .traces, 13 => V1.link.field
  | .traces, 14 => some (.varint .uint32)
  | .traces, 15 => V1.status.field
  | .traces, 16 => some .fixed32
  | .metrics, 1 => some .string
  | .metrics, 2 => some .string
  | .metrics, 3 => some .string
  | .metrics, 5 => V1.gauge.field
  | .metrics, 7 => V1.sum.field
  | .metrics, 9 => V1.histogram.field
  | .metrics, 10 => V1.exponentialHistogram.field
  | .metrics, 11 => V1.summary.field
  | .metrics, 12 => V1.keyValue.field
  | _, _ => none

/-- The fields of the messages within items. -/
def V1.fields : V1 → Nat → Option (Kind (MessageType V1))
  | .resource, 1 => V1.keyValue.field
  | .resource, 2 => some (.varint .uint32)
  | .instrumentationScope, 1 => some .string
  | .instrumentationScope, 2 => some .string
  | .instrumentationScope, 3 => V1.keyValue.field
  | .instrumentationScope, 4 => some (.varint .uint32)
  | .anyValue, 1 => some .string
  | .anyValue, 2 => some (.varint .bool)
  | .anyValue, 3 => some (.varint .int64)
  | .anyValue, 4 => some .fixed64
  | .anyValue, 5 => V1.arrayValue.field
  | .anyValue, 6 => V1.keyValueList.field
  | .anyValue, 7 => some .bytes
  | .arrayValue, 1 => V1.anyValue.field
  | .keyValueList, 1 => V1.keyValue.field
  | .keyValue, 1 => some .string
  | .keyValue, 2 => V1.anyValue.field
  | .event, 1 => some .fixed64
  | .event, 2 => some .string
  | .event, 3 => V1.keyValue.field
  | .event, 4 => some (.varint .uint32)
  | .link, 1 => some .bytes
  | .link, 2 => some .bytes
  | .link, 3 => some .string
  | .link, 4 => V1.keyValue.field
  | .link, 5 => some (.varint .uint32)
  | .link, 6 => some .fixed32
  | .status, 2 => some .string
  | .status, 3 => some (.varint .int32)
  | .gauge, 1 => V1.numberDataPoint.field
  | .sum, 1 => V1.numberDataPoint.field
  | .sum, 2 => some (.varint .int32)
  | .sum, 3 => some (.varint .bool)
  | .histogram, 1 => V1.histogramDataPoint.field
  | .histogram, 2 => some (.varint .int32)
  | .exponentialHistogram, 1 => V1.exponentialHistogramDataPoint.field
  | .exponentialHistogram, 2 => some (.varint .int32)
  | .summary, 1 => V1.summaryDataPoint.field
  | .numberDataPoint, 2 => some .fixed64
  | .numberDataPoint, 3 => some .fixed64
  | .numberDataPoint, 4 => some .fixed64
  | .numberDataPoint, 5 => V1.exemplar.field
  | .numberDataPoint, 6 => some .fixed64
  | .numberDataPoint, 7 => V1.keyValue.field
  | .numberDataPoint, 8 => some (.varint .uint32)
  | .histogramDataPoint, 2 => some .fixed64
  | .histogramDataPoint, 3 => some .fixed64
  | .histogramDataPoint, 4 => some .fixed64
  | .histogramDataPoint, 5 => some .fixed64
  | .histogramDataPoint, 6 => some .packedFixed64
  | .histogramDataPoint, 7 => some .packedFixed64
  | .histogramDataPoint, 8 => V1.exemplar.field
  | .histogramDataPoint, 9 => V1.keyValue.field
  | .histogramDataPoint, 10 => some (.varint .uint32)
  | .histogramDataPoint, 11 => some .fixed64
  | .histogramDataPoint, 12 => some .fixed64
  | .exponentialHistogramDataPoint, 1 => V1.keyValue.field
  | .exponentialHistogramDataPoint, 2 => some .fixed64
  | .exponentialHistogramDataPoint, 3 => some .fixed64
  | .exponentialHistogramDataPoint, 4 => some .fixed64
  | .exponentialHistogramDataPoint, 5 => some .fixed64
  | .exponentialHistogramDataPoint, 6 => some (.varint .sint32)
  | .exponentialHistogramDataPoint, 7 => some .fixed64
  | .exponentialHistogramDataPoint, 8 => V1.buckets.field
  | .exponentialHistogramDataPoint, 9 => V1.buckets.field
  | .exponentialHistogramDataPoint, 10 => some (.varint .uint32)
  | .exponentialHistogramDataPoint, 11 => V1.exemplar.field
  | .exponentialHistogramDataPoint, 12 => some .fixed64
  | .exponentialHistogramDataPoint, 13 => some .fixed64
  | .exponentialHistogramDataPoint, 14 => some .fixed64
  | .buckets, 1 => some (.varint .sint32)
  | .buckets, 2 => some .packedVarint
  | .summaryDataPoint, 2 => some .fixed64
  | .summaryDataPoint, 3 => some .fixed64
  | .summaryDataPoint, 4 => some .fixed64
  | .summaryDataPoint, 5 => some .fixed64
  | .summaryDataPoint, 6 => V1.valueAtQuantile.field
  | .summaryDataPoint, 7 => V1.keyValue.field
  | .summaryDataPoint, 8 => some (.varint .uint32)
  | .valueAtQuantile, 1 => some .fixed64
  | .valueAtQuantile, 2 => some .fixed64
  | .exemplar, 2 => some .fixed64
  | .exemplar, 3 => some .fixed64
  | .exemplar, 4 => some .bytes
  | .exemplar, 5 => some .bytes
  | .exemplar, 6 => some .fixed64
  | .exemplar, 7 => V1.keyValue.field
  | _, _ => none

/-- The v1 descriptors. -/
def v1 : Descriptors V1 where
  resourceInfo := .resource
  scopeInfo := .instrumentationScope
  item := V1.item
  inner := V1.fields

/-- The fields of an item that both other signals declare with another wire type. -/
def V1.telling : SignalType → List Nat
  | .logs => [1, 2, 7, 11]
  | .traces => [7, 10]
  | .metrics => [7]

theorem V1.telling_clash {signal other : SignalType} (hother : other ≠ signal) {number : Nat}
    (hnumber : number ∈ V1.telling signal) : ∀ kind, V1.item signal number = some kind →
      ∃ kind', V1.item other number = some kind' ∧ kind.written ∉ kind'.accepted := by
  intro kind hkind
  cases signal <;> cases other <;> simp [V1.telling] at hnumber hother <;>
    rcases hnumber with rfl | rfl | rfl | rfl <;> cases hkind <;>
      exact ⟨_, rfl, by decide⟩

/-- A request with an item that sets such a field is told from both other signals. -/
theorem Request.tellsFrom_of_telling {signal other : SignalType} (r : Request v1 signal)
    (hother : other ≠ signal) {item : Fields} (hitem : item ∈ r.items) {field : Nat × Value}
    (hfield : field ∈ item) (htelling : field.1 ∈ V1.telling signal) : r.TellsFrom other := by
  obtain ⟨htyped, hlen⟩ := r.item_typed hitem
  obtain ⟨-, kind, hkind, hvalue⟩ := typed_iff.mp htyped field hfield
  obtain ⟨kind', hkind', hclash⟩ := V1.telling_clash hother htelling kind hkind
  have hread : field.2.readableAs v1.schema kind' = false :=
    Value.readableAs_eq_false hvalue (fun payload hwire =>
      (length_of_mem_encode hfield hwire).trans_lt hlen) hclash
  refine ⟨item, hitem, ?_⟩
  rw [← Bool.not_eq_true, Protobuf.readableAs_iff]
  intro hitemRead
  have := hitemRead field hfield kind' hkind'
  rw [hread] at this
  cases this

/-- Descriptions of failures that say as much as a fixture needs. -/
def plainProst : Prost V1 where
  keyError := fun _ => ⟨"invalid varint"⟩
  bodyError := fun _ _ => ⟨"buffer underflow"⟩

/-- One log record with its time. -/
def timedLog : Request v1 .logs where
  fields := [(1, .message [(2, .message [(2, .message
    [(1, .fixed64 [0, 0, 100, 167, 179, 182, 224, 13])])])])]
  isTyped := by decide
  fits := by decide

theorem timedLog_rejected_elsewhere :
    (∀ other, other ≠ SignalType.logs →
        validate v1 plainProst other (encode timedLog.fields) .httpProtobuf =
          .error (signalMismatchViolation .logs other .httpProtobuf)) ∧
      validate v1 plainProst .logs (encode timedLog.fields) .httpProtobuf = .ok timedLog.fields :=
  (timedLog.rejected_elsewhere_iff (by decide) .httpProtobuf).mpr fun _ hother =>
    timedLog.tellsFrom_of_telling hother List.mem_cons_self List.mem_cons_self (by decide)

/-- One log record that leaves every field unset. -/
def emptyLog : Request v1 .logs where
  fields := [(1, .message [(2, .message [(2, .message [])])])]
  isTyped := by decide
  fits := by decide

/-- A log record without fields is taken for a span and for a metric. -/
theorem emptyLog_taken_for_traces :
    encode emptyLog.fields = [0x0A, 4, 0x12, 2, 0x12, 0] ∧ emptyLog.items ≠ [] ∧
      ¬ ((∀ other, other ≠ SignalType.logs →
          validate v1 plainProst other (encode emptyLog.fields) .httpProtobuf =
            .error (signalMismatchViolation .logs other .httpProtobuf)) ∧
        validate v1 plainProst .logs (encode emptyLog.fields) .httpProtobuf =
          .ok emptyLog.fields) := by
  have hdecodes : signalDecodesBytes v1 plainProst .traces (encode emptyLog.fields) = true := by
    decide +kernel
  obtain ⟨record, hrecord⟩ := decodeSignal_ok_of_decodes .httpProtobuf hdecodes
  refine ⟨by decide +kernel, by decide, fun h => ?_⟩
  have hreject := h.1 .traces (by decide)
  rw [validate_of_ne_nil (by decide +kernel), hrecord] at hreject
  cases hreject

end Kaleidoscope.Otlp
