import Kaleidoscope.Library.ProtobufSchema

/-!
# OTLP requests

The three export requests nest alike: resources, scopes, items. Below that each signal has its own
item type. What an item type declares, and the messages within it, come from a table.
-/

namespace Kaleidoscope.Otlp

open Protobuf Utf8

/-- `SignalType`. -/
inductive SignalType where
  | logs
  | traces
  | metrics
  deriving DecidableEq

/-- The message types of a request; the ones that the signals share, and those within an item, have
a name of the table. -/
inductive MessageType (Inner : Type) where
  | request (signal : SignalType)
  | resource (signal : SignalType)
  | scope (signal : SignalType)
  | item (signal : SignalType)
  | inner (name : Inner)

/-- The messages below the nesting that all requests have. -/
structure Descriptors (Inner : Type) where
  resourceInfo : Inner
  scopeInfo : Inner
  item : SignalType → Nat → Option (Kind (MessageType Inner))
  inner : Inner → Nat → Option (Kind (MessageType Inner))

variable {Inner : Type} (descriptors : Descriptors Inner)

/-- The declared fields of every message type. -/
def Descriptors.schema : MessageType Inner → Nat → Option (Kind (MessageType Inner))
  | .request signal, 1 => some (.message (.resource signal))
  | .request _, _ => none
  | .resource _, 1 => some (.message (.inner descriptors.resourceInfo))
  | .resource signal, 2 => some (.message (.scope signal))
  | .resource _, 3 => some .string
  | .resource _, _ => none
  | .scope _, 1 => some (.message (.inner descriptors.scopeInfo))
  | .scope signal, 2 => some (.message (.item signal))
  | .scope _, 3 => some .string
  | .scope _, _ => none
  | .item signal, number => descriptors.item signal number
  | .inner name, number => descriptors.inner name number

/-- `ExportLogsServiceRequest`, `ExportTraceServiceRequest`, `ExportMetricsServiceRequest`: the
fields that are set. A request fits in memory. -/
structure Request (signal : SignalType) where
  fields : Fields
  isTyped : typed descriptors.schema fields (.request signal) = true
  fits : (encode fields).length < 2 ^ 64

variable {descriptors}

/-- The log records, the spans or the metrics of a request. -/
def itemsOf (fields : Fields) : List Fields :=
  ((submessages 1 fields).flatMap (submessages 2)).flatMap (submessages 2)

/-- The items of a request. -/
def Request.items {signal : SignalType} (r : Request descriptors signal) : List Fields :=
  itemsOf r.fields

section Nesting

variable {signal : SignalType} {fields : Fields}

/-- Requests of two signals differ in their resources only. -/
theorem readableAs_request (h : typed descriptors.schema fields (.request signal) = true)
    (hlen : (encode fields).length < 2 ^ 64) (other : SignalType) :
    readableAs descriptors.schema fields (.request other) = true ↔
      ∀ inner ∈ submessages 1 fields,
        readableAs descriptors.schema inner (.resource other) = true := by
  refine readableAs_sibling rfl rfl ?_ h hlen
  rintro (_ | _ | number) hother
  · rfl
  · exact absurd rfl hother
  · rfl

/-- Resources of two signals differ in their scopes only. -/
theorem readableAs_resource (h : typed descriptors.schema fields (.resource signal) = true)
    (hlen : (encode fields).length < 2 ^ 64) (other : SignalType) :
    readableAs descriptors.schema fields (.resource other) = true ↔
      ∀ inner ∈ submessages 2 fields,
        readableAs descriptors.schema inner (.scope other) = true := by
  refine readableAs_sibling rfl rfl ?_ h hlen
  rintro (_ | _ | _ | _ | number) hother
  · rfl
  · rfl
  · exact absurd rfl hother
  · rfl
  · rfl

/-- Scopes of two signals differ in their items only. -/
theorem readableAs_scope (h : typed descriptors.schema fields (.scope signal) = true)
    (hlen : (encode fields).length < 2 ^ 64) (other : SignalType) :
    readableAs descriptors.schema fields (.scope other) = true ↔
      ∀ inner ∈ submessages 2 fields,
        readableAs descriptors.schema inner (.item other) = true := by
  refine readableAs_sibling rfl rfl ?_ h hlen
  rintro (_ | _ | _ | _ | number) hother
  · rfl
  · rfl
  · exact absurd rfl hother
  · rfl
  · rfl

end Nesting

/-- The items of a request are messages of its signal's item type. -/
theorem Request.item_typed {signal : SignalType} (r : Request descriptors signal) {item : Fields}
    (hitem : item ∈ r.items) : typed descriptors.schema item (.item signal) = true ∧
      (encode item).length < 2 ^ 64 := by
  simp only [Request.items, itemsOf, List.mem_flatMap] at hitem
  obtain ⟨scope, ⟨resource, hresource, hscope⟩, hitem⟩ := hitem
  have htyped : typed descriptors.schema resource (.resource signal) = true :=
    typed_submessage rfl r.isTyped hresource
  refine ⟨typed_submessage rfl (typed_submessage rfl htyped hscope) hitem, ?_⟩
  calc (encode item).length
      ≤ (encode scope).length := length_submessage hitem
    _ ≤ (encode resource).length := length_submessage hscope
    _ ≤ (encode r.fields).length := length_submessage hresource
    _ < 2 ^ 64 := r.fits

/-- Nothing above the items tells the signals apart: the request type of another signal reads a
request exactly when its item type reads every item. -/
theorem Request.readableAs_iff {signal : SignalType} (r : Request descriptors signal)
    (other : SignalType) :
    readableAs descriptors.schema r.fields (.request other) = true ↔
      ∀ item ∈ r.items, readableAs descriptors.schema item (.item other) = true := by
  have hresource (resource : Fields) (hmem : resource ∈ submessages 1 r.fields) :
      readableAs descriptors.schema resource (.resource other) = true ↔
        ∀ scope ∈ submessages 2 resource,
          ∀ item ∈ submessages 2 scope,
            readableAs descriptors.schema item (.item other) = true := by
    have htyped : typed descriptors.schema resource (.resource signal) = true :=
      typed_submessage rfl r.isTyped hmem
    have hlen := (length_submessage hmem).trans_lt r.fits
    rw [readableAs_resource htyped hlen]
    refine forall₂_congr fun scope hscope => ?_
    exact readableAs_scope (typed_submessage rfl htyped hscope)
      ((length_submessage hscope).trans_lt hlen) other
  rw [readableAs_request r.isTyped r.fits, forall₂_congr hresource]
  simp only [Request.items, itemsOf, List.mem_flatMap]
  constructor
  · rintro h item ⟨scope, ⟨resource, hresource, hscope⟩, hitem⟩
    exact h resource hresource scope hscope item hitem
  · intro h resource hresource scope hscope item hitem
    exact h item ⟨scope, ⟨resource, hresource, hscope⟩, hitem⟩

end Kaleidoscope.Otlp
