import Kaleidoscope.DemoOverlay.Log
import Kaleidoscope.DemoOverlay.Metric
import Kaleidoscope.DemoOverlay.Trace

/-!
# The demo as a union at the time of a read
-/

namespace Kaleidoscope.DemoOverlay

open Aegis HashMap

/-- Whatever was ingested, the overlays answer like stores with the demo in them, and reading
changes nothing. -/
theorem overlays_unite (nowUnixNano : Nat) (order : IterOrder Pulse.Key Pulse.SeriesEntry)
    (logs : List (TenantId × Lumen.LogBatch)) (traces : List (TenantId × Ray.SpanBatch))
    (metrics : List (TenantId × Pulse.MetricBatch)) :
    (Log.Unites nowUnixNano (Log.inMemory.after ∅ logs) ∧
        Trace.Unites nowUnixNano (Trace.inMemory.after .empty traces) ∧
          Metric.Unites order nowUnixNano ((Metric.inMemory order).after .empty metrics)) ∧
      ReadStore.ReadsAlone (Log.overlay Log.inMemory) ∧
        ReadStore.ReadsAlone (Trace.overlay Trace.inMemory) ∧
          ReadStore.ReadsAlone (Metric.overlay (Metric.inMemory order)) := by
  obtain ⟨hsorted, hagree⟩ := Trace.kept_after traces
  exact ⟨⟨Log.unites nowUnixNano (Log.sorted_after logs),
      Trace.unites nowUnixNano hsorted hagree,
      Metric.unites order nowUnixNano (Metric.keyed_after order metrics)⟩,
    ReadStore.readsAlone _, ReadStore.readsAlone _, ReadStore.readsAlone _⟩

/-- A span of the failed checkout that another service sent. -/
def bankSpan : Ray.Span where
  traceId := ⟨failedCheckoutTraceId⟩
  spanId := ⟨.replicate 8 1⟩
  parentSpanId := some ⟨failedCheckoutSpanId⟩
  name := "POST /charge"
  kind := .server
  startTimeUnixNano := 5
  endTimeUnixNano := 6
  status := ⟨.error, "card declined"⟩
  attributes := .empty
  resourceAttributes := .single "service.name" "bank"
  events := []
  links := []

/-- The trace lists a span of another service, which the query does not. -/
theorem other_service_in_trace : ¬ ∀ (nowUnixNano : Nat) (writes : List (TenantId × Ray.SpanBatch))
    (traceId : Ray.TraceId), (Trace.demoSpecForTrace traceId).isSome →
      (Trace.overlay Trace.inMemory nowUnixNano).read (Trace.inMemory.after .empty writes)
          (.getTrace demoTenant traceId) =
        ((Trace.overlay Trace.inMemory nowUnixNano).read (Trace.inMemory.after .empty writes)
          (.query demoTenant ⟨demoServiceName⟩ Trace.allTime)).map
            fun spans => spans.filter fun span => span.traceId = traceId := by
  intro h
  have hbank := h 0 [(demoTenant, ⟨[bankSpan]⟩)] ⟨failedCheckoutTraceId⟩ (by decide)
  revert hbank
  decide +kernel

end Kaleidoscope.DemoOverlay
