import Kaleidoscope.Sieve.Decorator

/-!
# Traces split over requests

What is decided of a trace depends on its id and on the spans that are in the same request. So
a trace whose hash does not keep it is torn when an error is in one of its requests only.
-/

namespace Kaleidoscope.Sieve

open HashMap

variable {P C R L M : Type}

/-- The well-formed spans of a trace in a record. -/
def SinkRecord.spansOf (traceId : TraceId) : SinkRecord P C R L M → List (Span P)
  | .traces tagged => ofTrace traceId tagged.inner.spans
  | _ => []

/-- A record as it arrives, with the order in which its groups are visited. -/
abbrev Arrival (P C R L M : Type) :=
  IterOrder TraceId (List (Span P)) × SinkRecord P C R L M

/-- The spans of a trace are forwarded whole or not at all, and whole if one bears an error. -/
structure Coherent (traceId : TraceId) (arrived sent : List (SinkRecord P C R L M)) : Prop where
  wholeOrNone : sent.flatMap (SinkRecord.spansOf traceId) =
      arrived.flatMap (SinkRecord.spansOf traceId) ∨
    sent.flatMap (SinkRecord.spansOf traceId) = []
  errorsWhole : isErrorBearing (arrived.flatMap (SinkRecord.spansOf traceId)) = true →
    sent.flatMap (SinkRecord.spansOf traceId) = arrived.flatMap (SinkRecord.spansOf traceId)

/-- Lists that are left out of a concatenation are not missed when they are empty. -/
theorem flatMap_ite_eq_flatten_iff {A : Type} (p : List A → Prop) [DecidablePred p]
    (lists : List (List A)) :
    (lists.flatMap fun l => if p l then l else []) = lists.flatten ↔
      ∀ l ∈ lists, p l ∨ l = [] := by
  induction lists with
  | nil => simp
  | cons l lists ih =>
    rw [List.flatMap_cons, List.flatten_cons, List.forall_mem_cons, ← ih]
    split_ifs with hl
    · rw [List.append_cancel_left_eq]
      exact (and_iff_right (.inl hl)).symm
    · rw [List.nil_append, or_iff_right hl]
      constructor
      · intro heq
        have hshort : (lists.flatMap fun l => if p l then l else []).length ≤
            lists.flatten.length := by
          rw [List.length_flatMap, List.length_flatten]
          refine List.sum_le_sum fun l _ => ?_
          split_ifs
          · exact le_rfl
          · exact Nat.zero_le _
        have hlength := congrArg List.length heq
        rw [List.length_append] at hlength
        obtain rfl : l = [] := List.eq_nil_of_length_eq_zero (by omega)
        exact ⟨rfl, heq⟩
      · rintro ⟨rfl, heq⟩
        exact heq

section Forwarded

variable (xxh3_64 : TraceId → UInt64) (sampler : HeadSampler) (counters : Counters)
  (traceId : TraceId)

/-- Of one record, the spans of a trace are forwarded if its hash keeps it or one of them bears
an error. -/
theorem spansOf_accept (arrival : Arrival P C R L M) :
    (accept xxh3_64 sampler counters arrival).1.spansOf traceId =
      if isErrorBearing (arrival.2.spansOf traceId) = true ∨ sampler.Samples xxh3_64 traceId then
        arrival.2.spansOf traceId
      else [] := by
  obtain ⟨order, record⟩ := arrival
  cases record with
  | logs tagged => exact (ite_self _).symm
  | metrics tagged => exact (ite_self _).symm
  | traces tagged =>
    have hmem := mem_decideKeptTraceIds xxh3_64 sampler order counters tagged.inner traceId
    have hsent : (accept xxh3_64 sampler counters
        ((order, .traces tagged) : Arrival P C R L M)).1.spansOf traceId =
          if traceId ∈ (decideKeptTraceIds xxh3_64 sampler order counters tagged.inner).1 then
            ofTrace traceId tagged.inner.spans
          else [] := by
      rw [← ofTrace_filter, ← spans_filterRequestByTraceIds]
      rfl
    rw [hsent]
    change _ = if isErrorBearing (ofTrace traceId tagged.inner.spans) = true ∨ _ then
      ofTrace traceId tagged.inner.spans else []
    cases hgroup : (groupSpansByTraceId tagged.inner).lookup traceId with
    | some spans => exact if_congr (hmem.trans (and_iff_right ⟨spans, hgroup⟩)) rfl rfl
    | none =>
      -- a trace without a group has no spans to forward
      have hnone : ofTrace traceId tagged.inner.spans = [] := by
        rw [← bucket_groupSpansByTraceId, bucket, hgroup]
        rfl
      exact (if_congr Iff.rfl hnone rfl).trans ((ite_self _).trans
        ((if_congr Iff.rfl hnone rfl).trans (ite_self _)).symm)

/-- So it is for a sequence of records, whatever the counters. -/
theorem spansOf_forwarded (arrivals : List (Arrival P C R L M)) :
    (forwarded xxh3_64 sampler counters arrivals).flatMap (SinkRecord.spansOf traceId) =
      arrivals.flatMap fun arrival =>
        if isErrorBearing (arrival.2.spansOf traceId) = true ∨
            sampler.Samples xxh3_64 traceId then
          arrival.2.spansOf traceId
        else [] := by
  induction arrivals generalizing counters with
  | nil => rfl
  | cons arrival arrivals ih =>
    rw [forwarded, List.flatMap_cons, List.flatMap_cons, ih, spansOf_accept]

/-- A trace is coherent, however it is split over requests, when its hash keeps it, or none of
its requests has an error of it, or every request with a span of it has one; and only then. -/
theorem coherent_iff (arrivals : List (Arrival P C R L M)) :
    Coherent traceId (arrivals.map Prod.snd) (forwarded xxh3_64 sampler counters arrivals) ↔
      sampler.Samples xxh3_64 traceId ∨
      (∀ arrival ∈ arrivals, isErrorBearing (arrival.2.spansOf traceId) = false) ∨
      ∀ arrival ∈ arrivals, arrival.2.spansOf traceId ≠ [] →
        isErrorBearing (arrival.2.spansOf traceId) = true := by
  let lists := arrivals.map fun arrival => arrival.2.spansOf traceId
  let keeps (spans : List (Span P)) : Prop :=
    isErrorBearing spans = true ∨ sampler.Samples xxh3_64 traceId
  have harrived : (arrivals.map Prod.snd).flatMap (SinkRecord.spansOf traceId) =
      lists.flatten := by
    rw [List.flatMap_map]
    exact List.flatMap_def
  have hsent : (forwarded xxh3_64 sampler counters arrivals).flatMap
      (SinkRecord.spansOf traceId) = lists.flatMap fun l => if keeps l then l else [] := by
    rw [spansOf_forwarded, List.flatMap_map]
  have hwhole := flatMap_ite_eq_flatten_iff keeps lists
  constructor
  · rintro ⟨-, herrors⟩
    rw [harrived, hsent, hwhole] at herrors
    by_cases hsamples : sampler.Samples xxh3_64 traceId
    · exact .inl hsamples
    · refine .inr ?_
      by_cases herror : isErrorBearing lists.flatten = true
      · refine .inr fun arrival harrival hspans => ?_
        have hkeeps := herrors herror _ (List.mem_map_of_mem harrival)
        exact (hkeeps.resolve_right hspans).resolve_right hsamples
      · refine .inl fun arrival harrival => Bool.eq_false_iff.mpr fun hspan => herror ?_
        obtain ⟨span, hmem, hspan⟩ := List.any_eq_true.mp hspan
        exact List.any_eq_true.mpr
          ⟨span, List.mem_flatten_of_mem (List.mem_map_of_mem harrival) hmem, hspan⟩
  · intro h
    by_cases hall : ∀ l ∈ lists, keeps l ∨ l = []
    · have hsame := hwhole.mpr hall
      rw [← hsent, ← harrived] at hsame
      exact ⟨.inl hsame, fun _ => hsame⟩
    · -- some request is dropped, so that no request has an error
      obtain ⟨l, hl, hnot⟩ := not_forall₂.mp hall
      obtain ⟨hdrops, hspans⟩ := not_or.mp hnot
      obtain ⟨arrival, harrival, rfl⟩ := List.mem_map.mp hl
      have hnone : ∀ arrival ∈ arrivals, isErrorBearing (arrival.2.spansOf traceId) = false := by
        rcases h with hsamples | hnone | hevery
        · exact absurd (.inr hsamples) hdrops
        · exact hnone
        · exact absurd (.inl (hevery arrival harrival hspans)) hdrops
      refine ⟨.inr ?_, fun herror => ?_⟩
      · rw [spansOf_forwarded, List.flatMap_eq_nil_iff]
        exact fun other hother => if_neg (not_or.mpr
          ⟨Bool.eq_false_iff.mp (hnone other hother), fun hsamples => hdrops (.inr hsamples)⟩)
      · rw [harrived] at herror
        obtain ⟨span, hmem, hspan⟩ := List.any_eq_true.mp herror
        obtain ⟨l, hl, hmem⟩ := List.mem_flatten.mp hmem
        obtain ⟨other, hother, rfl⟩ := List.mem_map.mp hl
        have := List.any_eq_true.mpr ⟨span, hmem, hspan⟩
        exact absurd this (Bool.eq_false_iff.mp (hnone other hother))

end Forwarded

/-- A span without an error arrives before one with an error, and only the second is
forwarded. -/
theorem torn_trace :
    ¬∀ (xxh3_64 : TraceId → UInt64) (sampler : HeadSampler) (counters : Counters)
      (traceId : TraceId) (arrivals : List (Arrival Unit Unit Unit Unit Unit)),
      Coherent traceId (arrivals.map Prod.snd)
        (forwarded xxh3_64 sampler counters arrivals) := by
  intro h
  let id : List UInt8 := List.replicate 16 7
  let request (code : Int) : SinkRecord Unit Unit Unit Unit Unit :=
    .traces ⟨⟨"acme"⟩, ⟨[⟨none, [⟨none, [⟨id, some ⟨"", code⟩, ()⟩], ""⟩], ""⟩]⟩⟩
  let sampler : HeadSampler := ⟨0, le_rfl, zero_le_one⟩
  have hcoherent := h (fun _ => 0) sampler ⟨0, 0, 0⟩ ⟨id, rfl⟩
    [(.unspecified _ _, request 1), (.unspecified _ _, request 2)]
  have hwhole := hcoherent.errorsWhole (by decide +kernel)
  rw [spansOf_forwarded] at hwhole
  exact absurd (congrArg List.length hwhole) (by decide +kernel)

end Kaleidoscope.Sieve
