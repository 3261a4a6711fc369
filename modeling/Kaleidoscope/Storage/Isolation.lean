import Kaleidoscope.Storage.Kept
import Kaleidoscope.Wal.Table

/-!
# Which tenant an accept is seen by

An accept changes what one tenant sees: the one its request names. That is the authenticated tenant
only when the request names it, or names none and it is the default.
-/

namespace Kaleidoscope.Storage

open Aegis Aperture HashMap Otlp StableSort

/-- Whether what a record puts into a store is kept from all tenants but the authenticated one: it
is refused, filed under that tenant, or nothing of it can be seen. -/
def StorageSink.Isolates (doubles : Doubles) (sink : StorageSink) :
    SinkRecord OtlpResource → Prop
  | .logs tagged => sink.logStore.isSome → ∀ tenant records,
      sink.resolveTenant doubles tagged.inner = .ok tenant →
        translateLogs doubles tagged.inner = .ok records →
          tenant = tagged.tenant ∨ ∀ record ∈ records, Pulse.u64Max ≤ record.observedTimeUnixNano
  | .traces tagged => sink.traceStore.isSome → ∀ tenant spans,
      sink.resolveTraceTenant doubles tagged.inner = .ok tenant →
        translateTraces doubles tagged.inner = .ok spans →
          tenant = tagged.tenant ∨ spans = []
  | .metrics tagged => ∀ store ∈ sink.metricStore, ∀ tenant,
      sink.resolveMetricTenant doubles tagged.inner = .ok tenant →
        tenant = tagged.tenant ∨
          Pulse.Unseen store.state tenant (translateMetrics doubles tagged.inner)

section Logs

variable {wal : LineSerde Lumen.WalRecord} {snap : FileSerde Lumen.Snapshot}

/-- Without a fault an ingest of logs commits. -/
theorem lumen_ingest_state_none (hwal : ∀ r, ∃ t, wal.toString r = .ok t)
    (store : Store Lumen.PerTenant) (tenant : TenantId) {records : List Lumen.LogRecord}
    (h : records ≠ []) :
    (Lumen.ingest wal snap store tenant ⟨records⟩ .none).2.state =
      (Lumen.InMemoryLogStore.ingest store.state tenant ⟨records⟩).2 := by
  simp only [Lumen.ingest, Lumen.plan, Lumen.ingestSteps]
  rw [if_neg (by simpa [Lumen.LogBatch.isEmpty] using h)]
  exact Pillar.call_singleton_none (Lumen.fileBackedLogStore wal snap) store.state _ (hwal _) store

theorem lumen_query_eq (store : Store Lumen.PerTenant) (tenant : TenantId)
    (range : Lumen.TimeRange) : Lumen.query store tenant range =
      (bucket store.state tenant).filter fun r => range.contains r.observedTimeUnixNano :=
  Lumen.matching_eq store.state tenant _

/-- Two stores answer alike when no wanted record before `u64::MAX` tells them apart. -/
theorem lumen_same_of_filter {store store' : Store Lumen.PerTenant} {tenant : TenantId}
    (h : ∀ wanted : Lumen.LogRecord → Bool,
      (∀ r, wanted r = true → r.observedTimeUnixNano < Pulse.u64Max) →
        (bucket store'.state tenant).filter wanted = (bucket store.state tenant).filter wanted)
    {range : Lumen.TimeRange} (hrange : range.endUnixNano ≤ Pulse.u64Max) :
    Lumen.query store' tenant range = Lumen.query store tenant range ∧
      ∀ predicate, Lumen.queryWith store' tenant range predicate =
        Lumen.queryWith store tenant range predicate := by
  have hbefore {t : Nat} (ht : range.contains t = true) : t < Pulse.u64Max := by
    simp only [Lumen.TimeRange.contains, Bool.and_eq_true, decide_eq_true_eq] at ht
    omega
  refine ⟨?_, fun predicate => ?_⟩
  · rw [lumen_query_eq, lumen_query_eq]
    exact h _ fun r hr => hbefore hr
  · rw [Lumen.queryWith, Lumen.queryWith, Lumen.matching_eq, Lumen.matching_eq]
    exact h _ fun r hr => hbefore (Bool.and_eq_true_iff.mp hr).1

/-- What the tenant of an ingest sees stays the same when no record is before `u64::MAX`. -/
theorem lumen_filter_ingest {perTenant : Lumen.PerTenant} {tenant : TenantId}
    (hsorted : Lumen.sortBucket (bucket perTenant tenant) = bucket perTenant tenant)
    {records : List Lumen.LogRecord}
    (hlate : ∀ record ∈ records, Pulse.u64Max ≤ record.observedTimeUnixNano)
    {wanted : Lumen.LogRecord → Bool}
    (hwanted : ∀ r, wanted r = true → r.observedTimeUnixNano < Pulse.u64Max) :
    (bucket (Lumen.InMemoryLogStore.ingest perTenant tenant ⟨records⟩).2 tenant).filter wanted =
      (bucket perTenant tenant).filter wanted := by
  have hnone : records.filter wanted = [] := by
    refine List.filter_eq_nil_iff.mpr fun record hrecord hw => ?_
    have := hwanted record hw
    have := hlate record hrecord
    omega
  rw [Lumen.bucket_ingest, if_pos rfl]
  calc (Lumen.sortBucket (bucket perTenant tenant ++ records)).filter wanted
      = Lumen.sortBucket ((bucket perTenant tenant ++ records).filter wanted) :=
        filter_sortByKey_comm _ _ _
    _ = Lumen.sortBucket ((bucket perTenant tenant).filter wanted) := by
        rw [List.filter_append, hnone, List.append_nil]
    _ = (Lumen.sortBucket (bucket perTenant tenant)).filter wanted :=
        (filter_sortByKey_comm _ _ _).symm
    _ = (bucket perTenant tenant).filter wanted := by rw [hsorted]

/-- A record before `u64::MAX` is seen. -/
theorem lumen_late_of_same {perTenant : Lumen.PerTenant} {tenant : TenantId}
    {records : List Lumen.LogRecord}
    (h : (bucket (Lumen.InMemoryLogStore.ingest perTenant tenant ⟨records⟩).2 tenant).filter
        (fun r => (⟨0, Pulse.u64Max⟩ : Lumen.TimeRange).contains r.observedTimeUnixNano) =
      (bucket perTenant tenant).filter
        fun r => (⟨0, Pulse.u64Max⟩ : Lumen.TimeRange).contains r.observedTimeUnixNano) :
    ∀ record ∈ records, Pulse.u64Max ≤ record.observedTimeUnixNano := by
  have hlength := congrArg List.length h
  rw [Lumen.bucket_ingest, if_pos rfl, Lumen.sortBucket,
    ((sortByKey_perm Lumen.LogRecord.observedTimeUnixNano _).filter _).length_eq,
    List.filter_append, List.length_append, Nat.add_eq_left, List.length_eq_zero_iff,
    List.filter_eq_nil_iff] at hlength
  intro record hrecord
  have := hlength record hrecord
  simpa [Lumen.TimeRange.contains] using this

end Logs

section Traces

variable {wal : LineSerde Ray.WalRecord} {snap : FileSerde Ray.Snapshot}

/-- Without a fault an ingest of spans commits. -/
theorem ray_ingest_state_none (hwal : ∀ r, ∃ t, wal.toString r = .ok t)
    (store : Store Ray.Indices) (tenant : TenantId) {spans : List Ray.Span} (h : spans ≠ []) :
    (Ray.ingest wal snap store tenant ⟨spans⟩ .none).2.state =
      (Ray.InMemoryTraceStore.ingest store.state tenant ⟨spans⟩).2 := by
  simp only [Ray.ingest, Ray.plan, Ray.ingestSteps]
  rw [if_neg (by simpa [Ray.SpanBatch.isEmpty] using h)]
  exact Pillar.call_singleton_none (Ray.fileBackedTraceStore wal snap) store.state _ (hwal _) store

/-- Stores with the same buckets of a tenant answer it alike. -/
theorem ray_same_of_bucket {store store' : Store Ray.Indices} {tenant : TenantId}
    (htraces : ∀ traceId, store'.state.bucket (.inl (tenant, traceId)) =
      store.state.bucket (.inl (tenant, traceId)))
    (hservices : ∀ service, store'.state.bucket (.inr (tenant, service)) =
      store.state.bucket (.inr (tenant, service))) :
    (∀ traceId, Ray.getTrace store' tenant traceId = Ray.getTrace store tenant traceId) ∧
      ∀ service range,
        Ray.query store' tenant service range = Ray.query store tenant service range ∧
          ∀ predicate, Ray.queryWith store' tenant service range predicate =
            Ray.queryWith store tenant service range predicate := by
  have hquery (service : Ray.ServiceName) (range : Ray.TimeRange) :
      Ray.query store' tenant service range = Ray.query store tenant service range := by
    have hmemory (store : Store Ray.Indices) : Ray.query store tenant service range =
        Ray.InMemoryTraceStore.query store.state tenant service range := rfl
    rw [hmemory, hmemory, Ray.InMemoryTraceStore.query_eq, Ray.InMemoryTraceStore.query_eq,
      hservices]
  refine ⟨htraces, fun service range => ⟨hquery service range, fun predicate => ?_⟩⟩
  have hmemory (store : Store Ray.Indices) : Ray.queryWith store tenant service range predicate =
      (Ray.query store tenant service range).filter predicate.matchesSpan :=
    Ray.InMemoryTraceStore.queryWith_eq store.state tenant service range predicate
  rw [hmemory, hmemory, hquery]

/-- An ingest leaves the buckets of other tenants. -/
theorem ray_bucket_ingest_of_ne {indices : Ray.Indices} (h : indices.Sorted)
    {tenant other : TenantId} (hne : other ≠ tenant) (spans : List Ray.Span) :
    (∀ traceId, (Ray.InMemoryTraceStore.ingest indices tenant ⟨spans⟩).2.bucket
        (.inl (other, traceId)) = indices.bucket (.inl (other, traceId))) ∧
      ∀ service, (Ray.InMemoryTraceStore.ingest indices tenant ⟨spans⟩).2.bucket
        (.inr (other, service)) = indices.bucket (.inr (other, service)) := by
  refine ⟨fun traceId => ?_, fun service => ?_⟩
  · rw [Ray.InMemoryTraceStore.bucket_ingest h, Ray.valuesAt_ingest_trace, if_neg (Ne.symm hne),
      List.append_nil]
    exact sortByKey_of_pairwise _ (h _)
  · rw [Ray.InMemoryTraceStore.bucket_ingest h, Ray.valuesAt_ingest_service, if_neg (Ne.symm hne),
      List.append_nil]
    exact sortByKey_of_pairwise _ (h _)

/-- A span is seen in its trace. -/
theorem ray_ingest_seen {indices : Ray.Indices} (h : indices.Sorted) (tenant : TenantId)
    (span : Ray.Span) (spans : List Ray.Span) :
    (Ray.InMemoryTraceStore.ingest indices tenant ⟨span :: spans⟩).2.bucket
        (.inl (tenant, span.traceId)) ≠ indices.bucket (.inl (tenant, span.traceId)) := by
  intro hsame
  have hlength := congrArg List.length hsame
  rw [Ray.InMemoryTraceStore.bucket_ingest h, Ray.valuesAt_ingest_trace, if_pos rfl,
    Ray.sortBucket, (sortByKey_perm _ _).length_eq, List.length_append, Nat.add_eq_left,
    List.length_eq_zero_iff, List.filter_eq_nil_iff] at hlength
  exact hlength span List.mem_cons_self (by simp)

end Traces

section Metrics

variable {order : IterOrder Pulse.Key Pulse.SeriesEntry} {wal : LineSerde Pulse.WalRecord}
  {snap : FileSerde Pulse.Snapshot}

/-- Without a fault an ingest of metrics commits. -/
theorem pulse_ingest_state_none (hwal : ∀ r, ∃ t, wal.toString r = .ok t)
    (store : Store Pulse.Inner) (tenant : TenantId) {metrics : List Pulse.Metric}
    (h : metrics ≠ []) :
    (Pulse.ingest order wal snap store tenant ⟨metrics⟩ .none).2.state =
      Pulse.commitIngest tenant metrics store.state := by
  simp only [Pulse.ingest, Pulse.plan, Pulse.ingestSteps]
  rw [if_neg (by simpa [Pulse.MetricBatch.isEmpty] using h)]
  exact Pillar.call_singleton_none (Pulse.fileBackedMetricStore order wal snap) store.state _
    (hwal _) store

/-- An empty batch has nothing to see. -/
theorem unseen_nil (inner : Pulse.Inner) (tenant : TenantId) : Pulse.Unseen inner tenant [] :=
  fun _ _ => ⟨nofun, fun _ _ _ _ hlast => nomatch hlast⟩

end Metrics

section Sink

variable {doubles : Doubles} {encodings : Encodings} {sink : StorageSink} {tenant t : TenantId}

theorem pulse_sameRows_refl (tenant : TenantId) (inner : Pulse.Inner) :
    Pulse.SameRows tenant inner inner :=
  fun order order' metricName range _ =>
    Pulse.sameAnswers_of_series rfl order order' tenant metricName range

/-- A sink that was left alone answers as before. -/
theorem StorageSink.SameFor.refl (tenant : TenantId) (sink : StorageSink) :
    sink.SameFor tenant sink where
  logs store hstore store' hstore' _ _ := by
    obtain rfl : store = store' := Option.some.inj (hstore.symm.trans hstore')
    exact ⟨rfl, fun _ => rfl⟩
  traces store hstore store' hstore' := by
    obtain rfl : store = store' := Option.some.inj (hstore.symm.trans hstore')
    exact ⟨fun _ => rfl, fun _ _ => ⟨rfl, fun _ => rfl⟩⟩
  metrics store hstore store' hstore' := by
    obtain rfl : store = store' := Option.some.inj (hstore.symm.trans hstore')
    exact pulse_sameRows_refl tenant _

/-- Only the log store changed. -/
theorem StorageSink.SameFor.of_logs {store store' : Store Lumen.PerTenant}
    (hstore : sink.logStore = some store)
    (h : ∀ range : Lumen.TimeRange, range.endUnixNano ≤ Pulse.u64Max →
      Lumen.query store' tenant range = Lumen.query store tenant range ∧
        ∀ predicate, Lumen.queryWith store' tenant range predicate =
          Lumen.queryWith store tenant range predicate) :
    sink.SameFor tenant { sink with logStore := some store' } where
  logs := by
    rintro _ hfirst _ ⟨⟩ range hrange
    cases hstore.symm.trans hfirst
    exact h range hrange
  traces := (StorageSink.SameFor.refl tenant sink).traces
  metrics := (StorageSink.SameFor.refl tenant sink).metrics

/-- Only the trace store changed. -/
theorem StorageSink.SameFor.of_traces {store store' : Store Ray.Indices}
    (hstore : sink.traceStore = some store)
    (h : (∀ traceId, Ray.getTrace store' tenant traceId = Ray.getTrace store tenant traceId) ∧
      ∀ service range,
        Ray.query store' tenant service range = Ray.query store tenant service range ∧
          ∀ predicate, Ray.queryWith store' tenant service range predicate =
            Ray.queryWith store tenant service range predicate) :
    sink.SameFor tenant { sink with traceStore := some store' } where
  logs := (StorageSink.SameFor.refl tenant sink).logs
  traces := by
    rintro _ hfirst _ ⟨⟩
    cases hstore.symm.trans hfirst
    exact h
  metrics := (StorageSink.SameFor.refl tenant sink).metrics

/-- Only the metric store changed. -/
theorem StorageSink.SameFor.of_metrics {store store' : Store Pulse.Inner}
    (hstore : sink.metricStore = some store)
    (h : Pulse.SameRows tenant store.state store'.state) :
    sink.SameFor tenant { sink with metricStore := some store' } where
  logs := (StorageSink.SameFor.refl tenant sink).logs
  traces := (StorageSink.SameFor.refl tenant sink).traces
  metrics := by
    rintro _ hfirst _ ⟨⟩
    cases hstore.symm.trans hfirst
    exact h

/-- A refused accept changes nothing for anybody. -/
theorem StorageSink.isolated_iff_of_refused {accepted : Fault → StorageSink}
    (hrefused : ∀ fault, accepted fault = sink) {p : Prop} (hp : p) :
    (∀ fault other, other ≠ t → sink.SameFor other (accepted fault)) ↔ p := by
  refine iff_of_true (fun fault other _ => ?_) hp
  rw [hrefused]
  exact .refl other sink

/-- When an accept of logs is kept from all other tenants. -/
theorem acceptLogs_isolated_iff (hserialise : encodings.Serialise) (hkept : sink.Kept)
    (request : LogsRequest) (t : TenantId) :
    (∀ fault other, other ≠ t →
        sink.SameFor other (sink.acceptLogs doubles encodings request fault).2) ↔
      (sink.logStore.isSome → ∀ tenant records, sink.resolveTenant doubles request = .ok tenant →
        translateLogs doubles request = .ok records →
          tenant = t ∨ ∀ record ∈ records, Pulse.u64Max ≤ record.observedTimeUnixNano) := by
  cases hstore : sink.logStore with
  | none =>
    refine StorageSink.isolated_iff_of_refused (fun fault => ?_) (by simp)
    rw [StorageSink.acceptLogs, hstore]
  | some store =>
    cases htenant : sink.resolveTenant doubles request with
    | error err =>
      refine StorageSink.isolated_iff_of_refused (fun fault => ?_) (by simp)
      simp only [StorageSink.acceptLogs, hstore, htenant]
    | ok tenant =>
      cases hrecords : translateLogs doubles request with
      | error e =>
        refine StorageSink.isolated_iff_of_refused (fun fault => ?_) (by simp)
        simp only [StorageSink.acceptLogs, hstore, htenant, hrecords]
      | ok records =>
        have hsink (fault : Fault) : (sink.acceptLogs doubles encodings request fault).2 =
            { sink with logStore := some (Lumen.ingest encodings.lumenWal encodings.lumenSnap store
              tenant ⟨records⟩ fault).2 } := by
          simp only [StorageSink.acceptLogs, hstore, htenant, hrecords]
        have hsorted := hkept.logs store hstore
        constructor
        · rintro hsame - _ _ ⟨⟩ ⟨⟩
          refine or_iff_not_imp_left.mpr fun hne => ?_
          by_cases hnil : records = []
          · simp [hnil]
          · have hlogs := (hsink .none ▸ hsame .none tenant hne).logs store hstore _ rfl
              ⟨0, Pulse.u64Max⟩ (le_refl _)
            rw [lumen_query_eq, lumen_query_eq,
              lumen_ingest_state_none hserialise.lumen store tenant hnil] at hlogs
            exact lumen_late_of_same hlogs.1
        · intro hfiled fault other hother
          rw [hsink]
          refine .of_logs hstore fun range hrange => lumen_same_of_filter (fun wanted hwanted => ?_)
            hrange
          rcases lumen_ingest_state store tenant records fault with hstate | hstate
          · rw [hstate]
          · rw [hstate]
            by_cases heq : other = tenant
            · subst heq
              have hlate := (hfiled rfl other records rfl rfl).resolve_left hother
              exact lumen_filter_ingest (hsorted other) hlate hwanted
            · rw [Lumen.bucket_ingest, if_neg heq]

/-- When an accept of traces is kept from all other tenants. -/
theorem acceptTraces_isolated_iff (hserialise : encodings.Serialise) (hkept : sink.Kept)
    (request : TracesRequest) (t : TenantId) :
    (∀ fault other, other ≠ t →
        sink.SameFor other (sink.acceptTraces doubles encodings request fault).2) ↔
      (sink.traceStore.isSome → ∀ tenant spans,
        sink.resolveTraceTenant doubles request = .ok tenant →
          translateTraces doubles request = .ok spans → tenant = t ∨ spans = []) := by
  cases hstore : sink.traceStore with
  | none =>
    refine StorageSink.isolated_iff_of_refused (fun fault => ?_) (by simp)
    rw [StorageSink.acceptTraces, hstore]
  | some store =>
    cases htenant : sink.resolveTraceTenant doubles request with
    | error err =>
      refine StorageSink.isolated_iff_of_refused (fun fault => ?_) (by simp)
      simp only [StorageSink.acceptTraces, hstore, htenant]
    | ok tenant =>
      cases hspans : translateTraces doubles request with
      | error e =>
        refine StorageSink.isolated_iff_of_refused (fun fault => ?_) (by simp)
        simp only [StorageSink.acceptTraces, hstore, htenant, hspans]
      | ok spans =>
        have hsink (fault : Fault) : (sink.acceptTraces doubles encodings request fault).2 =
            { sink with traceStore := some (Ray.ingest encodings.rayWal encodings.raySnap store
              tenant ⟨spans⟩ fault).2 } := by
          simp only [StorageSink.acceptTraces, hstore, htenant, hspans]
        have hsorted := hkept.traces store hstore
        constructor
        · rintro hsame - _ _ ⟨⟩ ⟨⟩
          refine or_iff_not_imp_left.mpr fun hne => ?_
          cases spans with
          | nil => rfl
          | cons span spans =>
            have htraces := (hsink .none ▸ hsame .none tenant hne).traces store hstore _ rfl
            have hstate : (Ray.ingest encodings.rayWal encodings.raySnap store tenant
                ⟨span :: spans⟩ .none).2.state =
                  (Ray.InMemoryTraceStore.ingest store.state tenant ⟨span :: spans⟩).2 :=
              ray_ingest_state_none hserialise.ray store tenant (List.cons_ne_nil span spans)
            refine absurd ?_ (ray_ingest_seen hsorted tenant span spans)
            rw [← hstate]
            exact htraces.1 span.traceId
        · intro hfiled fault other hother
          rw [hsink]
          refine .of_traces hstore ?_
          rcases ray_ingest_state store tenant spans fault with hstate | ⟨hne, hstate⟩
          · refine ray_same_of_bucket (fun traceId => ?_) fun service => ?_
            · rw [hstate]
            · rw [hstate]
          · have htenant : tenant = t := (hfiled rfl tenant spans rfl rfl).resolve_right hne
            obtain ⟨htraces, hservices⟩ :=
              ray_bucket_ingest_of_ne hsorted (htenant ▸ hother) spans
            refine ray_same_of_bucket (fun traceId => ?_) fun service => ?_
            · rw [hstate, htraces]
            · rw [hstate, hservices]

/-- When an accept of metrics is kept from all other tenants. -/
theorem acceptMetrics_isolated_iff (hserialise : encodings.Serialise) (hkept : sink.Kept)
    (request : MetricsRequest) (t : TenantId) :
    (∀ fault other, other ≠ t →
        sink.SameFor other (sink.acceptMetrics doubles encodings request fault).2) ↔
      ∀ store ∈ sink.metricStore, ∀ tenant, sink.resolveMetricTenant doubles request = .ok tenant →
        tenant = t ∨ Pulse.Unseen store.state tenant (translateMetrics doubles request) := by
  cases hstore : sink.metricStore with
  | none =>
    refine StorageSink.isolated_iff_of_refused (fun fault => ?_) (by simp)
    rw [StorageSink.acceptMetrics, hstore]
  | some store =>
    cases htenant : sink.resolveMetricTenant doubles request with
    | error err =>
      refine StorageSink.isolated_iff_of_refused (fun fault => ?_) (by simp)
      simp only [StorageSink.acceptMetrics, hstore, htenant]
    | ok tenant =>
      have hsink (fault : Fault) : (sink.acceptMetrics doubles encodings request fault).2 =
          { sink with metricStore := some (Pulse.ingest encodings.pulseOrder encodings.pulseWal
            encodings.pulseSnap store tenant ⟨translateMetrics doubles request⟩ fault).2 } := by
        simp only [StorageSink.acceptMetrics, hstore, htenant]
      have hkeyed := hkept.metrics store hstore
      constructor
      · rintro hsame _ ⟨⟩ _ ⟨⟩
        refine or_iff_not_imp_left.mpr fun hne => ?_
        by_cases hnil : translateMetrics doubles request = []
        · rw [hnil]
          exact unseen_nil store.state tenant
        · have hrows := (hsink .none ▸ hsame .none tenant hne).metrics store hstore _ rfl
          rwa [pulse_ingest_state_none hserialise.pulse store tenant hnil,
            Pulse.sameRows_commitIngest_iff hkeyed] at hrows
      · intro hfiled fault other hother
        rw [hsink]
        refine .of_metrics hstore ?_
        rcases pulse_ingest_state store tenant (translateMetrics doubles request) fault with
          hstate | hstate
        · rw [hstate]
          exact pulse_sameRows_refl other store.state
        · rw [hstate]
          by_cases heq : other = tenant
          · subst heq
            rw [Pulse.sameRows_commitIngest_iff hkeyed]
            exact (hfiled store rfl other rfl).resolve_left hother
          · exact Pulse.sameRows_commitIngest_of_ne hkeyed heq _

theorem accept_isolated_iff_of_kept (hserialise : encodings.Serialise) (hkept : sink.Kept)
    (record : SinkRecord OtlpResource) :
    (∀ fault other, other ≠ authenticated record →
        sink.SameFor other (sink.accept doubles encodings record fault).2) ↔
      sink.Isolates doubles record := by
  cases record with
  | logs tagged => exact acceptLogs_isolated_iff hserialise hkept tagged.inner tagged.tenant
  | traces tagged => exact acceptTraces_isolated_iff hserialise hkept tagged.inner tagged.tenant
  | metrics tagged => exact acceptMetrics_isolated_iff hserialise hkept tagged.inner tagged.tenant

/-- With and without an accept, after any history of accepts, every tenant but the authenticated one
gets the same answers to all queries exactly when the record is refused, names the authenticated
tenant (or names none and that is the default), or holds nothing that can be seen. -/
theorem accept_isolated_iff (hserialise : encodings.Serialise) (hopened : sink.Opened encodings)
    (history : List (SinkRecord OtlpResource × Fault)) (record : SinkRecord OtlpResource) :
    (∀ fault other, other ≠ authenticated record →
        (sink.afterAll doubles encodings history).SameFor other
          ((sink.afterAll doubles encodings history).accept doubles encodings record fault).2) ↔
      (sink.afterAll doubles encodings history).Isolates doubles record :=
  accept_isolated_iff_of_kept hserialise (hopened.kept.afterAll history) record

end Sink

/-- Doubles for requests that hold none. -/
def noDoubles : Doubles := ⟨fun _ => "", fun _ => .finite 0⟩

/-- A request with one log record. -/
def startedRequest (resource : Option Resource) : LogsRequest where
  resources :=
    [{ resource
       scopeLogs :=
        [⟨[{ timeUnixNano := 1
             observedTimeUnixNano := 1
             severityNumber := 9
             severityText := "INFO"
             body := some (.string "started")
             attributes := []
             traceId := []
             spanId := [] }]⟩] }]

/-- Encodings under which the log records of the log store read as the given text. -/
noncomputable def encodingsOf (text : Utf8.Text) : Encodings where
  lumenWal := ⟨fun _ => .ok text, fun _ => .error "unread"⟩
  lumenSnap := ⟨fun _ => .error "unwritten", fun _ => .error "unread"⟩
  rayWal := ⟨fun _ => .ok [], fun _ => .error "unread"⟩
  raySnap := ⟨fun _ => .error "unwritten", fun _ => .error "unread"⟩
  pulseOrder := .unspecified _ _
  pulseWal := ⟨fun _ => .ok [], fun _ => .error "unread"⟩
  pulseSnap := ⟨fun _ => .error "unwritten", fun _ => .error "unread"⟩

/-- A sink with a new log store. -/
def logSink (defaultTenant : Option String) : StorageSink where
  config := ⟨defaultTenant⟩
  logStore := some ⟨∅, none, none, BufWriter.new []⟩
  traceStore := none
  metricStore := none

theorem serialise_encodingsOf (text : Utf8.Text) : (encodingsOf text).Serialise :=
  ⟨fun _ => ⟨text, rfl⟩, fun _ => ⟨[], rfl⟩, fun _ => ⟨[], rfl⟩⟩

theorem opened_logSink (text : Utf8.Text) (defaultTenant : Option String) :
    (logSink defaultTenant).Opened (encodingsOf text) where
  logs := by
    rintro _ ⟨⟩
    exact ⟨Files.none, rfl⟩
  traces := nofun
  metrics := nofun

/-- The text of the log record of a request without a resource. -/
def startedText : Utf8.Text :=
  chars "\x7b\"op\":\"ingest\",\"tenant\":\"acme\",\"records\":[" rfl ++
    chars "\x7b\"observed_time_unix_nano\":1,\"severity_number\":9," rfl ++
    chars "\"severity_text\":\"INFO\",\"body\":\"started\"," rfl ++
    chars "\"attributes\":\x7b\x7d,\"resource_attributes\":\x7b\x7d," rfl ++
    chars "\"trace_id\":null,\"span_id\":null\x7d]\x7d" rfl

/-- A request without a resource, authenticated for the default tenant, is kept from another. -/
theorem default_tenant_isolated : (logSink (some "acme")).SameFor ⟨"globex"⟩
    ((logSink (some "acme")).accept noDoubles (encodingsOf startedText)
      (.logs ⟨⟨"acme"⟩, startedRequest none⟩) .none).2 := by
  refine (accept_isolated_iff (serialise_encodingsOf startedText) (opened_logSink _ _) []
    (.logs ⟨⟨"acme"⟩, startedRequest none⟩)).mpr (fun _ tenant _ htenant _ => ?_) .none _
    (by decide)
  cases htenant
  exact .inl rfl

/-- The text of the log record of a request whose resource names `globex`. -/
def globexText : Utf8.Text :=
  chars "\x7b\"op\":\"ingest\",\"tenant\":\"globex\",\"records\":[" rfl ++
    chars "\x7b\"observed_time_unix_nano\":1,\"severity_number\":9," rfl ++
    chars "\"severity_text\":\"INFO\",\"body\":\"started\",\"attributes\":\x7b\x7d," rfl ++
    chars "\"resource_attributes\":\x7b\"tenant.id\":\"globex\"\x7d," rfl ++
    chars "\"trace_id\":null,\"span_id\":null\x7d]\x7d" rfl

/-- A request authenticated for `acme` whose resource names `globex` is seen by `globex`. -/
theorem globex_sees_acme : ¬ ∀ fault other, other ≠ (⟨"acme"⟩ : TenantId) →
    (logSink none).SameFor other
      ((logSink none).accept noDoubles (encodingsOf globexText)
        (.logs ⟨⟨"acme"⟩, startedRequest
          (some ⟨[.mk "tenant.id" (some (.string "globex"))]⟩)⟩) fault).2 := by
  intro h
  have hlogs := (h .none ⟨"globex"⟩ (by decide)).logs _ rfl _ rfl ⟨0, 2⟩ (by decide)
  exact absurd hlogs.1 (by decide +kernel)

end Kaleidoscope.Storage
