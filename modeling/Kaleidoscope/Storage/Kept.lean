import Kaleidoscope.Storage.Sink
import Kaleidoscope.Wal.Opened

/-!
# What the stores of a sink keep

Buckets are in the order of time and series are filed under the key of their metric: in every
opened store, and from one accept to the next.
-/

namespace Kaleidoscope.Storage

open Aegis Aperture HashMap Otlp StableSort

section Logs

variable {wal : LineSerde Lumen.WalRecord} {snap : FileSerde Lumen.Snapshot}

/-- An ingest of logs commits or changes nothing. -/
theorem lumen_ingest_state (store : Store Lumen.PerTenant) (tenant : TenantId)
    (records : List Lumen.LogRecord) (fault : Fault) :
    (Lumen.ingest wal snap store tenant ⟨records⟩ fault).2.state = store.state ∨
      (Lumen.ingest wal snap store tenant ⟨records⟩ fault).2.state =
        (Lumen.InMemoryLogStore.ingest store.state tenant ⟨records⟩).2 := by
  simp only [Lumen.ingest, Lumen.plan, Lumen.ingestSteps]
  split_ifs
  · exact .inl rfl
  · rcases Pillar.call_singleton (Lumen.fileBackedLogStore wal snap) store.state _ fault store with
      ⟨-, hstate⟩ | ⟨-, -, hstate⟩
    · exact .inr hstate
    · exact .inl hstate

/-- The buckets of an opened log store are sorted. -/
theorem lumen_sorted_open {f : Files} {store : Store Lumen.PerTenant}
    (h : (Lumen.fileBackedLogStore wal snap).openWithFsyncBackend f = .ok store)
    (tenant : TenantId) :
    Lumen.sortBucket (bucket store.state tenant) = bucket store.state tenant := by
  obtain ⟨perTenant, -, hstate⟩ := (Lumen.fileBackedLogStore wal snap).open_keeps
    (p := fun _ => True) trivial (fun _ _ _ => trivial) (fun _ _ _ _ _ => trivial) h
  have hsettled : bucket store.state tenant = Lumen.sortBucket (bucket perTenant tenant) := by
    rw [hstate]
    exact bucket_mapValues perTenant tenant rfl
  rw [hsettled]
  exact sortByKey_of_pairwise _ (pairwise_sortByKey _ _)

theorem lumen_sorted_ingest {perTenant : Lumen.PerTenant}
    (h : ∀ t, Lumen.sortBucket (bucket perTenant t) = bucket perTenant t) (tenant : TenantId)
    (batch : Lumen.LogBatch) (t : TenantId) :
    Lumen.sortBucket (bucket (Lumen.InMemoryLogStore.ingest perTenant tenant batch).2 t) =
      bucket (Lumen.InMemoryLogStore.ingest perTenant tenant batch).2 t := by
  rw [Lumen.bucket_ingest]
  split_ifs
  · exact sortByKey_of_pairwise _ (pairwise_sortByKey _ _)
  · exact h t

end Logs

section Traces

variable {wal : LineSerde Ray.WalRecord} {snap : FileSerde Ray.Snapshot}

/-- An ingest of spans commits or changes nothing. -/
theorem ray_ingest_state (store : Store Ray.Indices) (tenant : TenantId) (spans : List Ray.Span)
    (fault : Fault) :
    (Ray.ingest wal snap store tenant ⟨spans⟩ fault).2.state = store.state ∨
      spans ≠ [] ∧ (Ray.ingest wal snap store tenant ⟨spans⟩ fault).2.state =
        (Ray.InMemoryTraceStore.ingest store.state tenant ⟨spans⟩).2 := by
  simp only [Ray.ingest, Ray.plan, Ray.ingestSteps]
  split_ifs with hempty
  · exact .inl rfl
  · rcases Pillar.call_singleton (Ray.fileBackedTraceStore wal snap) store.state _ fault store with
      ⟨-, hstate⟩ | ⟨-, -, hstate⟩
    · exact .inr ⟨by simpa [Ray.SpanBatch.isEmpty] using hempty, hstate⟩
    · exact .inl hstate

/-- The buckets of an opened trace store are sorted. -/
theorem ray_sorted_open {f : Files} {store : Store Ray.Indices}
    (h : (Ray.fileBackedTraceStore wal snap).openWithFsyncBackend f = .ok store) :
    store.state.Sorted := by
  obtain ⟨indices, -, hstate⟩ := (Ray.fileBackedTraceStore wal snap).open_keeps
    (p := fun _ => True) trivial (fun _ _ _ => trivial) (fun _ _ _ _ _ => trivial) h
  intro k
  have hsettled : store.state.bucket k = Ray.sortBucket (indices.bucket k) := by
    rw [hstate]
    exact Ray.bucket_sortAll indices k
  rw [hsettled]
  exact pairwise_sortByKey _ _

end Traces

section Metrics

variable {order : IterOrder Pulse.Key Pulse.SeriesEntry} {wal : LineSerde Pulse.WalRecord}
  {snap : FileSerde Pulse.Snapshot}

/-- An ingest of metrics commits or changes nothing. -/
theorem pulse_ingest_state (store : Store Pulse.Inner) (tenant : TenantId)
    (metrics : List Pulse.Metric) (fault : Fault) :
    (Pulse.ingest order wal snap store tenant ⟨metrics⟩ fault).2.state = store.state ∨
      (Pulse.ingest order wal snap store tenant ⟨metrics⟩ fault).2.state =
        Pulse.commitIngest tenant metrics store.state := by
  simp only [Pulse.ingest, Pulse.plan, Pulse.ingestSteps]
  split_ifs
  · exact .inl rfl
  · rcases Pillar.call_singleton (Pulse.fileBackedMetricStore order wal snap) store.state _ fault
      store with ⟨-, hstate⟩ | ⟨-, -, hstate⟩
    · exact .inr hstate
    · exact .inl hstate

/-- The series of an opened metric store are filed under their keys. -/
theorem pulse_keyed_open {f : Files} {store : Store Pulse.Inner}
    (h : (Pulse.fileBackedMetricStore order wal snap).openWithFsyncBackend f = .ok store) :
    Pulse.Keyed store.state.series := by
  obtain ⟨inner, hkeyed, hstate⟩ := (Pulse.fileBackedMetricStore order wal snap).open_keeps
    (p := fun inner : Pulse.Inner => Pulse.Keyed inner.series) Pulse.Keyed.empty
    (fun snapshot s hs => by
      cases hs
      exact Pulse.keyed_fromSnapshot snapshot)
    (fun s record s' hs hs' => by
      cases hs'
      cases record
      exact hs.applyIngest _ _ _)
    h
  rw [hstate]
  exact hkeyed.sortAll

end Metrics

/-- Every store of the sink was opened from files. -/
structure StorageSink.Opened (encodings : Encodings) (sink : StorageSink) : Prop where
  logs : ∀ store ∈ sink.logStore, ∃ f, (Lumen.fileBackedLogStore encodings.lumenWal
    encodings.lumenSnap).openWithFsyncBackend f = .ok store
  traces : ∀ store ∈ sink.traceStore, ∃ f, (Ray.fileBackedTraceStore encodings.rayWal
    encodings.raySnap).openWithFsyncBackend f = .ok store
  metrics : ∀ store ∈ sink.metricStore, ∃ f, (Pulse.fileBackedMetricStore encodings.pulseOrder
    encodings.pulseWal encodings.pulseSnap).openWithFsyncBackend f = .ok store

variable {doubles : Doubles} {encodings : Encodings} {sink : StorageSink}

theorem StorageSink.Opened.kept (h : sink.Opened encodings) : sink.Kept where
  logs store hstore := by
    obtain ⟨f, hopen⟩ := h.logs store hstore
    exact lumen_sorted_open hopen
  traces store hstore := by
    obtain ⟨f, hopen⟩ := h.traces store hstore
    exact ray_sorted_open hopen
  metrics store hstore := by
    obtain ⟨f, hopen⟩ := h.metrics store hstore
    exact pulse_keyed_open hopen

/-- Every accept keeps it. -/
theorem StorageSink.Kept.accept (h : sink.Kept) (record : SinkRecord OtlpResource)
    (fault : Fault) : (sink.accept doubles encodings record fault).2.Kept := by
  cases record with
  | logs tagged =>
    simp only [StorageSink.accept, StorageSink.acceptLogs]
    split
    · exact h
    · split
      · exact h
      · split
        · exact h
        · next store hstore _ tenant _ _ records _ =>
          refine ⟨?_, h.traces, h.metrics⟩
          rintro _ ⟨⟩ t
          rcases lumen_ingest_state store tenant records fault with hstate | hstate
          · rw [hstate]
            exact h.logs store hstore t
          · rw [hstate]
            exact lumen_sorted_ingest (h.logs store hstore) tenant _ t
  | traces tagged =>
    simp only [StorageSink.accept, StorageSink.acceptTraces]
    split
    · exact h
    · split
      · exact h
      · split
        · exact h
        · next store hstore _ tenant _ _ spans _ =>
          refine ⟨h.logs, ?_, h.metrics⟩
          rintro _ ⟨⟩
          rcases ray_ingest_state store tenant spans fault with hstate | ⟨-, hstate⟩
          · rw [hstate]
            exact h.traces store hstore
          · rw [hstate]
            exact Ray.InMemoryTraceStore.sorted_ingest (h.traces store hstore) tenant _
  | metrics tagged =>
    simp only [StorageSink.accept, StorageSink.acceptMetrics]
    split
    · exact h
    · split
      · exact h
      · next store hstore _ tenant _ =>
        refine ⟨h.logs, h.traces, ?_⟩
        rintro _ ⟨⟩
        rcases pulse_ingest_state store tenant (translateMetrics doubles tagged.inner) fault with
          hstate | hstate
        · rw [hstate]
          exact h.metrics store hstore
        · rw [hstate]
          exact (h.metrics store hstore).commitIngest tenant _

/-- A sink after a history of accepts, each with its fault. -/
def StorageSink.afterAll (doubles : Doubles) (encodings : Encodings) (sink : StorageSink)
    (history : List (SinkRecord OtlpResource × Fault)) : StorageSink :=
  history.foldl (fun sink event => (sink.accept doubles encodings event.1 event.2).2) sink

theorem StorageSink.Kept.afterAll (h : sink.Kept)
    (history : List (SinkRecord OtlpResource × Fault)) :
    (sink.afterAll doubles encodings history).Kept :=
  List.foldlRecOn history _ h fun _ hkept event _ => hkept.accept event.1 event.2

end Kaleidoscope.Storage
