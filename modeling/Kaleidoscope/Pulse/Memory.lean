import Kaleidoscope.Pulse.Restart
import Kaleidoscope.Wal.Session

/-!
# The in-memory metric store

The adapter without files has a loop of its own over the metrics of a batch. It sorts the
series of each metric at once, where the file-backed store sorts all of them after the batch.
-/

namespace Kaleidoscope.Pulse

open Aegis HashMap StableSort

/-- `u64::MAX`. -/
def u64Max : Nat := 2 ^ 64 - 1

/-- `TimeRange::all`. -/
def TimeRange.all : TimeRange := ⟨0, u64Max⟩

namespace InMemoryMetricStore

/-- One turn of the loop of `ingest`. -/
def ingestMetric (tenant : TenantId) (acc : Inner × Applied) (metric : Metric) : Inner × Applied :=
  let (state, applied) := acc
  if state.Refuses tenant metric then
    (state, { applied with refused := applied.refused + 1 })
  else
    ({ series := state.series.upsert (tenant, SeriesKey.of metric) (.new metric) fun entry =>
        sortEntry (entry.extend metric)
       tenantCounts := state.counted tenant metric },
      { applied with stored := applied.stored + metric.points.length })

/-- `ingest`. -/
def ingest (state : Inner) (tenant : TenantId) (batch : MetricBatch) :
    Except MetricStoreError IngestReceipt × Inner :=
  let (state, applied) := batch.metrics.foldl (ingestMetric tenant) (state, ⟨0, 0⟩)
  (.ok ⟨applied.stored, applied.refused⟩, state)

/-- An ingest as a request. -/
def ask (state : Inner) : Call → Except MetricStoreError IngestReceipt × Inner
  | .ingest tenant batch => ingest state tenant batch

/-- `query`. -/
def query (order : IterOrder Key SeriesEntry) (state : Inner) (tenant : TenantId)
    (metricName : MetricName) (range : TimeRange) : List (Metric × MetricPoint) :=
  ((order.entries state.series).filter fun e =>
    e.1.1 = tenant ∧ e.1.2.name = metricName).flatMap fun e =>
      (e.2.points.filter fun p => range.contains p.timeUnixNano).map fun p => (e.2.metric, p)

/-- `query_with`. -/
def queryWith (order : IterOrder Key SeriesEntry) (state : Inner) (tenant : TenantId)
    (metricName : MetricName) (range : TimeRange) (predicate : Predicate) :
    List (Metric × MetricPoint) :=
  ((order.entries state.series).filter fun e =>
    e.1.1 = tenant ∧ e.1.2.name = metricName).flatMap fun e =>
      (e.2.points.filter fun p =>
        range.contains p.timeUnixNano && predicate.isMatch e.2.metric p).map
          fun p => (e.2.metric, p)

/-- From sorted series a turn leaves what a turn of `apply_ingest` leaves, sorted. -/
theorem ingestMetric_sorted (tenant : TenantId) (inner : Inner) (applied : Applied)
    (metric : Metric) :
    ingestMetric tenant ({ inner with series := sortAll inner.series }, applied) metric =
      let next := applyMetric tenant true (inner, applied) metric
      ({ next.1 with series := sortAll next.1.series }, next.2) := by
  let sorted : Inner := { inner with series := sortAll inner.series }
  have hlookup (k : Key) : sorted.series.lookup k = (inner.series.lookup k).map sortEntry :=
    lookup_sortAll inner.series k
  have hrefuses : sorted.Refuses tenant metric ↔ inner.Refuses tenant metric := by
    rw [Inner.Refuses, Inner.Refuses, hlookup, Option.map_eq_none_iff]
    rfl
  have hcounted : sorted.counted tenant metric = inner.counted tenant metric := by
    rw [Inner.counted, Inner.counted, hlookup, Option.isSome_map]
  have hseries : (sorted.series.upsert (tenant, SeriesKey.of metric) (.new metric) fun entry =>
      sortEntry (entry.extend metric)) = sortAll (file inner.series tenant metric) := by
    apply Finmap.ext_lookup
    intro k
    rw [lookup_sortAll, lookup_file, lookup_upsert, hlookup, hlookup]
    split_ifs with hk
    · subst hk
      refine congrArg some (sortEntry_extend ?_ metric)
      cases inner.series.lookup (tenant, SeriesKey.of metric) with
      | none => rfl
      | some entry => exact sortEntry_sortEntry entry
    · rfl
  change (if sorted.Refuses tenant metric then _ else
    ((⟨sorted.series.upsert _ _ _, sorted.counted tenant metric⟩ : Inner), _)) = _
  rw [hseries, hcounted]
  simp only [applyMetric, true_and, hrefuses]
  split_ifs <;> rfl

/-- So the loop leaves what `apply_ingest` and sorting at the end leave. -/
theorem foldl_ingestMetric (tenant : TenantId) (inner : Inner) (applied : Applied)
    (metrics : List Metric) :
    metrics.foldl (ingestMetric tenant) ({ inner with series := sortAll inner.series }, applied) =
      let next := metrics.foldl (applyMetric tenant true) (inner, applied)
      ({ next.1 with series := sortAll next.1.series }, next.2) := by
  induction metrics generalizing inner applied with
  | nil => rfl
  | cons metric metrics ih =>
    rw [List.foldl_cons, List.foldl_cons, ingestMetric_sorted]
    exact ih _ _

/-- An ingest into sorted series is what the file-backed store commits and reports. -/
theorem ingest_eq {state : Inner} (h : sortAll state.series = state.series) (tenant : TenantId)
    (batch : MetricBatch) :
    ingest state tenant batch =
      let applied := (applyIngest state tenant batch.metrics true).2
      (.ok ⟨applied.stored, applied.refused⟩, commitIngest tenant batch.metrics state) := by
  have hfold := foldl_ingestMetric tenant state ⟨0, 0⟩ batch.metrics
  rw [h] at hfold
  rw [ingest, hfold]
  rfl

end InMemoryMetricStore

/-- What the loops keep in step, beside the series and the counts themselves. -/
structure Inner.Kept (inner : Inner) : Prop where
  /-- The shadow counter of a tenant is the number of its series. -/
  counted : ∀ t, inner.count t = seriesCount inner.series t
  /-- No tenant has more than it may. -/
  capped : ∀ t, inner.count t ≤ maxSeriesPerTenant
  /-- Every series is in the order of time. -/
  sorted : ∀ k entry, inner.series.lookup k = some entry →
    entry.points.Pairwise fun a b => a.timeUnixNano ≤ b.timeUnixNano

theorem kept_empty : Inner.empty.Kept where
  counted t := by simp [Inner.count, Inner.empty, seriesCount]
  capped t := by simp [Inner.count, Inner.empty]
  sorted k entry hk := by simp [Inner.empty] at hk

theorem sorted_sortAll {series : Series} {k : Key} {entry : SeriesEntry}
    (h : (sortAll series).lookup k = some entry) :
    entry.points.Pairwise fun a b => a.timeUnixNano ≤ b.timeUnixNano := by
  rw [lookup_sortAll] at h
  obtain ⟨entry', -, rfl⟩ := Option.map_eq_some_iff.mp h
  exact pairwise_sortByKey _ _

/-- Sorting leaves sorted series as they are. -/
theorem Inner.Kept.sortAll_eq {inner : Inner} (h : inner.Kept) :
    sortAll inner.series = inner.series := by
  apply Finmap.ext_lookup
  intro k
  rw [lookup_sortAll]
  cases hk : inner.series.lookup k with
  | none => rfl
  | some entry =>
    refine congrArg some ?_
    rw [sortEntry, sortByKey_of_pairwise _ (h.sorted k entry hk)]

/-- Where there are no files, `open` finds no series. -/
theorem settle_empty (order : IterOrder Key SeriesEntry) (wal : LineSerde WalRecord)
    (snap : FileSerde Snapshot) :
    (fileBackedMetricStore order wal snap).settle Inner.empty = Inner.empty := by
  have hseries : sortAll Inner.empty.series = ∅ := kept_empty.sortAll_eq
  change (⟨sortAll Inner.empty.series, rebuilt order (sortAll Inner.empty.series)⟩ : Inner) = _
  rw [hseries, rebuilt, order.entries_empty]
  rfl

/-- Filing counts a series exactly when it is new. -/
theorem counted_applyIngest {inner : Inner} (h : ∀ t, inner.count t = seriesCount inner.series t)
    (tenant : TenantId) (metrics : List Metric) (enforceCap : Bool) (t : TenantId) :
    (applyIngest inner tenant metrics enforceCap).1.count t =
      seriesCount (applyIngest inner tenant metrics enforceCap).1.series t := by
  induction metrics using List.reverseRecOn with
  | nil => exact h t
  | append_singleton metrics metric ih =>
    rw [applyIngest_snoc, applyMetric]
    split_ifs
    · exact ih
    · change ((Inner.counted _ tenant metric).lookup t).getD 0 = _
      rw [count_counted, seriesCount_file, ih]

/-- A committed ingest keeps them in step. -/
theorem Inner.Kept.commitIngest {inner : Inner} (h : inner.Kept) (tenant : TenantId)
    (metrics : List Metric) : (commitIngest tenant metrics inner).Kept where
  counted t := by
    refine (counted_applyIngest h.counted tenant metrics true t).trans ?_
    exact (seriesCount_sortAll _ t).symm
  capped := count_applyIngest_le h.capped tenant metrics
  sorted _ _ hk := sorted_sortAll hk

section Visible

variable (order : IterOrder Key SeriesEntry) (inner : Inner)

/-- A sum over the entries that a query visits runs over their keys. -/
theorem sum_visited {M : Type} [AddCommMonoid M] (tenant : TenantId) (metricName : MetricName)
    (f : Key × SeriesEntry → M) (g : Key → M)
    (h : ∀ k entry, inner.series.lookup k = some entry → f (k, entry) = g k) :
    (((order.entries inner.series).filter fun e =>
        e.1.1 = tenant ∧ e.1.2.name = metricName).map f).sum =
      ∑ k ∈ inner.series.keys with k.1 = tenant ∧ k.2.name = metricName, g k := by
  let entries := (order.entries inner.series).filter
    fun e => decide (e.1.1 = tenant ∧ e.1.2.name = metricName)
  have hvalue : ∀ e ∈ entries, f e = g e.1 := fun e he =>
    h e.1 e.2 ((order.mem_iff _ e.1 e.2).mp (List.mem_of_mem_filter he))
  have hnodup : (entries.map Prod.fst).Nodup :=
    (order.nodup inner.series).sublist (List.filter_sublist.map Prod.fst)
  have hkeys : (entries.map Prod.fst).toFinset =
      inner.series.keys.filter fun k => k.1 = tenant ∧ k.2.name = metricName := by
    ext k
    rw [List.mem_toFinset, Finset.mem_filter, Finmap.mem_keys, ← Finmap.lookup_isSome,
      ← order.mem_keys_iff]
    simp only [entries, List.mem_map, List.mem_filter, decide_eq_true_eq]
    constructor
    · rintro ⟨e, ⟨he, hwanted⟩, rfl⟩
      exact ⟨⟨e, he, rfl⟩, hwanted⟩
    · rintro ⟨⟨e, he, rfl⟩, hwanted⟩
      exact ⟨e, ⟨he, hwanted⟩, rfl⟩
  rw [← hkeys, List.sum_toFinset _ hnodup, List.map_map]
  exact congrArg List.sum (List.map_congr_left hvalue)

/-- What a query returns is counted series by series. -/
theorem length_query (tenant : TenantId) (metricName : MetricName) (range : TimeRange) :
    (query order inner tenant metricName range).length =
      ∑ k ∈ inner.series.keys with k.1 = tenant ∧ k.2.name = metricName,
        ((pointsOf inner.series k).filter fun p => range.contains p.timeUnixNano).length := by
  rw [query, List.length_flatMap]
  refine sum_visited order inner tenant metricName _ _ fun k entry hentry => ?_
  rw [List.length_map, pointsOf, hentry]
  rfl

/-- The number of points that the queries of all tenants and names show. -/
def visible : Nat :=
  ∑ asked ∈ inner.series.keys.image fun k => (k.1, k.2.name),
    (query order inner asked.1 asked.2 .all).length

/-- They are the points of all series before the last nanosecond. -/
theorem visible_eq :
    visible order inner =
      pointsWhere (fun p => TimeRange.all.contains p.timeUnixNano) inner.series := by
  rw [visible, pointsWhere, ← Finset.sum_fiberwise_of_maps_to
    (fun k hk => Finset.mem_image_of_mem (fun k : Key => (k.1, k.2.name)) hk)]
  refine Finset.sum_congr rfl fun asked _ => ?_
  rw [length_query]
  refine Finset.sum_congr (Finset.filter_congr fun k _ => ?_) fun _ _ => rfl
  rw [Prod.ext_iff]

end Visible

/-- An ingest makes the points visible that it reports, if none is at `u64::MAX`. -/
theorem visible_commitIngest (order : IterOrder Key SeriesEntry) (inner : Inner)
    (tenant : TenantId) {metrics : List Metric}
    (h : ∀ m ∈ metrics, ∀ p ∈ m.points, p.timeUnixNano < u64Max) :
    visible order (commitIngest tenant metrics inner) =
      visible order inner + (applyIngest inner tenant metrics true).2.stored := by
  rw [visible_eq, visible_eq, commitIngest, pointsWhere_sortAll]
  refine pointsWhere_applyIngest inner tenant (fun m hm p hp => ?_) true
  simp [TimeRange.contains, TimeRange.all, h m hm p hp]

end Kaleidoscope.Pulse
