import Kaleidoscope.Library.HashMap
import Kaleidoscope.Library.StableSort
import Kaleidoscope.Pulse.Serde
import Kaleidoscope.Wal.Refinement

/-!
# The file-backed metric store

Live ingest refuses new series of a tenant that holds as many as it may; the log holds the
whole batch all the same, and replay files all of it.
-/

namespace Kaleidoscope.Pulse

open Aegis HashMap StableSort

/-- The most distinct series one tenant may hold. -/
def maxSeriesPerTenant : Nat := 10000

/-- Typed store failures. -/
inductive MetricStoreError where
  | persistenceFailed (reason : String)
  deriving DecidableEq, Repr

/-- Successful ingest response. -/
structure IngestReceipt where
  count : Nat
  seriesRefused : Nat
  deriving DecidableEq, Repr

/-- One series: its metric, without points, and its points. -/
structure SeriesEntry where
  metric : Metric
  points : List MetricPoint
  deriving DecidableEq

abbrev Key := TenantId × SeriesKey

abbrev Series := HashMap Key SeriesEntry

/-- The state of the store: the series, and how many of them each tenant has. -/
structure Inner where
  series : Series
  tenantCounts : HashMap TenantId Nat

/-- A store without series. -/
def Inner.empty : Inner := ⟨∅, ∅⟩

/-- The number of series a tenant is counted with. -/
def Inner.count (inner : Inner) (tenant : TenantId) : Nat :=
  (inner.tenantCounts.lookup tenant).getD 0

/-- The entry of a series that saw no point of this metric yet. -/
def SeriesEntry.new (metric : Metric) : SeriesEntry := ⟨{ metric with points := [] }, []⟩

/-- A series takes the points of a metric and refreshes its metadata. -/
def SeriesEntry.extend (entry : SeriesEntry) (metric : Metric) : SeriesEntry where
  metric :=
    { entry.metric with
      description := metric.description
      unit := metric.unit
      kind := metric.kind }
  points := entry.points ++ metric.points

/-- The series of a metric, old or new, takes its points. -/
def file (series : Series) (tenant : TenantId) (metric : Metric) : Series :=
  series.upsert (tenant, SeriesKey.of metric) (.new metric) (·.extend metric)

/-- The points stored and the metrics refused by one `apply_ingest`. -/
structure Applied where
  stored : Nat
  refused : Nat
  deriving DecidableEq, Repr

/-- Whether `apply_ingest` refuses a metric: its series is new and the tenant is at the cap. -/
def Inner.Refuses (inner : Inner) (tenant : TenantId) (metric : Metric) : Prop :=
  inner.series.lookup (tenant, SeriesKey.of metric) = none ∧
    maxSeriesPerTenant ≤ inner.count tenant

instance (inner : Inner) (tenant : TenantId) (metric : Metric) :
    Decidable (inner.Refuses tenant metric) :=
  inferInstanceAs (Decidable (_ ∧ _))

/-- The series of a metric is counted when it is new. -/
def Inner.counted (inner : Inner) (tenant : TenantId) (metric : Metric) : HashMap TenantId Nat :=
  if (inner.series.lookup (tenant, SeriesKey.of metric)).isSome then inner.tenantCounts
  else inner.tenantCounts.upsert tenant 0 (· + 1)

/-- One turn of the loop of `apply_ingest`. -/
def applyMetric (tenant : TenantId) (enforceCap : Bool) (acc : Inner × Applied)
    (metric : Metric) : Inner × Applied :=
  let (inner, applied) := acc
  if enforceCap = true ∧ inner.Refuses tenant metric then
    (inner, { applied with refused := applied.refused + 1 })
  else
    (⟨file inner.series tenant metric, inner.counted tenant metric⟩,
      { applied with stored := applied.stored + metric.points.length })

/-- `apply_ingest`. -/
def applyIngest (inner : Inner) (tenant : TenantId) (metrics : List Metric)
    (enforceCap : Bool) : Inner × Applied :=
  metrics.foldl (applyMetric tenant enforceCap) (inner, ⟨0, 0⟩)

theorem applyIngest_snoc (inner : Inner) (tenant : TenantId) (metrics : List Metric)
    (metric : Metric) (enforceCap : Bool) :
    applyIngest inner tenant (metrics ++ [metric]) enforceCap =
      applyMetric tenant enforceCap (applyIngest inner tenant metrics enforceCap) metric :=
  List.foldl_append

/-- Sort the points of a series on their time. -/
def sortEntry (entry : SeriesEntry) : SeriesEntry :=
  { entry with points := sortByKey MetricPointOf.timeUnixNano entry.points }

/-- Sort every series. -/
def sortAll (series : Series) : Series := series.mapValues sortEntry

/-- The counts `open` rebuilds from the keys of the series. -/
def rebuilt (order : IterOrder Key SeriesEntry) (series : Series) : HashMap TenantId Nat :=
  (order.entries series).foldl (fun counts e => counts.upsert e.1.1 0 (· + 1)) ∅

/-- The state `open` builds from a snapshot. -/
def fromSnapshot (snap : Snapshot) : Inner :=
  snap.series.foldl
    (fun inner b =>
      { series := inner.series.insert (b.tenant, SeriesKey.of b.metric) ⟨b.metric, b.points⟩
        tenantCounts := inner.counted b.tenant b.metric })
    .empty

/-- The closure `open` replays the log with. -/
def applyRecord (inner : Inner) : WalRecord → Inner
  | .ingest tenant metrics => (applyIngest inner tenant metrics false).1

/-- The snapshot of the current state. -/
def toSnapshot (order : IterOrder Key SeriesEntry) (inner : Inner) : Snapshot :=
  ⟨(order.entries inner.series).map fun e => ⟨e.1.1, e.2.metric, e.2.points⟩⟩

/-- `FileBackedMetricStore`; `order` is the order in which `open` visits the keys. -/
def fileBackedMetricStore (order : IterOrder Key SeriesEntry) (wal : LineSerde WalRecord)
    (snap : FileSerde Snapshot) :
    Pillar Inner WalRecord Snapshot MetricStoreError (IterOrder Key SeriesEntry) where
  walSerde := wal
  snapSerde := snap
  persistenceFailed := .persistenceFailed
  empty := .empty
  restore snap := .ok (fromSnapshot snap)
  apply inner record := .ok (applyRecord inner record)
  replayLoop := .tornTail fun line error =>
    .persistenceFailed s!"WAL parse error at line {line}: {error}"
  settle inner :=
    let series := sortAll inner.series
    ⟨series, rebuilt order series⟩
  capture := toSnapshot

/-- The operations that write to the log. -/
inductive Call where
  | ingest (tenant : TenantId) (batch : MetricBatch)

/-- What `ingest` does to memory once the batch is in the log. -/
def commitIngest (tenant : TenantId) (metrics : List Metric) (inner : Inner) : Inner :=
  let inner := (applyIngest inner tenant metrics true).1
  { inner with series := sortAll inner.series }

/-- What `ingest` appends: nothing for an empty batch. -/
def ingestSteps (tenant : TenantId) (batch : MetricBatch) : List (LogStep Inner WalRecord) :=
  if batch.isEmpty then []
  else [{ record := .ingest tenant batch.metrics, commit := commitIngest tenant batch.metrics }]

/-- The appends of an operation. -/
def plan : Call → Inner → Plan Inner WalRecord
  | .ingest tenant batch, inner => ⟨inner, ingestSteps tenant batch⟩

section Operations

variable (order : IterOrder Key SeriesEntry) (wal : LineSerde WalRecord)
  (snap : FileSerde Snapshot)

/-- `ingest`. -/
def ingest (store : Store Inner) (tenant : TenantId) (batch : MetricBatch) (fault : Fault) :
    Except MetricStoreError IngestReceipt × Store Inner :=
  let ran := (fileBackedMetricStore order wal snap).call
    (plan (.ingest tenant batch) store.state) [fault] store
  let applied := (applyIngest store.state tenant batch.metrics true).2
  (ran.result.map fun _ => ⟨applied.stored, applied.refused⟩, ran.store)

/-- `query`; `order` is the order in which it visits the series. -/
def query (inner : Inner) (tenant : TenantId) (metricName : MetricName) (range : TimeRange) :
    List (Metric × MetricPoint) :=
  ((order.entries inner.series).filter fun e => e.1.1 = tenant ∧ e.1.2.name = metricName).flatMap
    fun e => (e.2.points.filter fun p => range.contains p.timeUnixNano).map
      fun p => (e.2.metric, p)

/-- `query_with`. -/
def queryWith (inner : Inner) (tenant : TenantId) (metricName : MetricName) (range : TimeRange)
    (predicate : Predicate) : List (Metric × MetricPoint) :=
  ((order.entries inner.series).filter fun e => e.1.1 = tenant ∧ e.1.2.name = metricName).flatMap
    fun e =>
      (e.2.points.filter fun p =>
        range.contains p.timeUnixNano && predicate.isMatch e.2.metric p).map
          fun p => (e.2.metric, p)

end Operations

end Kaleidoscope.Pulse
