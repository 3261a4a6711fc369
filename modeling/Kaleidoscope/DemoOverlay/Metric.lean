import Kaleidoscope.DemoOverlay.Identity
import Kaleidoscope.Library.ReadStore
import Kaleidoscope.Pulse.Rows

/-!
# The metric overlay

The store lists rows series by series, in an unspecified order of the series. A row is compared by
its series and its point, since an ingest refreshes the description of a series.
-/

namespace Kaleidoscope.DemoOverlay.Metric

open Aegis Pulse HashMap StableSort

/-- `DEMO_METRIC_NAME`. -/
def demoMetricName : MetricName := ⟨"request_count"⟩

/-- `METRIC_POINT_OFFSET_NANOS`. -/
def metricPointOffsetNanos : Nat := 30_000_000_000

/-- `DEMO_METRIC_VALUE`, which is 1. -/
def demoMetricValue : F64 := .finite 0x3FF0000000000000

/-- `is_demo_metric`. -/
def isDemoMetric (metricName : MetricName) : Bool := metricName = demoMetricName

/-- `synthesize_request_count`. -/
def synthesizeRequestCount (nowUnixNano : Nat) : Metric × MetricPoint :=
  ({ name := demoMetricName
     description := ""
     unit := ""
     kind := .sum
     points := []
     resourceAttributes := .single "service.name" demoServiceName },
    { timeUnixNano := nowUnixNano - metricPointOffsetNanos
      startTimeUnixNano := 0
      attributes := .empty
      value := demoMetricValue })

/-- A read of a metric store. -/
inductive MetricRead where
  | query (tenant : TenantId) (metricName : MetricName) (range : TimeRange)
  | queryWith (tenant : TenantId) (metricName : MetricName) (range : TimeRange)
    (predicate : Predicate)

namespace MetricRead

/-- The tenant that is asked about. -/
def tenant : MetricRead → TenantId
  | query tenant _ _ => tenant
  | queryWith tenant _ _ _ => tenant

/-- The metric that is asked for. -/
def metricName : MetricRead → MetricName
  | query _ metricName _ => metricName
  | queryWith _ metricName _ _ => metricName

/-- Whether what is asked for is part of the demo. -/
def isDemo (read : MetricRead) : Bool := isDemoTenant read.tenant && isDemoMetric read.metricName

/-- The range that is asked for. -/
def range : MetricRead → TimeRange
  | query _ _ range => range
  | queryWith _ _ range _ => range

/-- The rows that are kept of those in the range. -/
def keeps : MetricRead → Metric × MetricPoint → Bool
  | query _ _ _, _ => true
  | queryWith _ _ _ predicate, row => predicate.isMatch row.1 row.2

end MetricRead

/-- `MetricStore`. -/
abbrev MetricStore (State : Type) :=
  ReadStore State (TenantId × MetricBatch) (Except MetricStoreError IngestReceipt) MetricRead
    (Except MetricStoreError (List (Metric × MetricPoint)))

/-- `InMemoryMetricStore`, with the order in which it visits its series. -/
def inMemory (order : IterOrder Pulse.Key SeriesEntry) : MetricStore Inner where
  write inner w := InMemoryMetricStore.ingest inner w.1 w.2
  read inner
    | .query tenant metricName range =>
      .ok (InMemoryMetricStore.query order inner tenant metricName range)
    | .queryWith tenant metricName range predicate =>
      .ok (InMemoryMetricStore.queryWith order inner tenant metricName range predicate)

/-- The time of a row. -/
def timeOf (row : Metric × MetricPoint) : Nat := row.2.timeUnixNano

/-- `DemoMetricOverlay`, at a time. -/
def overlay {State : Type} (inner : MetricStore State) (nowUnixNano : Nat) :
    MetricStore State where
  write := inner.write
  read state
    | .query tenant metricName range =>
      let row := synthesizeRequestCount nowUnixNano
      extend timeOf (isDemoTenant tenant && isDemoMetric metricName)
        (inner.read state (.query tenant metricName range))
        (if range.contains row.2.timeUnixNano then [row] else [])
    | .queryWith tenant metricName range predicate =>
      let row := synthesizeRequestCount nowUnixNano
      extend timeOf (isDemoTenant tenant && isDemoMetric metricName)
        (inner.read state (.queryWith tenant metricName range predicate))
        (if range.contains row.2.timeUnixNano && predicate.isMatch row.1 row.2 then [row] else [])

/-- What the overlay adds to an answer. -/
def added (nowUnixNano : Nat) (read : MetricRead) : List (Metric × MetricPoint) :=
  if read.isDemo then
    [synthesizeRequestCount nowUnixNano].filter fun row =>
      read.range.contains row.2.timeUnixNano && read.keeps row
  else []

/-- A row by its series and its point. -/
def shown (row : Metric × MetricPoint) : SeriesKey × MetricPoint := (SeriesKey.of row.1, row.2)

/-- The demo as a batch. -/
def demoBatch (nowUnixNano : Nat) : MetricBatch :=
  let (metric, point) := synthesizeRequestCount nowUnixNano
  ⟨[{ metric with points := [point] }]⟩

/-- The overlay answers like the store with the demo in it, as far as that has room for it. -/
structure Unites (order : IterOrder Pulse.Key SeriesEntry) (nowUnixNano : Nat) (inner : Inner) :
    Prop where
  reference : ∀ (order' : IterOrder Pulse.Key SeriesEntry) (read : MetricRead),
    (read.tenant = demoTenant → inner.count demoTenant < maxSeriesPerTenant) → ∃ rows rows',
      (overlay (inMemory order) nowUnixNano).read inner read = .ok rows ∧
        (inMemory order').read
            ((inMemory order').write inner (demoTenant, demoBatch nowUnixNano)).2 read = .ok rows' ∧
          (rows.map shown).Perm (rows'.map shown)
  filtered : ∀ tenant metricName range predicate,
    (overlay (inMemory order) nowUnixNano).read inner
        (.queryWith tenant metricName range predicate) =
      ((overlay (inMemory order) nowUnixNano).read inner (.query tenant metricName range)).map
        fun rows => rows.filter fun row => predicate.isMatch row.1 row.2
  merged : ∀ read : MetricRead, read.isDemo = true → ∃ stored rows,
    (inMemory order).read inner read = .ok stored ∧
      (overlay (inMemory order) nowUnixNano).read inner read = .ok rows ∧
        Merges timeOf stored (added nowUnixNano read) rows
  others : ∀ read : MetricRead, read.isDemo = false →
    (overlay (inMemory order) nowUnixNano).read inner read = (inMemory order).read inner read

/-- The entries of a store stay under the keys of their metrics. -/
theorem keyed_ingest {inner : Inner} (h : Keyed inner.series) (tenant : TenantId)
    (batch : MetricBatch) : Keyed (InMemoryMetricStore.ingest inner tenant batch).2.series := by
  have hfold : ∀ acc : Inner × Applied, Keyed acc.1.series →
      Keyed (batch.metrics.foldl (InMemoryMetricStore.ingestMetric tenant) acc).1.series := by
    induction batch.metrics with
    | nil => exact fun acc hacc => hacc
    | cons metric metrics ih =>
      refine fun acc hacc => ih _ ?_
      rw [InMemoryMetricStore.ingestMetric]
      split_ifs
      · exact hacc
      · intro k entry hk
        rw [lookup_upsert] at hk
        split_ifs at hk with he
        · obtain rfl := Option.some.inj hk
          cases hs : acc.1.series.lookup (tenant, SeriesKey.of metric) with
          | none => exact congrArg Prod.snd he
          | some entry => exact (congrArg Prod.snd he).trans (hacc _ entry hs)
        · exact hacc k entry hk
  exact hfold (inner, ⟨0, 0⟩) h

theorem keyed_after (order : IterOrder Pulse.Key SeriesEntry)
    (writes : List (TenantId × MetricBatch)) :
    Keyed ((inMemory order).after .empty writes).series :=
  (inMemory order).after_induction (fun inner => Keyed inner.series) Keyed.empty
    (fun _ w h => keyed_ingest h w.1 w.2) writes

section Rows

/-- The points of a series in a range, with the series. -/
def seriesRows (series : Series) (range : TimeRange) (k : Pulse.Key) :
    Multiset (SeriesKey × MetricPoint) :=
  (((pointsOf series k).filter fun p => range.contains p.timeUnixNano).map fun p => (k.2, p) :
    List _)

private theorem coe_flatMap {V W : Type} (f : V → List W) (l : List V) :
    ((l.flatMap f : List W) : Multiset W) = (l.map fun v => (f v : Multiset W)).sum := by
  induction l with
  | nil => rfl
  | cons v l ih => rw [List.flatMap_cons, ← Multiset.coe_add, ih, List.map_cons, List.sum_cons]

/-- What a query shows is summed up series by series. -/
theorem shown_query {inner : Inner} (h : Keyed inner.series)
    (order : IterOrder Pulse.Key SeriesEntry) (tenant : TenantId) (metricName : MetricName)
    (range : TimeRange) {keys : Finset Pulse.Key} (hkeys : inner.series.keys ⊆ keys) :
    (((query order inner tenant metricName range).map shown : List _) : Multiset _) =
      ∑ k ∈ keys with k.1 = tenant ∧ k.2.name = metricName, seriesRows inner.series range k := by
  have hsum : (((query order inner tenant metricName range).map shown : List _) : Multiset _) =
      ∑ k ∈ inner.series.keys with k.1 = tenant ∧ k.2.name = metricName,
        seriesRows inner.series range k := by
    rw [query, List.map_flatMap, coe_flatMap]
    refine sum_visited order inner tenant metricName _ _ fun k entry hentry => ?_
    rw [seriesRows, pointsOf, hentry, List.map_map]
    refine congrArg Multiset.ofList (List.map_congr_left fun p _ => ?_)
    exact congrArg (·, p) (h k entry hentry).symm
  rw [hsum]
  refine Finset.sum_subset (Finset.filter_subset_filter _ hkeys) fun k hk hnot => ?_
  have hnone : inner.series.lookup k = none := by
    rw [Finmap.lookup_eq_none, ← Finmap.mem_keys]
    exact fun hmem => hnot (Finset.mem_filter.mpr ⟨hmem, (Finset.mem_filter.mp hk).2⟩)
  rw [seriesRows, pointsOf, hnone]
  rfl

end Rows

section Demo

variable (nowUnixNano : Nat) {inner : Inner}

/-- The series of the demo. -/
def demoKey (nowUnixNano : Nat) : Pulse.Key :=
  (demoTenant, SeriesKey.of (synthesizeRequestCount nowUnixNano).1)

/-- Where there is room, the demo is one more point of its series. -/
theorem pointsOf_demo {k : Pulse.Key}
    (hroom : k.1 = demoTenant → inner.count demoTenant < maxSeriesPerTenant) :
    (pointsOf (InMemoryMetricStore.ingest inner demoTenant (demoBatch nowUnixNano)).2.series
        k).Perm
      (pointsOf inner.series k ++
        if k = demoKey nowUnixNano then [(synthesizeRequestCount nowUnixNano).2] else []) := by
  let metric : Metric := { (synthesizeRequestCount nowUnixNano).1 with
    points := [(synthesizeRequestCount nowUnixNano).2] }
  change (pointsOf (InMemoryMetricStore.ingestMetric demoTenant (inner, ⟨0, 0⟩) metric).1.series
    k).Perm _
  rw [InMemoryMetricStore.ingestMetric]
  split_ifs with hrefuses hk hk
  · have hlt := hroom (hk ▸ rfl)
    exact absurd hrefuses.2 (not_le.mpr hlt)
  · rw [List.append_nil]
  · have hkey : k = (demoTenant, SeriesKey.of metric) := hk
    rw [pointsOf, lookup_upsert, if_pos hkey]
    refine (sortByKey_perm _ _).trans (.of_eq ?_)
    rw [pointsOf, hk]
    change _ = ((inner.series.lookup (demoTenant, SeriesKey.of metric)).map _).getD [] ++ _
    cases inner.series.lookup (demoTenant, SeriesKey.of metric) <;> rfl
  · have hkey : k ≠ (demoTenant, SeriesKey.of metric) := hk
    rw [pointsOf, lookup_upsert, if_neg hkey, List.append_nil]
    rfl

/-- So a query of the store with the demo shows one more row, if it asks for it. -/
theorem shown_demo (h : Keyed inner.series) {tenant : TenantId}
    (hroom : tenant = demoTenant → inner.count demoTenant < maxSeriesPerTenant)
    (order order' : IterOrder Pulse.Key SeriesEntry) (metricName : MetricName) (range : TimeRange) :
    ((query order' (InMemoryMetricStore.ingest inner demoTenant (demoBatch nowUnixNano)).2 tenant
        metricName range).map shown).Perm
      ((query order inner tenant metricName range ++
        if (tenant = demoTenant ∧ metricName = demoMetricName) ∧
            range.contains (synthesizeRequestCount nowUnixNano).2.timeUnixNano then
          [synthesizeRequestCount nowUnixNano]
        else []).map shown) := by
  let after := (InMemoryMetricStore.ingest inner demoTenant (demoBatch nowUnixNano)).2
  let row := synthesizeRequestCount nowUnixNano
  let keys := insert (demoKey nowUnixNano) (inner.series.keys ∪ after.series.keys)
  have hinner : inner.series.keys ⊆ keys := fun k hk =>
    Finset.mem_insert_of_mem (Finset.mem_union_left _ hk)
  have hafter : after.series.keys ⊆ keys := fun k hk =>
    Finset.mem_insert_of_mem (Finset.mem_union_right _ hk)
  have hrows (k : Pulse.Key) (hk : k.1 = tenant) : seriesRows after.series range k =
      seriesRows inner.series range k + if k = demoKey nowUnixNano then
        (if range.contains row.2.timeUnixNano then {shown row} else 0) else 0 := by
    have hpoints := ((pointsOf_demo nowUnixNano fun htenant => hroom (hk ▸ htenant)).filter
      fun p => range.contains p.timeUnixNano).map fun p => (k.2, p)
    rw [seriesRows, Multiset.coe_eq_coe.mpr hpoints, List.filter_append, List.map_append,
      ← Multiset.coe_add]
    refine congrArg (_ + ·) ?_
    by_cases hdemo : k = demoKey nowUnixNano
    · subst hdemo
      by_cases hrange : range.contains row.2.timeUnixNano = true
      · simp [row, hrange, shown, demoKey]
      · simp [row, hrange]
    · simp [hdemo]
  have hdemo : demoKey nowUnixNano ∈ keys.filter (fun k => k.1 = tenant ∧ k.2.name = metricName) ↔
      tenant = demoTenant ∧ metricName = demoMetricName := by
    rw [Finset.mem_filter, and_iff_right (Finset.mem_insert_self _ _)]
    exact and_congr eq_comm eq_comm
  rw [← Multiset.coe_eq_coe, List.map_append, ← Multiset.coe_add,
    shown_query (keyed_ingest h _ _) order' tenant metricName range hafter,
    shown_query h order tenant metricName range hinner,
    Finset.sum_congr rfl fun k hk => hrows k (Finset.mem_filter.mp hk).2.1,
    Finset.sum_add_distrib, Finset.sum_ite_eq']
  refine congrArg (_ + ·) ?_
  by_cases hasked : tenant = demoTenant ∧ metricName = demoMetricName
  · rw [if_pos (hdemo.mpr hasked)]
    by_cases hrange : range.contains row.2.timeUnixNano = true
    · rw [if_pos hrange, if_pos ⟨hasked, hrange⟩]
      rfl
    · rw [if_neg hrange, if_neg fun hboth => hrange hboth.2]
      rfl
  · rw [if_neg (mt hdemo.mp hasked), if_neg fun hboth => hasked hboth.1]
    rfl

end Demo

section Reads

variable (order : IterOrder Pulse.Key SeriesEntry) (nowUnixNano : Nat) (inner : Inner)
  (read : MetricRead)

/-- The rows that a read asks for. -/
def rowsFor : List (Metric × MetricPoint) :=
  (query order inner read.tenant read.metricName read.range).filter read.keeps

/-- A read of the store lists the rows that are kept. -/
theorem read_inMemory : (inMemory order).read inner read = .ok (rowsFor order inner read) := by
  cases read with
  | query tenant metricName range =>
    exact congrArg Except.ok (List.filter_eq_self.mpr fun _ _ => rfl).symm
  | queryWith tenant metricName range predicate =>
    exact congrArg Except.ok (queryWith_eq_filter order inner tenant metricName range predicate)

/-- A read of the overlay adds the wanted part of the demo. -/
theorem read_overlay : (overlay (inMemory order) nowUnixNano).read inner read =
    .ok (if read.isDemo then
      sortByKey timeOf (rowsFor order inner read ++ added nowUnixNano read)
      else rowsFor order inner read) := by
  have hextend : (overlay (inMemory order) nowUnixNano).read inner read =
      extend timeOf read.isDemo ((inMemory order).read inner read)
        ([synthesizeRequestCount nowUnixNano].filter fun row =>
          read.range.contains row.2.timeUnixNano && read.keeps row) := by
    cases read with
    | query tenant metricName range =>
      change extend _ _ _ _ = extend _ _ _ _
      rw [List.filter_cons, List.filter_nil]
      simp only [MetricRead.range, MetricRead.keeps, Bool.and_true]
      rfl
    | queryWith tenant metricName range predicate =>
      change extend _ _ _ _ = extend _ _ _ _
      rw [List.filter_cons, List.filter_nil]
      rfl
  rw [hextend, read_inMemory, extend_ok]
  by_cases hdemo : read.isDemo = true
  · rw [if_pos hdemo, if_pos hdemo, added, if_pos hdemo]
  · rw [if_neg hdemo, if_neg hdemo]

end Reads

/-- Predicates see of a row what is shown of it. -/
theorem keeps_congr (read : MetricRead) {row row' : Metric × MetricPoint}
    (h : shown row = shown row') : read.keeps row = read.keeps row' := by
  obtain ⟨hkey, hpoint⟩ := Prod.mk.inj h
  have hlabels : row.1.resourceAttributes = row'.1.resourceAttributes :=
    congrArg SeriesKey.resourceAttributes hkey
  cases read with
  | query tenant metricName range => rfl
  | queryWith tenant metricName range predicate =>
    simp only [MetricRead.keeps, Predicate.isMatch, hlabels, hpoint]

/-- A row that is shown so. -/
def ofShown (key : SeriesKey) (point : MetricPoint) : Metric × MetricPoint :=
  (⟨key.name, "", "", .sum, [], key.resourceAttributes⟩, point)

/-- Rows may be filtered before they are shown or after. -/
theorem map_shown_filter (read : MetricRead) (rows : List (Metric × MetricPoint)) :
    (rows.filter read.keeps).map shown =
      (rows.map shown).filter fun s => read.keeps (ofShown s.1 s.2) := by
  rw [List.filter_map]
  exact congrArg (List.map shown) (List.filter_congr fun row _ => keeps_congr read rfl)

/-- The demo is asked for where its tenant and its metric are. -/
theorem isDemo_iff (read : MetricRead) : read.isDemo = true ↔
    read.tenant = demoTenant ∧ read.metricName = demoMetricName := by
  simp [MetricRead.isDemo, isDemoTenant, isDemoMetric]

/-- The rows of an answer with the demo, before they are sorted. -/
theorem rowsFor_append_added (order : IterOrder Pulse.Key SeriesEntry) (nowUnixNano : Nat)
    (inner : Inner) (read : MetricRead) :
    rowsFor order inner read ++ added nowUnixNano read =
      (query order inner read.tenant read.metricName read.range ++
        if (read.tenant = demoTenant ∧ read.metricName = demoMetricName) ∧
            read.range.contains (synthesizeRequestCount nowUnixNano).2.timeUnixNano then
          [synthesizeRequestCount nowUnixNano]
        else []).filter read.keeps := by
  rw [List.filter_append, rowsFor, added]
  congr 1
  simp only [isDemo_iff]
  by_cases hdemo : read.tenant = demoTenant ∧ read.metricName = demoMetricName
  · by_cases hrange :
        read.range.contains (synthesizeRequestCount nowUnixNano).2.timeUnixNano = true
    · simp [hdemo, hrange, List.filter_cons]
    · simp [hrange]
  · simp [hdemo]

theorem unites (order : IterOrder Pulse.Key SeriesEntry) (nowUnixNano : Nat) {inner : Inner}
    (h : Keyed inner.series) : Unites order nowUnixNano inner where
  reference order' read hroom := by
    refine ⟨_, _, read_overlay order nowUnixNano inner read, read_inMemory order' _ read, ?_⟩
    have hrows : (if read.isDemo then
        sortByKey timeOf (rowsFor order inner read ++ added nowUnixNano read)
        else rowsFor order inner read).Perm
          (rowsFor order inner read ++ added nowUnixNano read) := by
      split_ifs with hdemo
      · exact sortByKey_perm _ _
      · rw [added, if_neg hdemo, List.append_nil]
    refine (hrows.map shown).trans (.symm ?_)
    rw [rowsFor_append_added, map_shown_filter, rowsFor, map_shown_filter]
    exact (shown_demo nowUnixNano h hroom order order' read.metricName read.range).filter _
  filtered tenant metricName range predicate := by
    have hall (rows : List (Metric × MetricPoint)) :
        rows.filter (MetricRead.query tenant metricName range).keeps = rows :=
      List.filter_eq_self.mpr fun _ _ => rfl
    rw [read_overlay, read_overlay, rowsFor_append_added, rowsFor_append_added, hall, rowsFor,
      rowsFor, hall]
    refine congrArg Except.ok ?_
    change (if isDemoTenant tenant && isDemoMetric metricName then _ else _) =
      List.filter _ (if isDemoTenant tenant && isDemoMetric metricName then _ else _)
    by_cases hdemo : (isDemoTenant tenant && isDemoMetric metricName) = true
    · rw [if_pos hdemo, if_pos hdemo]
      exact (filter_sortByKey_comm timeOf _ _).symm
    · rw [if_neg hdemo, if_neg hdemo]
      rfl
  merged read hdemo := by
    refine ⟨_, _, read_inMemory order inner read, read_overlay order nowUnixNano inner read, ?_⟩
    rw [if_pos hdemo]
    exact merges_sortByKey _ _ _
  others read hread := by
    rw [read_overlay, if_neg (Bool.eq_false_iff.mp hread), read_inMemory]

/-- A metric of a host, observed at times. -/
def hostMetric (host : String) (times : List Nat) : Metric where
  name := ⟨"cpu"⟩
  description := ""
  unit := ""
  kind := .gauge
  points := times.map fun t => ⟨t, 0, .empty, demoMetricValue⟩
  resourceAttributes := .single "host.name" host

/-- A store with a metric of two hosts. -/
def twoHosts : Inner :=
  (InMemoryMetricStore.ingest .empty demoTenant ⟨[hostMetric "a" [1, 3], hostMetric "b" [2]]⟩).2

/-- The key of a host. -/
def hostKey (host : String) : Pulse.Key := (demoTenant, SeriesKey.of (hostMetric host []))

/-- The entry of a host. -/
def hostEntry (host : String) (times : List Nat) : SeriesEntry :=
  ⟨hostMetric host [], (hostMetric host times).points⟩

theorem mem_twoHosts (order : IterOrder Pulse.Key SeriesEntry) :
    (order.entries twoHosts.series).Perm
      [(hostKey "a", hostEntry "a" [1, 3]), (hostKey "b", hostEntry "b" [2])] := by
  have ha : twoHosts.series.lookup (hostKey "a") = some (hostEntry "a" [1, 3]) := by decide +kernel
  have hb : twoHosts.series.lookup (hostKey "b") = some (hostEntry "b" [2]) := by decide +kernel
  have hkeys : twoHosts.series.keys = {hostKey "a", hostKey "b"} := by decide +kernel
  refine (List.perm_ext_iff_of_nodup (.of_map _ (order.nodup _)) (by decide +kernel)).mpr
    fun e => ?_
  obtain ⟨k, entry⟩ := e
  rw [order.mem_iff, List.mem_pair]
  constructor
  · intro hlookup
    have hmem : k ∈ twoHosts.series.keys :=
      Finmap.mem_keys.mpr (Finmap.mem_of_lookup_eq_some hlookup)
    rw [hkeys, Finset.mem_insert, Finset.mem_singleton] at hmem
    rcases hmem with rfl | rfl
    · exact .inl (congrArg _ (Option.some.inj (hlookup.symm.trans ha)))
    · exact .inr (congrArg _ (Option.some.inj (hlookup.symm.trans hb)))
  · rintro (h | h)
    · obtain ⟨rfl, rfl⟩ := Prod.mk.inj h
      exact ha
    · obtain ⟨rfl, rfl⟩ := Prod.mk.inj h
      exact hb

/-- Rows of two series of one name are not in the order of time, whichever comes first. -/
theorem two_series_unsorted (order : IterOrder Pulse.Key SeriesEntry) :
    ¬ (query order twoHosts demoTenant ⟨"cpu"⟩ .all).Pairwise fun a b => timeOf a ≤ timeOf b := by
  have hperm := mem_twoHosts order
  rw [query]
  obtain ⟨x, y, hvisit⟩ := List.length_eq_two.mp hperm.length_eq
  rw [hvisit] at hperm ⊢
  have hx := List.mem_pair.mp (hperm.subset List.mem_cons_self)
  have hy := List.mem_pair.mp (hperm.subset (List.mem_cons_of_mem _ List.mem_cons_self))
  have hne : x ≠ y := by
    rintro rfl
    have hnodup := (List.Perm.nodup_iff hperm).mpr (by decide +kernel)
    simp at hnodup
  rcases hx with rfl | rfl <;> rcases hy with rfl | rfl
  · exact absurd rfl hne
  · decide +kernel
  · decide +kernel
  · exact absurd rfl hne

end Kaleidoscope.DemoOverlay.Metric
