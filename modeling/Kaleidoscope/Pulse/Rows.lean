import Kaleidoscope.Pulse.Cap
import Kaleidoscope.Pulse.Memory

/-!
# What a tenant sees of an ingest

A query lists rows, a metric with one of its points, series by series. Which rows there are does
not depend on the order in which the series are visited.
-/

namespace Kaleidoscope.Pulse

open Aegis HashMap StableSort

/-- Every entry is filed under the key of its metric. -/
def Keyed (series : Series) : Prop :=
  ∀ k entry, series.lookup k = some entry → k.2 = SeriesKey.of entry.metric

theorem Keyed.empty : Keyed ∅ := fun k entry hk => by simp at hk

theorem Keyed.file {series : Series} (h : Keyed series) (tenant : TenantId) (metric : Metric) :
    Keyed (file series tenant metric) := by
  intro k entry hk
  rw [lookup_file] at hk
  split_ifs at hk with he
  · obtain rfl := Option.some.inj hk
    cases hs : series.lookup k with
    | none => exact congrArg Prod.snd he
    | some entry => exact h k entry hs
  · exact h k entry hk

theorem Keyed.sortAll {series : Series} (h : Keyed series) : Keyed (sortAll series) := by
  intro k entry hk
  rw [lookup_sortAll] at hk
  obtain ⟨entry', hs, rfl⟩ := Option.map_eq_some_iff.mp hk
  exact h k entry' hs

theorem Keyed.applyIngest {inner : Inner} (h : Keyed inner.series) (tenant : TenantId)
    (metrics : List Metric) (enforceCap : Bool) :
    Keyed (applyIngest inner tenant metrics enforceCap).1.series := by
  induction metrics using List.reverseRecOn with
  | nil => exact h
  | append_singleton metrics metric ih =>
    rw [applyIngest_snoc, applyMetric]
    split_ifs
    · exact ih
    · exact ih.file tenant metric

theorem Keyed.commitIngest {inner : Inner} (h : Keyed inner.series) (tenant : TenantId)
    (metrics : List Metric) : Keyed (commitIngest tenant metrics inner).series :=
  (h.applyIngest tenant metrics true).sortAll

/-- So they are in a snapshot, whatever is in it. -/
theorem keyed_fromSnapshot (snapshot : Snapshot) : Keyed (fromSnapshot snapshot).series := by
  intro k entry hk
  rw [series_fromSnapshot_eq] at hk
  rcases mem_of_lookup_insertAll hk with hbucket | hempty
  · obtain ⟨b, -, hb⟩ := List.mem_map.mp hbucket
    cases hb
    rfl
  · simp at hempty

/-- The rows of a series. -/
def rowsOf (series : Series) (k : Key) : List (Metric × MetricPoint) :=
  match series.lookup k with
  | some entry => entry.points.map fun p => (entry.metric, p)
  | none => []

theorem count_rowsOf_of_ne {series : Series} (h : Keyed series) {k : Key}
    {row : Metric × MetricPoint} (hrow : k.2 ≠ SeriesKey.of row.1) :
    (rowsOf series k).count row = 0 := by
  rw [List.count_eq_zero, rowsOf]
  cases hk : series.lookup k with
  | none => exact List.not_mem_nil
  | some entry =>
    intro hmem
    obtain ⟨p, -, rfl⟩ := List.mem_map.mp hmem
    exact hrow (h k entry hk)

/-- The rows of an entry in a range. -/
def SeriesEntry.rows (entry : SeriesEntry) (range : TimeRange) : List (Metric × MetricPoint) :=
  (entry.points.filter fun p => range.contains p.timeUnixNano).map fun p => (entry.metric, p)

theorem SeriesEntry.rows_eq_filter (entry : SeriesEntry) (range : TimeRange) :
    entry.rows range = (entry.points.map fun p => (entry.metric, p)).filter
      fun row => range.contains row.2.timeUnixNano := by
  rw [rows, List.filter_map]
  rfl

theorem SeriesEntry.count_rows (entry : SeriesEntry) (range : TimeRange)
    (row : Metric × MetricPoint) :
    (entry.rows range).count row =
      if range.contains row.2.timeUnixNano = true then
        (entry.points.map fun p => (entry.metric, p)).count row
      else 0 := by
  rw [rows_eq_filter]
  split_ifs with h
  · exact List.count_filter h
  · exact List.count_eq_zero.mpr fun hmem => h (List.mem_filter.mp hmem).2

/-- How often a query lists a row. -/
theorem count_query {inner : Inner} (h : Keyed inner.series) (order : IterOrder Key SeriesEntry)
    (tenant : TenantId) (metricName : MetricName) (range : TimeRange)
    (row : Metric × MetricPoint) :
    (query order inner tenant metricName range).count row =
      if row.1.name = metricName ∧ range.contains row.2.timeUnixNano = true then
        (rowsOf inner.series (tenant, SeriesKey.of row.1)).count row
      else 0 := by
  let visited := (order.entries inner.series).filter
    fun e => decide (e.1.1 = tenant ∧ e.1.2.name = metricName)
  have hvisited {e : Key × SeriesEntry} (he : e ∈ visited) :
      inner.series.lookup e.1 = some e.2 ∧ e.1.1 = tenant ∧ e.1.2.name = metricName := by
    obtain ⟨hmem, hwanted⟩ := List.mem_filter.mp he
    exact ⟨(order.mem_iff _ e.1 e.2).mp hmem, of_decide_eq_true hwanted⟩
  have hnodup : visited.Nodup :=
    ((List.Nodup.of_map _ (order.nodup inner.series))).filter _
  have hother {e : Key × SeriesEntry} (he : e ∈ visited) (hkey : e.1.2 ≠ SeriesKey.of row.1) :
      (e.2.rows range).count row = 0 := by
    have hzero := count_rowsOf_of_ne h hkey
    rw [rowsOf, (hvisited he).1] at hzero
    rw [SeriesEntry.count_rows, hzero, ite_self]
  have hcount : (query order inner tenant metricName range).count row =
      (visited.map fun e => (e.2.rows range).count row).sum := List.count_flatMap
  have hown {e : Key × SeriesEntry} (he : e ∈ visited) (hkey : e.1.2 = SeriesKey.of row.1) :
      e.1 = (tenant, SeriesKey.of row.1) := Prod.ext (hvisited he).2.1 hkey
  by_cases hasked : row.1.name = metricName ∧
    (inner.series.lookup (tenant, SeriesKey.of row.1)).isSome = true
  · -- the query visits the series of the row once
    obtain ⟨hname, hsome⟩ := hasked
    obtain ⟨entry, hentry⟩ := Option.isSome_iff_exists.mp hsome
    have hmem : ((tenant, SeriesKey.of row.1), entry) ∈ visited :=
      List.mem_filter.mpr ⟨(order.mem_iff _ _ _).mpr hentry, decide_eq_true ⟨rfl, hname⟩⟩
    have hsum := List.sum_map_eq_nsmul_single ((tenant, SeriesKey.of row.1), entry)
      (fun e : Key × SeriesEntry => (e.2.rows range).count row) fun e hne he => by
        refine hother he fun hkey => hne (Prod.ext (hown he hkey) ?_)
        have hlookup := (hvisited he).1
        rw [hown he hkey, hentry] at hlookup
        exact (Option.some.inj hlookup).symm
    have hone : @List.count _ instBEqOfDecidableEq ((tenant, SeriesKey.of row.1), entry) visited =
        1 := @List.count_eq_one_of_mem _ instBEqOfDecidableEq inferInstance _ _ hnodup hmem
    rw [hcount, hsum, hone, one_nsmul, SeriesEntry.count_rows, rowsOf, hentry]
    simp only [hname, true_and]
  · have hzero : ∀ n ∈ visited.map fun e => (e.2.rows range).count row, n = 0 := by
      intro n hn
      obtain ⟨e, he, rfl⟩ := List.mem_map.mp hn
      refine hother he fun hkey => hasked ⟨?_, ?_⟩
      · rw [← (hvisited he).2.2, hkey]
        rfl
      · rw [← hown he hkey, (hvisited he).1]
        rfl
    rw [hcount, List.sum_eq_zero hzero]
    split_ifs with hrow
    · have hnone : inner.series.lookup (tenant, SeriesKey.of row.1) = none :=
        Option.not_isSome_iff_eq_none.mp fun hsome => hasked ⟨hrow.1, hsome⟩
      rw [rowsOf, hnone]
      rfl
    · rfl

/-- A filtered query is the query, filtered. -/
theorem queryWith_eq_filter (order : IterOrder Key SeriesEntry) (inner : Inner)
    (tenant : TenantId) (metricName : MetricName) (range : TimeRange) (predicate : Predicate) :
    queryWith order inner tenant metricName range predicate =
      (query order inner tenant metricName range).filter
        fun row => predicate.isMatch row.1 row.2 := by
  rw [queryWith, query, List.filter_flatMap]
  refine List.flatMap_congr fun e _ => ?_
  rw [List.filter_map, List.filter_filter]
  simp only [Bool.and_comm, Function.comp_def]

/-- Two states list the same rows for a tenant, whatever the order of the visit: `u64::MAX` is the
latest end that a range can have. -/
def SameRows (tenant : TenantId) (inner inner' : Inner) : Prop :=
  ∀ (order order' : IterOrder Key SeriesEntry) metricName (range : TimeRange),
    range.endUnixNano ≤ u64Max →
      (query order' inner' tenant metricName range).Perm
          (query order inner tenant metricName range) ∧
        ∀ predicate, (queryWith order' inner' tenant metricName range predicate).Perm
          (queryWith order inner tenant metricName range predicate)

/-- The rows of a series that a query can list. -/
def visibleRows (series : Series) (k : Key) : List (Metric × MetricPoint) :=
  (rowsOf series k).filter fun row => row.2.timeUnixNano < u64Max

theorem count_visibleRows (series : Series) (k : Key) (row : Metric × MetricPoint) :
    (visibleRows series k).count row =
      if row.2.timeUnixNano < u64Max then (rowsOf series k).count row else 0 := by
  rw [visibleRows]
  split_ifs with h
  · exact List.count_filter (decide_eq_true h)
  · exact List.count_eq_zero.mpr fun hmem => h (of_decide_eq_true (List.mem_filter.mp hmem).2)

/-- Two states list the same rows when every series of the tenant has the same visible rows. -/
theorem sameRows_iff {inner inner' : Inner} (h : Keyed inner.series) (h' : Keyed inner'.series)
    {tenant : TenantId} :
    SameRows tenant inner inner' ↔ ∀ key,
      (visibleRows inner'.series (tenant, key)).Perm (visibleRows inner.series (tenant, key)) := by
  constructor
  · intro hsame key
    refine List.perm_iff_count.mpr fun row => ?_
    rw [count_visibleRows, count_visibleRows]
    split_ifs with htime
    · by_cases hkey : key = SeriesKey.of row.1
      · have hrange : TimeRange.all.contains row.2.timeUnixNano = true := by
          simp [TimeRange.contains, TimeRange.all, htime]
        have hcount := ((hsame (.unspecified _ _) (.unspecified _ _) row.1.name .all
          (le_refl _)).1).count_eq row
        rw [count_query h', count_query h, if_pos ⟨rfl, hrange⟩, if_pos ⟨rfl, hrange⟩] at hcount
        rw [hkey, hcount]
      · rw [count_rowsOf_of_ne h' hkey, count_rowsOf_of_ne h hkey]
    · rfl
  · intro hsame order order' metricName range hrange
    have hperm : (query order' inner' tenant metricName range).Perm
        (query order inner tenant metricName range) := by
      refine List.perm_iff_count.mpr fun row => ?_
      rw [count_query h', count_query h]
      split_ifs with hrow
      · have hcount := (hsame (SeriesKey.of row.1)).count_eq row
        have htime : row.2.timeUnixNano < u64Max := by
          have := hrow.2
          simp only [TimeRange.contains, Bool.and_eq_true, decide_eq_true_eq] at this
          omega
        rwa [count_visibleRows, count_visibleRows, if_pos htime, if_pos htime] at hcount
      · rfl
    refine ⟨hperm, fun predicate => ?_⟩
    rw [queryWith_eq_filter, queryWith_eq_filter]
    exact hperm.filter _

theorem visibleRows_sortAll (series : Series) (k : Key) :
    (visibleRows (sortAll series) k).Perm (visibleRows series k) := by
  rw [visibleRows, visibleRows, rowsOf, rowsOf, lookup_sortAll]
  cases series.lookup k with
  | none => rfl
  | some entry => exact ((sortByKey_perm _ _).map _).filter _

theorem visibleRows_congr {series series' : Series} {k : Key}
    (h : series'.lookup k = series.lookup k) : visibleRows series' k = visibleRows series k := by
  rw [visibleRows, visibleRows, rowsOf, rowsOf, h]

theorem length_visibleRows (series : Series) (k : Key) : (visibleRows series k).length =
    ((pointsOf series k).filter fun p => p.timeUnixNano < u64Max).length := by
  rw [visibleRows, rowsOf, pointsOf]
  cases series.lookup k with
  | none => rfl
  | some entry =>
    rw [List.filter_map, List.length_map]
    rfl

/-- The metrics of a batch that belong to a series. -/
def ofSeries (metrics : List Metric) (key : SeriesKey) : List Metric :=
  metrics.filter fun metric => SeriesKey.of metric = key

theorem ofSeries_snoc (metrics : List Metric) (metric : Metric) (key : SeriesKey) :
    ofSeries (metrics ++ [metric]) key =
      if key = SeriesKey.of metric then ofSeries metrics key ++ [metric]
      else ofSeries metrics key := by
  rw [ofSeries, List.filter_append, ← ofSeries]
  split_ifs with hkey
  · rw [List.filter_cons_of_pos (by simpa using hkey.symm), List.filter_nil]
  · rw [List.filter_cons_of_neg (by simpa using Ne.symm hkey), List.filter_nil, List.append_nil]

theorem pointsOf_fileAll_ofSeries (series : Series) (tenant : TenantId) (metrics : List Metric)
    (key : SeriesKey) :
    pointsOf (fileAll series (metrics.map fun m => (tenant, m))) (tenant, key) =
      pointsOf series (tenant, key) ++ (ofSeries metrics key).flatMap MetricOf.points := by
  induction metrics using List.reverseRecOn with
  | nil => exact (List.append_nil _).symm
  | append_singleton metrics metric ih =>
    rw [pointsOf, lookup_fileAll_snoc, ofSeries_snoc]
    split_ifs with hkey
    · rw [List.flatMap_append, ← List.append_assoc, ← ih, pointsOf]
      cases (fileAll series (metrics.map fun m => (tenant, m))).lookup (tenant, key) with
      | none => simp [SeriesEntry.extend, SeriesEntry.new]
      | some entry => simp [SeriesEntry.extend]
    · rw [← ih, pointsOf]

/-- Metadata refreshed by a metric of the series. -/
def refresh (metadata metric : Metric) : Metric :=
  { metadata with
    description := metric.description
    unit := metric.unit
    kind := metric.kind }

/-- A series that was there is left with the metadata of the last metric that belongs to it. -/
theorem metric_fileAll {series : Series} {tenant : TenantId} {key : SeriesKey}
    {entry : SeriesEntry} (hentry : series.lookup (tenant, key) = some entry)
    (metrics : List Metric) :
    ∃ entry', (fileAll series (metrics.map fun m => (tenant, m))).lookup (tenant, key) =
        some entry' ∧
      entry'.metric = ((ofSeries metrics key).getLast?.map (refresh entry.metric)).getD
        entry.metric := by
  induction metrics using List.reverseRecOn with
  | nil => exact ⟨entry, hentry, rfl⟩
  | append_singleton metrics metric ih =>
    obtain ⟨entry', hentry', hmetric⟩ := ih
    rw [lookup_fileAll_snoc, hentry', ofSeries_snoc]
    split_ifs with hkey
    · rw [List.getLast?_concat]
      refine ⟨entry'.extend metric, rfl, ?_⟩
      change refresh entry'.metric metric = refresh entry.metric metric
      rw [hmetric]
      cases (ofSeries metrics key).getLast? <;> rfl
    · exact ⟨entry', rfl, hmetric⟩

/-- Nothing of a batch can be seen: of what the cap lets in no point is before `u64::MAX`, and no
series with such a point is left with other metadata. -/
def Unseen (inner : Inner) (tenant : TenantId) (metrics : List Metric) : Prop :=
  ∀ key, Takes inner tenant metrics key →
    (∀ metric ∈ ofSeries metrics key, ∀ p ∈ metric.points, u64Max ≤ p.timeUnixNano) ∧
      ∀ entry, inner.series.lookup (tenant, key) = some entry →
        (∃ p ∈ entry.points, p.timeUnixNano < u64Max) →
          ∀ metric, (ofSeries metrics key).getLast? = some metric →
            refresh entry.metric metric = entry.metric

/-- The visible points that a series takes from a batch. -/
def visibleTaken (metrics : List Metric) (key : SeriesKey) : List MetricPoint :=
  ((ofSeries metrics key).flatMap MetricOf.points).filter fun p => p.timeUnixNano < u64Max

theorem visibleTaken_eq_nil_iff {metrics : List Metric} {key : SeriesKey} :
    visibleTaken metrics key = [] ↔
      ∀ metric ∈ ofSeries metrics key, ∀ p ∈ metric.points, u64Max ≤ p.timeUnixNano := by
  rw [visibleTaken, List.filter_eq_nil_iff]
  simp only [List.mem_flatMap, decide_eq_true_eq, not_lt]
  exact ⟨fun h metric hmetric p hp => h p ⟨metric, hmetric, hp⟩,
    fun h p ⟨metric, hmetric, hp⟩ => h metric hmetric p hp⟩

theorem length_visibleRows_fileAll (series : Series) (tenant : TenantId) (metrics : List Metric)
    (key : SeriesKey) :
    (visibleRows (fileAll series (metrics.map fun m => (tenant, m))) (tenant, key)).length =
      (visibleRows series (tenant, key)).length + (visibleTaken metrics key).length := by
  rw [length_visibleRows, length_visibleRows, pointsOf_fileAll_ofSeries, List.filter_append,
    List.length_append, visibleTaken]

/-- The rows of a series whose points are there are those of its visible points. -/
theorem mem_visibleRows {series : Series} {k : Key} {entry : SeriesEntry}
    (hentry : series.lookup k = some entry) {p : MetricPoint} (hp : p ∈ entry.points)
    (htime : p.timeUnixNano < u64Max) : (entry.metric, p) ∈ visibleRows series k := by
  rw [visibleRows, rowsOf, hentry]
  exact List.mem_filter.mpr ⟨List.mem_map_of_mem hp, decide_eq_true htime⟩

theorem exists_visible_of_ne_nil {series : Series} {k : Key} (h : visibleRows series k ≠ []) :
    ∃ entry, series.lookup k = some entry ∧ ∃ p ∈ entry.points, p.timeUnixNano < u64Max := by
  cases hentry : series.lookup k with
  | none =>
    rw [visibleRows, rowsOf, hentry] at h
    exact absurd rfl h
  | some entry =>
    refine ⟨entry, rfl, ?_⟩
    rw [visibleRows, rowsOf, hentry] at h
    obtain ⟨row, hrow⟩ := List.exists_mem_of_ne_nil _ h
    obtain ⟨hmem, htime⟩ := List.mem_filter.mp hrow
    obtain ⟨p, hp, rfl⟩ := List.mem_map.mp hmem
    exact ⟨p, hp, of_decide_eq_true htime⟩

/-- A series that keeps its metadata and takes no visible point keeps its visible rows. -/
theorem visibleRows_fileAll_of_same {series : Series} {tenant : TenantId} {metrics : List Metric}
    {key : SeriesKey} {entry entry' : SeriesEntry}
    (hentry : series.lookup (tenant, key) = some entry)
    (hentry' : (fileAll series (metrics.map fun m => (tenant, m))).lookup (tenant, key) =
      some entry')
    (hsame : entry'.metric = entry.metric) (hnone : visibleTaken metrics key = []) :
    visibleRows (fileAll series (metrics.map fun m => (tenant, m))) (tenant, key) =
      visibleRows series (tenant, key) := by
  have hpoints := pointsOf_fileAll_ofSeries series tenant metrics key
  rw [pointsOf, pointsOf, hentry, hentry'] at hpoints
  have hall : entry'.points = entry.points ++ (ofSeries metrics key).flatMap MetricOf.points :=
    hpoints
  rw [visibleRows, visibleRows, rowsOf, rowsOf, hentry, hentry', List.filter_map, List.filter_map,
    hsame]
  refine congrArg _ ?_
  change (entry'.points.filter fun p => p.timeUnixNano < u64Max) =
    entry.points.filter fun p => p.timeUnixNano < u64Max
  rw [hall, List.filter_append, ← visibleTaken, hnone, List.append_nil]

/-- The visible rows of a series stay when it takes no visible point and keeps its metadata. -/
theorem visibleRows_fileAll_iff (series : Series) (tenant : TenantId) (metrics : List Metric)
    (key : SeriesKey) :
    (visibleRows (fileAll series (metrics.map fun m => (tenant, m))) (tenant, key)).Perm
        (visibleRows series (tenant, key)) ↔
      (∀ metric ∈ ofSeries metrics key, ∀ p ∈ metric.points, u64Max ≤ p.timeUnixNano) ∧
        ∀ entry, series.lookup (tenant, key) = some entry →
          (∃ p ∈ entry.points, p.timeUnixNano < u64Max) →
            ∀ metric, (ofSeries metrics key).getLast? = some metric →
              refresh entry.metric metric = entry.metric := by
  have hlength := length_visibleRows_fileAll series tenant metrics key
  rw [← visibleTaken_eq_nil_iff]
  constructor
  · intro hperm
    refine ⟨List.eq_nil_of_length_eq_zero ?_, fun entry hentry ⟨p, hp, htime⟩ metric hlast => ?_⟩
    · have hsame := hperm.length_eq
      omega
    · obtain ⟨entry', hentry', hmetric⟩ := metric_fileAll hentry metrics
      have hrow := hperm.symm.subset (mem_visibleRows hentry hp htime)
      rw [visibleRows, rowsOf, hentry'] at hrow
      obtain ⟨p', -, hp'⟩ := List.mem_map.mp (List.mem_filter.mp hrow).1
      rw [hlast] at hmetric
      exact hmetric.symm.trans (Prod.mk.inj hp').1
  · rintro ⟨hnone, hmeta⟩
    by_cases hempty : visibleRows series (tenant, key) = []
    · rw [hempty, hnone] at hlength
      rw [hempty, List.eq_nil_of_length_eq_zero hlength]
    · -- the metadata stays, so the old rows do
      obtain ⟨entry, hentry, hseen⟩ := exists_visible_of_ne_nil hempty
      obtain ⟨entry', hentry', hmetric⟩ := metric_fileAll hentry metrics
      refine .of_eq (visibleRows_fileAll_of_same hentry hentry' ?_ hnone)
      rw [hmetric]
      cases hlast : (ofSeries metrics key).getLast? with
      | none => rfl
      | some metric => exact hmeta entry hentry hseen metric hlast

/-- An ingest changes what its tenant sees exactly when something of it can be seen. -/
theorem sameRows_commitIngest_iff {inner : Inner} (h : Keyed inner.series) (tenant : TenantId)
    (metrics : List Metric) :
    SameRows tenant inner (commitIngest tenant metrics inner) ↔ Unseen inner tenant metrics := by
  rw [sameRows_iff h (h.commitIngest tenant metrics), Unseen]
  refine forall_congr' fun key => ?_
  have hlookup := (letIn_applyIngest inner tenant metrics).lookup key
  have hsorted : (visibleRows (commitIngest tenant metrics inner).series (tenant, key)).Perm
      (visibleRows (applyIngest inner tenant metrics true).1.series (tenant, key)) :=
    visibleRows_sortAll _ _
  by_cases htakes : Takes inner tenant metrics key
  · rw [if_pos htakes] at hlookup
    have hfiled := visibleRows_congr hlookup
    rw [hfiled] at hsorted
    rw [← visibleRows_fileAll_iff, forall_prop_of_true htakes]
    exact ⟨fun hperm => hsorted.symm.trans hperm, fun hperm => hsorted.trans hperm⟩
  · rw [if_neg htakes] at hlookup
    have hfiled := visibleRows_congr hlookup
    rw [hfiled] at hsorted
    exact iff_of_true hsorted fun h => absurd h htakes

/-- An ingest does not change what other tenants see. -/
theorem sameRows_commitIngest_of_ne {inner : Inner} (h : Keyed inner.series)
    {tenant other : TenantId} (hne : other ≠ tenant) (metrics : List Metric) :
    SameRows other inner (commitIngest tenant metrics inner) := by
  have hlookup (key : SeriesKey) :
      (applyIngest inner tenant metrics true).1.series.lookup (other, key) =
        inner.series.lookup (other, key) := by
    induction metrics using List.reverseRecOn with
    | nil => rfl
    | append_singleton metrics metric ih =>
      rw [applyIngest_snoc, applyMetric]
      split_ifs
      · exact ih
      · change (file _ tenant metric).lookup _ = _
        rw [lookup_file, if_neg fun he => hne (Prod.mk.inj he).1, ih]
  rw [sameRows_iff h (h.commitIngest tenant metrics)]
  intro key
  have hsorted : (visibleRows (commitIngest tenant metrics inner).series (other, key)).Perm
      (visibleRows (applyIngest inner tenant metrics true).1.series (other, key)) :=
    visibleRows_sortAll _ _
  rwa [visibleRows_congr (hlookup key)] at hsorted

end Kaleidoscope.Pulse
