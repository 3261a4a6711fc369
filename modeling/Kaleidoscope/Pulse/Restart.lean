import Kaleidoscope.Pulse.Points

/-!
# Restarts of the metric store

What live ingest accepted is what a store that never restarts would hold. A restart keeps
to it when no metric of the log was refused.
-/

namespace Kaleidoscope.Pulse

open Aegis HashMap StableSort Replay

variable {p : F64 → Prop}

/-- Live ingest of a log record. -/
def commitRecord (inner : Inner) : WalRecord → Inner
  | .ingest tenant metrics => commitIngest tenant metrics inner

/-- What live ingest makes of the records of a ledger, without any restart. -/
def ingestAll (ledger : List WalRecord) : Inner := ledger.foldl commitRecord .empty

/-- The number of points in all series. -/
def pointCount (series : Series) : Nat := ∑ k ∈ series.keys, (pointsOf series k).length

/-- Two states with the same series give the same answers, up to the order in which they
visit their series. -/
def SameAnswers (inner inner' : Inner) : Prop :=
  ∀ (order order' : IterOrder Key SeriesEntry) tenant metricName range,
    (query order' inner' tenant metricName range).Perm
      (query order inner tenant metricName range) ∧
    ∀ predicate, (queryWith order' inner' tenant metricName range predicate).Perm
      (queryWith order inner tenant metricName range predicate)

theorem sameAnswers_of_series {inner inner' : Inner} (h : inner'.series = inner.series) :
    SameAnswers inner inner' := by
  intro order order' tenant metricName range
  have hentries := (order'.entries_perm order inner.series).filter
    fun e => decide (e.1.1 = tenant ∧ e.1.2.name = metricName)
  rw [query, query, h]
  refine ⟨hentries.flatMap_right _, fun predicate => ?_⟩
  rw [queryWith, queryWith, h]
  exact hentries.flatMap_right _

/-- The number of points in all series that are wanted. -/
def pointsWhere (wanted : MetricPoint → Bool) (series : Series) : Nat :=
  ∑ k ∈ series.keys, ((pointsOf series k).filter wanted).length

theorem pointCount_eq (series : Series) :
    pointCount series = pointsWhere (fun _ => true) series := by
  simp only [pointCount, pointsWhere, List.filter_true]

/-- Filing a metric adds its points. -/
theorem pointsWhere_file (wanted : MetricPoint → Bool) (series : Series) (tenant : TenantId)
    (metric : Metric) : pointsWhere wanted (file series tenant metric) =
      pointsWhere wanted series + (metric.points.filter wanted).length := by
  let k := keyOf (tenant, metric)
  have hkeys : (file series tenant metric).keys = insert k series.keys := keys_insert _ _ _
  have hold : ∑ j ∈ insert k series.keys, ((pointsOf series j).filter wanted).length =
      pointsWhere wanted series := by
    refine Finset.sum_insert_of_eq_zero_if_notMem fun hk => ?_
    rw [Finmap.mem_keys, ← Finmap.lookup_eq_none] at hk
    rw [pointsOf, hk]
    rfl
  have hnew : ∑ j ∈ insert k series.keys,
      ((valuesAt j (loggedPoints (tenant, metric))).filter wanted).length =
        (metric.points.filter wanted).length := by
    have hlength (j : Key) : ((valuesAt j (loggedPoints (tenant, metric))).filter wanted).length =
        if k = j then (metric.points.filter wanted).length else 0 := by
      rw [loggedPoints, valuesAt_map_pair]
      split_ifs <;> rfl
    simp only [hlength, Finset.sum_ite_eq, Finset.mem_insert_self, if_true]
  rw [pointsWhere, hkeys, ← hold, ← hnew, ← Finset.sum_add_distrib]
  refine Finset.sum_congr rfl fun j _ => ?_
  rw [pointsOf_file series (tenant, metric), List.filter_append, List.length_append]

theorem pointsWhere_sortAll (wanted : MetricPoint → Bool) (series : Series) :
    pointsWhere wanted (sortAll series) = pointsWhere wanted series := by
  rw [pointsWhere, keys_sortAll]
  exact Finset.sum_congr rfl fun k _ => ((pointsOf_sortAll series k).filter wanted).length_eq

theorem pointCount_sortAll (series : Series) : pointCount (sortAll series) = pointCount series := by
  rw [pointCount_eq, pointCount_eq, pointsWhere_sortAll]

/-- `apply_ingest` reports the points that it stores. -/
theorem pointsWhere_applyIngest {wanted : MetricPoint → Bool} (inner : Inner) (tenant : TenantId)
    {metrics : List Metric} (h : ∀ m ∈ metrics, ∀ p ∈ m.points, wanted p = true)
    (enforceCap : Bool) :
    pointsWhere wanted (applyIngest inner tenant metrics enforceCap).1.series =
      pointsWhere wanted inner.series +
        (applyIngest inner tenant metrics enforceCap).2.stored := by
  induction metrics using List.reverseRecOn with
  | nil => rfl
  | append_singleton metrics metric ih =>
    have ih := ih fun m hm => h m (List.mem_append_left _ hm)
    have hall : metric.points.filter wanted = metric.points :=
      List.filter_eq_self.mpr (h metric (by simp))
    rw [applyIngest_snoc, applyMetric]
    split_ifs
    · exact ih
    · simp only [pointsWhere_file, ih, hall]
      omega

theorem pointCount_applyIngest (inner : Inner) (tenant : TenantId) (metrics : List Metric)
    (enforceCap : Bool) :
    pointCount (applyIngest inner tenant metrics enforceCap).1.series =
      pointCount inner.series + (applyIngest inner tenant metrics enforceCap).2.stored := by
  rw [pointCount_eq, pointCount_eq]
  exact pointsWhere_applyIngest inner tenant (fun _ _ _ _ => rfl) enforceCap

/-- Under the cap, live ingest stays under it. -/
theorem count_applyIngest_le {inner : Inner} (h : ∀ t, inner.count t ≤ maxSeriesPerTenant)
    (tenant : TenantId) (metrics : List Metric) (t : TenantId) :
    (applyIngest inner tenant metrics true).1.count t ≤ maxSeriesPerTenant := by
  induction metrics using List.reverseRecOn with
  | nil => exact h t
  | append_singleton metrics metric ih =>
    rw [applyIngest_snoc, applyMetric]
    split_ifs with hrefuse
    · exact ih
    · change ((Inner.counted _ tenant metric).lookup t).getD 0 ≤ _
      rw [count_counted]
      split_ifs with hnew
      · -- a new series of a tenant at the cap would have been refused
        obtain ⟨rfl, hnone⟩ := hnew
        have hbelow : ¬ maxSeriesPerTenant ≤ (applyIngest inner t metrics true).1.count t :=
          fun hcap => hrefuse ⟨rfl, hnone, hcap⟩
        omega
      · exact ih

/-- States that agree in their series and counts. -/
def Inner.Agree (a b : Inner) : Prop := a.series = b.series ∧ ∀ t, a.count t = b.count t

/-- `apply_ingest` cannot tell them apart. -/
theorem Inner.Agree.applyIngest {a b : Inner} (h : a.Agree b) (tenant : TenantId)
    (metrics : List Metric) (enforceCap : Bool) :
    (Pulse.applyIngest a tenant metrics enforceCap).1.Agree
      (Pulse.applyIngest b tenant metrics enforceCap).1 := by
  induction metrics using List.reverseRecOn with
  | nil => exact h
  | append_singleton metrics metric ih =>
    have hrefuses : (Pulse.applyIngest a tenant metrics enforceCap).1.Refuses tenant metric ↔
        (Pulse.applyIngest b tenant metrics enforceCap).1.Refuses tenant metric := by
      rw [Inner.Refuses, Inner.Refuses, ih.1, ih.2]
    simp only [applyIngest_snoc, applyMetric, hrefuses]
    split_ifs
    · exact ih
    · refine ⟨congrArg (file · tenant metric) ih.1, fun t => ?_⟩
      change ((Inner.counted _ tenant metric).lookup t).getD 0 =
        ((Inner.counted _ tenant metric).lookup t).getD 0
      rw [count_counted, count_counted, ih.1, ih.2]

theorem Inner.Agree.commitIngest {a b : Inner} (h : a.Agree b) (tenant : TenantId)
    (metrics : List Metric) :
    (Pulse.commitIngest tenant metrics a).Agree (Pulse.commitIngest tenant metrics b) :=
  ⟨congrArg sortAll (h.applyIngest tenant metrics true).1, (h.applyIngest tenant metrics true).2⟩

theorem ingestAll_snoc (ledger : List WalRecord) (r : WalRecord) :
    ingestAll (ledger ++ [r]) = commitRecord (ingestAll ledger) r := List.foldl_append

/-- What live ingest accepted is indexed like any memory. -/
theorem indexes_ingestAll {ledger : List WalRecord} (h : ∀ r ∈ ledger, r.AllValues p) :
    Indexes p (ingestAll ledger) (Content.push (.fresh ∅) (ledger.flatMap WalRecordOf.metrics)) := by
  induction ledger using List.reverseRecOn with
  | nil =>
    refine ⟨.empty, fun k entry hk => ?_, fun k hk _ => ?_, fun k hk => ?_, fun t => ?_⟩
    · simp [ingestAll, Inner.empty] at hk
    · simp [Content.push, Content.fresh, Content.series, fileAll] at hk
    · simp [Content.push, Content.fresh] at hk
    · simp [ingestAll, Inner.empty, Inner.count, seriesCount]
  | append_singleton ledger r ih =>
    have ih := ih fun r' hr' => h r' (List.mem_append_left _ hr')
    have hr := h r (by simp)
    obtain ⟨tenant, metrics⟩ := r
    have hpush : Content.push (.fresh ∅) ((ledger ++ [WalRecordOf.ingest tenant metrics]).flatMap
        WalRecordOf.metrics) = (Content.push (.fresh ∅) (ledger.flatMap
          WalRecordOf.metrics)).push (metrics.map fun m => (tenant, m)) := by
      simp [Content.push, WalRecordOf.metrics]
    rw [ingestAll_snoc, hpush]
    exact (ih.applyIngest tenant hr).sortAll

/-- What live ingest accepted is under the cap. -/
theorem count_ingestAll_le (ledger : List WalRecord) (t : TenantId) :
    (ingestAll ledger).count t ≤ maxSeriesPerTenant := by
  induction ledger using List.reverseRecOn generalizing t with
  | nil => simp [ingestAll, Inner.empty, Inner.count]
  | append_singleton ledger r ih =>
    obtain ⟨tenant, metrics⟩ := r
    rw [ingestAll_snoc]
    exact count_applyIngest_le ih tenant metrics t

/-- Filing metrics of one tenant makes a series of each of their keys. -/
theorem seriesCount_fileAll (tenant : TenantId) (metrics : List Metric) :
    seriesCount (fileAll ∅ (metrics.map fun m => (tenant, m))) tenant =
      (metrics.map SeriesKey.of).toFinset.card := by
  have hkeys : (fileAll ∅ (metrics.map fun m => (tenant, m))).keys.filter
      (fun k => k.1 = tenant) = (metrics.map SeriesKey.of).toFinset.image (Prod.mk tenant) := by
    ext k
    rw [Finset.mem_filter, Finmap.mem_keys, ← Finmap.lookup_isSome, isSome_fileAll,
      Finset.mem_image]
    simp only [Finmap.lookup_empty, Option.isSome_none, Bool.false_eq_true, false_or,
      List.mem_map, List.mem_toFinset, keyOf]
    constructor
    · rintro ⟨⟨e, ⟨m, hm, rfl⟩, rfl⟩, -⟩
      exact ⟨_, ⟨m, hm, rfl⟩, rfl⟩
    · rintro ⟨_, ⟨m, hm, rfl⟩, rfl⟩
      exact ⟨⟨_, ⟨m, hm, rfl⟩, rfl⟩, rfl⟩
  rw [seriesCount, hkeys, Finset.card_image_of_injective _ (Prod.mk_right_injective tenant)]

/-- Every metric of the log has its series in memory: none was refused since the log was last
empty. -/
def NoneRefused (wal : LineSerde WalRecord) (s : Store Inner) : Prop :=
  ∀ e ∈ (wal.records s.wal.file).flatMap WalRecordOf.metrics,
    (s.state.series.lookup (keyOf e)).isSome

/-- A content has the series of memory when memory has those of every logged metric. -/
theorem Indexes.sortAll_series_eq_iff {inner : Inner} {i : Content} (h : Indexes p inner i)
    (hsorted : Pulse.sortAll inner.series = inner.series) :
    Pulse.sortAll i.series = inner.series ↔
      ∀ e ∈ i.log, (inner.series.lookup (keyOf e)).isSome := by
  constructor
  · intro heq e he
    rw [← heq, lookup_sortAll, Option.isSome_map]
    exact (isSome_fileAll _ _ _).mpr (Or.inr (List.mem_map_of_mem he))
  · intro hlog
    apply Finmap.ext_lookup
    intro k
    rw [← hsorted, lookup_sortAll, lookup_sortAll]
    cases hk : inner.series.lookup k with
    | some entry => exact h.exact k entry hk
    | none =>
      -- a series that memory lacks is neither in the base nor in the log
      have hnone : ¬ (i.series.lookup k).isSome := by
        intro hsome
        rcases (isSome_fileAll _ _ _).mp hsome with hbase | hmem
        · have := h.base k hbase
          simp [hk] at this
        · obtain ⟨e, he, rfl⟩ := List.mem_map.mp hmem
          have := hlog e he
          simp [hk] at this
      rw [Option.not_isSome_iff_eq_none.mp hnone]

/-- So memory survives a restart exactly when no metric of the log was refused. -/
theorem sortAll_series_eq_iff {order : IterOrder Key SeriesEntry} {wal : LineSerde WalRecord}
    {snap : FileSerde Snapshot} {ledger : List WalRecord} {s : Store Inner} {i : Content}
    (h : (refinement p order wal snap Content.Forgets).Serves ledger s i)
    (hterm : Terminated s.wal.file) :
    sortAll i.series = s.state.series ↔ NoneRefused wal s := by
  rw [h.live.1.sortAll_series_eq_iff h.live.2, log_eq h hterm]
  rfl

end Kaleidoscope.Pulse
