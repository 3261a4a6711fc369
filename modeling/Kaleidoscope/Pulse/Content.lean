import Kaleidoscope.Pulse.FileBacked

/-!
# What the metric store's log amounts to

The abstract state keeps apart the series of the last snapshot and the metrics logged
since. Replay files all of the log; memory has every series exactly, except those that
were refused at the cap.
-/

namespace Kaleidoscope.Pulse

open Aegis HashMap StableSort Replay

/-- The series of the last snapshot and the metrics logged since. -/
structure Content where
  base : Series
  log : List (TenantId × Metric)

/-- File a list of metrics. -/
def fileAll (series : Series) (log : List (TenantId × Metric)) : Series :=
  log.foldl (fun series e => file series e.1 e.2) series

/-- All series of a content. -/
def Content.series (i : Content) : Series := fileAll i.base i.log

/-- The metrics of a log record with their tenant. -/
def WalRecordOf.metrics : WalRecord → List (TenantId × Metric)
  | .ingest tenant metrics => metrics.map fun m => (tenant, m)

/-- The series a logged metric belongs to. -/
def keyOf (e : TenantId × Metric) : Key := (e.1, SeriesKey.of e.2)

/-- The number of series of a tenant. -/
def seriesCount (series : Series) (tenant : TenantId) : Nat :=
  (series.keys.filter fun k => k.1 = tenant).card

/-- Every entry is filed under the key of its metric, and its values have a property. -/
def WellFiled (p : F64 → Prop) (series : Series) : Prop :=
  ∀ k entry, series.lookup k = some entry →
    k.2 = SeriesKey.of entry.metric ∧ AllValues p entry.metric.points ∧ AllValues p entry.points

theorem lookup_file (series : Series) (tenant : TenantId) (metric : Metric) (k : Key) :
    (file series tenant metric).lookup k =
      if k = (tenant, SeriesKey.of metric) then
        some (((series.lookup k).getD (.new metric)).extend metric)
      else series.lookup k := by
  rw [file, lookup_upsert]
  split_ifs with hk
  · rw [hk]
  · rfl

theorem fileAll_append (series : Series) (l l' : List (TenantId × Metric)) :
    fileAll series (l ++ l') = fileAll (fileAll series l) l' := List.foldl_append

@[simp] theorem lookup_sortAll (series : Series) (k : Key) :
    (sortAll series).lookup k = (series.lookup k).map sortEntry := lookup_mapValues _ _ k

theorem keys_sortAll (series : Series) : (sortAll series).keys = series.keys := by
  ext k
  rw [Finmap.mem_keys, Finmap.mem_keys, ← Finmap.lookup_isSome, ← Finmap.lookup_isSome,
    lookup_sortAll, Option.isSome_map]

theorem seriesCount_sortAll (series : Series) (tenant : TenantId) :
    seriesCount (sortAll series) tenant = seriesCount series tenant := by
  rw [seriesCount, seriesCount, keys_sortAll]

@[simp] theorem sortEntry_sortEntry (entry : SeriesEntry) :
    sortEntry (sortEntry entry) = sortEntry entry := by
  simp [sortEntry]

@[simp] theorem sortAll_sortAll (series : Series) : sortAll (sortAll series) = sortAll series := by
  apply Finmap.ext_lookup
  intro k
  simp [Function.comp_def]

/-- Extending respects entries that sort alike. -/
theorem sortEntry_extend {a b : SeriesEntry} (h : sortEntry a = sortEntry b) (metric : Metric) :
    sortEntry (a.extend metric) = sortEntry (b.extend metric) := by
  simp only [sortEntry, SeriesEntry.mk.injEq] at h
  simp only [sortEntry, SeriesEntry.extend, h.1, SeriesEntry.mk.injEq, true_and]
  exact sortByKey_append_congr _ h.2 _

/-- Filing respects series that sort alike. -/
theorem sortAll_file {a b : Series} (h : sortAll a = sortAll b) (tenant : TenantId)
    (metric : Metric) : sortAll (file a tenant metric) = sortAll (file b tenant metric) := by
  apply Finmap.ext_lookup
  intro k
  have hk := congrArg (Finmap.lookup k) h
  rw [lookup_sortAll, lookup_sortAll] at hk
  rw [lookup_sortAll, lookup_sortAll, lookup_file, lookup_file]
  split_ifs
  · refine congrArg some (sortEntry_extend ?_ metric)
    rw [← Option.getD_map sortEntry, ← Option.getD_map sortEntry, hk]
  · exact hk

theorem sortAll_fileAll {a b : Series} (h : sortAll a = sortAll b)
    (log : List (TenantId × Metric)) : sortAll (fileAll a log) = sortAll (fileAll b log) := by
  induction log generalizing a b with
  | nil => exact h
  | cons e log ih => exact ih (sortAll_file h e.1 e.2)

/-- The keys of the filed series. -/
theorem isSome_fileAll (series : Series) (log : List (TenantId × Metric)) (k : Key) :
    ((fileAll series log).lookup k).isSome ↔
      (series.lookup k).isSome ∨ k ∈ log.map keyOf := by
  induction log generalizing series with
  | nil => simp [fileAll]
  | cons e log ih =>
    rw [fileAll, List.foldl_cons, ← fileAll, ih, lookup_file, List.map_cons, List.mem_cons]
    change (if k = keyOf e then _ else _ : Option SeriesEntry).isSome ∨ _ ↔ _
    split_ifs with hk
    · simp [hk]
    · simp [hk]

theorem keys_insert (series : Series) (k : Key) (entry : SeriesEntry) :
    (series.insert k entry).keys = insert k series.keys := by
  ext j
  rw [Finset.mem_insert, Finmap.mem_keys, Finmap.mem_keys, Finmap.mem_insert]

/-- A new series counts for its tenant. -/
theorem seriesCount_file (series : Series) (tenant : TenantId) (metric : Metric)
    (t : TenantId) :
    seriesCount (file series tenant metric) t =
      seriesCount series t +
        if t = tenant ∧ series.lookup (tenant, SeriesKey.of metric) = none then 1 else 0 := by
  rw [seriesCount, file, upsert, keys_insert, Finset.filter_insert, seriesCount]
  cases hs : series.lookup (tenant, SeriesKey.of metric) with
  | none =>
    have hk : (tenant, SeriesKey.of metric) ∉ series.keys := by
      rw [Finmap.mem_keys, ← Finmap.lookup_isSome, hs]
      simp
    by_cases ht : tenant = t
    · rw [if_pos ht, if_pos ⟨ht.symm, rfl⟩,
        Finset.card_insert_of_notMem fun h => hk (Finset.mem_filter.mp h).1]
    · rw [if_neg ht, if_neg fun h => ht h.1.symm, Nat.add_zero]
  | some entry =>
    have hk : (tenant, SeriesKey.of metric) ∈ series.keys := by
      rw [Finmap.mem_keys, ← Finmap.lookup_isSome, hs]
      simp
    simp only [reduceCtorEq, and_false, if_false, Nat.add_zero]
    split_ifs with ht
    · rw [Finset.insert_eq_of_mem (Finset.mem_filter.mpr ⟨hk, ht⟩)]
    · rfl

/-- The counts `open` rebuilds are those of the series. -/
theorem count_rebuilt (order : IterOrder Key SeriesEntry) (series : Series) (t : TenantId) :
    ((rebuilt order series).lookup t).getD 0 = seriesCount series t := by
  have hfold : ∀ (entries : List (Key × SeriesEntry)) (counts : HashMap TenantId Nat),
      ((entries.foldl (fun counts e => counts.upsert e.1.1 0 (· + 1)) counts).lookup t).getD 0 =
        (counts.lookup t).getD 0 + ((entries.map Prod.fst).filter fun k => k.1 = t).length := by
    intro entries
    induction entries with
    | nil => simp
    | cons e entries ih =>
      intro counts
      rw [List.foldl_cons, ih, lookup_upsert, List.map_cons, List.filter_cons]
      by_cases ht : e.1.1 = t
      · subst ht
        simp
        omega
      · simp [ht, Ne.symm ht]
  have hkeys : ((order.entries series).map Prod.fst).toFinset = series.keys := by
    ext k
    rw [List.mem_toFinset, order.mem_keys_iff, Finmap.mem_keys, Finmap.lookup_isSome]
  rw [rebuilt, hfold, Finmap.lookup_empty, Option.getD_none, Nat.zero_add, seriesCount, ← hkeys,
    ← List.toFinset_card_of_nodup ((order.nodup series).filter _), List.toFinset_filter]
  simp only [decide_eq_true_eq]

variable {p : F64 → Prop}

/-- Log further metrics. -/
def Content.push (i : Content) (log : List (TenantId × Metric)) : Content :=
  ⟨i.base, i.log ++ log⟩

theorem Content.series_push (i : Content) (log : List (TenantId × Metric)) :
    (i.push log).series = fileAll i.series log := fileAll_append i.base i.log log

/-- Memory has every series of the content exactly, except those refused to tenants at the
cap. -/
structure Indexes (p : F64 → Prop) (inner : Inner) (i : Content) : Prop where
  wellFiled : WellFiled p inner.series
  exact : ∀ k entry, inner.series.lookup k = some entry →
    (i.series.lookup k).map sortEntry = some (sortEntry entry)
  refused : ∀ k, (i.series.lookup k).isSome → inner.series.lookup k = none →
    maxSeriesPerTenant ≤ inner.count k.1
  base : ∀ k, (i.base.lookup k).isSome → (inner.series.lookup k).isSome
  counts : ∀ t, inner.count t = seriesCount inner.series t

theorem WellFiled.file {series : Series} (h : WellFiled p series) (tenant : TenantId)
    {metric : Metric} (hm : AllValues p metric.points) : WellFiled p (file series tenant metric) := by
  intro k entry hk
  rw [lookup_file] at hk
  split_ifs at hk with he
  · obtain rfl := Option.some.inj hk
    cases hs : series.lookup k with
    | none =>
      exact ⟨congrArg Prod.snd he, by simp [SeriesEntry.new, SeriesEntry.extend, AllValues], hm⟩
    | some entry =>
      obtain ⟨hkey, hmetric, hpoints⟩ := h k entry hs
      refine ⟨hkey, hmetric, fun p hp => ?_⟩
      rcases List.mem_append.mp hp with hp | hp
      · exact hpoints p hp
      · exact hm p hp
  · exact h k entry hk

theorem WellFiled.sortAll {series : Series} (h : WellFiled p series) :
    WellFiled p (sortAll series) := by
  intro k entry hk
  rw [lookup_sortAll] at hk
  obtain ⟨entry', hs, rfl⟩ := Option.map_eq_some_iff.mp hk
  obtain ⟨hkey, hmetric, hpoints⟩ := h k entry' hs
  exact ⟨hkey, hmetric, fun p hp => hpoints p ((sortByKey_perm _ _).mem_iff.mp hp)⟩

theorem WellFiled.empty : WellFiled p ∅ := fun k entry hk => by simp at hk

/-- A series that is counted when it is filed is counted once. -/
theorem count_counted (inner : Inner) (tenant : TenantId) (metric : Metric) (t : TenantId) :
    ((inner.counted tenant metric).lookup t).getD 0 =
      inner.count t +
        if t = tenant ∧ inner.series.lookup (tenant, SeriesKey.of metric) = none then 1
        else 0 := by
  rw [Inner.counted]
  cases inner.series.lookup (tenant, SeriesKey.of metric) with
  | none =>
    by_cases ht : t = tenant
    · subst ht
      simp [lookup_upsert, Inner.count]
    · simp [lookup_upsert, Inner.count, ht]
  | some entry => simp [Inner.count]

/-- Filing a metric keeps memory exact. -/
theorem Indexes.file {inner : Inner} {i : Content} (h : Indexes p inner i) {tenant : TenantId}
    {metric : Metric} (hm : AllValues p metric.points) (haccept : ¬ inner.Refuses tenant metric) :
    Indexes p ⟨file inner.series tenant metric, inner.counted tenant metric⟩
      (i.push [(tenant, metric)]) where
  wellFiled := h.wellFiled.file tenant hm
  exact k entry hk := by
    rw [Content.series_push]
    change ((Pulse.file i.series tenant metric).lookup k).map sortEntry = _
    rw [lookup_file] at hk ⊢
    split_ifs at hk ⊢ with he
    · subst he
      obtain rfl := Option.some.inj hk
      refine congrArg some (sortEntry_extend ?_ metric)
      cases hs : inner.series.lookup (tenant, SeriesKey.of metric) with
      | some entry =>
        rw [← Option.getD_map sortEntry, h.exact _ _ hs]
        rfl
      | none =>
        -- a logged series that memory lacks would have been refused
        cases hi : i.series.lookup (tenant, SeriesKey.of metric) with
        | none => rfl
        | some entry => exact absurd ⟨hs, h.refused _ (by rw [hi]; rfl) hs⟩ haccept
    · exact h.exact k entry hk
  refused k hk hnone := by
    rw [Content.series_push] at hk
    change ((Pulse.file i.series tenant metric).lookup k).isSome at hk
    change maxSeriesPerTenant ≤ ((inner.counted tenant metric).lookup k.1).getD 0
    rw [lookup_file] at hk hnone
    split_ifs at hk hnone with he
    rw [count_counted]
    exact (h.refused k hk hnone).trans (Nat.le_add_right _ _)
  base k hk := by
    rw [lookup_file]
    split_ifs
    · rfl
    · exact h.base k hk
  counts t := by
    change ((inner.counted tenant metric).lookup t).getD 0 = _
    rw [count_counted, seriesCount_file, h.counts]

/-- Refusing a metric leaves memory as it is, at the cap. -/
theorem Indexes.refuse {inner : Inner} {i : Content} (h : Indexes p inner i) {tenant : TenantId}
    {metric : Metric} (hrefuse : inner.Refuses tenant metric) :
    Indexes p inner (i.push [(tenant, metric)]) where
  wellFiled := h.wellFiled
  exact k entry hk := by
    rw [Content.series_push]
    change ((Pulse.file i.series tenant metric).lookup k).map sortEntry = _
    rw [lookup_file, if_neg]
    · exact h.exact k entry hk
    · rintro rfl
      rw [hrefuse.1] at hk
      cases hk
  refused k hk hnone := by
    rw [Content.series_push] at hk
    change ((Pulse.file i.series tenant metric).lookup k).isSome at hk
    rw [lookup_file] at hk
    split_ifs at hk with he
    · rw [he]
      exact hrefuse.2
    · exact h.refused k hk hnone
  base := h.base
  counts := h.counts

/-- Live ingest keeps memory exact up to what it refuses. -/
theorem Indexes.applyIngest {inner : Inner} {i : Content} (h : Indexes p inner i)
    (tenant : TenantId) {metrics : List Metric} (hm : ∀ m ∈ metrics, AllValues p m.points) :
    Indexes p (applyIngest inner tenant metrics true).1
      (i.push (metrics.map fun m => (tenant, m))) := by
  induction metrics using List.reverseRecOn with
  | nil => simpa [Pulse.applyIngest, Content.push] using h
  | append_singleton metrics metric ih =>
    have ih := ih fun m hmem => hm m (List.mem_append_left _ hmem)
    have hmetric := hm metric (by simp)
    have hpush : i.push ((metrics ++ [metric]).map fun m => (tenant, m)) =
        (i.push (metrics.map fun m => (tenant, m))).push [(tenant, metric)] := by
      simp [Content.push]
    rw [applyIngest_snoc, hpush, applyMetric]
    split_ifs with hrefuse
    · exact ih.refuse hrefuse.2
    · exact ih.file hmetric fun hr => hrefuse ⟨rfl, hr⟩

/-- Sorting keeps memory exact. -/
theorem Indexes.sortAll {inner : Inner} {i : Content} (h : Indexes p inner i) :
    Indexes p { inner with series := sortAll inner.series } i where
  wellFiled := h.wellFiled.sortAll
  exact k entry hk := by
    rw [lookup_sortAll] at hk
    obtain ⟨entry', hs, rfl⟩ := Option.map_eq_some_iff.mp hk
    rw [h.exact k entry' hs, sortEntry_sortEntry]
  refused k hk hnone := h.refused k hk (by simpa using hnone)
  base k hk := by simpa using h.base k hk
  counts t := (h.counts t).trans (seriesCount_sortAll _ t).symm

/-- Sorted series that sort like the content, with their counts, index all of it. -/
theorem indexes_settled (order : IterOrder Key SeriesEntry) {series : Series} {i : Content}
    (hfiled : WellFiled p series) (hs : sortAll series = sortAll i.series) :
    Indexes p ⟨sortAll series, rebuilt order (sortAll series)⟩ i := by
  have hlookup (k : Key) : (sortAll series).lookup k = (i.series.lookup k).map sortEntry := by
    rw [hs, lookup_sortAll]
  refine ⟨hfiled.sortAll, fun k entry hk => ?_, fun k hk hnone => ?_, fun k hk => ?_,
    count_rebuilt order _⟩
  · rw [← hlookup, hk]
    rw [lookup_sortAll] at hk
    obtain ⟨entry', -, rfl⟩ := Option.map_eq_some_iff.mp hk
    rw [sortEntry_sortEntry]
  · rw [hlookup] at hnone
    rw [Option.map_eq_none_iff.mp hnone] at hk
    cases hk
  · rw [hlookup, Option.isSome_map]
    exact (isSome_fileAll _ _ k).mpr (Or.inl hk)

end Kaleidoscope.Pulse
