import Kaleidoscope.Pulse.Points
import Mathlib.Data.List.TakeWhile

/-!
# Which series the cap lets in

A series that is already there takes every metric of a batch. A new one is let in when the series
of the tenant and the new series that the batch names before it are fewer than the cap; from then
on it takes its metrics as if there were no cap.
-/

namespace Kaleidoscope.Pulse

open Aegis HashMap StableSort

variable (inner : Inner) (tenant : TenantId)

/-- The new series that metrics name. -/
def newSeries (metrics : List Metric) : Finset SeriesKey :=
  (metrics.map SeriesKey.of).toFinset.filter fun key => inner.series.lookup (tenant, key) = none

/-- The new series that metrics name before they first name this one. -/
def newBefore (metrics : List Metric) (key : SeriesKey) : Finset SeriesKey :=
  ((metrics.map SeriesKey.of).takeWhile fun other => decide (other ≠ key)).toFinset.filter
    fun key => inner.series.lookup (tenant, key) = none

/-- Whether an ingest of the metrics files those of a series. -/
def Takes (metrics : List Metric) (key : SeriesKey) : Prop :=
  (inner.series.lookup (tenant, key)).isSome ∨
    inner.count tenant + (newBefore inner tenant metrics key).card < maxSeriesPerTenant

instance (metrics : List Metric) (key : SeriesKey) : Decidable (Takes inner tenant metrics key) :=
  inferInstanceAs (Decidable (_ ∨ _))

variable {inner tenant}

theorem not_takes_iff {metrics : List Metric} {key : SeriesKey} :
    ¬ Takes inner tenant metrics key ↔ inner.series.lookup (tenant, key) = none ∧
      maxSeriesPerTenant ≤ inner.count tenant + (newBefore inner tenant metrics key).card := by
  rw [Takes, not_or, not_lt, Option.not_isSome_iff_eq_none]

theorem mem_newSeries {metrics : List Metric} {key : SeriesKey} :
    key ∈ newSeries inner tenant metrics ↔
      key ∈ metrics.map SeriesKey.of ∧ inner.series.lookup (tenant, key) = none := by
  rw [newSeries, Finset.mem_filter, List.mem_toFinset]

theorem newBefore_subset (inner : Inner) (tenant : TenantId) (metrics : List Metric)
    (key : SeriesKey) :
    newBefore inner tenant metrics key ⊆ newSeries inner tenant metrics := by
  intro k hk
  rw [newBefore, Finset.mem_filter, List.mem_toFinset] at hk
  exact mem_newSeries.mpr ⟨(List.takeWhile_sublist _).subset hk.1, hk.2⟩

/-- What follows the first metric of a series does not count. -/
theorem newBefore_append {metrics : List Metric} {key : SeriesKey}
    (h : key ∈ metrics.map SeriesKey.of) (later : List Metric) :
    newBefore inner tenant (metrics ++ later) key = newBefore inner tenant metrics key := by
  have hstops : (((metrics.map SeriesKey.of).takeWhile fun other =>
      decide (other ≠ key)).length ≠ (metrics.map SeriesKey.of).length) := by
    intro hlen
    have heq := (List.takeWhile_prefix fun other => decide (other ≠ key)).eq_of_length hlen
    rw [← heq] at h
    have hother := List.mem_takeWhile_imp h
    exact of_decide_eq_true hother rfl
  rw [newBefore, List.map_append, List.takeWhile_append, if_neg hstops]
  rfl

theorem takes_append {metrics : List Metric} {key : SeriesKey}
    (h : key ∈ metrics.map SeriesKey.of) (later : List Metric) :
    Takes inner tenant (metrics ++ later) key ↔ Takes inner tenant metrics key := by
  rw [Takes, Takes, newBefore_append h]

/-- All that was named so far precedes a series that is named next for the first time. -/
theorem newBefore_snoc {metrics : List Metric} {metric : Metric}
    (h : SeriesKey.of metric ∉ metrics.map SeriesKey.of) :
    newBefore inner tenant (metrics ++ [metric]) (SeriesKey.of metric) =
      newSeries inner tenant metrics := by
  have hall : ∀ other ∈ metrics.map SeriesKey.of, decide (other ≠ SeriesKey.of metric) = true :=
    fun other hother => decide_eq_true fun he => h (he ▸ hother)
  rw [newBefore, List.map_append, List.takeWhile_append_of_pos hall, newSeries]
  simp

theorem newSeries_snoc (metrics : List Metric) (metric : Metric) :
    newSeries inner tenant (metrics ++ [metric]) =
      if inner.series.lookup (tenant, SeriesKey.of metric) = none then
        insert (SeriesKey.of metric) (newSeries inner tenant metrics)
      else newSeries inner tenant metrics := by
  ext key
  split_ifs with h
  · rw [Finset.mem_insert, mem_newSeries, mem_newSeries, List.map_append, List.mem_append,
      List.map_singleton, List.mem_singleton]
    constructor
    · rintro ⟨hkey | hkey, hnone⟩
      · exact .inr ⟨hkey, hnone⟩
      · exact .inl hkey
    · rintro (rfl | ⟨hkey, hnone⟩)
      · exact ⟨.inr rfl, h⟩
      · exact ⟨.inl hkey, hnone⟩
  · rw [mem_newSeries, mem_newSeries, List.map_append, List.mem_append, List.map_singleton,
      List.mem_singleton]
    refine and_congr_left fun hnone => or_iff_left ?_
    rintro rfl
    exact h hnone

/-- Another metric is filed under another series, or extends its own. -/
theorem lookup_fileAll_snoc (series : Series) (metrics : List Metric) (metric : Metric)
    (key : SeriesKey) :
    (fileAll series ((metrics ++ [metric]).map fun m => (tenant, m))).lookup (tenant, key) =
      if key = SeriesKey.of metric then
        some ((((fileAll series (metrics.map fun m => (tenant, m))).lookup (tenant, key)).getD
          (.new metric)).extend metric)
      else (fileAll series (metrics.map fun m => (tenant, m))).lookup (tenant, key) := by
  rw [List.map_append, fileAll_append]
  change (file _ tenant metric).lookup _ = _
  rw [lookup_file]
  simp only [Prod.mk.injEq, true_and]

theorem lookup_fileAll_of_notMem {series : Series} {metrics : List Metric} {key : SeriesKey}
    (h : key ∉ metrics.map SeriesKey.of) :
    (fileAll series (metrics.map fun m => (tenant, m))).lookup (tenant, key) =
      series.lookup (tenant, key) := by
  induction metrics using List.reverseRecOn with
  | nil => rfl
  | append_singleton metrics metric ih =>
    rw [List.map_append, List.mem_append, List.map_singleton, List.mem_singleton, not_or] at h
    rw [lookup_fileAll_snoc, if_neg h.2, ih h.1]

theorem isSome_lookup_fileAll (series : Series) (tenant : TenantId) {metrics : List Metric}
    {key : SeriesKey} (h : key ∈ metrics.map SeriesKey.of) :
    ((fileAll series (metrics.map fun m => (tenant, m))).lookup (tenant, key)).isSome := by
  obtain ⟨metric, hmetric, rfl⟩ := List.mem_map.mp h
  rw [isSome_fileAll]
  exact .inr (List.mem_map_of_mem (List.mem_map_of_mem hmetric))

/-- What an ingest of the metrics made of the tenant's count and series. -/
structure LetIn (inner : Inner) (tenant : TenantId) (metrics : List Metric) (now : Inner) :
    Prop where
  count : now.count tenant = inner.count tenant +
    min (newSeries inner tenant metrics).card (maxSeriesPerTenant - inner.count tenant)
  lookup : ∀ key, now.series.lookup (tenant, key) =
    if Takes inner tenant metrics key then
      (fileAll inner.series (metrics.map fun m => (tenant, m))).lookup (tenant, key)
    else inner.series.lookup (tenant, key)

theorem LetIn.isSome_iff {metrics : List Metric} {now : Inner}
    (h : LetIn inner tenant metrics now) (key : SeriesKey) :
    (now.series.lookup (tenant, key)).isSome ↔ (inner.series.lookup (tenant, key)).isSome ∨
      key ∈ metrics.map SeriesKey.of ∧ Takes inner tenant metrics key := by
  rw [h.lookup]
  by_cases hmem : key ∈ metrics.map SeriesKey.of
  · have hfiled := isSome_lookup_fileAll inner.series tenant hmem
    split_ifs with htakes
    · exact iff_of_true hfiled (.inr ⟨hmem, htakes⟩)
    · simp [htakes]
  · rw [lookup_fileAll_of_notMem hmem, ite_self]
    simp [hmem]

/-- A metric is refused when its series is not let in. -/
theorem LetIn.refuses_iff {metrics : List Metric} {now : Inner}
    (h : LetIn inner tenant metrics now) (metric : Metric) :
    now.Refuses tenant metric ↔
      ¬ Takes inner tenant (metrics ++ [metric]) (SeriesKey.of metric) := by
  rw [not_takes_iff, Inner.Refuses, h.lookup, h.count]
  by_cases hmem : SeriesKey.of metric ∈ metrics.map SeriesKey.of
  · rw [newBefore_append hmem]
    have hcard := Finset.card_le_card
      (newBefore_subset inner tenant metrics (SeriesKey.of metric))
    split_ifs with htakes
    · -- a series that was let in stays
      refine iff_of_false (fun hnone => ?_) (fun hleft => ?_)
      · have := isSome_lookup_fileAll inner.series tenant hmem
        rw [hnone.1] at this
        cases this
      · rcases htakes with hsome | hlt
        · rw [hleft.1] at hsome
          cases hsome
        · omega
    · have hleft := not_takes_iff.mp htakes
      exact iff_of_true ⟨hleft.1, by omega⟩ hleft
  · rw [newBefore_snoc hmem, lookup_fileAll_of_notMem hmem, ite_self]
    refine and_congr_right fun _ => ?_
    omega

/-- One more metric leaves the other series. -/
theorem LetIn.lookup_of_ne {metrics : List Metric} {now : Inner}
    (h : LetIn inner tenant metrics now) {metric : Metric} {key : SeriesKey}
    (hkey : key ≠ SeriesKey.of metric) :
    now.series.lookup (tenant, key) =
      if Takes inner tenant (metrics ++ [metric]) key then
        (fileAll inner.series ((metrics ++ [metric]).map fun m => (tenant, m))).lookup
          (tenant, key)
      else inner.series.lookup (tenant, key) := by
  rw [lookup_fileAll_snoc, if_neg hkey, h.lookup]
  by_cases hmem : key ∈ metrics.map SeriesKey.of
  · simp only [takes_append hmem]
  · rw [lookup_fileAll_of_notMem hmem, ite_self, ite_self]

/-- A metric that is refused changes nothing. -/
theorem LetIn.refused {metrics : List Metric} {now : Inner} (h : LetIn inner tenant metrics now)
    {metric : Metric} (hrefused : now.Refuses tenant metric) :
    LetIn inner tenant (metrics ++ [metric]) now := by
  have htakes := (h.refuses_iff metric).mp hrefused
  have hleft := not_takes_iff.mp htakes
  refine ⟨?_, fun key => ?_⟩
  · -- no room is left, whether the series was named before or not
    have hcard := Finset.card_le_card
      (Finset.subset_insert (SeriesKey.of metric) (newSeries inner tenant metrics))
    have hcap := hrefused.2
    rw [newSeries_snoc, if_pos hleft.1]
    rw [h.count] at hcap ⊢
    omega
  · by_cases hkey : key = SeriesKey.of metric
    · rw [hkey, if_neg htakes, hleft.1]
      exact hrefused.1
    · exact h.lookup_of_ne hkey

/-- A metric that is taken counts when its series is new. -/
theorem LetIn.count_counted {metrics : List Metric} {now : Inner}
    (h : LetIn inner tenant metrics now) {metric : Metric}
    (hrefused : ¬ now.Refuses tenant metric) :
    ((now.counted tenant metric).lookup tenant).getD 0 = inner.count tenant +
      min (newSeries inner tenant (metrics ++ [metric])).card
        (maxSeriesPerTenant - inner.count tenant) := by
  have htakes := not_not.mp (mt (h.refuses_iff metric).mpr hrefused)
  rw [Pulse.count_counted, newSeries_snoc]
  have hsome := h.isSome_iff (SeriesKey.of metric)
  cases hlookup : now.series.lookup (tenant, SeriesKey.of metric) with
  | none =>
    rw [hlookup] at hsome
    obtain ⟨hnone, hnew⟩ := not_or.mp (hsome.not.mp (by simp))
    have hmem : SeriesKey.of metric ∉ metrics.map SeriesKey.of :=
      fun hmem => hnew ⟨hmem, (takes_append hmem _).mp htakes⟩
    have hroom : ¬ maxSeriesPerTenant ≤ now.count tenant :=
      fun hcap => hrefused ⟨hlookup, hcap⟩
    rw [if_pos ⟨rfl, rfl⟩, if_pos (Option.not_isSome_iff_eq_none.mp hnone),
      Finset.card_insert_of_notMem fun hkey => hmem (mem_newSeries.mp hkey).1]
    rw [h.count] at hroom ⊢
    omega
  | some entry =>
    rw [hlookup] at hsome
    rw [if_neg (by simp), add_zero, h.count]
    split_ifs with hnone
    · obtain ⟨hmem, -⟩ := (hsome.mp rfl).resolve_left (by simp [hnone])
      rw [Finset.insert_eq_of_mem (mem_newSeries.mpr ⟨hmem, hnone⟩)]
    · rfl

/-- A metric that is taken is filed under its series. -/
theorem LetIn.lookup_file {metrics : List Metric} {now : Inner}
    (h : LetIn inner tenant metrics now) {metric : Metric}
    (htakes : Takes inner tenant (metrics ++ [metric]) (SeriesKey.of metric)) (key : SeriesKey) :
    (file now.series tenant metric).lookup (tenant, key) =
      if Takes inner tenant (metrics ++ [metric]) key then
        (fileAll inner.series ((metrics ++ [metric]).map fun m => (tenant, m))).lookup
          (tenant, key)
      else inner.series.lookup (tenant, key) := by
  by_cases hkey : key = SeriesKey.of metric
  · subst hkey
    have hnow : now.series.lookup (tenant, SeriesKey.of metric) =
        (fileAll inner.series (metrics.map fun m => (tenant, m))).lookup
          (tenant, SeriesKey.of metric) := by
      rw [h.lookup]
      split_ifs with hbefore
      · rfl
      · refine (lookup_fileAll_of_notMem fun hmem => hbefore ?_).symm
        exact (takes_append hmem _).mp htakes
    rw [Pulse.lookup_file, if_pos rfl, if_pos htakes, lookup_fileAll_snoc, if_pos rfl, hnow]
  · rw [Pulse.lookup_file, if_neg (by simpa using hkey)]
    exact h.lookup_of_ne hkey

/-- One more metric. -/
theorem LetIn.snoc {metrics : List Metric} {now : Inner} {applied : Applied}
    (h : LetIn inner tenant metrics now) (metric : Metric) :
    LetIn inner tenant (metrics ++ [metric])
      (applyMetric tenant true (now, applied) metric).1 := by
  simp only [applyMetric, true_and]
  split_ifs with hrefused
  · exact h.refused hrefused
  · exact ⟨h.count_counted hrefused,
      h.lookup_file (not_not.mp (mt (h.refuses_iff metric).mpr hrefused))⟩

/-- An ingest lets in what it takes. -/
theorem letIn_applyIngest (inner : Inner) (tenant : TenantId) (metrics : List Metric) :
    LetIn inner tenant metrics (applyIngest inner tenant metrics true).1 := by
  induction metrics using List.reverseRecOn with
  | nil =>
    refine ⟨by simp [applyIngest, newSeries], fun key => ?_⟩
    split_ifs <;> rfl
  | append_singleton metrics metric ih =>
    rw [applyIngest_snoc]
    exact ih.snoc metric

end Kaleidoscope.Pulse
