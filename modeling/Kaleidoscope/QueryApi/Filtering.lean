import Kaleidoscope.Library.Grouping
import Kaleidoscope.QueryApi.Matrix

/-!
# Filtering before grouping

A matcher reads the label set that rows are grouped by, so a filter keeps or drops whole series.
-/

namespace Kaleidoscope.QueryApi

open HashMap Pulse

/-! ## The label sets of rows -/

/-- The label sets of rows, in the order of their series. -/
def labelSets (rows : List Row) : List Labels :=
  (rows.map Row.labels).dedup.mergeSort fun a b => labelOrder a ≤ labelOrder b

theorem toMatrix_eq (display : UInt64 → String) (rows : List Row) :
    toMatrix display rows = (labelSets rows).map fun labels =>
      ⟨labels, (rows.filter fun row => row.labels = labels).map (Row.sample display)⟩ :=
  List.map_congr_left fun labels _ =>
    congrArg (PromMatrixEntry.mk labels) (bucket_grouped display rows labels)

theorem map_metric_toMatrix (display : UInt64 → String) (rows : List Row) :
    (toMatrix display rows).map PromMatrixEntry.metric = labelSets rows := by
  rw [toMatrix_eq, List.map_map]
  exact List.map_id _

/-- The order of label sets tells them apart. -/
theorem labelOrder_injective : Function.Injective labelOrder := by
  intro a b h
  obtain ⟨entries, _⟩ := a
  obtain ⟨entries', _⟩ := b
  obtain rfl : entries = entries' := List.map_injective_iff.mpr toLex.injective h
  rfl

theorem mem_labelSets {rows : List Row} {labels : Labels} :
    labels ∈ labelSets rows ↔ ∃ row ∈ rows, row.labels = labels := by
  rw [labelSets, List.mem_mergeSort, List.mem_dedup, List.mem_map]

theorem nodup_labelSets (rows : List Row) : (labelSets rows).Nodup :=
  (List.mergeSort_perm _ _).nodup_iff.mpr (List.nodup_dedup _)

theorem pairwise_labelSets (rows : List Row) :
    (labelSets rows).Pairwise fun a b => labelOrder a ≤ labelOrder b := by
  have hsorted : (labelSets rows).Pairwise fun a b => decide (labelOrder a ≤ labelOrder b) = true :=
    List.pairwise_mergeSort
      (fun a b c hab hbc => decide_eq_true ((of_decide_eq_true hab).trans (of_decide_eq_true hbc)))
      (fun a b => by simpa using le_total (labelOrder a) (labelOrder b)) _
  exact hsorted.imp of_decide_eq_true

/-- Rows picked by their labels have the label sets picked. -/
theorem labelSets_filter (p : Labels → Bool) (rows : List Row) :
    labelSets (rows.filter fun row => p row.labels) = (labelSets rows).filter p := by
  have hmem (labels : Labels) : labels ∈ labelSets (rows.filter fun row => p row.labels) ↔
      labels ∈ (labelSets rows).filter p := by
    rw [mem_labelSets, List.mem_filter, mem_labelSets]
    constructor
    · rintro ⟨row, hrow, rfl⟩
      obtain ⟨hrow, hp⟩ := List.mem_filter.mp hrow
      exact ⟨⟨row, hrow, rfl⟩, hp⟩
    · rintro ⟨⟨row, hrow, rfl⟩, hp⟩
      exact ⟨row, List.mem_filter.mpr ⟨hrow, hp⟩, rfl⟩
  have hperm : (labelSets (rows.filter fun row => p row.labels)).Perm
      ((labelSets rows).filter p) :=
    (List.perm_ext_iff_of_nodup (nodup_labelSets _) ((nodup_labelSets rows).filter p)).mpr hmem
  refine hperm.eq_of_pairwise (fun a b _ _ hab hba => ?_) (pairwise_labelSets _)
    ((pairwise_labelSets rows).filter p)
  exact labelOrder_injective (le_antisymm hab hba)

/-! ## What a matrix holds -/

/-- Entries that hold the values of rows, each value once, under the labels of its row. -/
structure Holds (display : UInt64 → String) (rows : List Row)
    (entries : List PromMatrixEntry) : Prop where
  distinct : (entries.map PromMatrixEntry.metric).Nodup
  /-- An entry has the values of the rows with its labels, in the order of the rows. -/
  values : ∀ entry ∈ entries,
    entry.values = (rows.filter fun row => row.labels = entry.metric).map (Row.sample display)
  /-- The rows behind the entries are the rows, each as often as it was given. -/
  perm : (entries.flatMap fun entry => rows.filter fun row => row.labels = entry.metric).Perm rows
  unique : ∀ row ∈ rows, ∃! entry, entry ∈ entries ∧ entry.metric = row.labels

theorem holds_toMatrix (display : UInt64 → String) (rows : List Row) :
    Holds display rows (toMatrix display rows) where
  distinct := (map_metric_toMatrix display rows).symm ▸ nodup_labelSets rows
  values entry hentry := by
    rw [((mem_toMatrix display rows).mp hentry).2, bucket_grouped]
  perm := by
    rw [toMatrix_eq, List.flatMap_map]
    refine Grouping.flatMap_filter_perm Row.labels rows (nodup_labelSets rows) fun row hrow => ?_
    exact mem_labelSets.mpr ⟨row, hrow, rfl⟩
  unique row hrow := by
    refine ⟨⟨row.labels, (grouped display rows).bucket row.labels⟩,
      ⟨(mem_toMatrix display rows).mpr ⟨⟨row, hrow, rfl⟩, rfl⟩, rfl⟩, ?_⟩
    rintro ⟨metric, values⟩ ⟨hentry, rfl⟩
    rw [← ((mem_toMatrix display rows).mp hentry).2]

/-- Picking rows by their labels picks whole series. -/
theorem toMatrix_filter (display : UInt64 → String) (p : Labels → Bool) (rows : List Row) :
    toMatrix display (rows.filter fun row => p row.labels) =
      (toMatrix display rows).filter fun entry => p entry.metric := by
  rw [toMatrix_eq, toMatrix_eq, labelSets_filter, List.filter_map]
  refine List.map_congr_left fun labels hlabels => ?_
  have hp : p labels = true := (List.mem_filter.mp hlabels).2
  have hrows : (rows.filter fun row => p row.labels).filter (fun row => row.labels = labels) =
      rows.filter fun row => row.labels = labels := by
    rw [List.filter_filter]
    refine List.filter_congr fun row _ => ?_
    by_cases h : row.labels = labels
    · simp [h, hp]
    · simp [h]
  rw [hrows]

/-- Filtering the rows and grouping them is grouping them and filtering the series; what is left
holds each row that was kept once. -/
theorem toMatrix_keepRow (display : UInt64 → String) (filter : MatcherFilter) (rows : List Row) :
    toMatrix display (rows.filter fun row => keepRow row.1 row.2 filter) =
        (toMatrix display rows).filter (fun entry =>
          filter.matchers.all (·.isMatch entry.metric)) ∧
      Holds display (rows.filter fun row => keepRow row.1 row.2 filter)
        (toMatrix display (rows.filter fun row => keepRow row.1 row.2 filter)) :=
  ⟨toMatrix_filter display (fun labels => filter.matchers.all (·.isMatch labels)) rows,
    holds_toMatrix display _⟩

end Kaleidoscope.QueryApi
