import Kaleidoscope.Pulse.Content

/-!
# Recovery of the metric store

Reopening files all of the log, the refused metrics included; a snapshot forgets them.
-/

namespace Kaleidoscope.Pulse

open Aegis HashMap StableSort Replay

variable {p : F64 → Prop}

/-- Replay files every metric of a record. -/
theorem series_applyRecord (inner : Inner) (r : WalRecord) :
    (applyRecord inner r).series = fileAll inner.series r.metrics := by
  obtain ⟨tenant, metrics⟩ := r
  rw [applyRecord, WalRecordOf.metrics]
  induction metrics using List.reverseRecOn with
  | nil => rfl
  | append_singleton metrics metric ih =>
    rw [applyIngest_snoc, List.map_append, fileAll_append, ← ih]
    simp only [applyMetric, Bool.false_eq_true, false_and, if_false]
    rfl

theorem WellFiled.fileAll {series : Series} (h : WellFiled p series)
    {log : List (TenantId × Metric)} (hlog : ∀ e ∈ log, AllValues p e.2.points) :
    WellFiled p (fileAll series log) := by
  induction log generalizing series with
  | nil => exact h
  | cons e log ih =>
    exact ih (h.file e.1 (hlog e List.mem_cons_self))
      fun e he => hlog e (List.mem_cons_of_mem _ he)

/-- Every value of an ingest has a property. -/
def Call.AllValues (p : F64 → Prop) : Call → Prop
  | .ingest _ batch => ∀ m ∈ batch.metrics, Pulse.AllValues p m.points

theorem WalRecordOf.AllValues.metrics {r : WalRecord} (h : r.AllValues p) :
    ∀ e ∈ r.metrics, Pulse.AllValues p e.2.points := by
  obtain ⟨tenant, metrics⟩ := r
  rintro e he
  obtain ⟨m, hm, rfl⟩ := List.mem_map.mp he
  exact h m hm

/-- The series of a snapshot are its buckets, each under the key of its metric. -/
theorem series_fromSnapshot_eq (snapshot : Snapshot) :
    (fromSnapshot snapshot).series = HashMap.insertAll ∅
      (snapshot.series.map fun b => ((b.tenant, SeriesKey.of b.metric), ⟨b.metric, b.points⟩)) := by
  have hfold (buckets : List SeriesBucket) (acc : Inner) :
      (buckets.foldl (fun inner b =>
        { series := inner.series.insert (b.tenant, SeriesKey.of b.metric) ⟨b.metric, b.points⟩
          tenantCounts := inner.counted b.tenant b.metric : Inner }) acc).series =
        acc.series.insertAll
          (buckets.map fun b => ((b.tenant, SeriesKey.of b.metric), ⟨b.metric, b.points⟩)) := by
    induction buckets generalizing acc with
    | nil => rfl
    | cons b buckets ih => rw [List.foldl_cons, ih, List.map_cons, insertAll_cons]
  exact hfold snapshot.series .empty

/-- A snapshot is restored to the series it was taken of. -/
theorem series_fromSnapshot (order : IterOrder Key SeriesEntry) {inner : Inner}
    (h : WellFiled p inner.series) :
    (fromSnapshot (toSnapshot order inner)).series = inner.series := by
  rw [series_fromSnapshot_eq, toSnapshot, List.map_map]
  refine Eq.trans (congrArg _ ?_) (IterOrder.insertAll_entries order inner.series)
  refine (List.map_congr_left fun e he => ?_).trans (List.map_id _)
  exact Prod.ext (Prod.ext rfl (h e.1 e.2 ((order.mem_iff _ _ _).mp he)).1.symm) rfl

/-- The values of a snapshot are those of the series it was taken of. -/
theorem allValues_toSnapshot (order : IterOrder Key SeriesEntry) {inner : Inner}
    (h : WellFiled p inner.series) : (toSnapshot order inner).AllValues p := by
  intro b hb
  obtain ⟨e, he, rfl⟩ := List.mem_map.mp hb
  exact (h e.1 e.2 ((order.mem_iff _ _ _).mp he)).2

/-- The content of a snapshot that was just taken. -/
def Content.fresh (series : Series) : Content := ⟨series, []⟩

/-- What a snapshot does to the content: the log is forgotten. -/
def Content.Forgets (_ j : Content) : Prop := j.log = []

theorem Indexes.fresh {inner : Inner} {i : Content} (h : Indexes p inner i) :
    Indexes p inner (.fresh inner.series) where
  wellFiled := h.wellFiled
  exact k entry hk := by
    change (inner.series.lookup k).map sortEntry = _
    rw [hk]
    rfl
  refused k hk hnone := by
    change (inner.series.lookup k).isSome at hk
    rw [hnone] at hk
    cases hk
  base k hk := hk
  counts := h.counts

section Refinement

variable (p : F64 → Prop) (order : IterOrder Key SeriesEntry) (wal : LineSerde WalRecord)
  (snap : FileSerde Snapshot) (compacts : Content → Content → Prop)

/-- The metric store refines its content as long as all values have the property; `compacts` is what
a snapshot may do to the content. -/
def refinement : Refinement (fileBackedMetricStore order wal snap) Content where
  init := .fresh ∅
  next i r j := (wal.Faithful r ∧ r.AllValues p) ∧ j = i.push r.metrics
  compacts := compacts
  loaded inner i := i.log = [] ∧ WellFiled p inner.series ∧ sortAll inner.series = sortAll i.base
  disk inner i := WellFiled p inner.series ∧ sortAll inner.series = sortAll i.series
  live inner i := Indexes p inner i ∧ sortAll inner.series = inner.series
  faithful h := h.1.1
  empty_loaded := ⟨rfl, .empty, rfl⟩
  loaded_disk {inner i} h := by
    refine ⟨h.2.1, ?_⟩
    rw [h.2.2, Content.series, h.1]
    rfl
  apply_disk {i r j inner} h hs := by
    refine ⟨applyRecord inner r, rfl, ?_, ?_⟩
    · rw [series_applyRecord]
      exact hs.1.fileAll h.1.2.metrics
    · rw [series_applyRecord, h.2, Content.series_push]
      exact sortAll_fileAll hs.2 _
  settle_live {inner i} h := ⟨indexes_settled order h.1 h.2, sortAll_sortAll _⟩

variable {p order wal snap compacts}

/-- Along a path the base stays and the log grows by the metrics of the records. -/
theorem path_eq {i j : Content} {rs : List WalRecord}
    (h : Path (refinement p order wal snap compacts).next i rs j) :
    j = i.push (rs.flatMap WalRecordOf.metrics) := by
  induction h with
  | nil => simp [Content.push]
  | snoc _ hr ih =>
    rw [hr.2, ih]
    simp [Content.push]

/-- A snapshot replaces the content by what memory holds. -/
theorem restores (hsnap : ∀ snapshot : Snapshot, snapshot.AllValues p → snap.Faithful snapshot) :
    (refinement p order wal snap Content.Forgets).Restores := by
  intro inner i h order'
  refine ⟨hsnap _ (allValues_toSnapshot order' h.1.wellFiled), _, .fresh inner.series, rfl,
    ⟨rfl, ?_, ?_⟩, ⟨h.1.fresh, h.2⟩, rfl⟩
  · exact (series_fromSnapshot order' h.1.wellFiled).symm ▸ h.1.wellFiled
  · exact congrArg sortAll (series_fromSnapshot order' h.1.wellFiled)

/-- The ingest of values with the property is legal. -/
theorem legal (hwal : ∀ r : WalRecord, r.AllValues p → wal.Faithful r) {c : Call}
    (hc : c.AllValues p) (faults : List Fault) {inner : Inner} {i : Content}
    (h : (refinement p order wal snap compacts).live inner i) :
    (refinement p order wal snap compacts).Legal (plan c inner) faults i := by
  obtain ⟨tenant, batch⟩ := c
  rw [plan, ingestSteps]
  split_ifs
  · exact ⟨Or.inl h, trivial⟩
  · have hvalues : (WalRecordOf.ingest tenant batch.metrics : WalRecord).AllValues p := hc
    refine ⟨Or.inl h, i.push (WalRecordOf.ingest tenant batch.metrics).metrics,
      ⟨⟨hwal _ hvalues, hvalues⟩, rfl⟩, ⟨?_, sortAll_sortAll _⟩, trivial⟩
    exact (h.1.applyIngest tenant hc).sortAll

/-- The records along a path may follow any other content. -/
theorem path_push {i j : Content} {rs : List WalRecord}
    (h : Path (refinement p order wal snap compacts).next i rs j) (i' : Content) :
    Path (refinement p order wal snap compacts).next i'
      rs (i'.push (rs.flatMap WalRecordOf.metrics)) := by
  induction h with
  | nil =>
    rw [show i'.push ([].flatMap WalRecordOf.metrics) = i' by simp [Content.push]]
    exact .nil i'
  | @snoc _ _ rs r _ hr ih =>
    refine .snoc ih ⟨hr.1, ?_⟩
    simp [Content.push]

/-- The content that files hold, reopened. -/
theorem reopens {ledger : List WalRecord} {f : Files} {i : Content}
    (h : (refinement p order wal snap compacts).Holds ledger f i) :
    ∃ s, (fileBackedMetricStore order wal snap).openWithFsyncBackend f = .ok s ∧
      s.state.series = sortAll i.series ∧ s.state.tenantCounts = rebuilt order s.state.series := by
  obtain ⟨d, hd, hopen⟩ := h.settles
  exact ⟨_, hopen, hd.2, rfl⟩

end Refinement

end Kaleidoscope.Pulse
