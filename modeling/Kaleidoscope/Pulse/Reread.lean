import Kaleidoscope.Pulse.Rows
import Kaleidoscope.Wal.Opened

/-!
# Points that are read from files

A point that was logged stays in its series through every restart. Its value becomes what the reader
of the JSON makes of it, once for the log and once for every snapshot it goes through.
-/

namespace Kaleidoscope.Pulse

open Aegis HashMap StableSort Utf8

/-- What becomes of a double that is written and read so many times. -/
def reread (read : NumberReader) : ℕ → UInt64 → Except String UInt64
  | 0, bits => .ok bits
  | n + 1, bits => (reread read n bits).bind read

/-- A point with another finite value. -/
def withBits (p : MetricPoint) (bits : UInt64) : MetricPoint := { p with value := .finite bits }

/-- A series has a point whose double was read so many times. -/
def HasPoint (read : NumberReader) (k : Key) (p : MetricPoint) (bits : UInt64) (n : ℕ)
    (inner : Inner) : Prop :=
  Keyed inner.series ∧ ∃ d, reread read n bits = .ok d ∧ withBits p d ∈ pointsOf inner.series k

/-- A reader that gives a double back gives it back every time. -/
theorem reread_of_eq {read : NumberReader} {bits : UInt64} (h : read bits = .ok bits) (n : ℕ) :
    reread read n bits = .ok bits := by
  induction n with
  | zero => rfl
  | succ n ih =>
    rw [reread, ih]
    exact h

section Points

variable {p : MetricPoint} {k : Key}

/-- A point stays when others are ingested. -/
theorem mem_pointsOf_applyIngest {inner : Inner} (h : p ∈ pointsOf inner.series k)
    (tenant : TenantId) (metrics : List Metric) (enforceCap : Bool) :
    p ∈ pointsOf (applyIngest inner tenant metrics enforceCap).1.series k := by
  induction metrics using List.reverseRecOn with
  | nil => exact h
  | append_singleton metrics metric ih =>
    rw [applyIngest_snoc, applyMetric]
    split_ifs
    · exact ih
    · change p ∈ pointsOf (file _ (tenant, metric).1 (tenant, metric).2) k
      rw [pointsOf_file]
      exact List.mem_append_left _ ih

theorem mem_pointsOf_sortAll {series : Series} :
    p ∈ pointsOf (sortAll series) k ↔ p ∈ pointsOf series k := (pointsOf_sortAll series k).mem_iff

theorem mem_pointsOf_commitIngest {inner : Inner} (h : p ∈ pointsOf inner.series k)
    (tenant : TenantId) (metrics : List Metric) :
    p ∈ pointsOf (commitIngest tenant metrics inner).series k :=
  mem_pointsOf_sortAll.mpr (mem_pointsOf_applyIngest h tenant metrics true)

/-- Replay files the points of every metric. -/
theorem mem_pointsOf_applyRecord (inner : Inner) {tenant : TenantId} {metrics : List Metric}
    {metric : Metric} (hmetric : metric ∈ metrics) (hp : p ∈ metric.points) :
    p ∈ pointsOf (applyRecord inner (.ingest tenant metrics)).series
      (tenant, SeriesKey.of metric) := by
  rw [series_applyRecord, WalRecordOf.metrics, pointsOf_fileAll_ofSeries]
  refine List.mem_append_right _ (List.mem_flatMap.mpr ⟨metric, ?_, hp⟩)
  exact List.mem_filter.mpr ⟨hmetric, by simp⟩

/-- A restored series has the points of its bucket. -/
theorem mem_pointsOf_fromSnapshot {snapshot : Snapshot} {b : SeriesBucket}
    (hnodup : (snapshot.series.map fun b => (b.tenant, SeriesKey.of b.metric)).Nodup)
    (hb : b ∈ snapshot.series) (hp : p ∈ b.points) :
    p ∈ pointsOf (fromSnapshot snapshot).series (b.tenant, SeriesKey.of b.metric) := by
  have hlookup : (fromSnapshot snapshot).series.lookup (b.tenant, SeriesKey.of b.metric) =
      some ⟨b.metric, b.points⟩ := by
    rw [series_fromSnapshot_eq]
    refine lookup_insertAll_of_mem _ ?_ (List.mem_map.mpr ⟨b, hb, rfl⟩)
    rw [List.map_map]
    exact hnodup
  rw [pointsOf, hlookup]
  exact hp

end Points

/-- An acknowledged ingest is in the log and in memory. -/
theorem acknowledged_ingest {order : IterOrder Key SeriesEntry} {wal : LineSerde WalRecord}
    {snap : FileSerde Snapshot} {store : Store Inner} {tenant : TenantId} {metrics : List Metric}
    {fault : Fault} {receipt : IngestReceipt} (hne : metrics ≠ [])
    (h : (ingest order wal snap store tenant ⟨metrics⟩ fault).1 = .ok receipt) :
    ∃ line, wal.toString (.ingest tenant metrics) = .ok line ∧
      (ingest order wal snap store tenant ⟨metrics⟩ fault).2 =
        ⟨commitIngest tenant metrics store.state, store.snapshot, store.tmp,
          ⟨store.wal.drop ++ wireLine line, []⟩⟩ := by
  have hempty : ¬ (MetricBatch.isEmpty ⟨metrics⟩ = true) := by
    simpa [MetricBatch.isEmpty] using hne
  let P := fileBackedMetricStore order wal snap
  have happended := (appendWal_spec P.walSerde P.persistenceFailed store.wal
    (.ingest tenant metrics) fault).2
  simp only [ingest, plan, ingestSteps, if_neg hempty, Pillar.call, Pillar.runSteps,
    List.headD_cons] at h ⊢
  rcases happend : appendWal P.walSerde P.persistenceFailed store.wal (.ingest tenant metrics)
    fault with ⟨e | _, writer⟩ <;> rw [happend] at happended h
  · cases h
  · obtain ⟨line, hline, rfl⟩ := happended rfl
    exact ⟨line, hline, rfl⟩

/-- An ingest without a fault is acknowledged if its batch serialises. -/
theorem exists_receipt (order : IterOrder Key SeriesEntry) {wal : LineSerde WalRecord}
    (snap : FileSerde Snapshot) (store : Store Inner) (hbuf : store.wal.buf = [])
    {tenant : TenantId} {metrics : List Metric} (hne : metrics ≠ []) {line : Text}
    (hline : wal.toString (.ingest tenant metrics) = .ok line) :
    ∃ receipt, (ingest order wal snap store tenant ⟨metrics⟩ .none).1 = .ok receipt := by
  have hempty : ¬ (MetricBatch.isEmpty ⟨metrics⟩ = true) := by
    simpa [MetricBatch.isEmpty] using hne
  let P := fileBackedMetricStore order wal snap
  have hwal : store.wal = ⟨store.wal.file, []⟩ := by rw [← hbuf]
  have happend : appendWal P.walSerde P.persistenceFailed store.wal (.ingest tenant metrics) .none =
      (.ok (), ⟨store.wal.file ++ wireLine line, []⟩) := by
    rw [hwal]
    exact appendWal_new P.walSerde P.persistenceFailed store.wal.file hline .none
  simp only [ingest, plan, ingestSteps, if_neg hempty, Pillar.call, Pillar.runSteps,
    List.headD_cons]
  rw [happend]
  exact ⟨_, rfl⟩

/-- A log of one line is replayed to its record. -/
theorem open_line (order : IterOrder Key SeriesEntry) {wal : LineSerde WalRecord}
    (snap : FileSerde Snapshot) {r : WalRecord} {line : Text} (h : wal.Writes r line) :
    (fileBackedMetricStore order wal snap).openWithFsyncBackend ⟨none, none, some (wireLine line)⟩ =
      .ok ⟨(fileBackedMetricStore order wal snap).settle (applyRecord .empty r), none, none,
        BufWriter.new (wireLine line)⟩ := by
  let P := fileBackedMetricStore order wal snap
  have hencodes : Encodes P.walSerde [r] (wireLine line) := ⟨[line], .cons h .nil, by simp⟩
  have hreplay : P.replay (wireLine line) .empty = .ok (applyRecord .empty r) := by
    rw [P.replay_eq_foldlM (.terminated hencodes)]
    rfl
  rw [Pillar.openWithFsyncBackend_eq]
  change Except.map _ (P.replay (wireLine line) .empty) = _
  rw [hreplay]
  rfl

section Reading

variable {read : NumberReader} {p : MetricPoint} {bits : UInt64}

/-- What is read where a point was written. -/
theorem mapM_withBits {q : MetricPoint}
    (h : ((withBits p bits).map F64.toJson).mapM (JsonNumber.toF64 read) = .ok q) :
    ∃ d, read bits = .ok d ∧ q = withBits p d := by
  rw [MetricPointOf.mapM, MetricPointOf.map, withBits, F64.toJson, JsonNumber.toF64] at h
  cases hread : read bits with
  | error e =>
    rw [hread] at h
    cases h
  | ok d =>
    rw [hread] at h
    cases h
    exact ⟨d, rfl, rfl⟩

/-- Among points that are read it is what its value became. -/
theorem exists_mem_of_points {points points' : List MetricPoint} (hp : withBits p bits ∈ points)
    (h : (points.map (MetricPointOf.map F64.toJson)).mapM
      (MetricPointOf.mapM (JsonNumber.toF64 read)) = .ok points') :
    ∃ d, read bits = .ok d ∧ withBits p d ∈ points' := by
  obtain ⟨q, hq, hread⟩ := Traverse.exists_mem_right (Traverse.forall₂_of_mapM_ok h)
    (List.mem_map_of_mem hp)
  obtain ⟨d, hd, rfl⟩ := mapM_withBits hread
  exact ⟨d, hd, hq⟩

/-- A metric that is read keeps its series. -/
theorem of_mapM_metric {metric metric' : Metric}
    (h : (metric.map F64.toJson).mapM (JsonNumber.toF64 read) = .ok metric') :
    SeriesKey.of metric' = SeriesKey.of metric ∧
      (metric.points.map (MetricPointOf.map F64.toJson)).mapM
        (MetricPointOf.mapM (JsonNumber.toF64 read)) = .ok metric'.points := by
  rw [MetricOf.mapM, MetricOf.map] at h
  cases hpoints : (metric.points.map (MetricPointOf.map F64.toJson)).mapM
      (MetricPointOf.mapM (JsonNumber.toF64 read)) with
  | error e =>
    rw [hpoints] at h
    cases h
  | ok points =>
    rw [hpoints] at h
    cases h
    exact ⟨rfl, rfl⟩

/-- A log record that is read has the point in its series. -/
theorem exists_mem_of_record {tenant : TenantId} {metrics : List Metric} {metric : Metric}
    (hmetric : metric ∈ metrics) (hp : withBits p bits ∈ metric.points) {record : WalRecord}
    (h : ((WalRecordOf.ingest tenant metrics : WalRecord).map F64.toJson).mapM
      (JsonNumber.toF64 read) = .ok record) :
    ∃ metrics' metric' d, record = .ingest tenant metrics' ∧ metric' ∈ metrics' ∧
      SeriesKey.of metric' = SeriesKey.of metric ∧ read bits = .ok d ∧
        withBits p d ∈ metric'.points := by
  rw [WalRecordOf.map, WalRecordOf.mapM] at h
  cases hmetrics : (metrics.map (MetricOf.map F64.toJson)).mapM
      (MetricOf.mapM (JsonNumber.toF64 read)) with
  | error e =>
    rw [hmetrics] at h
    cases h
  | ok metrics' =>
    rw [hmetrics] at h
    cases h
    obtain ⟨metric', hmem, hread⟩ := Traverse.exists_mem_right
      (Traverse.forall₂_of_mapM_ok hmetrics) (List.mem_map_of_mem hmetric)
    obtain ⟨hkey, hpoints⟩ := of_mapM_metric hread
    obtain ⟨d, hd, hmemd⟩ := exists_mem_of_points hp hpoints
    exact ⟨metrics', metric', d, rfl, hmem, hkey, hd, hmemd⟩

/-- A bucket that is read keeps its series. -/
theorem of_mapM_bucket {b b' : SeriesBucket}
    (h : (b.map F64.toJson).mapM (JsonNumber.toF64 read) = .ok b') :
    (b'.tenant, SeriesKey.of b'.metric) = (b.tenant, SeriesKey.of b.metric) ∧
      (b.points.map (MetricPointOf.map F64.toJson)).mapM
        (MetricPointOf.mapM (JsonNumber.toF64 read)) = .ok b'.points := by
  rw [SeriesBucketOf.mapM, SeriesBucketOf.map] at h
  obtain ⟨metric', hmetric, h⟩ := Traverse.bind_eq_ok_iff.mp h
  obtain ⟨points', hpoints, h⟩ := Traverse.bind_eq_ok_iff.mp h
  cases h
  exact ⟨congrArg _ (of_mapM_metric hmetric).1, hpoints⟩

/-- A snapshot that is read keeps all its series. -/
theorem forall₂_of_mapM_snapshot {snapshot snapshot' : Snapshot}
    (h : (snapshot.map F64.toJson).mapM (JsonNumber.toF64 read) = .ok snapshot') :
    List.Forall₂ (fun b b' => (SeriesBucketOf.map F64.toJson b).mapM (JsonNumber.toF64 read) =
      .ok b') snapshot.series snapshot'.series := by
  rw [SnapshotOf.mapM, SnapshotOf.map] at h
  cases hseries : (snapshot.series.map (SeriesBucketOf.map F64.toJson)).mapM
      (SeriesBucketOf.mapM (JsonNumber.toF64 read)) with
  | error e =>
    rw [hseries] at h
    cases h
  | ok series' =>
    rw [hseries] at h
    cases h
    exact List.forall₂_map_left_iff.mp (Traverse.forall₂_of_mapM_ok hseries)

end Reading

section Lasting

variable {order : IterOrder Key SeriesEntry} {read : NumberReader}
  {text : LineSerde (WalRecordOf JsonNumber)} {snapText : FileSerde (SnapshotOf JsonNumber)}
  {k : Key} {p : MetricPoint} {bits : UInt64} {n : ℕ}

theorem HasPoint.sortAll {inner : Inner} (h : HasPoint read k p bits n inner)
    (counts : HashMap TenantId Nat) :
    HasPoint read k p bits n ⟨Pulse.sortAll inner.series, counts⟩ := by
  obtain ⟨hkeyed, d, hd, hp⟩ := h
  exact ⟨hkeyed.sortAll, d, hd, mem_pointsOf_sortAll.mpr hp⟩

theorem HasPoint.applyIngest {inner : Inner} (h : HasPoint read k p bits n inner)
    (tenant : TenantId) (metrics : List Metric) (enforceCap : Bool) :
    HasPoint read k p bits n (Pulse.applyIngest inner tenant metrics enforceCap).1 := by
  obtain ⟨hkeyed, d, hd, hp⟩ := h
  exact ⟨hkeyed.applyIngest tenant metrics enforceCap, d, hd,
    mem_pointsOf_applyIngest hp tenant metrics enforceCap⟩

/-- A snapshot that is written, read and restored has the point, read once more. -/
theorem HasPoint.restored (hsnapText : ∀ doc, snapText.Faithful doc) {inner : Inner}
    (h : HasPoint read k p bits n inner) {bytes : Bytes}
    (hbytes : (snapSerde read snapText).toWriter (toSnapshot order inner) = .ok bytes)
    {snapshot : Snapshot} (hread : (snapSerde read snapText).fromReader bytes = .ok snapshot) :
    HasPoint read k p bits (n + 1) (fromSnapshot snapshot) := by
  obtain ⟨hkeyed, d, hd, hp⟩ := h
  rw [snapSerde_fromReader, hsnapText _ bytes hbytes] at hread
  have hall := forall₂_of_mapM_snapshot hread
  have hkeys : (snapshot.series.map fun b => (b.tenant, SeriesKey.of b.metric)) =
      (order.entries inner.series).map Prod.fst := by
    have hsame : List.Forall₂ (fun b b' : SeriesBucket =>
        (b.tenant, SeriesKey.of b.metric) = (b'.tenant, SeriesKey.of b'.metric))
        (toSnapshot order inner).series snapshot.series :=
      hall.imp fun _ _ hb => (of_mapM_bucket hb).1.symm
    have hmap : ((toSnapshot order inner).series.map fun b => (b.tenant, SeriesKey.of b.metric)) =
        snapshot.series.map fun b => (b.tenant, SeriesKey.of b.metric) :=
      List.forall₂_eq_eq_eq ▸ List.forall₂_map_left_iff.mpr (List.forall₂_map_right_iff.mpr hsame)
    rw [← hmap, toSnapshot, List.map_map]
    refine List.map_congr_left fun e he => ?_
    exact Prod.ext rfl (hkeyed e.1 e.2 ((order.mem_iff _ _ _).mp he)).symm
  rw [pointsOf] at hp
  cases hentry : inner.series.lookup k with
  | none =>
    rw [hentry] at hp
    cases hp
  | some entry =>
    rw [hentry] at hp
    have hbucket : (⟨k.1, entry.metric, entry.points⟩ : SeriesBucket) ∈
        (toSnapshot order inner).series :=
      List.mem_map.mpr ⟨(k, entry), (order.mem_iff _ _ _).mpr hentry, rfl⟩
    obtain ⟨b', hb', hreadb⟩ := Traverse.exists_mem_right hall hbucket
    obtain ⟨hkey, hpoints⟩ := of_mapM_bucket hreadb
    obtain ⟨d', hd', hp'⟩ := exists_mem_of_points hp hpoints
    refine ⟨keyed_fromSnapshot snapshot, d', by rw [reread, hd]; exact hd', ?_⟩
    have hk : k = (b'.tenant, SeriesKey.of b'.metric) := by
      rw [hkey]
      exact Prod.ext rfl (hkeyed k entry hentry)
    rw [hk]
    exact mem_pointsOf_fromSnapshot (hkeys ▸ order.nodup inner.series) hb' hp'

/-- A point of a metric that was logged lasts. -/
theorem lasting_of_logged (order : IterOrder Key SeriesEntry) (htext : ∀ doc, text.Faithful doc)
    (hsnapText : ∀ doc, snapText.Faithful doc) {tenant : TenantId} {metrics : List Metric}
    {metric : Metric} (hmetric : metric ∈ metrics) (hp : withBits p bits ∈ metric.points)
    {line : Text} (hline : (walSerde read text).toString (.ingest tenant metrics) = .ok line) :
    (fileBackedMetricStore order (walSerde read text) (snapSerde read snapText)).Lasting plan line
      (fun inner => Keyed inner.series)
      (HasPoint read (tenant, SeriesKey.of metric) p bits) where
  empty := Keyed.empty
  usual snapshot s hs := by
    cases hs
    exact keyed_fromSnapshot snapshot
  kept s record s' hs hs' := by
    cases hs'
    cases record
    exact hs.applyIngest _ _ _
  replayed s record s' hs hrecord hs' := by
    cases hs'
    change (walSerde read text).fromStr line = .ok record at hrecord
    rw [walSerde_fromStr, (htext _).decodes line hline] at hrecord
    obtain ⟨metrics', metric', d, rfl, hmem, hkey, hd, hpoint⟩ :=
      exists_mem_of_record hmetric hp hrecord
    refine ⟨hs.applyIngest _ _ _, d, hd, ?_⟩
    rw [← hkey]
    exact mem_pointsOf_applyRecord s hmem hpoint
  applied n s record s' hs hs' := by
    cases hs'
    cases record
    exact hs.applyIngest _ _ _
  settled n s hs := hs.sortAll _
  prepared n c s hs := by
    cases c
    exact hs
  committed n c s step hstep s' hs' := by
    obtain ⟨tenant', batch⟩ := c
    simp only [plan, ingestSteps] at hstep
    split_ifs at hstep
    · cases hstep
    · obtain rfl := List.mem_singleton.mp hstep
      exact (hs'.applyIngest tenant' batch.metrics true).sortAll _
  restored n s order' bytes snapshot s' hs hbytes hread hs' := by
    cases hs'
    exact hs.restored hsnapText hbytes hread

end Lasting

end Kaleidoscope.Pulse
