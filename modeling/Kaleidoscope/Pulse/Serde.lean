import Kaleidoscope.Aegis.Validator
import Kaleidoscope.Library.Traverse
import Kaleidoscope.Pulse.Metric
import Kaleidoscope.Wal.Serde

/-!
# The JSON of metrics

A record is written as the JSON document in which every value that is not finite is
`null`, and a document with a `null` in the place of a value does not decode. The numbers of a
document are doubles by their shortest decimals; a reader makes doubles of these again.
-/

namespace Kaleidoscope.Pulse

open Aegis Utf8

/-- One line of the log. -/
inductive WalRecordOf (V : Type) where
  | ingest (tenant : TenantId) (metrics : List (MetricOf V))
  deriving DecidableEq

/-- One series in a snapshot: its metric, without points, and its points. -/
structure SeriesBucketOf (V : Type) where
  tenant : TenantId
  metric : MetricOf V
  points : List (MetricPointOf V)
  deriving DecidableEq

/-- The snapshot file. -/
structure SnapshotOf (V : Type) where
  series : List (SeriesBucketOf V)
  deriving DecidableEq

abbrev WalRecord := WalRecordOf F64

abbrev SeriesBucket := SeriesBucketOf F64

abbrev Snapshot := SnapshotOf F64

section Values

variable {V W : Type}

/-- Replace the values of a log record. -/
def WalRecordOf.map (f : V → W) : WalRecordOf V → WalRecordOf W
  | .ingest tenant metrics => .ingest tenant (metrics.map (MetricOf.map f))

/-- Replace the values of a log record, where that may fail. -/
def WalRecordOf.mapM (f : V → Except String W) : WalRecordOf V → Except String (WalRecordOf W)
  | .ingest tenant metrics => (metrics.mapM (MetricOf.mapM f)).map (.ingest tenant)

/-- Replace the values of a series. -/
def SeriesBucketOf.map (f : V → W) (b : SeriesBucketOf V) : SeriesBucketOf W :=
  ⟨b.tenant, b.metric.map f, b.points.map (MetricPointOf.map f)⟩

/-- Replace the values of a series, where that may fail. -/
def SeriesBucketOf.mapM (f : V → Except String W) (b : SeriesBucketOf V) :
    Except String (SeriesBucketOf W) := do
  let metric ← b.metric.mapM f
  let points ← b.points.mapM (MetricPointOf.mapM f)
  return ⟨b.tenant, metric, points⟩

/-- Replace the values of a snapshot. -/
def SnapshotOf.map (f : V → W) (snap : SnapshotOf V) : SnapshotOf W :=
  ⟨snap.series.map (SeriesBucketOf.map f)⟩

/-- Replace the values of a snapshot, where that may fail. -/
def SnapshotOf.mapM (f : V → Except String W) (snap : SnapshotOf V) :
    Except String (SnapshotOf W) :=
  (snap.series.mapM (SeriesBucketOf.mapM f)).map .mk

end Values

section Codecs

variable (read : NumberReader)

/-- Log records as JSON text, over the text of their documents. -/
def walSerde (text : LineSerde (WalRecordOf JsonNumber)) : LineSerde WalRecord where
  toString r := text.toString (r.map F64.toJson)
  fromStr t := (text.fromStr t).bind fun doc => doc.mapM (JsonNumber.toF64 read)

/-- Snapshots as JSON bytes, over the bytes of their documents. -/
def snapSerde (text : FileSerde (SnapshotOf JsonNumber)) : FileSerde Snapshot where
  toWriter snap := text.toWriter (snap.map F64.toJson)
  fromReader bytes := (text.fromReader bytes).bind fun doc => doc.mapM (JsonNumber.toF64 read)

theorem walSerde_toString (text : LineSerde (WalRecordOf JsonNumber)) (r : WalRecord) :
    (walSerde read text).toString r = text.toString (r.map F64.toJson) := rfl

theorem walSerde_fromStr (text : LineSerde (WalRecordOf JsonNumber)) (t : Text) :
    (walSerde read text).fromStr t =
      (text.fromStr t).bind fun doc => doc.mapM (JsonNumber.toF64 read) := rfl

theorem snapSerde_fromReader (text : FileSerde (SnapshotOf JsonNumber)) (bytes : Bytes) :
    (snapSerde read text).fromReader bytes =
      (text.fromReader bytes).bind fun doc => doc.mapM (JsonNumber.toF64 read) := rfl

end Codecs

/-- Every value in a log record has a property. -/
def WalRecordOf.AllValues (p : F64 → Prop) : WalRecord → Prop
  | .ingest _ metrics => ∀ m ∈ metrics, Pulse.AllValues p m.points

/-- Every value in a snapshot has a property. -/
def SnapshotOf.AllValues (p : F64 → Prop) (snap : Snapshot) : Prop :=
  ∀ b ∈ snap.series, Pulse.AllValues p b.metric.points ∧ Pulse.AllValues p b.points

theorem WalRecordOf.AllValues.mono {p q : F64 → Prop} (hpq : ∀ v, p v → q v) {r : WalRecord}
    (h : r.AllValues p) : r.AllValues q := by
  cases r
  exact fun m hm point hpoint => hpq _ (h m hm point hpoint)

theorem SnapshotOf.AllValues.mono {p q : F64 → Prop} (hpq : ∀ v, p v → q v) {snap : Snapshot}
    (h : snap.AllValues p) : snap.AllValues q := fun b hb =>
  ⟨fun point hpoint => hpq _ ((h b hb).1 point hpoint),
    fun point hpoint => hpq _ ((h b hb).2 point hpoint)⟩

private theorem mapM_map_error {α β : Type} {enc : α → β} {dec : β → Except String α}
    {l : List α} {a : α} (ha : a ∈ l) {e : String} (h : dec (enc a) = .error e) :
    ∃ e, (l.map enc).mapM dec = .error e := by
  induction l with
  | nil => exact absurd ha List.not_mem_nil
  | cons b l ih =>
    rw [List.map_cons, List.mapM_cons]
    cases hb : dec (enc b) with
    | error e' => exact ⟨e', rfl⟩
    | ok b' =>
      rcases List.mem_cons.mp ha with rfl | ha
      · rw [h] at hb
        cases hb
      · obtain ⟨e', he'⟩ := ih ha
        refine ⟨e', ?_⟩
        change ((l.map enc).mapM dec).bind _ = _
        rw [he']
        rfl

section Roundtrip

variable {read : NumberReader}

theorem point_roundtrip {p : MetricPoint} (h : p.value.ReadsBack read) :
    (p.map F64.toJson).mapM (JsonNumber.toF64 read) = .ok p := by
  rw [MetricPointOf.mapM, MetricPointOf.map, h.toF64_toJson]
  rfl

theorem points_roundtrip {points : List MetricPoint} (h : AllValues (F64.ReadsBack read) points) :
    (points.map (MetricPointOf.map F64.toJson)).mapM
      (MetricPointOf.mapM (JsonNumber.toF64 read)) = .ok points :=
  Traverse.mapM_map_self fun p hp => point_roundtrip (h p hp)

theorem metric_roundtrip {m : Metric} (h : AllValues (F64.ReadsBack read) m.points) :
    (m.map F64.toJson).mapM (JsonNumber.toF64 read) = .ok m := by
  rw [MetricOf.mapM, MetricOf.map, points_roundtrip h]
  rfl

/-- A log record whose values the reader gives back decodes back from its document. -/
theorem WalRecordOf.AllValues.roundtrip {r : WalRecord} (h : r.AllValues (F64.ReadsBack read)) :
    (r.map F64.toJson).mapM (JsonNumber.toF64 read) = .ok r := by
  obtain ⟨tenant, metrics⟩ := r
  rw [WalRecordOf.map, WalRecordOf.mapM,
    Traverse.mapM_map_self fun m hm => metric_roundtrip (h m hm)]
  rfl

theorem bucket_roundtrip {b : SeriesBucket} (hm : AllValues (F64.ReadsBack read) b.metric.points)
    (hp : AllValues (F64.ReadsBack read) b.points) :
    (b.map F64.toJson).mapM (JsonNumber.toF64 read) = .ok b := by
  rw [SeriesBucketOf.mapM, SeriesBucketOf.map, metric_roundtrip hm, points_roundtrip hp]
  rfl

/-- So does a snapshot. -/
theorem SnapshotOf.AllValues.roundtrip {snap : Snapshot}
    (h : snap.AllValues (F64.ReadsBack read)) :
    (snap.map F64.toJson).mapM (JsonNumber.toF64 read) = .ok snap := by
  rw [SnapshotOf.mapM, SnapshotOf.map,
    Traverse.mapM_map_self fun b hb => bucket_roundtrip (h b hb).1 (h b hb).2]
  rfl

end Roundtrip

section NotFinite

variable (read : NumberReader)

/-- The document of points that are not all finite does not decode, whatever reads its numbers. -/
theorem points_error {points : List MetricPoint} (h : ¬ AllValues F64.IsFinite points) :
    ∃ e, (points.map (MetricPointOf.map F64.toJson)).mapM
      (MetricPointOf.mapM (JsonNumber.toF64 read)) = .error e := by
  simp only [AllValues, not_forall] at h
  obtain ⟨p, hp, hv⟩ := h
  have hpoint : (p.map F64.toJson).mapM (JsonNumber.toF64 read) =
      .error "invalid type: null, expected f64" := by
    rw [MetricPointOf.mapM, MetricPointOf.map, F64.toF64_toJson_of_not read hv]
    rfl
  exact mapM_map_error hp hpoint

theorem metric_error {m : Metric} (h : ¬ AllValues F64.IsFinite m.points) :
    ∃ e, (m.map F64.toJson).mapM (JsonNumber.toF64 read) = .error e := by
  obtain ⟨e, he⟩ := points_error read h
  exact ⟨e, by rw [MetricOf.mapM, MetricOf.map, he]; rfl⟩

/-- Neither does that of a log record. -/
theorem WalRecordOf.error_of_not_finite {r : WalRecord} (h : ¬ r.AllValues F64.IsFinite) :
    ∃ e, (r.map F64.toJson).mapM (JsonNumber.toF64 read) = .error e := by
  obtain ⟨tenant, metrics⟩ := r
  simp only [WalRecordOf.AllValues, not_forall] at h
  obtain ⟨m, hm, hv⟩ := h
  obtain ⟨e, he⟩ := metric_error read hv
  obtain ⟨e', he'⟩ := mapM_map_error hm he
  exact ⟨e', by rw [WalRecordOf.map, WalRecordOf.mapM, he']; rfl⟩

/-- Nor that of a snapshot. -/
theorem SnapshotOf.error_of_not_finite {snap : Snapshot} (h : ¬ snap.AllValues F64.IsFinite) :
    ∃ e, (snap.map F64.toJson).mapM (JsonNumber.toF64 read) = .error e := by
  simp only [SnapshotOf.AllValues, not_forall] at h
  obtain ⟨b, hb, hv⟩ := h
  have hbucket : ∃ e, (b.map F64.toJson).mapM (JsonNumber.toF64 read) = .error e := by
    rw [SeriesBucketOf.mapM, SeriesBucketOf.map]
    cases hmetric : (b.metric.map F64.toJson).mapM (JsonNumber.toF64 read) with
    | error e => exact ⟨e, rfl⟩
    | ok metric =>
      have hfinite : Pulse.AllValues F64.IsFinite b.metric.points := by
        by_contra hm
        obtain ⟨e, he⟩ := metric_error read hm
        cases hmetric.symm.trans he
      obtain ⟨e, he⟩ := points_error read fun hp => hv ⟨hfinite, hp⟩
      exact ⟨e, by rw [he]; rfl⟩
  obtain ⟨e, he⟩ := hbucket
  obtain ⟨e', he'⟩ := mapM_map_error hb he
  exact ⟨e', by rw [SnapshotOf.map, SnapshotOf.mapM, he']; rfl⟩

end NotFinite

section Faithful

variable {read : NumberReader} {text : LineSerde (WalRecordOf JsonNumber)} {r : WalRecord}

/-- The stores can rely on the JSON of metrics whose values the reader gives back. -/
theorem walSerde_faithful (htext : ∀ doc, text.Faithful doc)
    (h : r.AllValues (F64.ReadsBack read)) : (walSerde read text).Faithful r where
  decodes t ht := by
    rw [walSerde_fromStr, (htext _).decodes t ht]
    exact h.roundtrip
  oneLine t ht := (htext _).oneLine t ht
  prefixFails t ht q hq hne := by
    obtain ⟨e, he⟩ := (htext _).prefixFails t ht q hq hne
    exact ⟨e, by rw [walSerde_fromStr, he]; rfl⟩

/-- The line of metrics that are not all finite does not decode. -/
theorem walSerde_error (htext : ∀ doc, text.Faithful doc) (h : ¬ r.AllValues F64.IsFinite)
    {t : Text} (ht : (walSerde read text).toString r = .ok t) :
    ∃ e, (walSerde read text).fromStr t = .error e := by
  obtain ⟨e, he⟩ := WalRecordOf.error_of_not_finite read h
  exact ⟨e, by rw [walSerde_fromStr, (htext _).decodes t ht]; exact he⟩

theorem snapSerde_faithful {text : FileSerde (SnapshotOf JsonNumber)}
    (htext : ∀ doc, text.Faithful doc) {snap : Snapshot}
    (h : snap.AllValues (F64.ReadsBack read)) : (snapSerde read text).Faithful snap := by
  intro bytes hbytes
  rw [snapSerde_fromReader, htext _ bytes hbytes]
  exact h.roundtrip

/-- The bytes of a snapshot that is not all finite do not decode. -/
theorem snapSerde_error {text : FileSerde (SnapshotOf JsonNumber)}
    (htext : ∀ doc, text.Faithful doc) {snap : Snapshot} (h : ¬ snap.AllValues F64.IsFinite)
    {bytes : Bytes} (hbytes : (snapSerde read text).toWriter snap = .ok bytes) :
    ∃ e, (snapSerde read text).fromReader bytes = .error e := by
  obtain ⟨e, he⟩ := SnapshotOf.error_of_not_finite read h
  exact ⟨e, by rw [snapSerde_fromReader, htext _ bytes hbytes]; exact he⟩

end Faithful

end Kaleidoscope.Pulse
