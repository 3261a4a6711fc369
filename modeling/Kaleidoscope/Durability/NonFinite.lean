import Kaleidoscope.Pulse.Recovery
import Kaleidoscope.Wal.Table
import Kaleidoscope.Wal.Written

/-!
# Values that are not finite

A value that is not finite is written as `null`, which no reader takes for a number. The
files of the metric store read back exactly when all that was written to them is finite.
-/

namespace Kaleidoscope.Pulse

open Aegis HashMap Utf8

/-- Every value in the last snapshot and in the records logged since is finite. -/
def FiniteWritten (written : Written Snapshot WalRecord) : Prop :=
  (∀ k, written.snapshot = some k → k.AllValues F64.IsFinite) ∧
    ∀ r ∈ written.log, r.AllValues F64.IsFinite

section ReadsBack

variable {order : IterOrder Key SeriesEntry} {text : LineSerde (WalRecordOf JsonNumber)}
  {snapText : FileSerde (SnapshotOf JsonNumber)}

/-- The metric store over the JSON of documents, with a reader that gives back every number. -/
abbrev metricStore (order : IterOrder Key SeriesEntry)
    (text : LineSerde (WalRecordOf JsonNumber)) (snapText : FileSerde (SnapshotOf JsonNumber)) :
    Pillar Inner WalRecord Snapshot MetricStoreError (IterOrder Key SeriesEntry) :=
  fileBackedMetricStore order (walSerde .ok text) (snapSerde .ok snapText)

/-- The lines of finite records are the log of these records. -/
theorem encodes_of_lines (htext : ∀ doc, text.Faithful doc) {rs : List WalRecord}
    {ts : List Text} (h : (metricStore order text snapText).Lines rs ts)
    (hfinite : ∀ r ∈ rs, r.AllValues F64.IsFinite) :
    Encodes (walSerde .ok text) rs (ts.flatMap wireLine) := by
  refine ⟨ts, ?_, rfl⟩
  induction h with
  | nil => exact .nil
  | cons ht _ ih =>
    obtain ⟨hr, hrs⟩ := List.forall_mem_cons.mp hfinite
    exact .cons ⟨walSerde_faithful htext (hr.mono fun _ hv => hv.readsBack), ht⟩ (ih hrs)

/-- Replay of decodable records cannot fail. -/
theorem foldlM_apply (inner : Inner) (rs : List WalRecord) :
    rs.foldlM (metricStore order text snapText).apply inner =
      .ok (rs.foldl applyRecord inner) := by
  induction rs generalizing inner with
  | nil => rfl
  | cons r rs ih => exact ih (applyRecord inner r)

/-- Each line is one nonempty line, whatever the values in its record. -/
theorem oneLine_of_lines (htext : ∀ doc, text.Faithful doc) {rs : List WalRecord}
    {ts : List Text} (h : (metricStore order text snapText).Lines rs ts) :
    ∀ t ∈ ts, t ≠ [] ∧ '\n' ∉ t := by
  induction h with
  | nil => simp
  | cons ht _ ih =>
    have hline := (htext _).oneLine _ ht
    exact List.forall_mem_cons.mpr ⟨⟨hline.1, hline.2.1⟩, ih⟩

/-- Among the lines of records that are not all finite, one does not decode. -/
theorem line_error (htext : ∀ doc, text.Faithful doc) {rs : List WalRecord} {ts : List Text}
    (h : (metricStore order text snapText).Lines rs ts) 
    (hbad : ¬ ∀ r ∈ rs, r.AllValues F64.IsFinite) :
    ∃ t ∈ ts, ∃ e, (walSerde .ok text).fromStr t = .error e := by
  induction h with
  | nil => exact absurd (by simp) hbad
  | @cons r t rs ts ht _ ih =>
    by_cases hr : r.AllValues F64.IsFinite
    · have hrest := ih fun hrs => hbad (List.forall_mem_cons.mpr ⟨hr, hrs⟩)
      obtain ⟨t', ht', herror⟩ := hrest
      exact ⟨t', List.mem_cons_of_mem _ ht', herror⟩
    · exact ⟨t, List.mem_cons_self, walSerde_error htext hr ht⟩

/-- Files that contain finite values only read back. -/
theorem readsBack_of_finite (htext : ∀ doc, text.Faithful doc)
    (hsnapText : ∀ doc, snapText.Faithful doc) {f : Files} {written : Written Snapshot WalRecord}
    (h : (metricStore order text snapText).Contains f written) (hfinite : FiniteWritten written) :
    (metricStore order text snapText).ReadsBack f written := by
  obtain ⟨ts, hlines, hwal⟩ := h.log
  have hlog : Encodes (walSerde .ok text) written.log (f.wal.getD []) := by
    rw [hwal]
    exact encodes_of_lines htext hlines hfinite.2
  have hsnapshot : ∀ k, written.snapshot = some k →
      ∃ bytes, f.snapshot = some bytes ∧ (snapSerde .ok snapText).fromReader bytes = .ok k := by
    intro k hk
    obtain ⟨bytes, hbytes, hfile⟩ := h.snapshot k hk
    exact ⟨bytes, hfile, snapSerde_faithful hsnapText
      ((hfinite.1 k hk).mono fun _ hv => hv.readsBack) bytes hbytes⟩
  have hload : ∃ s, (metricStore order text snapText).loadSnapshot f = .ok s := by
    rw [Pillar.loadSnapshot]
    cases hs : written.snapshot with
    | none =>
      rw [h.noSnapshot hs]
      exact ⟨_, rfl⟩
    | some k =>
      obtain ⟨bytes, hfile, hread⟩ := hsnapshot k hs
      simp only [hfile, show (metricStore order text snapText).snapSerde =
        snapSerde .ok snapText from rfl, hread]
      exact ⟨_, rfl⟩
  refine ⟨?_, hsnapshot, hlog.records_eq⟩
  obtain ⟨s, hs⟩ := hload
  have hreplay : (metricStore order text snapText).replay (f.wal.getD []) s =
      .ok (written.log.foldl applyRecord s) :=
    (Pillar.replay_eq_foldlM _ (.terminated hlog) s).trans (foldlM_apply s written.log)
  rw [Pillar.openWithFsyncBackend_eq, hs]
  simp only [Except.bind, hreplay]
  exact ⟨_, rfl⟩

/-- Files that contain any other value do not open. -/
theorem open_error_of_not_finite (htext : ∀ doc, text.Faithful doc)
    (hsnapText : ∀ doc, snapText.Faithful doc) {f : Files} {written : Written Snapshot WalRecord}
    (h : (metricStore order text snapText).Contains f written)
    (hbad : ¬ FiniteWritten written) :
    ∃ e, (metricStore order text snapText).openWithFsyncBackend f = .error e := by
  rw [Pillar.openWithFsyncBackend_eq]
  cases hload : (metricStore order text snapText).loadSnapshot f with
  | error e => exact ⟨e, rfl⟩
  | ok s =>
    have hsnap : ∀ k, written.snapshot = some k → k.AllValues F64.IsFinite := by
      intro k hk
      by_contra hk'
      obtain ⟨bytes, hbytes, hfile⟩ := h.snapshot k hk
      obtain ⟨e, he⟩ := snapSerde_error hsnapText hk' hbytes
      have he' : (metricStore order text snapText).snapSerde.fromReader bytes = .error e := he
      simp only [Pillar.loadSnapshot, hfile, he'] at hload
      cases hload
    obtain ⟨ts, hlines, hwal⟩ := h.log
    have hline := oneLine_of_lines htext hlines
    obtain ⟨t, ht, herror⟩ := line_error htext hlines fun hlog => hbad ⟨hsnap, hlog⟩
    obtain ⟨e, he⟩ := replayWalToleratingTornTail_error (walSerde .ok text)
      (metricStore order text snapText).apply
      (fun line error => .persistenceFailed s!"WAL parse error at line {line}: {error}")
      (fun t ht => (hline t ht).2) ⟨t, ht, (hline t ht).1, herror⟩ s
    have hreplay : (metricStore order text snapText).replay (f.wal.getD []) s = .error e := by
      rw [hwal]
      exact he
    simp only [Except.bind, hreplay]
    exact ⟨e, rfl⟩

end ReadsBack

/-- After every run of calls, snapshots, opens and closes, the files of the metric store open
and decode back to what was written exactly when every value that was written is finite. -/
theorem metricStore_readsBack_iff {order : IterOrder Key SeriesEntry}
    {text : LineSerde (WalRecordOf JsonNumber)} {snapText : FileSerde (SnapshotOf JsonNumber)}
    (htext : ∀ doc, text.Faithful doc) (hsnapText : ∀ doc, snapText.Faithful doc)
    {events : List (Event Call (IterOrder Key SeriesEntry))} (hevents : ∀ e ∈ events, e.Orderly)
    {f : Files} :
    let v := Run.run ((metricStore order text snapText).record plan) (Recorded.init _ _ _) events
    v.world.node.Leaves f →
      ((metricStore order text snapText).ReadsBack f v.written ↔ FiniteWritten v.written) := by
  intro v hf
  have h : (metricStore order text snapText).Contains f v.written :=
    (Pillar.contains_run hevents).of_leaves hf
  constructor
  · intro hreads
    by_contra hbad
    obtain ⟨s, hs⟩ := hreads.opens
    obtain ⟨e, he⟩ := open_error_of_not_finite htext hsnapText h hbad
    rw [hs] at he
    cases he
  · exact readsBack_of_finite htext hsnapText h

/-- A gauge with one observation. -/
def loadOf {V : Type} (value : V) : MetricOf V where
  name := ⟨"load"⟩
  description := ""
  unit := "1"
  kind := .gauge
  points := [⟨1, 0, .empty, value⟩]
  resourceAttributes := .empty

/-- The JSON of a log line with that gauge, for the observed value `1.0` and for one that is
not finite. -/
def loadLines : LineTable (WalRecordOf JsonNumber) where
  rows :=
    [(.ingest ⟨"acme"⟩ [loadOf (.number 0x3FF0000000000000)],
      chars "\x7b\"op\":\"ingest\",\"tenant\":\"acme\",\"metrics\":[\x7b\"name\":\"load\"," rfl ++
        chars "\"description\":\"\",\"unit\":\"1\",\"kind\":\"Gauge\",\"points\":[" rfl ++
        chars "\x7b\"time_unix_nano\":1,\"start_time_unix_nano\":0," rfl ++
        chars "\"attributes\":\x7b\x7d,\"value\":1.0\x7d]," rfl ++
        chars "\"resource_attributes\":\x7b\x7d\x7d]\x7d" rfl),
      (.ingest ⟨"acme"⟩ [loadOf .null],
      chars "\x7b\"op\":\"ingest\",\"tenant\":\"acme\",\"metrics\":[\x7b\"name\":\"load\"," rfl ++
        chars "\"description\":\"\",\"unit\":\"1\",\"kind\":\"Gauge\",\"points\":[" rfl ++
        chars "\x7b\"time_unix_nano\":1,\"start_time_unix_nano\":0," rfl ++
        chars "\"attributes\":\x7b\x7d,\"value\":null\x7d]," rfl ++
        chars "\"resource_attributes\":\x7b\x7d\x7d]\x7d" rfl)]
  ascii := by decide +kernel
  oneLine := by decide +kernel
  prefixFree := by decide +kernel

/-- A metric store for that gauge. -/
noncomputable def loadStore :
    Pillar Inner WalRecord Snapshot MetricStoreError (IterOrder Key SeriesEntry) :=
  metricStore (.unspecified _ _) loadLines.serde (.single ⟨[]⟩ [])

/-- Ingest of the gauge. -/
def ingestLoad (value : F64) : Call := .ingest ⟨"acme"⟩ ⟨[loadOf value]⟩

/-- Where an ingest of the gauge into an empty store, and then a clean close, lead. -/
noncomputable def loadClosed (value : F64) : Recorded Inner WalRecord Snapshot :=
  Run.run (loadStore.record plan) (Recorded.init _ _ _)
    [.openStore, .call (ingestLoad value) [], .close]

/-- The files of the closed store. -/
def loadFiles (doc : JsonNumber) : Files where
  snapshot := none
  tmp := none
  wal := some (((loadLines.rows.filter fun e => e.1 = .ingest ⟨"acme"⟩ [loadOf doc]).map
    Prod.snd).flatMap wireLine)

set_option maxRecDepth 4000 in
/-- A finite value reads back. -/
theorem loadStore_readsBack :
    loadStore.ReadsBack (loadFiles (.number 0x3FF0000000000000))
      (loadClosed (.finite 0x3FF0000000000000)).written := by
  have hsnapshot : (loadClosed (.finite 0x3FF0000000000000)).written.snapshot = none := rfl
  have hfinite : FiniteWritten (loadClosed (.finite 0x3FF0000000000000)).written := by
    refine ⟨fun k hk => absurd (hsnapshot.symm.trans hk) (by simp), fun r hr => ?_⟩
    obtain rfl := List.mem_singleton.mp hr
    intro m hm p hp
    obtain rfl := List.mem_singleton.mp hm
    obtain rfl := List.mem_singleton.mp hp
    exact ⟨_, rfl⟩
  have hleaves : (loadClosed (.finite 0x3FF0000000000000)).world.node.Leaves
      (loadFiles (.number 0x3FF0000000000000)) := rfl
  exact (metricStore_readsBack_iff loadLines.faithful (FileSerde.single_faithful _ _)
    (by decide +kernel) hleaves).mpr hfinite

set_option maxRecDepth 4000 in
/-- After an ingest of one value that is not a number the store does not open. -/
theorem not_readsBack_nan :
    ¬ ∀ (events : List (Event Call (IterOrder Key SeriesEntry))) (f : Files),
      (∀ e ∈ events, e.Orderly) →
      (Run.run (loadStore.record plan) (Recorded.init _ _ _) events).world.node.Leaves f →
        loadStore.ReadsBack f
          (Run.run (loadStore.record plan) (Recorded.init _ _ _) events).written := by
  intro h
  have hreads := h [.openStore, .call (ingestLoad .nan) [], .close] (loadFiles .null)
    (by decide +kernel) rfl
  obtain ⟨s, hs⟩ := hreads.opens
  have hopens : (loadStore.openWithFsyncBackend (loadFiles .null)).isOk = true :=
    congrArg Except.isOk hs
  exact absurd hopens (by decide +kernel)

end Kaleidoscope.Pulse
