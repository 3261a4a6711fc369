import Kaleidoscope.Library.ParseDouble
import Kaleidoscope.Pulse.Reread
import Kaleidoscope.QueryApi.Filtering
import Kaleidoscope.QueryApi.QueryRange
import Kaleidoscope.Storage.Isolation

/-!
# Integers on their way through the store

An integer of a point is stored as a double, read again with each file it comes from, and printed
as the shortest decimal that reads back. It comes back as it was sent if its double does, and no
other integer with the same double is rounder.
-/

namespace Kaleidoscope.Storage

open Aegis Aperture HashMap Otlp QueryApi
open Binary64 (Roundest)

/-- Doubles of 64 bits. -/
def binary64 : Doubles where
  display
    | .finite bits => Binary64.display bits
    | .nan => "NaN"
    | .posInf => "inf"
    | .negInf => "-inf"
  ofInt v := .finite (Binary64.ofInt v)

/-- The points of a gauge or a sum. -/
def ProtoMetric.numberPoints (proto : ProtoMetric) : List NumberDataPoint :=
  match proto.data with
  | some (.gauge dataPoints) => dataPoints
  | some (.sum dataPoints) => dataPoints
  | _ => []

/-- The metrics of a request with their resources. -/
def nestedMetrics (request : MetricsRequest) : List (Option Resource × ProtoMetric) :=
  (resourceMetrics request).flatMap fun resourceMetrics =>
    resourceMetrics.scopeMetrics.flatMap fun scopeMetrics =>
      scopeMetrics.metrics.map fun proto => (resourceMetrics.resource, proto)

/-- The series that a metric of a request is filed under. -/
def seriesOf (resource : Option Resource) (proto : ProtoMetric) : Pulse.SeriesKey :=
  ⟨⟨proto.name⟩, foldResourceAttributes binary64 resource⟩

/-- The stored point of a double. -/
def storedPoint (point : NumberDataPoint) (bits : UInt64) : Pulse.MetricPoint where
  timeUnixNano := point.timeUnixNano
  startTimeUnixNano := point.startTimeUnixNano
  attributes := foldAttributes binary64 point.attributes
  value := .finite bits

/-- The labels of a point. -/
def labelsOf (resource : Option Resource) (proto : ProtoMetric) (point : NumberDataPoint) :
    Labels :=
  let labels := BTreeMap.insertAll .empty (foldResourceAttributes binary64 resource)
  let labels := labels.insertAll (foldAttributes binary64 point.attributes)
  labels.insert "__name__" proto.name

/-- A sink accepts a request with an integer as a point of a gauge or a sum, and the cap of the
store lets its series in. -/
structure Accepts (encodings : Encodings) (sink : StorageSink) (request : MetricsRequest)
    (fault : Fault) (tenant : TenantId) (resource : Option Resource) (proto : ProtoMetric)
    (point : NumberDataPoint) (v : ℤ) : Prop where
  accepted : (sink.acceptMetrics binary64 encodings request fault).1 = .ok ()
  resolved : sink.resolveMetricTenant binary64 request = .ok tenant
  listed : (resource, proto) ∈ nestedMetrics request
  sent : point ∈ proto.numberPoints
  asInt : point.value = some (.asInt v)
  taken : ∀ store ∈ sink.metricStore, Pulse.Takes store.state tenant
    (translateMetrics binary64 request) (seriesOf resource proto)

/-- The window of a range query. -/
def windowOf (tr : EpochRange) : Pulse.TimeRange :=
  ⟨secondsToNanos tr.startSecs, secondsToNanos tr.endSecs⟩

/-- A range query asks for a point. -/
structure AsksFor (compile : Compile) (resource : Option Resource) (proto : ProtoMetric)
    (point : NumberDataPoint) (tr : EpochRange) (selector : Selector) (filter : MatcherFilter) :
    Prop where
  name : selector.name = ⟨proto.name⟩
  window : (windowOf tr).contains point.timeUnixNano = true
  built : buildFilter compile selector.matchers = .ok filter
  kept : filter.matchers.all (·.isMatch (labelsOf resource proto point)) = true

/-- Among the samples that rows give to the series of a point, the one of the point, which is stored
with a double, has a text. -/
def Shows (rows : List Row) (result : List PromMatrixEntry) (resource : Option Resource)
    (proto : ProtoMetric) (point : NumberDataPoint) (bits : UInt64) (text : String) : Prop :=
  let labels := labelsOf resource proto point
  ∃ entry ∈ result, entry.metric = labels ∧
    entry.values = (rows.filter fun row => row.labels = labels).map
      (Row.sample Binary64.display) ∧
    ∃ row ∈ rows, row.labels = labels ∧ row.2 = storedPoint point bits ∧
      (row.sample Binary64.display).2 = text

/-- The metric store writes and reads JSON; what its numbers are read as is finite, or an error. -/
structure Encodings.Reads (encodings : Encodings) (read : Pulse.NumberReader)
    (text : LineSerde (Pulse.WalRecordOf Pulse.JsonNumber))
    (snapText : FileSerde (Pulse.SnapshotOf Pulse.JsonNumber)) : Prop where
  wal : encodings.pulseWal = Pulse.walSerde read text
  snap : encodings.pulseSnap = Pulse.snapSerde read snapText
  lines : ∀ doc, text.Faithful doc
  files : ∀ doc, snapText.Faithful doc
  finite : ∀ bits d, read bits = .ok d → Binary64.IsFinite d

/-- What becomes of an open metric store and its files, and how often a closed store is opened. -/
def Encodings.metricsAfter (encodings : Encodings) (store : Store Pulse.Inner)
    (events : List (Event Pulse.Call VisitOrder)) :
    World Pulse.Inner Pulse.WalRecord × ℕ :=
  Run.run ((Pulse.fileBackedMetricStore encodings.pulseOrder encodings.pulseWal
    encodings.pulseSnap).recount Pulse.plan) (⟨.up store, []⟩, 0) events

/-- The integers of a request are among the points that it is translated to. -/
theorem exists_mem_translateMetrics {request : MetricsRequest} {resource : Option Resource}
    {proto : ProtoMetric} {point : NumberDataPoint} {v : ℤ}
    (hlisted : (resource, proto) ∈ nestedMetrics request) (hsent : point ∈ proto.numberPoints)
    (hvalue : point.value = some (.asInt v)) :
    ∃ metric ∈ translateMetrics binary64 request,
      Pulse.SeriesKey.of metric = seriesOf resource proto ∧
        storedPoint point (Binary64.ofInt v) ∈ metric.points := by
  simp only [nestedMetrics, List.mem_flatMap, List.mem_map, Prod.mk.injEq] at hlisted
  obtain ⟨resourceMetrics, hresource, scopeMetrics, hscope, proto', hproto, rfl, heq⟩ := hlisted
  obtain rfl := heq.symm
  have htranslated {dataPoints : List NumberDataPoint} (hmem : point ∈ dataPoints) :
      storedPoint point (Binary64.ofInt v) ∈ translateNumberPoints binary64 dataPoints := by
    refine List.mem_filterMap.mpr ⟨point, hmem, ?_⟩
    rw [numberPointValue, hvalue]
    rfl
  have hmetric {metric : Pulse.Metric} (h : translateMetric binary64 proto
      (foldResourceAttributes binary64 resourceMetrics.resource) = some metric) :
      metric ∈ translateMetrics binary64 request :=
    List.mem_flatMap.mpr ⟨resourceMetrics, hresource, List.mem_filterMap.mpr
      ⟨proto, List.mem_flatMap.mpr ⟨scopeMetrics, hscope, hproto⟩, h⟩⟩
  rw [ProtoMetric.numberPoints] at hsent
  split at hsent
  · next dataPoints hdata =>
    refine ⟨_, hmetric (by rw [translateMetric, hdata]), rfl, htranslated hsent⟩
  · next dataPoints hdata =>
    refine ⟨_, hmetric (by rw [translateMetric, hdata]), rfl, htranslated hsent⟩
  · cases hsent

section Stored

variable {series : Pulse.Series} {k : Pulse.Key} {p : Pulse.MetricPoint}

/-- A point is stored if the cap lets its series in. -/
theorem mem_pointsOf_of_takes {inner : Pulse.Inner} {tenant : TenantId}
    {metrics : List Pulse.Metric} {metric : Pulse.Metric} (hmetric : metric ∈ metrics)
    (hp : p ∈ metric.points)
    (htakes : Pulse.Takes inner tenant metrics (Pulse.SeriesKey.of metric)) :
    p ∈ Pulse.pointsOf (Pulse.commitIngest tenant metrics inner).series
      (tenant, Pulse.SeriesKey.of metric) := by
  refine (Pulse.pointsOf_sortAll _ _).mem_iff.mpr ?_
  have hlookup := (Pulse.letIn_applyIngest inner tenant metrics).lookup (Pulse.SeriesKey.of metric)
  rw [if_pos htakes] at hlookup
  rw [Pulse.pointsOf, hlookup, ← Pulse.pointsOf, Pulse.pointsOf_fileAll_ofSeries]
  refine List.mem_append_right _ (List.mem_flatMap.mpr ⟨metric, ?_, hp⟩)
  exact List.mem_filter.mpr ⟨hmetric, by simp⟩

/-- A query returns a stored point. -/
theorem exists_mem_query (order : VisitOrder) {inner : Pulse.Inner} {tenant : TenantId}
    {key : Pulse.SeriesKey} (hkeyed : Pulse.Keyed inner.series)
    (h : p ∈ Pulse.pointsOf inner.series (tenant, key)) {range : Pulse.TimeRange}
    (hrange : range.contains p.timeUnixNano = true) :
    ∃ metric, Pulse.SeriesKey.of metric = key ∧
      (metric, p) ∈ Pulse.query order inner tenant key.name range := by
  rw [Pulse.pointsOf] at h
  cases hentry : inner.series.lookup (tenant, key) with
  | none =>
    rw [hentry] at h
    cases h
  | some entry =>
    rw [hentry] at h
    refine ⟨entry.metric, (hkeyed _ entry hentry).symm, List.mem_flatMap.mpr
      ⟨((tenant, key), entry), List.mem_filter.mpr ⟨(order.mem_iff _ _ _).mpr hentry, by simp⟩, ?_⟩⟩
    exact List.mem_map.mpr ⟨p, List.mem_filter.mpr ⟨h, hrange⟩, rfl⟩

end Stored

section Sinks

variable {encodings : Encodings} {sink : StorageSink}

/-- What a sink with a metric store does with a request of a tenant. -/
theorem acceptMetrics_eq {doubles : Doubles} {request : MetricsRequest} {fault : Fault}
    {store next : Store Pulse.Inner} {tenant : TenantId}
    {result : Except Pulse.MetricStoreError Pulse.IngestReceipt}
    (hstore : sink.metricStore = some store)
    (htenant : sink.resolveMetricTenant doubles request = .ok tenant)
    (hingest : Pulse.ingest encodings.pulseOrder encodings.pulseWal encodings.pulseSnap store tenant
      ⟨translateMetrics doubles request⟩ fault = (result, next)) :
    sink.acceptMetrics doubles encodings request fault =
      (StorageSink.answer "pulse ingest failed: " StorageSink.metricStoreError result,
        { sink with metricStore := some next }) := by
  rw [StorageSink.acceptMetrics]
  simp only [hstore, htenant, hingest]

/-- An accepted integer is in memory and in the last line of the log. -/
theorem Accepts.stored {request : MetricsRequest} {fault : Fault} {tenant : TenantId}
    {resource : Option Resource} {proto : ProtoMetric} {point : NumberDataPoint} {v : ℤ}
    (h : Accepts encodings sink request fault tenant resource proto point v)
    {given store : Store Pulse.Inner} (hgiven : given ∈ sink.metricStore)
    (hstore : store ∈ (sink.acceptMetrics binary64 encodings request fault).2.metricStore) :
    ∃ metrics line, ∃ metric ∈ metrics, Pulse.SeriesKey.of metric = seriesOf resource proto ∧
      storedPoint point (Binary64.ofInt v) ∈ metric.points ∧
      encodings.pulseWal.toString (.ingest tenant metrics) = .ok line ∧
      storedPoint point (Binary64.ofInt v) ∈
        Pulse.pointsOf store.state.series (tenant, seriesOf resource proto) ∧
      store.state = Pulse.commitIngest tenant metrics given.state ∧
      store.wal.file = given.wal.drop ++ wireLine line := by
  obtain ⟨metric, hmetric, hkey, hp⟩ := exists_mem_translateMetrics h.listed h.sent h.asInt
  have haccepted := h.accepted
  rcases hingest : Pulse.ingest encodings.pulseOrder encodings.pulseWal encodings.pulseSnap given
    tenant ⟨translateMetrics binary64 request⟩ fault with ⟨result, next⟩
  rw [acceptMetrics_eq hgiven h.resolved hingest] at haccepted hstore
  obtain rfl : next = store := Option.some.inj hstore
  cases result with
  | error e => cases haccepted
  | ok receipt =>
    obtain ⟨line, hline, hnext⟩ := Pulse.acknowledged_ingest (List.ne_nil_of_mem hmetric)
      (congrArg Prod.fst hingest)
    rw [hingest] at hnext
    obtain rfl : next = _ := hnext
    refine ⟨_, line, metric, hmetric, hkey, hp, hline, ?_, rfl, rfl⟩
    rw [← hkey]
    exact mem_pointsOf_of_takes hmetric hp (hkey ▸ h.taken given hgiven)

/-- The answer to a range query has the sample of a held point. -/
theorem exists_answered {store : Store Pulse.Inner} (hkeyed : Pulse.Keyed store.state.series)
    {tenant : TenantId} {resource : Option Resource} {proto : ProtoMetric}
    {point : NumberDataPoint} {bits : UInt64}
    (hholds : storedPoint point bits ∈
      Pulse.pointsOf store.state.series (tenant, seriesOf resource proto))
    {compile : Compile} {visit : VisitOrder} {tr : EpochRange} {selector : Selector}
    {filter : MatcherFilter} (hasks : AsksFor compile resource proto point tr selector filter)
    {result : List PromMatrixEntry}
    (hanswer : handleQueryRange Binary64.display compile visit store.state (.ok tenant) (.ok tr)
      (.ok selector) = .success result) :
    Shows (selectedRows visit store.state tenant ⟨proto.name⟩ (windowOf tr) filter) result resource
      proto point bits (Binary64.display bits) := by
  let rows := selectedRows visit store.state tenant ⟨proto.name⟩ (windowOf tr) filter
  have hresult : result = toMatrix Binary64.display rows := by
    obtain ⟨_, _, filter', ⟨⟩, ⟨⟩, hfilter, rfl⟩ := handleQueryRange_success hanswer
    obtain rfl : filter = filter' := Except.ok.inj (hasks.built.symm.trans hfilter)
    simp only [rows, hasks.name]
    rfl
  obtain ⟨metric, hkey, hquery⟩ := exists_mem_query visit hkeyed hholds hasks.window
  have hname : metric.name = ⟨proto.name⟩ := congrArg Pulse.SeriesKey.name hkey
  have hattributes : metric.resourceAttributes = foldResourceAttributes binary64 resource :=
    congrArg Pulse.SeriesKey.resourceAttributes hkey
  have hlabels : Row.labels (metric, storedPoint point bits) = labelsOf resource proto point := by
    rw [Row.labels, mergeLabels, hname, hattributes]
    rfl
  have hrow : (metric, storedPoint point bits) ∈ rows := by
    refine List.mem_filter.mpr ⟨hquery, ?_⟩
    rw [Row.labels] at hlabels
    rw [keepRow, hlabels]
    exact hasks.kept
  refine ⟨⟨labelsOf resource proto point, _⟩, ?_, rfl, rfl, _, hrow, hlabels, rfl, rfl⟩
  rw [hresult, toMatrix_eq, List.mem_map]
  exact ⟨_, mem_labelSets.mpr ⟨_, hrow, hlabels⟩, rfl⟩

/-- The sample of a point says which double it is stored with. -/
theorem Shows.iff_of_isFinite {rows : List Row} {result : List PromMatrixEntry}
    {resource : Option Resource} {proto : ProtoMetric} {point : NumberDataPoint} {bits : UInt64}
    (hshows : Shows rows result resource proto point bits (Binary64.display bits))
    (hfinite : Binary64.IsFinite bits) {v : ℤ} (hv : |v| ≤ 2 ^ 63) :
    Shows rows result resource proto point bits (toString v) ↔
      bits = Binary64.ofInt v ∧ Roundest v := by
  rw [← Binary64.display_eq_iff hfinite hv]
  constructor
  · rintro ⟨entry, -, -, -, row, -, -, hpoint, htext⟩
    rw [Row.sample, hpoint, storedPoint, formatValue] at htext
    exact htext
  · exact fun htext => htext ▸ hshows

/-- What the readings of a double make of it is finite. -/
theorem Encodings.Reads.isFinite {read : Pulse.NumberReader}
    {text : LineSerde (Pulse.WalRecordOf Pulse.JsonNumber)}
    {snapText : FileSerde (Pulse.SnapshotOf Pulse.JsonNumber)}
    (h : encodings.Reads read text snapText) {n : ℕ} {bits d : UInt64}
    (hbits : Binary64.IsFinite bits) (hd : Pulse.reread read n bits = .ok d) :
    Binary64.IsFinite d := by
  cases n with
  | zero =>
    cases hd
    exact hbits
  | succ n =>
    obtain ⟨d', -, hread⟩ := Traverse.bind_eq_ok_iff.mp hd
    exact h.finite d' d hread

/-- A sink that was given anything accepts an integer, and then anything happens to its metric store
and the files: ingests, snapshots, crashes and reopening. The answers to range queries for the
integer have its point, with a double that was read at most as often as a closed store was opened,
and at least once if one was. The sample is the integer exactly when that double still is the one
of the integer, and the integer is the roundest of those with this double. If the store is opened
again, the integer has to have been logged at the start of a line. -/
theorem comesBack_iff {read : Pulse.NumberReader}
    {text : LineSerde (Pulse.WalRecordOf Pulse.JsonNumber)}
    {snapText : FileSerde (Pulse.SnapshotOf Pulse.JsonNumber)}
    (hreads : encodings.Reads read text snapText) (hopened : sink.Opened encodings)
    (before : List (SinkRecord OtlpResource × Fault)) {request : MetricsRequest}
    {fault : Fault} {tenant : TenantId} {resource : Option Resource} {proto : ProtoMetric}
    {point : NumberDataPoint} {v : ℤ} (hlow : -2 ^ 63 ≤ v) (hhigh : v < 2 ^ 63)
    (haccepts : Accepts encodings (sink.afterAll binary64 encodings before) request fault tenant
      resource proto point v)
    {given store later : Store Pulse.Inner}
    (hgiven : given ∈ (sink.afterAll binary64 encodings before).metricStore)
    (hstore : store ∈ ((sink.afterAll binary64 encodings before).acceptMetrics binary64 encodings
      request fault).2.metricStore)
    {events : List (Event Pulse.Call VisitOrder)}
    (hup : (encodings.metricsAfter store events).1.node = .up later)
    (hline : 0 < (encodings.metricsAfter store events).2 → Terminated given.wal.drop)
    {compile : Compile} {visit : VisitOrder} {tr : EpochRange} {selector : Selector}
    {filter : MatcherFilter} (hasks : AsksFor compile resource proto point tr selector filter)
    {result : List PromMatrixEntry}
    (hanswer : handleQueryRange Binary64.display compile visit later.state (.ok tenant) (.ok tr)
      (.ok selector) = .success result) :
    let rows := selectedRows visit later.state tenant ⟨proto.name⟩ (windowOf tr) filter
    ∃ n ≤ (encodings.metricsAfter store events).2,
      (0 < (encodings.metricsAfter store events).2 → 0 < n) ∧
      ∃ bits, Pulse.reread read n (Binary64.ofInt v) = .ok bits ∧
        Shows rows result resource proto point bits (Binary64.display bits) ∧
        (Shows rows result resource proto point bits (toString v) ↔
          bits = Binary64.ofInt v ∧ Roundest v) := by
  intro rows
  have hv : |v| ≤ 2 ^ 63 := abs_le.mpr ⟨hlow, hhigh.le⟩
  obtain ⟨metrics, line, metric, hmetric, hkey, hp, htext, hmem, hstate, hfile⟩ :=
    haccepts.stored hgiven hstore
  rw [hreads.wal] at htext
  have hlasting : (Pulse.fileBackedMetricStore encodings.pulseOrder encodings.pulseWal
      encodings.pulseSnap).Lasting Pulse.plan line (fun inner => Pulse.Keyed inner.series)
      (Pulse.HasPoint read (tenant, seriesOf resource proto)
        (storedPoint point (Binary64.ofInt v)) (Binary64.ofInt v)) := by
    rw [hreads.wal, hreads.snap, ← hkey]
    exact Pulse.lasting_of_logged _ (p := storedPoint point (Binary64.ofInt v)) hreads.lines
      hreads.files hmetric hp htext
  obtain ⟨hne, hnewline, -⟩ := (hreads.lines _).oneLine line htext
  have hhas : Pulse.HasPoint read (tenant, seriesOf resource proto)
      (storedPoint point (Binary64.ofInt v)) (Binary64.ofInt v) 0 store.state := by
    refine ⟨?_, _, rfl, hmem⟩
    rw [hstate]
    exact ((hopened.kept.afterAll before).metrics given hgiven).commitIngest tenant metrics
  obtain ⟨n, hn, hpos, hkeyed, bits, hbits, hlater⟩ :
      ∃ n ≤ (encodings.metricsAfter store events).2,
        (0 < (encodings.metricsAfter store events).2 → 0 < n) ∧
        Pulse.HasPoint read (tenant, seriesOf resource proto)
          (storedPoint point (Binary64.ofInt v)) (Binary64.ofInt v) n later.state := by
    rcases Nat.eq_zero_or_pos (encodings.metricsAfter store events).2 with hzero | hreopened
    · refine ⟨0, Nat.zero_le _, fun h => absurd h (by omega), ?_⟩
      refine hlasting.unopened (v := (⟨.up store, []⟩, 0)) ?_ events hzero later hup
      rintro - s hs
      obtain rfl := Node.up.inj hs
      exact hhas
    · have hretains := hlasting.run trivial hne hnewline (v := (⟨.up store, []⟩, 0))
        ⟨⟨0, le_rfl, id, hhas⟩, .inl ⟨_, hline hreopened, hfile ▸ List.prefix_rfl⟩⟩ events
      change Pillar.Retains _ _ _ _ (encodings.metricsAfter store events).1.node at hretains
      rw [hup] at hretains
      exact hretains.1
  have hshows : Shows rows result resource proto point bits (Binary64.display bits) :=
    exists_answered hkeyed hlater hasks hanswer
  exact ⟨n, hn, hpos, bits, hbits, hshows,
    hshows.iff_of_isFinite (hreads.isFinite (Binary64.isFinite_encode
      (Binary64.nearest_nearest _) (Binary64.abs_nearest_lt hv)) hbits) hv⟩

end Sinks

/-- A gauge with one integer. -/
def gaugeOf (v : ℤ) : ProtoMetric where
  name := "requests"
  description := ""
  unit := "1"
  data := some (.gauge [⟨[], 0, 1, some (.asInt v)⟩])

/-- A request with it. -/
def gaugeRequest (v : ℤ) : MetricsRequest where
  resources := [⟨none, [⟨[gaugeOf v]⟩]⟩]

/-- The document of its log record. -/
def gaugeDoc (bits : UInt64) : Pulse.WalRecordOf Pulse.JsonNumber :=
  .ingest ⟨"acme"⟩ [⟨⟨"requests"⟩, "", "1", .gauge, [⟨1, 0, .empty, .number bits⟩], .empty⟩]

/-- The JSON of that document. -/
def gaugeText (number : Utf8.Text) : Utf8.Text :=
  chars "\x7b\"op\":\"ingest\",\"tenant\":\"acme\",\"metrics\":[\x7b\"name\":\"requests\"," rfl ++
    chars "\"description\":\"\",\"unit\":\"1\",\"kind\":\"Gauge\",\"points\":[" rfl ++
    chars "\x7b\"time_unix_nano\":1,\"start_time_unix_nano\":0," rfl ++
    chars "\"attributes\":\x7b\x7d,\"value\":" rfl ++ number ++
    chars "\x7d],\"resource_attributes\":\x7b\x7d\x7d]\x7d" rfl

/-- The lines of two gauges. -/
def gaugeLines : LineTable (Pulse.WalRecordOf Pulse.JsonNumber) where
  rows := [(gaugeDoc 0x4014000000000000, gaugeText (chars "5.0" rfl)),
    (gaugeDoc 0x4340000000000000, gaugeText (chars "9007199254740992.0" rfl))]
  ascii := by decide +kernel
  oneLine := by decide +kernel
  prefixFree := by decide +kernel

/-- A reader without an error. -/
def readExactly : Pulse.NumberReader := fun bits =>
  if Binary64.IsFinite bits then .ok bits else .error "number out of range"

/-- Encodings that know these lines. -/
noncomputable def gaugeEncodings : Encodings :=
  { encodingsOf [] with
    pulseWal := Pulse.walSerde readExactly gaugeLines.serde
    pulseSnap := Pulse.snapSerde readExactly (.single ⟨[]⟩ []) }

theorem reads_gaugeEncodings :
    gaugeEncodings.Reads readExactly gaugeLines.serde (.single ⟨[]⟩ []) where
  wal := rfl
  snap := rfl
  lines := gaugeLines.faithful
  files := FileSerde.single_faithful _ _
  finite bits d hd := by
    rw [readExactly] at hd
    split_ifs at hd with hfinite
    cases hd
    exact hfinite

/-- A store without files. -/
def newStore : Store Pulse.Inner := ⟨.empty, none, none, BufWriter.new []⟩

/-- A sink with such a metric store. -/
def metricSink : StorageSink where
  config := ⟨some "acme"⟩
  logStore := none
  traceStore := none
  metricStore := some newStore

theorem opened_metricSink : metricSink.Opened gaugeEncodings where
  logs := nofun
  traces := nofun
  metrics := by
    rintro _ ⟨⟩
    refine ⟨Files.none, ?_⟩
    change Except.ok (Store.mk (Pillar.settle _ Pulse.Inner.empty) none none (BufWriter.new [])) = _
    rw [Pulse.settle_empty]
    rfl

/-- The store after the gauge. -/
noncomputable def gaugeStore (v : ℤ) (line : Utf8.Text) : Store Pulse.Inner :=
  ⟨Pulse.commitIngest ⟨"acme"⟩ (translateMetrics binary64 (gaugeRequest v)) .empty, none, none,
    ⟨wireLine line, []⟩⟩

/-- The store that is opened from its files. -/
noncomputable def gaugeReopened (v : ℤ) (line : Utf8.Text) : Store Pulse.Inner :=
  ⟨(Pulse.fileBackedMetricStore gaugeEncodings.pulseOrder gaugeEncodings.pulseWal
      gaugeEncodings.pulseSnap).settle
    (Pulse.applyRecord .empty (.ingest ⟨"acme"⟩ (translateMetrics binary64 (gaugeRequest v)))),
    none, none, BufWriter.new (wireLine line)⟩

theorem asksFor_gauge (v : ℤ) : AsksFor (fun _ => none) none (gaugeOf v)
    ⟨[], 0, 1, some (.asInt v)⟩ ⟨0, 1⟩ ⟨⟨"requests"⟩, []⟩ ⟨[]⟩ where
  name := rfl
  window := by
    change (windowOf ⟨0, 1⟩).contains 1 = true
    decide
  built := rfl
  kept := rfl

section Gauge

variable {v : ℤ} {line : Utf8.Text}
  (hline : gaugeLines.serde.toString (gaugeDoc (Binary64.ofInt v)) = .ok line)

include hline

theorem toString_gauge : gaugeEncodings.pulseWal.toString
    (.ingest ⟨"acme"⟩ (translateMetrics binary64 (gaugeRequest v))) = .ok line := by
  have hdoc : (Pulse.WalRecordOf.ingest ⟨"acme"⟩
      (translateMetrics binary64 (gaugeRequest v))).map Pulse.F64.toJson =
        gaugeDoc (Binary64.ofInt v) := rfl
  rw [reads_gaugeEncodings.wal, Pulse.walSerde_toString, hdoc, hline]

theorem acceptMetrics_gauge :
    metricSink.acceptMetrics binary64 gaugeEncodings (gaugeRequest v) .none =
      (.ok (), { metricSink with metricStore := some (gaugeStore v line) }) := by
  have hne : translateMetrics binary64 (gaugeRequest v) ≠ [] := List.cons_ne_nil _ _
  obtain ⟨receipt, hreceipt⟩ := Pulse.exists_receipt gaugeEncodings.pulseOrder
    gaugeEncodings.pulseSnap newStore rfl hne (toString_gauge hline)
  obtain ⟨line', hline', hnext⟩ := Pulse.acknowledged_ingest hne hreceipt
  obtain rfl : line = line' := Except.ok.inj ((toString_gauge hline).symm.trans hline')
  have hingest : Pulse.ingest gaugeEncodings.pulseOrder gaugeEncodings.pulseWal
      gaugeEncodings.pulseSnap newStore ⟨"acme"⟩ ⟨translateMetrics binary64 (gaugeRequest v)⟩ .none =
        (.ok receipt, gaugeStore v line) := Prod.ext hreceipt hnext
  exact acceptMetrics_eq rfl rfl hingest

theorem accepts_gaugeRequest : Accepts gaugeEncodings metricSink (gaugeRequest v) .none
    ⟨"acme"⟩ none (gaugeOf v) ⟨[], 0, 1, some (.asInt v)⟩ v where
  accepted := by rw [acceptMetrics_gauge hline]
  resolved := rfl
  listed := List.mem_singleton_self _
  sent := List.mem_singleton_self _
  asInt := rfl
  taken := by
    rintro _ ⟨⟩
    have hkeys : (translateMetrics binary64 (gaugeRequest v)).map Pulse.SeriesKey.of =
      [seriesOf none (gaugeOf v)] := rfl
    refine .inr ?_
    rw [Pulse.newBefore, hkeys]
    simp [newStore, Pulse.Inner.count, Pulse.Inner.empty, Pulse.maxSeriesPerTenant]

/-- The gauge in the log, after the store was closed. -/
theorem open_gauge (hv : |v| ≤ 2 ^ 63) :
    (Pulse.fileBackedMetricStore gaugeEncodings.pulseOrder gaugeEncodings.pulseWal
      gaugeEncodings.pulseSnap).openWithFsyncBackend (gaugeStore v line).drop =
        .ok (gaugeReopened v line) := by
  have hfinite : Binary64.IsFinite (Binary64.ofInt v) :=
    Binary64.isFinite_encode (Binary64.nearest_nearest _) (Binary64.abs_nearest_lt hv)
  have hvalues : Pulse.WalRecordOf.AllValues (Pulse.F64.ReadsBack readExactly)
      (.ingest ⟨"acme"⟩ (translateMetrics binary64 (gaugeRequest v))) := by
    intro m hm p hp
    obtain rfl := List.mem_singleton.mp hm
    obtain rfl := List.mem_singleton.mp hp
    exact ⟨_, rfl, if_pos hfinite⟩
  have hfiles : (gaugeStore v line).drop = ⟨none, none, some (wireLine line)⟩ := by
    simp [Store.drop, gaugeStore, BufWriter.drop]
  rw [hfiles]
  exact Pulse.open_line _ _
    ⟨Pulse.walSerde_faithful gaugeLines.faithful hvalues, toString_gauge hline⟩

theorem metricsAfter_gauge (hv : |v| ≤ 2 ^ 63) :
    gaugeEncodings.metricsAfter (gaugeStore v line) [.close, .openStore] =
      (⟨.up (gaugeReopened v line), []⟩, 1) := by
  simp only [Encodings.metricsAfter, Run.run_cons, Pillar.recount, Pillar.step,
    open_gauge hline hv]
  rfl

end Gauge

/-- The series of the gauge. -/
def gaugeSeries (v : ℤ) : Pulse.Series :=
  Pulse.sortAll ((translateMetrics binary64 (gaugeRequest v)).foldl
    (fun series metric => Pulse.file series ⟨"acme"⟩ metric) ∅)

theorem series_gaugeStore (v : ℤ) (line : Utf8.Text) :
    (gaugeStore v line).state.series = gaugeSeries v ∧
      (gaugeReopened v line).state.series = gaugeSeries v := ⟨rfl, rfl⟩

/-- All rows of the gauge are of its point. -/
theorem of_mem_query_gauge {v : ℤ} {inner : Pulse.Inner} (hseries : inner.series = gaugeSeries v)
    {visit : VisitOrder} {range : Pulse.TimeRange} {row : Row}
    (h : row ∈ Pulse.query visit inner ⟨"acme"⟩ ⟨"requests"⟩ range) :
    row.labels = labelsOf none (gaugeOf v) ⟨[], 0, 1, some (.asInt v)⟩ ∧
      row.2 = storedPoint ⟨[], 0, 1, some (.asInt v)⟩ (Binary64.ofInt v) := by
  obtain ⟨⟨k, entry⟩, hentry, hrow⟩ := List.mem_flatMap.mp h
  obtain ⟨p, hp, rfl⟩ := List.mem_map.mp hrow
  have hlookup := (visit.mem_iff _ _ _).mp (List.mem_filter.mp hentry).1
  rw [hseries] at hlookup
  change (Pulse.sortAll (Pulse.file ∅ ⟨"acme"⟩ _)).lookup k = some entry at hlookup
  rw [Pulse.lookup_sortAll, Pulse.lookup_file, Finmap.lookup_empty] at hlookup
  split_ifs at hlookup
  · cases hlookup
    have hmem := (StableSort.sortByKey_perm _ _).mem_iff.mp (List.mem_of_mem_filter hp)
    obtain rfl : p = storedPoint ⟨[], 0, 1, some (.asInt v)⟩ (Binary64.ofInt v) :=
      List.mem_singleton.mp hmem
    exact ⟨rfl, rfl⟩
  · cases hlookup

/-- A range query for the gauge is answered. -/
theorem exists_gauge_answer {v : ℤ} {inner : Pulse.Inner} (hseries : inner.series = gaugeSeries v)
    (visit : VisitOrder) :
    ∃ result, handleQueryRange Binary64.display (fun _ => none) visit inner
      (.ok ⟨"acme"⟩) (.ok ⟨0, 1⟩) (.ok ⟨⟨"requests"⟩, []⟩) = .success result := by
  let rows := selectedRows visit inner ⟨"acme"⟩ ⟨"requests"⟩ (windowOf ⟨0, 1⟩) ⟨[]⟩
  have hone : (labelSets rows).length ≤ 1 := by
    have hsub : labelSets rows ⊆ [labelsOf none (gaugeOf v) ⟨[], 0, 1, some (.asInt v)⟩] := by
      intro labels hlabels
      obtain ⟨row, hrow, rfl⟩ := mem_labelSets.mp hlabels
      exact List.mem_singleton.mpr (of_mem_query_gauge hseries (List.mem_of_mem_filter hrow)).1
    exact ((nodup_labelSets rows).subperm hsub).length_le
  have hfew : (toMatrix Binary64.display rows).length ≤ maxResultRows := by
    rw [toMatrix_eq, List.length_map]
    exact hone.trans (by decide)
  refine ⟨toMatrix Binary64.display rows, ?_⟩
  exact if_neg (not_lt.mpr hfew)

/-- An integer of few digits comes back, also from the files. -/
theorem five_comes_back : ∃ result,
    handleQueryRange Binary64.display (fun _ => none) (.unspecified _ _)
      (gaugeReopened 5 (gaugeText (chars "5.0" rfl))).state (.ok ⟨"acme"⟩) (.ok ⟨0, 1⟩)
      (.ok ⟨⟨"requests"⟩, []⟩) = .success result ∧
    let rows := selectedRows (.unspecified _ _) (gaugeReopened 5 (gaugeText (chars "5.0" rfl))).state
      ⟨"acme"⟩ ⟨"requests"⟩ (windowOf ⟨0, 1⟩) ⟨[]⟩
    ∃ n ≤ 1, (0 < 1 → 0 < n) ∧ ∃ bits,
      Pulse.reread readExactly n (Binary64.ofInt 5) = .ok bits ∧
      Shows rows result none (gaugeOf 5) ⟨[], 0, 1, some (.asInt 5)⟩ bits (Binary64.display bits) ∧
      (Shows rows result none (gaugeOf 5) ⟨[], 0, 1, some (.asInt 5)⟩ bits (toString (5 : ℤ)) ↔
        bits = Binary64.ofInt 5 ∧ Roundest 5) := by
  have hline : gaugeLines.serde.toString (gaugeDoc (Binary64.ofInt 5)) =
      .ok (gaugeText (chars "5.0" rfl)) := by decide +kernel
  have hafter := metricsAfter_gauge hline (by norm_num)
  have hup : (gaugeEncodings.metricsAfter (gaugeStore 5 (gaugeText (chars "5.0" rfl)))
      [.close, .openStore]).1.node = .up (gaugeReopened 5 (gaugeText (chars "5.0" rfl))) := by
    rw [hafter]
  obtain ⟨result, hanswer⟩ :=
    exists_gauge_answer (series_gaugeStore 5 (gaugeText (chars "5.0" rfl))).2 (.unspecified _ _)
  have hcomes := comesBack_iff reads_gaugeEncodings opened_metricSink [] (v := 5) (by decide)
    (by decide) (accepts_gaugeRequest hline)
    (show newStore ∈ metricSink.metricStore from rfl)
    (by rw [StorageSink.afterAll, List.foldl_nil, acceptMetrics_gauge hline]; rfl)
    hup (fun _ => .inl rfl) (asksFor_gauge 5) hanswer
  rw [hafter] at hcomes
  exact ⟨result, hanswer, hcomes⟩

/-- `2 ^ 53 + 1` comes back as `2 ^ 53`. -/
theorem odd_counter_changes :
    ¬ ∀ (encodings : Encodings) (read : Pulse.NumberReader)
        (text : LineSerde (Pulse.WalRecordOf Pulse.JsonNumber))
        (snapText : FileSerde (Pulse.SnapshotOf Pulse.JsonNumber)) (sink : StorageSink)
        (_ : encodings.Reads read text snapText) (_ : sink.Opened encodings)
        (request : MetricsRequest) (fault : Fault) (tenant : TenantId) (resource : Option Resource)
        (proto : ProtoMetric) (point : NumberDataPoint) (v : ℤ) (_ : -2 ^ 63 ≤ v) (_ : v < 2 ^ 63)
        (_ : Accepts encodings sink request fault tenant resource proto point v)
        (store : Store Pulse.Inner)
        (_ : store ∈ (sink.acceptMetrics binary64 encodings request fault).2.metricStore)
        (compile : Compile) (visit : VisitOrder) (tr : EpochRange) (selector : Selector)
        (filter : MatcherFilter) (_ : AsksFor compile resource proto point tr selector filter)
        (result : List PromMatrixEntry)
        (_ : handleQueryRange Binary64.display compile visit store.state (.ok tenant) (.ok tr)
          (.ok selector) = .success result),
      ∃ bits, Shows (selectedRows visit store.state tenant ⟨proto.name⟩ (windowOf tr) filter) result
        resource proto point bits (toString v) := by
  intro h
  have hline : gaugeLines.serde.toString (gaugeDoc (Binary64.ofInt (2 ^ 53 + 1))) =
      .ok (gaugeText (chars "9007199254740992.0" rfl)) := by decide +kernel
  have hseries := (series_gaugeStore (2 ^ 53 + 1) (gaugeText (chars "9007199254740992.0" rfl))).1
  obtain ⟨result, hanswer⟩ := exists_gauge_answer hseries (.unspecified _ _)
  obtain ⟨bits, -, -, -, -, row, hrow, -, -, htext⟩ := h gaugeEncodings readExactly
    gaugeLines.serde (.single ⟨[]⟩ []) metricSink reads_gaugeEncodings opened_metricSink
    (gaugeRequest (2 ^ 53 + 1)) .none ⟨"acme"⟩ none (gaugeOf (2 ^ 53 + 1)) _ (2 ^ 53 + 1)
    (by decide) (by decide) (accepts_gaugeRequest hline) (gaugeStore (2 ^ 53 + 1) _)
    (by rw [acceptMetrics_gauge hline]; rfl) _ _ _ _ _ (asksFor_gauge _) result hanswer
  have hpoint := (of_mem_query_gauge hseries (List.mem_of_mem_filter hrow)).2
  rw [Row.sample, hpoint, storedPoint, formatValue] at htext
  dsimp only at htext
  exact absurd htext (by decide +kernel)

end Kaleidoscope.Storage
