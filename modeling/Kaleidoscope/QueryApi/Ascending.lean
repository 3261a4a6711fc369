import Kaleidoscope.Durability.NonFinite
import Kaleidoscope.QueryApi.QueryRange

/-!
# Series in the order of time

A stored series ascends, but the store tells series apart by their resource attributes and a
response by the merged labels. Series that merge are returned one after the other, in the order
in which the store visits them.
-/

namespace Kaleidoscope.QueryApi

open Aegis HashMap Pulse StableSort

/-- Every series is in the order of time. -/
def SeriesAscend (inner : Inner) : Prop :=
  ∀ k entry, inner.series.lookup k = some entry →
    entry.points.Pairwise fun a b => a.timeUnixNano ≤ b.timeUnixNano

/-- Whatever happens to the store, its series are in the order of time. -/
theorem series_ascend (order : VisitOrder) (wal : LineSerde WalRecord)
    (snap : FileSerde Snapshot) :
    (fileBackedMetricStore order wal snap).EveryStore plan (fun _ _ => True) fun s _ =>
      SeriesAscend s.state := by
  refine Pillar.everyStore_state (fun _ _ _ h => sorted_sortAll h) (fun ⟨tenant, batch⟩ _ hs => hs)
    fun ⟨tenant, batch⟩ s step hstep s' _ => ?_
  change step ∈ ingestSteps tenant batch at hstep
  rw [ingestSteps] at hstep
  split_ifs at hstep
  · exact absurd hstep List.not_mem_nil
  · obtain rfl := List.mem_singleton.mp hstep
    exact fun _ _ h => sorted_sortAll h

section Selected

variable (inner : Inner) (tenant : TenantId) (name : MetricName) (range : TimeRange)
  (filter : MatcherFilter)

/-- A point of a stored series is returned and retained. -/
def Selects (k : Pulse.Key) (row : Row) : Prop :=
  (∃ entry, inner.series.lookup k = some entry ∧ entry.metric = row.1 ∧ row.2 ∈ entry.points) ∧
    k.1 = tenant ∧ k.2.name = name ∧ range.contains row.2.timeUnixNano ∧
      keepRow row.1 row.2 filter

/-- Selected points of different series that merge are of the same second. -/
def SecondsAgree : Prop :=
  ∀ k k' row row', Selects inner tenant name range filter k row →
    Selects inner tenant name range filter k' row' → k ≠ k' → row.labels = row'.labels →
      row.seconds = row'.seconds

/-- The rows that are selected of one stored series. -/
def entryRows (e : Pulse.Key × SeriesEntry) : List Row :=
  ((e.2.points.filter fun p => range.contains p.timeUnixNano).map fun p => (e.2.metric, p)).filter
    fun row => keepRow row.1 row.2 filter

/-- The stored series of the asked name, in the order in which they are visited. -/
def askedEntries (visit : VisitOrder) : List (Pulse.Key × SeriesEntry) :=
  (visit.entries inner.series).filter fun e => e.1.1 = tenant ∧ e.1.2.name = name

theorem selectedRows_eq (visit : VisitOrder) :
    selectedRows visit inner tenant name range filter =
      (askedEntries inner tenant name visit).flatMap (entryRows range filter) := by
  rw [selectedRows, query, List.filter_flatMap]
  rfl

variable {inner tenant name range filter}

/-- What is selected of a series is among its rows. -/
theorem Selects.of_entry {k : Pulse.Key} {row : Row}
    (h : Selects inner tenant name range filter k row) (visit : VisitOrder) :
    ∃ e ∈ askedEntries inner tenant name visit, e.1 = k ∧ row ∈ entryRows range filter e := by
  obtain ⟨metric, point⟩ := row
  obtain ⟨⟨entry, hentry, rfl, hpoint⟩, htenant, hname, hrange, hkeep⟩ := h
  refine ⟨(k, entry), ?_, rfl, ?_⟩
  · simp [askedEntries, visit.mem_iff, hentry, htenant, hname]
  · simp [entryRows, hpoint, hrange, hkeep]

theorem selects_of_mem {visit : VisitOrder} {e : Pulse.Key × SeriesEntry} {row : Row}
    (he : e ∈ askedEntries inner tenant name visit) (hrow : row ∈ entryRows range filter e) :
    Selects inner tenant name range filter e.1 row := by
  obtain ⟨k, entry⟩ := e
  simp only [askedEntries, List.mem_filter, visit.mem_iff, decide_eq_true_eq] at he
  simp only [entryRows, List.mem_filter, List.mem_map] at hrow
  obtain ⟨⟨p, ⟨hp, hrange⟩, rfl⟩, hkeep⟩ := hrow
  exact ⟨⟨entry, he.1, rfl, hp⟩, he.2.1, he.2.2, hrange, hkeep⟩

/-- The rows of one series ascend. -/
theorem SeriesAscend.entryRows (h : SeriesAscend inner) {visit : VisitOrder}
    {e : Pulse.Key × SeriesEntry} (he : e ∈ askedEntries inner tenant name visit) :
    (QueryApi.entryRows range filter e).Pairwise fun a b =>
      a.labels = b.labels → a.seconds ≤ b.seconds := by
  have hentry : inner.series.lookup e.1 = some e.2 :=
    (visit.mem_iff _ _ _).mp (List.mem_of_mem_filter he)
  refine List.Pairwise.filter _ (List.pairwise_map.mpr ?_)
  refine ((h e.1 e.2 hentry).filter _).imp fun hle _ => ?_
  exact Nat.div_le_div_right hle

/-- In whatever order the series are visited, what is returned ascends exactly if selected
points that merge are of the same second. -/
theorem SeriesAscend.matrix_ascends_iff (h : SeriesAscend inner) (display : UInt64 → String) :
    (∀ visit, ∀ entry ∈ toMatrix display (selectedRows visit inner tenant name range filter),
        entry.Ascends) ↔
      SecondsAgree inner tenant name range filter := by
  -- the order of the rows of one series before those of another
  let precedes (e e' : Pulse.Key × SeriesEntry) : Prop :=
    ∀ row ∈ QueryApi.entryRows range filter e, ∀ row' ∈ QueryApi.entryRows range filter e',
      row.labels = row'.labels → row.seconds ≤ row'.seconds
  have hvisit (visit : VisitOrder) :
      (∀ entry ∈ toMatrix display (selectedRows visit inner tenant name range filter),
        entry.Ascends) ↔ (askedEntries inner tenant name visit).Pairwise precedes := by
    rw [toMatrix_ascends_iff, selectedRows_eq, List.pairwise_flatMap]
    exact and_iff_right fun e he => h.entryRows he
  constructor
  · intro hall k k' row row' hrow hrow' hne hlabels
    let visit : VisitOrder := .unspecified _ _
    -- each of two series may be visited before the other
    have hforth : (askedEntries inner tenant name visit).Pairwise precedes :=
      (hvisit visit).mp (hall visit)
    have hback : (askedEntries inner tenant name visit).Pairwise (Function.swap precedes) := by
      have hreverse := (hvisit visit.reverse).mp (hall visit.reverse)
      rw [askedEntries, IterOrder.reverse, List.filter_reverse, List.pairwise_reverse] at hreverse
      exact hreverse
    obtain ⟨e, he, rfl, hmem⟩ := hrow.of_entry visit
    obtain ⟨e', he', rfl, hmem'⟩ := hrow'.of_entry visit
    have hsymm : Std.Symm fun a b => precedes a b ∧ Function.swap precedes a b :=
      ⟨fun _ _ hab => hab.symm⟩
    obtain ⟨hle, hge⟩ := (hforth.and hback).forall he he' fun heq => hne (congrArg Prod.fst heq)
    exact le_antisymm (hle row hmem row' hmem' hlabels) (hge row' hmem' row hmem hlabels.symm)
  · intro hagree visit
    rw [hvisit]
    have hkeys : ((askedEntries inner tenant name visit).map Prod.fst).Nodup :=
      (visit.nodup inner.series).sublist (List.filter_sublist.map Prod.fst)
    refine (List.pairwise_map.mp hkeys).imp_of_mem fun he he' hne row hrow row' hrow' hlabels => ?_
    exact (hagree _ _ row row' (selects_of_mem he hrow) (selects_of_mem he' hrow') hne hlabels).le

end Selected

/-- In every store, whatever happened to it, every query returns its series in the order of
time, in whatever order the store is visited, exactly if the selected points of different stored
series that merge are of the same second. -/
theorem queryRange_ascends_iff (order : VisitOrder) (wal : LineSerde WalRecord)
    (snap : FileSerde Snapshot) (display : UInt64 → String) :
    (fileBackedMetricStore order wal snap).EveryStore plan (fun _ _ => True) fun s _ =>
      ∀ tenant name range filter,
        (∀ visit,
          ∀ entry ∈ toMatrix display (selectedRows visit s.state tenant name range filter),
            entry.Ascends) ↔
          SecondsAgree s.state tenant name range filter := by
  intro events s hevents hup tenant name range filter
  exact (series_ascend order wal snap events s hevents hup).matrix_ascends_iff display

/-- A gauge with observations whose region label overrides that of its resource. -/
def regionLoad {V : Type} (value : V) (region : String) (times : List Nat) : MetricOf V :=
  { loadOf value with
    points := times.map fun timeUnixNano => ⟨timeUnixNano, 0, .single "region" "global", value⟩
    resourceAttributes := .single "region" region }

/-- Two of them, of different regions: the first at two seconds, the second at one and at two and
a half. -/
def regionLoads {V : Type} (value : V) : List (MetricOf V) :=
  [regionLoad value "eu" [2000000000], regionLoad value "us" [1000000000, 2500000000]]

/-- The JSON of a log line with both. -/
def regionLine : LineTable (WalRecordOf JsonNumber) where
  rows :=
    [(.ingest ⟨"acme"⟩ (regionLoads (.number 0x3FF0000000000000)),
      chars "\x7b\"op\":\"ingest\",\"tenant\":\"acme\",\"metrics\":[" rfl ++
        chars "\x7b\"name\":\"load\",\"description\":\"\",\"unit\":\"1\",\"kind\":\"Gauge\"," rfl ++
        chars "\"points\":[\x7b\"time_unix_nano\":2000000000,\"start_time_unix_nano\":0," rfl ++
        chars "\"attributes\":\x7b\"region\":\"global\"\x7d,\"value\":1.0\x7d]," rfl ++
        chars "\"resource_attributes\":\x7b\"region\":\"eu\"\x7d\x7d," rfl ++
        chars "\x7b\"name\":\"load\",\"description\":\"\",\"unit\":\"1\",\"kind\":\"Gauge\"," rfl ++
        chars "\"points\":[\x7b\"time_unix_nano\":1000000000,\"start_time_unix_nano\":0," rfl ++
        chars "\"attributes\":\x7b\"region\":\"global\"\x7d,\"value\":1.0\x7d," rfl ++
        chars "\x7b\"time_unix_nano\":2500000000,\"start_time_unix_nano\":0," rfl ++
        chars "\"attributes\":\x7b\"region\":\"global\"\x7d,\"value\":1.0\x7d]," rfl ++
        chars "\"resource_attributes\":\x7b\"region\":\"us\"\x7d\x7d]\x7d" rfl)]
  ascii := by decide +kernel
  oneLine := by decide +kernel
  prefixFree := by simp

/-- A metric store for these. -/
noncomputable def regionStore :
    Pillar Inner WalRecord Snapshot MetricStoreError (IterOrder Pulse.Key SeriesEntry) :=
  metricStore (.unspecified _ _) regionLine.serde (.single ⟨[]⟩ [])

/-- Their ingest into a new store. -/
def regionEvents : List (Event Call VisitOrder) :=
  [.openStore,
    .call (.ingest ⟨"acme"⟩ ⟨regionLoads (.finite 0x3FF0000000000000)⟩) []]

/-- The gauge of each region. -/
def regionGauges : List Metric := regionLoads (.finite 0x3FF0000000000000)

set_option maxRecDepth 4000 in
/-- Each region has its series. -/
theorem run_regionEvents :
    ∃ s, (Run.run (regionStore.step plan) (World.init _ _) regionEvents).node = .up s ∧
      ∀ g ∈ regionGauges, s.state.series.lookup (⟨"acme"⟩, SeriesKey.of g) =
        some ⟨{ g with points := [] }, g.points⟩ := by
  refine ⟨_, rfl, ?_⟩
  change ∀ g ∈ _, (commitIngest ⟨"acme"⟩ (regionLoads (.finite 0x3FF0000000000000))
    (regionStore.settle .empty)).series.lookup (_, SeriesKey.of g) = _
  rw [regionStore, metricStore, settle_empty]
  decide +kernel

/-- The points of each region are selected in a range that has them. -/
theorem selects_region {inner : Inner}
    (h : ∀ g ∈ regionGauges, inner.series.lookup (⟨"acme"⟩, SeriesKey.of g) =
      some ⟨{ g with points := [] }, g.points⟩) {range : TimeRange} {g : Metric}
    (hg : g ∈ regionGauges) {p : MetricPoint} (hp : p ∈ g.points)
    (hrange : range.contains p.timeUnixNano) :
    Selects inner ⟨"acme"⟩ ⟨"load"⟩ range ⟨[]⟩ (⟨"acme"⟩, SeriesKey.of g)
      ({ g with points := [] }, p) :=
  ⟨⟨_, h g hg, rfl, hp⟩, rfl, (by decide : ∀ g ∈ regionGauges, g.name = ⟨"load"⟩) g hg, hrange, rfl⟩

/-- In the third second both regions were observed, and what a query of it returns ascends. -/
theorem regionEvents_ascend (display : UInt64 → String) :
    ∃ s, (Run.run (regionStore.step plan) (World.init _ _) regionEvents).node = .up s ∧
      (∀ g ∈ regionGauges, ∃ p, Selects s.state ⟨"acme"⟩ ⟨"load"⟩ ⟨2000000000, 3000000000⟩ ⟨[]⟩
        (⟨"acme"⟩, SeriesKey.of g) ({ g with points := [] }, p)) ∧
      ∀ visit, ∀ entry ∈ toMatrix display (selectedRows visit s.state ⟨"acme"⟩ ⟨"load"⟩
        ⟨2000000000, 3000000000⟩ ⟨[]⟩), entry.Ascends := by
  obtain ⟨s, hup, hseries⟩ := run_regionEvents
  have hobserved : ∀ g ∈ regionGauges, ∃ p ∈ g.points,
      TimeRange.contains ⟨2000000000, 3000000000⟩ p.timeUnixNano := by decide
  have hseconds (k : Pulse.Key) (row : Row)
      (h : Selects s.state ⟨"acme"⟩ ⟨"load"⟩ ⟨2000000000, 3000000000⟩ ⟨[]⟩ k row) :
      row.seconds = 2 := by
    obtain ⟨-, -, -, hrange, -⟩ := h
    simp only [TimeRange.contains, Bool.and_eq_true, decide_eq_true_eq] at hrange
    rw [Row.seconds, nanosToSeconds]
    omega
  refine ⟨s, hup, fun g hg => ?_, (queryRange_ascends_iff _ _ _ display _ s
    (Run.allSteps_of_forall (fun _ _ => trivial) _ _) hup _ _ _ _).mpr ?_⟩
  · obtain ⟨p, hp, hrange⟩ := hobserved g hg
    exact ⟨p, selects_region hseries hg hp hrange⟩
  · exact fun k k' row row' h h' _ _ => (hseconds k row h).trans (hseconds k' row' h').symm

/-- Two stored series, one observed later than the other, merge into a series that does not
ascend. -/
theorem not_ascends_merged :
    ¬ ∀ display : UInt64 → String, regionStore.EveryStore plan (fun _ _ => True) fun s _ =>
      ∀ visit tenant name range filter,
        ∀ entry ∈ toMatrix display (selectedRows visit s.state tenant name range filter),
          entry.Ascends := by
  intro h
  obtain ⟨s, hup, hseries⟩ := run_regionEvents
  have hevery : Run.AllSteps (regionStore.step plan) (fun _ _ => True) (World.init _ _)
      regionEvents := Run.allSteps_of_forall (fun _ _ => trivial) _ _
  have hascends := h (fun _ => "1") _ s hevery hup
  have hagree : SecondsAgree s.state ⟨"acme"⟩ ⟨"load"⟩ .all ⟨[]⟩ :=
    ((series_ascend _ _ _ _ s hevery hup).matrix_ascends_iff _).mp
      fun visit => hascends visit _ _ _ _
  have hsecond := hagree _ _ _ _
    (selects_region hseries (.head _) (.head _) (by decide))
    (selects_region hseries (.tail _ (.head _)) (.head _) (by decide))
    (by decide) (by decide)
  exact absurd hsecond (by decide)

end Kaleidoscope.QueryApi
