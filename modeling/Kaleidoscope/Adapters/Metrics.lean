import Kaleidoscope.Durability.NonFinite
import Kaleidoscope.Pulse.Memory

/-!
# The two metric stores

As long as it is not reopened, the file-backed metric store keeps the series and the counts
that the in-memory store keeps, and reports the same on every ingest.
-/

namespace Kaleidoscope.Pulse

open Aegis HashMap

/-- The order in which `open` visits the keys. -/
abbrev SnapshotOrder := IterOrder Key SeriesEntry

/-- What an ingest reports: the points that it stored, which became visible unless they are at
`u64::MAX`, where no time range ends later. -/
def Reports (c : Call) (answer : Except MetricStoreError IngestReceipt) (before after : Inner) :
    Prop :=
  match c with
  | .ingest _ batch => ∃ receipt, answer = .ok receipt ∧
      pointCount after.series = pointCount before.series + receipt.count ∧
      ((∀ m ∈ batch.metrics, ∀ p ∈ m.points, p.timeUnixNano < u64Max) →
        ∀ order, visible order after = visible order before + receipt.count)

/-- Both stores answer every query with the same rows, and both keep their counts, the cap and
the order of time. -/
structure Lockstep (s : Store Inner) (m : Inner) : Prop where
  query_perm : ∀ (order order' : SnapshotOrder) tenant metricName range,
    (query order s.state tenant metricName range).Perm
      (InMemoryMetricStore.query order' m tenant metricName range)
  queryWith_perm : ∀ (order order' : SnapshotOrder) tenant metricName range predicate,
    (queryWith order s.state tenant metricName range predicate).Perm
      (InMemoryMetricStore.queryWith order' m tenant metricName range predicate)
  fileBacked : s.state.Kept
  inMemory : m.Kept

namespace InMemoryMetricStore

/-- An ingest keeps what the loop keeps. -/
theorem kept_ask {m : Inner} (h : m.Kept) (c : Call) : (ask m c).2.Kept := by
  obtain ⟨tenant, batch⟩ := c
  rw [ask, ingest_eq h.sortAll_eq]
  exact h.commitIngest tenant batch.metrics

/-- An ingest reports what it stored. -/
theorem reports_ask {m : Inner} (h : m.Kept) (c : Call) :
    Reports c (ask m c).1 m (ask m c).2 := by
  obtain ⟨tenant, batch⟩ := c
  rw [ask, ingest_eq h.sortAll_eq]
  refine ⟨_, rfl, ?_, fun hbefore order => visible_commitIngest order m tenant hbefore⟩
  rw [commitIngest, pointCount_sortAll, pointCount_applyIngest]

end InMemoryMetricStore

section FileBacked

variable (order : SnapshotOrder) (wal : LineSerde WalRecord) (snap : FileSerde Snapshot)

/-- An ingest of the file-backed store as a request, while no append fails. -/
def ask (store : Store Inner) : Call → Except MetricStoreError IngestReceipt × Store Inner
  | .ingest tenant batch => ingest order wal snap store tenant batch .none

/-- What the file-backed store reports on an action, if it is open. -/
def StoreReports (n : Node Inner) (a : Action Call SnapshotOrder) : Prop :=
  match n, a with
  | .up s, .request c =>
    Reports c (ask order wal snap s c).1 s.state (ask order wal snap s c).2.state
  | _, _ => True

/-- Only ingests are asked for, and their records serialise. -/
def IngestSerialises (n : Node Inner) (a : Action Call SnapshotOrder) : Prop :=
  (fileBackedMetricStore order wal snap).Serialises plan n a ∧ ∃ c, a = .request c

variable {order wal snap}

/-- An ingest answers and leaves memory as the in-memory store does. -/
theorem ask_eq {s : Store Inner} (hbuf : s.wal.buf = []) (hkept : s.state.Kept) {c : Call}
    (henc : (fileBackedMetricStore order wal snap).Encodable (plan c s.state).steps) :
    (ask order wal snap s c).1 = (InMemoryMetricStore.ask s.state c).1 ∧
      (ask order wal snap s c).2.state = (InMemoryMetricStore.ask s.state c).2 ∧
      (ask order wal snap s c).2.wal.buf = [] := by
  obtain ⟨tenant, batch⟩ := c
  obtain ⟨hresult, hstate, -, hnext⟩ :=
    (fileBackedMetricStore order wal snap).call_of_encodable hbuf henc
  rw [← Pillar.call_none] at hresult hstate hnext
  rw [InMemoryMetricStore.ask, InMemoryMetricStore.ingest_eq hkept.sortAll_eq]
  refine ⟨?_, ?_, hnext⟩
  · change Except.map _ _ = _
    rw [hresult]
    rfl
  · refine hstate.trans ?_
    rw [plan, ingestSteps]
    split_ifs with hempty
    · -- nothing is appended for an empty batch, and nothing would be filed
      have hnil : batch.metrics = [] := by simpa [MetricBatch.isEmpty] using hempty
      rw [hnil]
      exact (congrArg (fun series => { s.state with series }) hkept.sortAll_eq).symm
    · rfl

/-- The file-backed store is open and has what the in-memory store has. -/
def InStep (n : Node Inner) (m : Inner) : Prop :=
  ∃ s, n = .up s ∧ s.wal.buf = [] ∧ s.state = m ∧ m.Kept

theorem inStep_new :
    InStep ((fileBackedMetricStore order wal snap).openNode .none) .empty :=
  ⟨_, rfl, rfl, settle_empty order wal snap, kept_empty⟩

/-- An ingest keeps the stores in step, with the same receipt. -/
theorem InStep.ask {n : Node Inner} {m : Inner} (h : InStep n m)
    {a : Action Call SnapshotOrder} (ha : IngestSerialises order wal snap n a) :
    Pillar.reply (ask order wal snap) n a = Action.reply InMemoryMetricStore.ask m a ∧
      InStep ((fileBackedMetricStore order wal snap).perform (ask order wal snap) n a)
        (Action.perform InMemoryMetricStore.ask m a) := by
  obtain ⟨s, rfl, hbuf, rfl, hkept⟩ := h
  obtain ⟨henc, c, rfl⟩ := ha
  obtain ⟨hanswer, hstate, hnext⟩ := ask_eq hbuf hkept henc
  exact ⟨congrArg some hanswer, _, rfl, hnext, hstate,
    InMemoryMetricStore.kept_ask hkept c⟩

/-- It reports what it stored. -/
theorem InStep.reports {n : Node Inner} {m : Inner} (h : InStep n m)
    {a : Action Call SnapshotOrder} (ha : IngestSerialises order wal snap n a) :
    StoreReports order wal snap n a := by
  obtain ⟨s, rfl, hbuf, rfl, hkept⟩ := h
  obtain ⟨henc, c, rfl⟩ := ha
  obtain ⟨hanswer, hstate, -⟩ := ask_eq hbuf hkept henc
  rw [StoreReports, hanswer, hstate]
  exact InMemoryMetricStore.reports_ask hkept c

/-- Stores in step answer every query with the same rows. -/
theorem InStep.lockstep {n : Node Inner} {m : Inner} (h : InStep n m) :
    ∃ s, n = .up s ∧ Lockstep s m := by
  obtain ⟨s, rfl, -, rfl, hkept⟩ := h
  refine ⟨s, rfl, ?_, ?_, hkept, hkept⟩
  · exact fun order order' tenant metricName range =>
      (sameAnswers_of_series rfl order' order tenant metricName range).1
  · exact fun order order' tenant metricName range =>
      (sameAnswers_of_series rfl order' order tenant metricName range).2

/-- The steps of a run of ingests. -/
theorem allSteps_requests {calls : List Call} {n : Node Inner}
    (h : Run.AllSteps ((fileBackedMetricStore order wal snap).perform (ask order wal snap))
      ((fileBackedMetricStore order wal snap).Serialises plan) n (calls.map .request)) :
    Run.AllSteps ((fileBackedMetricStore order wal snap).perform (ask order wal snap))
      (IngestSerialises order wal snap) n (calls.map .request) := by
  induction calls generalizing n with
  | nil => trivial
  | cons c calls ih => exact ⟨⟨h.1, c, rfl⟩, ih h.2⟩

end FileBacked

/-- The in-memory store reports what it stored on every ingest of a run. -/
theorem inMemory_reports (calls : List Call) :
    Run.AllSteps (fun m c => (InMemoryMetricStore.ask m c).2)
      (fun m c => Reports c (InMemoryMetricStore.ask m c).1 m (InMemoryMetricStore.ask m c).2)
      .empty calls := by
  have hall : Run.AllSteps (fun m c => (InMemoryMetricStore.ask m c).2) (fun _ _ => True)
      .empty calls := Run.allSteps_of_forall (fun _ _ => trivial) _ _
  exact hall.imp (fun m c (hm : m.Kept) _ => InMemoryMetricStore.kept_ask hm c)
    (fun m c hm _ => InMemoryMetricStore.reports_ask hm c) kept_empty

/-- For every sequence of ingests both stores return the same receipts and answer every query
with the same rows, and both keep their counts, the cap and the order of time. A receipt counts
the points that were stored, and that became visible if none of them is at `u64::MAX`. -/
theorem metricStores_in_lockstep {order : SnapshotOrder} {wal : LineSerde WalRecord}
    {snap : FileSerde Snapshot} (calls : List Call)
    (h : Run.AllSteps ((fileBackedMetricStore order wal snap).perform (ask order wal snap))
      ((fileBackedMetricStore order wal snap).Serialises plan)
      ((fileBackedMetricStore order wal snap).openNode .none) (calls.map .request)) :
    Run.transcript ((fileBackedMetricStore order wal snap).perform (ask order wal snap))
        (Pillar.reply (ask order wal snap))
        ((fileBackedMetricStore order wal snap).openNode .none) (calls.map .request) =
      Run.transcript (Action.perform InMemoryMetricStore.ask)
        (Action.reply InMemoryMetricStore.ask) .empty
        (calls.map (.request : Call → Action Call SnapshotOrder)) ∧
    (∃ s, Run.run ((fileBackedMetricStore order wal snap).perform (ask order wal snap))
        ((fileBackedMetricStore order wal snap).openNode .none) (calls.map .request) = .up s ∧
      Lockstep s (Run.run (Action.perform InMemoryMetricStore.ask) .empty
        (calls.map (.request : Call → Action Call SnapshotOrder)))) ∧
    Run.AllSteps ((fileBackedMetricStore order wal snap).perform (ask order wal snap))
      (StoreReports order wal snap) ((fileBackedMetricStore order wal snap).openNode .none)
      (calls.map .request) ∧
    Run.AllSteps (fun m c => (InMemoryMetricStore.ask m c).2)
      (fun m c => Reports c (InMemoryMetricStore.ask m c).1 m (InMemoryMetricStore.ask m c).2)
      .empty calls := by
  have hsteps := allSteps_requests h
  have hkeep (n : Node Inner) (m : Inner) (a : Action Call SnapshotOrder) (hn : InStep n m)
      (ha : IngestSerialises order wal snap n a) :
      Pillar.reply (ask order wal snap) n a = Action.reply InMemoryMetricStore.ask m a ∧
        InStep ((fileBackedMetricStore order wal snap).perform (ask order wal snap) n a)
          (Action.perform InMemoryMetricStore.ask m a) := hn.ask ha
  obtain ⟨hreceipts, hlast⟩ := hsteps.simulates hkeep inStep_new
  refine ⟨hreceipts, hlast.lockstep, ?_, inMemory_reports calls⟩
  exact hsteps.imp (fun n a (hn : ∃ m, InStep n m) ha => ⟨_, (hn.choose_spec.ask ha).2⟩)
    (fun n a hn ha => hn.choose_spec.reports ha) ⟨_, inStep_new⟩

/-- Two ingests of the same gauge. -/
def loadCalls : List Call :=
  [ingestLoad (.finite 0x3FF0000000000000), ingestLoad (.finite 0x3FF0000000000000)]

/-- Both stores then hold both observations. -/
theorem loadCalls_in_lockstep :
    ∃ s, Run.run (loadStore.perform (ask (.unspecified _ _) (walSerde .ok loadLines.serde)
          (snapSerde .ok (.single ⟨[]⟩ []))))
        (loadStore.openNode .none) (loadCalls.map .request) = .up s ∧
      Lockstep s (Run.run (Action.perform InMemoryMetricStore.ask) .empty
        (loadCalls.map (.request : Call → Action Call SnapshotOrder))) :=
  (metricStores_in_lockstep loadCalls (by decide +kernel)).2.1

/-- An observation at `u64::MAX` is counted in the receipt, and no query shows it. -/
theorem unseen_point :
    ¬∀ (order : SnapshotOrder) (calls : List Call) (tenant : TenantId) (batch : MetricBatch)
        (receipt : IngestReceipt),
      let m := Run.run (fun m c => (InMemoryMetricStore.ask m c).2) .empty calls
      (InMemoryMetricStore.ingest m tenant batch).1 = .ok receipt →
        visible order (InMemoryMetricStore.ingest m tenant batch).2 =
          visible order m + receipt.count := by
  intro h
  let gauge : Metric := { loadOf F64.nan with points := [⟨u64Max, 0, .empty, .nan⟩] }
  have hingest := InMemoryMetricStore.ingest_eq kept_empty.sortAll_eq ⟨"acme"⟩ ⟨[gauge]⟩
  have hvisible := h (.unspecified _ _) [] ⟨"acme"⟩ ⟨[gauge]⟩ ⟨1, 0⟩ (congrArg Prod.fst hingest)
  rw [Run.run_nil, hingest, visible_eq, visible_eq, commitIngest, pointsWhere_sortAll] at hvisible
  have hfiled := pointsWhere_file (fun p => TimeRange.all.contains p.timeUnixNano) ∅ ⟨"acme"⟩ gauge
  have hunseen : gauge.points.filter (fun p => TimeRange.all.contains p.timeUnixNano) = [] := by
    decide
  rw [hunseen] at hfiled
  exact absurd (hvisible.symm.trans hfiled) (by decide)

end Kaleidoscope.Pulse
