import Kaleidoscope.Ray.Memory
import Kaleidoscope.Wal.Session
import Kaleidoscope.Wal.Table

/-!
# The two indices of the trace store

Only the index by trace is part of a snapshot. After every series of ingests, snapshots and
reopens both indices hold the ingested spans, and each bucket is in the order of time.
-/

namespace Kaleidoscope.Ray

open Aegis HashMap StableSort Utf8

/-- The orders in which a snapshot visits the traces. -/
abbrev SnapshotOrder := IterOrder (TenantId × TraceId) (List Span)

/-- The spans in the buckets by trace of a tenant, visited in an order. -/
def spansOf (order : SnapshotOrder) (indices : Indices) (tenant : TenantId) : List Span :=
  (order.entries indices.byTrace).flatMap fun e => if e.1.1 = tenant then e.2 else []

/-- The spans an action ingests. -/
def ingestedBy : Action Call SnapshotOrder → List (TenantId × Span)
  | .request (.ingest tenant batch) => batch.spans.map fun span => (tenant, span)
  | _ => []

/-- What actions ingest. -/
def ingestedIn (actions : List (Action Call SnapshotOrder)) : List (TenantId × Span) :=
  actions.flatMap ingestedBy

/-- The indices hold what was ingested and agree on it. -/
structure NoDrift (indices : Indices) (ingested : List (TenantId × Span)) : Prop where
  /-- The bucket of a service holds the spans of that service in the buckets by trace. -/
  byService : ∀ order tenant service, service.name ≠ "" →
    (bucket indices.byService (tenant, service)).Perm
      ((spansOf order indices tenant).filter fun span => span.serviceName = service.name)
  /-- It holds no other spans, and a span without a service is in none of them. -/
  named : ∀ tenant service, ∀ span ∈ bucket indices.byService (tenant, service),
    span.serviceName = service.name ∧ span.serviceName ≠ ""
  /-- The bucket of a trace holds its ingested spans, each as often as it was ingested. -/
  byTrace : ∀ tenant traceId, (bucket indices.byTrace (tenant, traceId)).Perm
    ((ingested.filter fun e => e.1 = tenant ∧ e.2.traceId = traceId).map Prod.snd)
  /-- Every bucket is in the order of time. -/
  sorted : ∀ k, (indices.bucket k).Pairwise fun a b => a.startTimeUnixNano ≤ b.startTimeUnixNano

/-- Every bucket holds what the ingested spans file under its key. -/
def HoldsIngested (indices : Indices) (ingested : List (TenantId × Span)) : Prop :=
  ∀ k, (indices.bucket k).Perm (valuesAt k (itemsOf ingested))

/-- The buckets by trace of a tenant hold its ingested spans. -/
theorem spansOf_perm (order : SnapshotOrder) {indices : Indices}
    {ingested : List (TenantId × Span)} (h : HoldsIngested indices ingested)
    (tenant : TenantId) : (spansOf order indices tenant).Perm (valuesAt tenant ingested) := by
  have htenants := (spans_filings order h).filterMap
    fun e => if e.1 = tenant then some e.2 else none
  refine .trans (.of_eq ?_) htenants
  rw [spansOf, filings, List.map_flatMap, List.filterMap_flatMap]
  refine List.flatMap_congr fun e _ => ?_
  have hbucket := valuesAt_map_pair tenant e.1.1 e.2
  rw [List.map_map]
  exact hbucket.symm

/-- Indices that hold what was ingested do not drift. -/
theorem noDrift_of_holds {indices : Indices} {ingested : List (TenantId × Span)}
    (h : HoldsIngested indices ingested)
    (hsorted : ∀ k, (indices.bucket k).Pairwise
      fun a b => a.startTimeUnixNano ≤ b.startTimeUnixNano) : NoDrift indices ingested where
  byService order tenant service hname := by
    have hservice := h (.inr (tenant, service))
    rw [valuesAt_serviceItems] at hservice
    refine hservice.trans (.trans (.of_eq ?_) ((spansOf_perm order h tenant).filter _).symm)
    refine List.filter_congr fun span _ => ?_
    by_cases hs : span.serviceName = service.name
    · simp [hs, hname]
    · simp [hs]
  named tenant service span hspan := by
    have hservice := (h (.inr (tenant, service))).subset hspan
    rw [valuesAt_serviceItems] at hservice
    simpa only [decide_eq_true_eq] using List.of_mem_filter hservice
  byTrace tenant traceId := by
    rw [← valuesAt_traceItems]
    exact h (.inl (tenant, traceId))
  sorted := hsorted

section FileBacked

variable (wal : LineSerde WalRecord) (snap : FileSerde Snapshot)

/-- An ingest of the file-backed store as a request, while no append fails. -/
def ask (store : Store Indices) : Call → Except TraceStoreError IngestReceipt × Store Indices
  | .ingest tenant batch => ingest wal snap store tenant batch .none

/-- The list of all ingested spans takes the same requests. -/
def record (ingested : List (TenantId × Span)) :
    Call → Except TraceStoreError IngestReceipt × List (TenantId × Span)
  | .ingest tenant batch =>
    (.ok ⟨batch.len⟩, ingested ++ batch.spans.map fun span => (tenant, span))

theorem run_record (actions : List (Action Call SnapshotOrder))
    (ingested : List (TenantId × Span)) :
    Run.run (Action.perform record) ingested actions = ingested ++ ingestedIn actions := by
  induction actions generalizing ingested with
  | nil => exact (List.append_nil _).symm
  | cons a actions ih =>
    have hcons : ingestedIn (a :: actions) = ingestedBy a ++ ingestedIn actions :=
      List.flatMap_cons
    rw [Run.run_cons, ih, hcons, ← List.append_assoc]
    congr 1
    cases a with
    | request c => rfl
    | snapshot order => exact (List.append_nil _).symm
    | reopen => exact (List.append_nil _).symm

variable {wal snap}

/-- An ingest files its spans in both indices, whether or not the batch is empty. -/
theorem holdsIngested_outcome {indices : Indices} {i : List WalRecord}
    (hlive : (appendOnly wal snap).refinement.live indices i) {ingested : List (TenantId × Span)}
    (h : HoldsIngested indices ingested) (tenant : TenantId) (batch : SpanBatch) :
    HoldsIngested (plan (.ingest tenant batch) indices).outcome
      (ingested ++ batch.spans.map fun span => (tenant, span)) := by
  intro k
  rw [valuesAt_itemsOf_append, plan, ingestSteps]
  by_cases hempty : batch.isEmpty
  · rw [if_pos hempty]
    have hnil : batch.spans = [] := by simpa [SpanBatch.isEmpty] using hempty
    have hnone : valuesAt k (itemsOf (batch.spans.map fun span => (tenant, span))) = [] := by
      rw [hnil]
      rfl
    rw [hnone, List.append_nil]
    exact h k
  · rw [if_neg hempty]
    refine .trans (.of_eq (bucket_sortTouched hlive.2 tenant batch.spans k)) ?_
    exact (sortByKey_perm _ _).trans ((h k).append_right _)

/-- Replay rebuilds both indices from one: each bucket holds the same spans. -/
theorem holdsIngested_reopened {indices d : Indices} {i : List WalRecord}
    (hlive : (appendOnly wal snap).refinement.live indices i)
    (hd : (appendOnly wal snap).refinement.disk d i) {ingested : List (TenantId × Span)}
    (h : HoldsIngested indices ingested) :
    HoldsIngested ((fileBackedTraceStore wal snap).settle d) ingested := by
  intro k
  have hdisk : (d.bucket k).Perm _ := hd k
  have hmemory : (indices.bucket k).Perm _ := hlive.1 k
  refine .trans (.of_eq (bucket_sortAll d k)) ((sortByKey_perm _ _).trans ?_)
  exact hdisk.trans (hmemory.symm.trans (h k))

/-- At the end of every run the file-backed store is in service and holds what was ingested. -/
theorem holdsIngested_run (hwal : ∀ r, wal.Faithful r) (hsnap : ∀ k, snap.Faithful k)
    {actions : List (Action Call SnapshotOrder)}
    (h : Run.AllSteps ((fileBackedTraceStore wal snap).perform (ask wal snap))
      ((fileBackedTraceStore wal snap).Serialises plan)
      ((fileBackedTraceStore wal snap).openNode .none) actions) :
    (appendOnly wal snap).refinement.Agrees HoldsIngested
      (Run.run ((fileBackedTraceStore wal snap).perform (ask wal snap))
        ((fileBackedTraceStore wal snap).openNode .none) actions)
      (Run.run (Action.perform record) [] actions) := by
  have hR : (appendOnly wal snap).refinement.Restores := (appendOnly wal snap).restores hsnap
  refine ((appendOnly wal snap).refinement.simulates record [] hR
    (fun {ledger s i m c} hservice hagree henc => ?_)
    (fun hlive hdisk hagree => holdsIngested_reopened hlive hdisk hagree) (fun k => ?_) h).2
  · obtain ⟨tenant, batch⟩ := c
    obtain ⟨hresult, hstate, j, -, hnext⟩ := hservice.succeeds hR
      (fun hlive => legal wal snap hwal _ [] _ _ hlive) henc
    refine ⟨?_, ?_, _, j, hnext⟩
    · change Except.map _ _ = _
      rw [hresult]
      rfl
    · change HoldsIngested (Pillar.call _ _ _ _).store.state _
      rw [hstate]
      exact holdsIngested_outcome hservice.live hagree tenant batch
  · have hempty : ((fileBackedTraceStore wal snap).settle Indices.empty).bucket k = [] :=
      (bucket_sortAll .empty k).trans (by cases k <;> rfl)
    exact .of_eq hempty

end FileBacked

/-- For every series of ingests, snapshots and reopens the file-backed store is open and its
indices hold the ingested spans without drift. -/
theorem indices_never_drift {wal : LineSerde WalRecord} {snap : FileSerde Snapshot}
    (hwal : ∀ r, wal.Faithful r) (hsnap : ∀ k, snap.Faithful k)
    (actions : List (Action Call SnapshotOrder))
    (h : Run.AllSteps ((fileBackedTraceStore wal snap).perform (ask wal snap))
      ((fileBackedTraceStore wal snap).Serialises plan)
      ((fileBackedTraceStore wal snap).openNode .none) actions) :
    ∃ s, Run.run ((fileBackedTraceStore wal snap).perform (ask wal snap))
        ((fileBackedTraceStore wal snap).openNode .none) actions = .up s ∧
      NoDrift s.state (ingestedIn actions) := by
  obtain ⟨s, ledger, i, hs, hservice, hholds⟩ := holdsIngested_run hwal hsnap h
  rw [run_record, List.nil_append] at hholds
  exact ⟨s, hs, noDrift_of_holds hholds hservice.live.2⟩

/-- A span of a service. -/
def checkout : Span where
  traceId := ⟨.replicate 16 0⟩
  spanId := ⟨.replicate 8 0⟩
  parentSpanId := none
  name := "GET"
  kind := .server
  startTimeUnixNano := 1
  endTimeUnixNano := 2
  status := ⟨.unset, ""⟩
  attributes := .empty
  resourceAttributes := .single "service.name" "checkout"
  events := []
  links := []

/-- An earlier span of the same trace, of another service. -/
def cart : Span :=
  { checkout with
    spanId := ⟨.replicate 8 1⟩
    startTimeUnixNano := 0
    resourceAttributes := .single "service.name" "cart" }

/-- The JSON of the log lines that ingest them. -/
def checkoutLines : LineTable WalRecord where
  rows :=
    [(.ingest ⟨"acme"⟩ [checkout],
      chars "\x7b\"op\":\"ingest\",\"tenant\":\"acme\",\"spans\":[" rfl ++
        chars "\x7b\"trace_id\":\"00000000000000000000000000000000\"," rfl ++
        chars "\"span_id\":\"0000000000000000\",\"parent_span_id\":null," rfl ++
        chars "\"name\":\"GET\",\"kind\":\"Server\",\"start_time_unix_nano\":1," rfl ++
        chars "\"end_time_unix_nano\":2,\"status\":\x7b\"code\":\"Unset\"," rfl ++
        chars "\"message\":\"\"\x7d,\"attributes\":\x7b\x7d,\"resource_attributes\":" rfl ++
        chars "\x7b\"service.name\":\"checkout\"\x7d,\"events\":[],\"links\":[]\x7d]\x7d" rfl),
    (.ingest ⟨"acme"⟩ [cart],
      chars "\x7b\"op\":\"ingest\",\"tenant\":\"acme\",\"spans\":[" rfl ++
        chars "\x7b\"trace_id\":\"00000000000000000000000000000000\"," rfl ++
        chars "\"span_id\":\"0101010101010101\",\"parent_span_id\":null," rfl ++
        chars "\"name\":\"GET\",\"kind\":\"Server\",\"start_time_unix_nano\":0," rfl ++
        chars "\"end_time_unix_nano\":2,\"status\":\x7b\"code\":\"Unset\"," rfl ++
        chars "\"message\":\"\"\x7d,\"attributes\":\x7b\x7d,\"resource_attributes\":" rfl ++
        chars "\x7b\"service.name\":\"cart\"\x7d,\"events\":[],\"links\":[]\x7d]\x7d" rfl)]
  ascii := by decide +kernel
  oneLine := by decide +kernel
  prefixFree := by decide +kernel

/-- The snapshot of their trace. -/
def checkoutSnapshot : Snapshot := ⟨[⟨⟨"acme"⟩, checkout.traceId, [cart, checkout]⟩]⟩

/-- The bytes of that snapshot. -/
def checkoutBytes : Bytes :=
  asBytes (chars "\x7b\"traces\":[\x7b\"tenant\":\"acme\"," rfl ++
        chars "\"trace_id\":\"00000000000000000000000000000000\",\"spans\":[" rfl ++
        chars "\x7b\"trace_id\":\"00000000000000000000000000000000\"," rfl ++
        chars "\"span_id\":\"0101010101010101\",\"parent_span_id\":null," rfl ++
        chars "\"name\":\"GET\",\"kind\":\"Server\",\"start_time_unix_nano\":0," rfl ++
        chars "\"end_time_unix_nano\":2,\"status\":\x7b\"code\":\"Unset\"," rfl ++
        chars "\"message\":\"\"\x7d,\"attributes\":\x7b\x7d,\"resource_attributes\":" rfl ++
        chars "\x7b\"service.name\":\"cart\"\x7d,\"events\":[],\"links\":[]\x7d," rfl ++
        chars "\x7b\"trace_id\":\"00000000000000000000000000000000\"," rfl ++
        chars "\"span_id\":\"0000000000000000\",\"parent_span_id\":null," rfl ++
        chars "\"name\":\"GET\",\"kind\":\"Server\",\"start_time_unix_nano\":1," rfl ++
        chars "\"end_time_unix_nano\":2,\"status\":\x7b\"code\":\"Unset\"," rfl ++
        chars "\"message\":\"\"\x7d,\"attributes\":\x7b\x7d,\"resource_attributes\":" rfl ++
        chars "\x7b\"service.name\":\"checkout\"\x7d,\"events\":[],\"links\":[]\x7d]\x7d]\x7d" rfl)

/-- A trace store for these. -/
abbrev checkoutStore : Pillar Indices WalRecord Snapshot TraceStoreError SnapshotOrder :=
  fileBackedTraceStore checkoutLines.serde (.single checkoutSnapshot checkoutBytes)

/-- An ingest of each span, with a reopen between them. -/
def checkoutIngests : List (Action Call SnapshotOrder) :=
  [.request (.ingest ⟨"acme"⟩ ⟨[checkout]⟩), .reopen, .request (.ingest ⟨"acme"⟩ ⟨[cart]⟩)]

/-- A snapshot, a reopen from it and an empty ingest follow. -/
noncomputable def checkoutActions : List (Action Call SnapshotOrder) :=
  checkoutIngests ++ .snapshot (.unspecified _ _) ::
    [.reopen, .request (.ingest ⟨"acme"⟩ ⟨[]⟩)]

/-- The store when the snapshot is taken. -/
def checkoutOpen : Store Indices where
  state :=
    { byTrace := (∅ : HashMap _ _).insert (⟨"acme"⟩, checkout.traceId) [cart, checkout]
      byService :=
        ((∅ : HashMap _ _).insert (⟨"acme"⟩, ⟨"checkout"⟩) [checkout]).insert
          (⟨"acme"⟩, ⟨"cart"⟩) [cart] }
  snapshot := none
  tmp := none
  wal := ⟨checkoutLines.rows.flatMap fun e => wireLine e.2, []⟩

set_option maxRecDepth 4000 in
theorem run_checkoutIngests : Run.run (checkoutStore.perform
      (ask checkoutLines.serde (.single checkoutSnapshot checkoutBytes)))
    (checkoutStore.openNode .none) checkoutIngests = .up checkoutOpen := by rfl

theorem toWriter_checkoutOpen (order : SnapshotOrder) :
    checkoutStore.snapSerde.toWriter (checkoutStore.capture order checkoutOpen.state) =
      .ok checkoutBytes := by
  have hentries : order.entries checkoutOpen.state.byTrace =
      [((⟨"acme"⟩, checkout.traceId), [cart, checkout])] :=
    order.entries_singleton fun key => by
      rw [checkoutOpen, lookup_insert_ite, Finmap.lookup_empty]
  have hcapture : toSnapshot order checkoutOpen.state = checkoutSnapshot := by
    rw [toSnapshot, hentries]
    rfl
  exact (congrArg _ hcapture).trans (FileSerde.single_toWriter _ _)

/-- The indices then hold both spans under their trace, and each under its service. -/
theorem checkoutActions_noDrift :
    ∃ s, Run.run (checkoutStore.perform
          (ask checkoutLines.serde (.single checkoutSnapshot checkoutBytes)))
        (checkoutStore.openNode .none) checkoutActions = .up s ∧
      NoDrift s.state (ingestedIn checkoutActions) :=
  indices_never_drift checkoutLines.faithful (FileSerde.single_faithful _ _) checkoutActions
    (checkoutStore.allSteps_snapshot _ run_checkoutIngests (toWriter_checkoutOpen _)
      (by decide +kernel) trivial (by decide +kernel))

end Kaleidoscope.Ray
