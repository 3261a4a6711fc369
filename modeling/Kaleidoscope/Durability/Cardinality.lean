import Kaleidoscope.Durability.NonFinite
import Kaleidoscope.Durability.TornTail
import Kaleidoscope.Pulse.Restart

/-!
# The cardinality cap across restarts

The log has the metrics that were refused at the cap, and replay does not enforce the cap.
A restart brings back what live ingest refused, unless a snapshot has dropped it from the log.
-/

namespace Kaleidoscope.Pulse

open Aegis HashMap StableSort Utf8

/-- An event of the metric store. -/
abbrev MetricEvent := Event Call (IterOrder Key SeriesEntry)

/-- A world with the number of points that the receipts reported. -/
structure Receipted where
  world : World Inner WalRecord
  stored : Nat

/-- Nothing was ever written, or reported. -/
def Receipted.init : Receipted := ⟨World.init _ _, 0⟩

section Runs

variable (p : F64 → Prop) (order : IterOrder Key SeriesEntry) (wal : LineSerde WalRecord)
  (snap : FileSerde Snapshot)

/-- The points that the receipt of an event reports. -/
def reported (w : World Inner WalRecord) (e : MetricEvent) : Nat :=
  match w.node, e with
  | .up s, .call (.ingest tenant batch) faults =>
    match (ingest order wal snap s tenant batch (faults.headD .none)).1 with
    | .ok receipt => receipt.count
    | .error _ => 0
  | _, _ => 0

/-- One event, with its receipt. -/
def receipt (v : Receipted) (e : MetricEvent) : Receipted :=
  ⟨(fileBackedMetricStore order wal snap).step plan v.world e,
    v.stored + reported order wal snap v.world e⟩

/-- Orderly events whose values have the property, where no store is closed whose log has a
metric that was refused. -/
def ClosesComplete (v : Receipted) (e : MetricEvent) : Prop :=
  e.Orderly ∧ e.Calls (Call.AllValues p) ∧
    ∀ s, v.world.node = .up s → e = .close → NoneRefused wal s

/-- A state holds exactly what live ingest accepted of a ledger and reported, within the cap. -/
structure HoldsAccepted (inner : Inner) (ledger : List WalRecord) (stored : Nat) : Prop where
  series : inner.series = (ingestAll ledger).series
  points : pointCount inner.series = stored
  capped : ∀ t, seriesCount inner.series t ≤ maxSeriesPerTenant

/-- A store that is dropped and opened again has its series and gives its answers. -/
def ReopensAlike (s : Store Inner) : Prop :=
  ∃ s', (fileBackedMetricStore order wal snap).openWithFsyncBackend s.drop = .ok s' ∧
    s'.state.series = s.state.series ∧ SameAnswers s.state s'.state

/-- An open store, or the store that the files of a closed one open to, holds exactly what
live ingest accepted. -/
def RestartFidelity (v : Receipted) : Prop :=
  match v.world.node with
  | .up s => HoldsAccepted s.state v.world.ledger v.stored
  | .down f => ∃ s, (fileBackedMetricStore order wal snap).openWithFsyncBackend f = .ok s ∧
      HoldsAccepted s.state v.world.ledger v.stored

/-- An ingest without faults whose batch serialises logs, files and reports it. -/
theorem ingest_ok {s : Store Inner} (hbuf : s.wal.buf = []) {tenant : TenantId}
    {batch : MetricBatch} {t : Text} (hne : ¬ batch.isEmpty = true)
    (ht : wal.toString (.ingest tenant batch.metrics) = .ok t) (ledger : List WalRecord) :
    let ran := (fileBackedMetricStore order wal snap).call
      (plan (.ingest tenant batch) s.state) [] s
    ran.logged = [.ingest tenant batch.metrics] ∧
      ran.store.state = commitIngest tenant batch.metrics s.state ∧
      reported order wal snap ⟨.up s, ledger⟩ (.call (.ingest tenant batch) []) =
        (applyIngest s.state tenant batch.metrics true).2.stored := by
  have hwal : s.wal = ⟨s.wal.file, []⟩ := by rw [← hbuf]
  have ht' : (fileBackedMetricStore order wal snap).walSerde.toString
      (.ingest tenant batch.metrics) = .ok t := ht
  simp only [reported, ingest, Pillar.call, plan, ingestSteps, if_neg hne, Pillar.runSteps,
    List.headD_nil, List.headD_cons]
  rw [hwal, appendWal_new _ _ _ ht']
  exact ⟨rfl, rfl, rfl⟩

/-- Any other ingest without faults does nothing. -/
theorem ingest_cases {s : Store Inner} (hbuf : s.wal.buf = []) (tenant : TenantId)
    (batch : MetricBatch) (ledger : List WalRecord) :
    let ran := (fileBackedMetricStore order wal snap).call
      (plan (.ingest tenant batch) s.state) [] s
    let count := reported order wal snap ⟨.up s, ledger⟩ (.call (.ingest tenant batch) [])
    (ran.logged = [] ∧ ran.store.state = s.state ∧ count = 0) ∨
      (ran.logged = [.ingest tenant batch.metrics] ∧
        ran.store.state = commitIngest tenant batch.metrics s.state ∧
        count = (applyIngest s.state tenant batch.metrics true).2.stored) := by
  by_cases hempty : batch.isEmpty = true
  · left
    simp only [reported, ingest, Pillar.call, plan, ingestSteps, if_pos hempty]
    rw [MetricBatch.isEmpty, List.isEmpty_iff] at hempty
    rw [hempty]
    exact ⟨rfl, rfl, rfl⟩
  · cases ht : (fileBackedMetricStore order wal snap).walSerde.toString
      (.ingest tenant batch.metrics) with
    | error e =>
      left
      simp only [reported, ingest, Pillar.call, plan, ingestSteps, if_neg hempty,
        Pillar.runSteps, List.headD_nil, List.headD_cons]
      rw [appendWal_error _ _ _ ht]
      exact ⟨rfl, rfl, rfl⟩
    | ok t => exact Or.inr (ingest_ok order wal snap hbuf hempty ht ledger)

/-- Kept over a run: memory, or what the files replay to, is what live ingest accepted. -/
def Faithfully (v : Receipted) : Prop :=
  ∃ i, (refinement p order wal snap Content.Forgets).Stands v.world.ledger v.world.node i ∧
    Refinement.Tidy v.world ∧ (∀ r ∈ v.world.ledger, r.AllValues p) ∧
    pointCount (ingestAll v.world.ledger).series = v.stored ∧
    match v.world.node with
    | .up s => s.state.Agree (ingestAll v.world.ledger)
    | .down _ => sortAll i.series = (ingestAll v.world.ledger).series

variable {p order wal snap}

theorem faithfully_init : Faithfully p order wal snap .init :=
  ⟨.fresh ∅, (refinement p order wal snap Content.Forgets).holds_none, Refinement.tidy_init,
    by simp [Receipted.init, World.init], rfl, rfl⟩

/-- Opening files that replay to what live ingest accepted. -/
theorem agree_of_opens {ledger : List WalRecord} {f : Files} {i : Content}
    (h : (refinement p order wal snap Content.Forgets).Holds ledger f i)
    (hfinite : ∀ r ∈ ledger, r.AllValues p) (hseries : sortAll i.series = (ingestAll ledger).series) :
    ∃ s, (fileBackedMetricStore order wal snap).openWithFsyncBackend f = .ok s ∧
      s.state.Agree (ingestAll ledger) := by
  obtain ⟨s, hs, hsorted, hcounts⟩ := reopens h
  have heq : s.state.series = (ingestAll ledger).series := hsorted.trans hseries
  refine ⟨s, hs, heq, fun t => ?_⟩
  rw [(indexes_ingestAll hfinite).counts, ← heq, Inner.count, hcounts, count_rebuilt]

/-- One ingest without faults on a store that has what live ingest accepted. -/
theorem Faithfully.ingest (order : IterOrder Key SeriesEntry) (wal : LineSerde WalRecord)
    (snap : FileSerde Snapshot) {s : Store Inner} {ledger : List WalRecord} {stored : Nat}
    {tenant : TenantId} {batch : MetricBatch} (hbuf : s.wal.buf = [])
    (hcall : Call.AllValues p (.ingest tenant batch)) (hfinite : ∀ r ∈ ledger, r.AllValues p)
    (hpoints : pointCount (ingestAll ledger).series = stored)
    (hagree : s.state.Agree (ingestAll ledger)) :
    let ran := (fileBackedMetricStore order wal snap).call
      (plan (.ingest tenant batch) s.state) [] s
    let count := reported order wal snap ⟨.up s, ledger⟩ (.call (.ingest tenant batch) [])
    (∀ r ∈ ledger ++ ran.logged, r.AllValues p) ∧
      pointCount (ingestAll (ledger ++ ran.logged)).series = stored + count ∧
        ran.store.state.Agree (ingestAll (ledger ++ ran.logged)) := by
  intro ran count
  rcases ingest_cases order wal snap hbuf tenant batch ledger with
    ⟨hlogged, hstate, hcount⟩ | ⟨hlogged, hstate, hcount⟩
  · rw [hlogged, hstate, List.append_nil, show count = 0 from hcount]
    exact ⟨hfinite, hpoints, hagree⟩
  · have hnext := hagree.commitIngest tenant batch.metrics
    rw [hlogged, hstate, show count = _ from hcount, ingestAll_snoc]
    refine ⟨fun r hr => ?_, ?_, hnext⟩
    · rcases List.mem_append.mp hr with hr | hr
      · exact hfinite r hr
      · obtain rfl := List.mem_singleton.mp hr
        exact hcall
    · calc pointCount (commitIngest tenant batch.metrics (ingestAll ledger)).series
          = pointCount (applyIngest s.state tenant batch.metrics true).1.series := by
            rw [← hnext.1]
            exact pointCount_sortAll _
        _ = stored + (applyIngest s.state tenant batch.metrics true).2.stored := by
            rw [pointCount_applyIngest, hagree.1, hpoints]

/-- An event that closes no store over refused metrics keeps it. -/
theorem Faithfully.step (hwal : ∀ r : WalRecord, r.AllValues p → wal.Faithful r)
    (hsnap : ∀ snapshot : Snapshot, snapshot.AllValues p → snap.Faithful snapshot) {v : Receipted}
    {e : MetricEvent} (h : Faithfully p order wal snap v) (he : ClosesComplete p wal v e) :
    Faithfully p order wal snap (receipt order wal snap v e) := by
  let R := refinement p order wal snap Content.Forgets
  have hR : R.Restores := restores hsnap
  obtain ⟨⟨node, ledger⟩, stored⟩ := v
  obtain ⟨i, hstands, htidy, hfinite, hpoints, hnode⟩ := h
  obtain ⟨horderly, hcalls, hcloses⟩ := he
  have hgentle : R.Gentle plan ⟨node, ledger⟩ e :=
    R.gentle_of_orderly (fun {s c i} _ hcall h => by subst hcall; exact legal hwal hcalls [] h)
      horderly
  have htidy' := Refinement.Tidy.step R htidy hgentle
  obtain ⟨rs, j, hledger, -, hj⟩ :=
    Refinement.Stands.step R hstands (Refinement.Gentle.sound R hR htidy hgentle)
  rw [← hledger] at hj
  cases node with
  | down f =>
    cases e with
    | openStore =>
      obtain ⟨s, hs, hagree⟩ := agree_of_opens hstands hfinite hnode
      obtain ⟨s', hs', hserves⟩ := hstands.opens
      obtain rfl : s' = s := Except.ok.inj (hs'.symm.trans hs)
      simp only [receipt, Pillar.step, hs] at htidy' ⊢
      exact ⟨i, hserves, htidy', hfinite, hpoints, hagree⟩
    | _ => exact ⟨i, hstands, htidy, hfinite, hpoints, hnode⟩
  | up s =>
    cases e with
    | openStore => exact ⟨i, hstands, htidy, hfinite, hpoints, hnode⟩
    | close =>
      have hseries : sortAll i.series = s.state.series :=
        (sortAll_series_eq_iff hstands htidy.2).mpr (hcloses s rfl rfl)
      exact ⟨i, hstands.drop, htidy', hfinite, hpoints, hseries.trans hnode.1⟩
    | call c faults =>
      obtain rfl : faults = [] := horderly
      obtain ⟨tenant, batch⟩ := c
      obtain ⟨hfinite', hpoints', hagree⟩ := Faithfully.ingest order wal snap
        hstands.unbuffered hcalls hfinite hpoints hnode
      exact ⟨j, hj, htidy', hfinite', hpoints', hagree⟩
    | crash c done n => exact absurd horderly id
    | snapshot order' =>
      refine ⟨j, hj, htidy', hfinite, hpoints, ?_⟩
      change ((fileBackedMetricStore order wal snap).snapshot order' s).2.state.Agree _
      rw [Pillar.state_snapshot]
      exact hnode
    | crashInSnapshot order' k => exact absurd horderly id

/-- A state that agrees with the ingests holds what live ingest accepted. -/
theorem holdsAccepted_of_agree {inner : Inner} {ledger : List WalRecord} {stored : Nat}
    (h : inner.Agree (ingestAll ledger)) (hfinite : ∀ r ∈ ledger, r.AllValues p)
    (hpoints : pointCount (ingestAll ledger).series = stored) :
    HoldsAccepted inner ledger stored where
  series := h.1
  points := by rw [h.1, hpoints]
  capped t := by
    rw [h.1, ← (indexes_ingestAll hfinite).counts]
    exact count_ingestAll_le ledger t

/-- A store reopens alike exactly when no metric of its log was refused. -/
theorem reopensAlike_iff {ledger : List WalRecord} {s : Store Inner} {i : Content}
    (h : (refinement p order wal snap Content.Forgets).Serves ledger s i)
    (hterm : Terminated s.wal.file) :
    ReopensAlike order wal snap s ↔ NoneRefused wal s := by
  obtain ⟨s', hs', hsorted, -⟩ := reopens h.drop
  rw [← sortAll_series_eq_iff h hterm, ← hsorted]
  constructor
  · rintro ⟨s'', hs'', hseries, -⟩
    obtain rfl : s'' = s' := Except.ok.inj (hs''.symm.trans hs')
    exact hseries
  · exact fun hseries => ⟨s', hs', hseries, sameAnswers_of_series hseries⟩

end Runs

/-- In every run of calls with values that the reader gives back, snapshots, opens and closes
that closes no store over refused metrics, every store that is open, or opened from the files,
holds exactly what live ingest accepted and reported, within the cap; and a store reopens alike
exactly when no metric of its log was refused. -/
theorem metricStore_restartFidelity {order : IterOrder Key SeriesEntry} {read : NumberReader}
    {text : LineSerde (WalRecordOf JsonNumber)} {snapText : FileSerde (SnapshotOf JsonNumber)}
    (htext : ∀ doc, text.Faithful doc) (hsnapText : ∀ doc, snapText.Faithful doc)
    {events : List MetricEvent}
    (hevents : Run.AllSteps (receipt order (walSerde read text) (snapSerde read snapText))
      (ClosesComplete (F64.ReadsBack read) (walSerde read text)) .init events) :
    let v := Run.run (receipt order (walSerde read text) (snapSerde read snapText)) .init events
    RestartFidelity order (walSerde read text) (snapSerde read snapText) v ∧
      ∀ s, v.world.node = .up s →
        (ReopensAlike order (walSerde read text) (snapSerde read snapText) s ↔
          NoneRefused (walSerde read text) s) := by
  intro v
  have hv : Faithfully (F64.ReadsBack read) order (walSerde read text) (snapSerde read snapText) v :=
    hevents.invariant (fun _ _ hv he => hv.step (fun _ hr => walSerde_faithful htext hr)
      (fun _ hk => snapSerde_faithful hsnapText hk) he) faithfully_init
  obtain ⟨i, hstands, htidy, hfinite, hpoints, hnode⟩ := hv
  rw [RestartFidelity]
  cases hn : v.world.node with
  | up s =>
    rw [hn] at hstands hnode
    rw [Refinement.Tidy, hn] at htidy
    refine ⟨holdsAccepted_of_agree hnode hfinite hpoints, fun s' hs' => ?_⟩
    obtain rfl := Node.up.inj hs'
    exact reopensAlike_iff hstands htidy.2
  | down f =>
    rw [hn] at hstands hnode
    obtain ⟨s, hs, hagree⟩ := agree_of_opens hstands hfinite hnode
    exact ⟨⟨s, hs, holdsAccepted_of_agree hagree hfinite hpoints⟩, by simp⟩

/-- A first batch with more series than the cap has all of them after a restart. -/
theorem not_restartFidelity_of_crowd {order : IterOrder Key SeriesEntry} {read : NumberReader}
    {text : LineSerde (WalRecordOf JsonNumber)} (htext : ∀ doc, text.Faithful doc)
    (snap : FileSerde Snapshot) {tenant : TenantId} {metrics : List Metric} {t : Text}
    (hvalues : ∀ m ∈ metrics, AllValues (F64.ReadsBack read) m.points)
    (ht : (walSerde read text).toString (.ingest tenant metrics) = .ok t)
    (hmany : maxSeriesPerTenant < (metrics.map SeriesKey.of).toFinset.card) :
    ¬ RestartFidelity order (walSerde read text) snap
      (Run.run (receipt order (walSerde read text) snap) .init
        [.openStore, .call (.ingest tenant ⟨metrics⟩) [], .close]) := by
  let P := fileBackedMetricStore order (walSerde read text) snap
  let events : List MetricEvent := [.openStore, .call (.ingest tenant ⟨metrics⟩) [], .close]
  let s₀ : Store Inner := ⟨P.settle P.empty, none, none, BufWriter.new []⟩
  have hne : ¬ (MetricBatch.mk metrics).isEmpty = true := by
    intro hempty
    rw [MetricBatch.isEmpty, List.isEmpty_iff] at hempty
    change metrics = [] at hempty
    rw [hempty] at hmany
    simp at hmany
  have hledger : (Run.run (P.step plan) (World.init _ _) events).ledger =
      [.ingest tenant metrics] :=
    (ingest_ok order _ snap (s := s₀) rfl hne ht []).1
  have hsteps : Run.AllSteps (P.step plan)
      (fun w e => e.Calls (Call.AllValues (F64.ReadsBack read)) ∧ TerminatedCrashes plan w e)
      (World.init _ _) events :=
    ⟨⟨trivial, trivial, trivial⟩, ⟨hvalues, rfl, fun _ => Or.inl rfl⟩,
      ⟨trivial, trivial, trivial⟩, trivial⟩
  obtain ⟨s, hs, hholds⟩ := Pulse.recovers order snap htext events hsteps
  rintro ⟨s', hs', haccepted⟩
  obtain rfl : s' = s := Except.ok.inj (hs'.symm.trans hs)
  -- replay has filed the whole batch
  have hcount : seriesCount s'.state.series tenant = (metrics.map SeriesKey.of).toFinset.card := by
    rw [hholds, hledger, List.flatMap_singleton, seriesCount_sortAll]
    exact seriesCount_fileAll tenant metrics
  have hcapped := haccepted.capped tenant
  omega

/-- The gauge is ingested, and once more after a restart. -/
def loadEvents : List MetricEvent :=
  [.openStore, .call (ingestLoad (.finite 0x3FF0000000000000)) [], .close, .openStore,
    .call (ingestLoad (.finite 0x3FF0000000000000)) []]

/-- One ingest below the cap files the gauge. -/
theorem lookup_commitIngest_load (value : F64) {inner : Inner}
    (h : inner.count ⟨"acme"⟩ < maxSeriesPerTenant) :
    (commitIngest ⟨"acme"⟩ [loadOf value] inner).series.lookup
      (⟨"acme"⟩, SeriesKey.of (loadOf value)) ≠ none := by
  have hrefuses : ¬ inner.Refuses ⟨"acme"⟩ (loadOf value) := fun hr => absurd hr.2 (by omega)
  have hfiled : (applyIngest inner ⟨"acme"⟩ [loadOf value] true).1.series =
      file inner.series ⟨"acme"⟩ (loadOf value) := by
    simp [applyIngest, applyMetric, hrefuses]
  rw [commitIngest, hfiled, sortAll, lookup_mapValues, lookup_file, if_pos rfl]
  exact Option.some_ne_none _

set_option maxRecDepth 4000 in
/-- Nothing is refused, and the store holds what was accepted. -/
theorem loadStore_restartFidelity :
    RestartFidelity (.unspecified _ _) (walSerde .ok loadLines.serde)
        (snapSerde .ok (.single ⟨[]⟩ []))
        (Run.run (receipt (.unspecified _ _) (walSerde .ok loadLines.serde)
          (snapSerde .ok (.single ⟨[]⟩ []))) .init loadEvents) := by
  have hvalues : Call.AllValues (F64.ReadsBack .ok) (ingestLoad (.finite 0x3FF0000000000000)) := by
    intro m hm p hp
    obtain rfl := List.mem_singleton.mp hm
    obtain rfl := List.mem_singleton.mp hp
    exact ⟨_, rfl, rfl⟩
  have hcloses (s : Store Inner) (hs : s.state.series.lookup
        (⟨"acme"⟩, SeriesKey.of (loadOf (F64.finite 0x3FF0000000000000))) ≠ none)
      (hwal : (walSerde .ok loadLines.serde).records s.wal.file =
        [.ingest ⟨"acme"⟩ [loadOf (.finite 0x3FF0000000000000)]]) :
      NoneRefused (walSerde .ok loadLines.serde) s := by
    intro e he
    rw [hwal] at he
    obtain rfl := List.mem_singleton.mp he
    exact Option.isSome_iff_ne_none.mpr hs
  have hevents : Run.AllSteps
      (receipt (.unspecified _ _) (walSerde .ok loadLines.serde) (snapSerde .ok (.single ⟨[]⟩ [])))
      (ClosesComplete (F64.ReadsBack .ok) (walSerde .ok loadLines.serde)) .init loadEvents := by
    refine ⟨⟨trivial, trivial, nofun⟩, ⟨rfl, hvalues, nofun⟩, ⟨trivial, trivial, ?_⟩,
      ⟨trivial, trivial, nofun⟩, ⟨rfl, hvalues, nofun⟩, trivial⟩
    rintro s hs -
    obtain rfl := Node.up.inj hs
    refine hcloses _ (lookup_commitIngest_load _ ?_) (by decide +kernel)
    -- the store was opened without files
    change ((rebuilt _ ∅).lookup _).getD 0 < maxSeriesPerTenant
    rw [count_rebuilt]
    decide
  exact (metricStore_restartFidelity loadLines.faithful (FileSerde.single_faithful _ _)
    hevents).1

/-- A gauge whose name has the given number of letters. -/
def seriesOf {V : Type} (value : V) (k : Nat) : MetricOf V :=
  { loadOf value with name := ⟨String.ofList (List.replicate k 'm')⟩ }

/-- One gauge more than a tenant may have series. -/
def crowd {V : Type} (value : V) : List (MetricOf V) :=
  (List.range (maxSeriesPerTenant + 1)).map (seriesOf value)

/-- The JSON of such a gauge. -/
def seriesText (k : Nat) : Text :=
  chars "\x7b\"name\":\"" rfl ++ List.replicate k 'm' ++
    chars "\",\"description\":\"\",\"unit\":\"1\",\"kind\":\"Gauge\",\"points\":[" rfl ++
    chars "\x7b\"time_unix_nano\":1,\"start_time_unix_nano\":0," rfl ++
    chars "\"attributes\":\x7b\x7d,\"value\":1.0\x7d]," rfl ++
    chars "\"resource_attributes\":\x7b\x7d\x7d" rfl

/-- The JSON of a log line with all of them. -/
def crowdText : Text :=
  chars "\x7b\"op\":\"ingest\",\"tenant\":\"acme\",\"metrics\":[" rfl ++
    [','].intercalate ((List.range (maxSeriesPerTenant + 1)).map seriesText) ++ chars "]\x7d" rfl

theorem all_intercalate {p : Char → Bool} {sep : Text} {ts : List Text} (hsep : sep.all p = true)
    (hts : ∀ t ∈ ts, t.all p = true) : (sep.intercalate ts).all p = true := by
  induction ts with
  | nil => rfl
  | cons t ts ih =>
    obtain ⟨ht, hts⟩ := List.forall_mem_cons.mp hts
    cases ts with
    | nil => simpa using ht
    | cons t' ts =>
      rw [List.intercalate_cons_cons, List.all_append, List.all_append, ht, hsep, ih hts]
      rfl

theorem plain_seriesText (k : Nat) : (seriesText k).all plain = true := by
  have hname : (List.replicate k 'm').all plain = true := by
    rw [List.all_eq_true]
    intro c hc
    obtain rfl := List.eq_of_mem_replicate hc
    rfl
  simp only [seriesText, List.all_append, hname, Bool.and_true, Bool.and_eq_true]
  decide +kernel

theorem plain_crowdText : crowdText.all plain = true := by
  have hmetrics : ([','].intercalate ((List.range (maxSeriesPerTenant + 1)).map
      seriesText)).all plain = true := by
    refine all_intercalate rfl fun t ht => ?_
    obtain ⟨k, -, rfl⟩ := List.mem_map.mp ht
    exact plain_seriesText k
  simp only [crowdText, List.all_append, hmetrics, Bool.and_true, Bool.and_eq_true]
  decide +kernel

theorem crowdText_ne_nil : crowdText ≠ [] := by
  rw [crowdText, List.append_assoc]
  exact List.append_ne_nil_of_left_ne_nil (by simp [chars]) _

/-- That line. -/
def crowdLine : LineTable (WalRecordOf JsonNumber) :=
  .single (.ingest ⟨"acme"⟩ (crowd (.number 0x3FF0000000000000))) crowdText plain_crowdText
    crowdText_ne_nil

theorem card_crowd (value : F64) :
    ((crowd value).map SeriesKey.of).toFinset.card = maxSeriesPerTenant + 1 := by
  have hinj : Function.Injective fun k => SeriesKey.of (seriesOf value k) := by
    intro k k' h
    have hname := congrArg (fun key => key.name.name.toList.length) h
    simpa [SeriesKey.of, seriesOf] using hname
  have hnodup : ((crowd value).map SeriesKey.of).Nodup := by
    rw [crowd, List.map_map]
    exact (List.nodup_range).map hinj
  rw [List.toFinset_card_of_nodup hnodup, List.length_map, crowd, List.length_map,
    List.length_range]

/-- One batch past the cap breaks the cap at the next restart. -/
theorem not_restartFidelity_past_cap :
    ¬ ∀ events : List MetricEvent,
      (∀ e ∈ events, e.Orderly ∧ e.Calls (Call.AllValues (F64.ReadsBack .ok))) →
        RestartFidelity (.unspecified _ _) (walSerde .ok crowdLine.serde)
          (snapSerde .ok (.single ⟨[]⟩ []))
          (Run.run (receipt (.unspecified _ _) (walSerde .ok crowdLine.serde)
            (snapSerde .ok (.single ⟨[]⟩ []))) .init events) := by
  intro h
  have hvalues : ∀ m ∈ crowd (.finite 0x3FF0000000000000),
      AllValues (F64.ReadsBack .ok) m.points := by
    intro m hm p hp
    obtain ⟨k, -, rfl⟩ := List.mem_map.mp hm
    obtain rfl := List.mem_singleton.mp hp
    exact ⟨_, rfl, rfl⟩
  have hdoc : (WalRecordOf.ingest ⟨"acme"⟩ (crowd (.finite 0x3FF0000000000000)) : WalRecord).map
      F64.toJson = .ingest ⟨"acme"⟩ (crowd (.number 0x3FF0000000000000)) := by
    rw [WalRecordOf.map, crowd, crowd, List.map_map]
    rfl
  have ht : (walSerde .ok crowdLine.serde).toString
      (.ingest ⟨"acme"⟩ (crowd (.finite 0x3FF0000000000000))) = .ok crowdText := by
    rw [walSerde_toString, hdoc, crowdLine, LineTable.toString_single]
  have hmany : maxSeriesPerTenant <
      ((crowd (F64.finite 0x3FF0000000000000)).map SeriesKey.of).toFinset.card := by
    rw [card_crowd]
    exact Nat.lt_succ_self _
  generalize crowd (F64.finite 0x3FF0000000000000) = metrics at hvalues ht hmany
  refine not_restartFidelity_of_crowd crowdLine.faithful _ hvalues ht hmany (h _ ?_)
  exact List.forall_mem_cons.mpr ⟨⟨trivial, trivial⟩, List.forall_mem_cons.mpr
    ⟨⟨rfl, hvalues⟩, List.forall_mem_cons.mpr ⟨⟨trivial, trivial⟩, by simp⟩⟩⟩

end Kaleidoscope.Pulse
