import Kaleidoscope.Adapters.Logs
import Kaleidoscope.Cli.Batches

/-!
# Ingests and reads of one data directory

An input is taken whole or refused whole. Of the batches nothing shows but the numbers an
ingest reports: what a tenant reads depends on the records and on their order alone, and what
it reads can be ingested again.
-/

namespace Kaleidoscope.Cli

open Utf8 Aegis HashMap StableSort Lumen

/-- The lines `ingest` reads from its input. -/
def inputLines (input : Bytes) : List (Except String Text) :=
  (bufReaderLines input).map fun line =>
    match line with
    | some line => .ok line
    | none => .error "stream did not contain valid UTF-8"

/-- The JSON of a record on its own, and of what the two stores write. -/
structure Codecs where
  json : LineSerde LogRecord
  lumenWal : LineSerde Lumen.WalRecord
  lumenSnap : FileSerde Lumen.Snapshot
  cinderWal : LineSerde Cinder.WalRecord
  cinderSnap : FileSerde Cinder.Snapshot

/-- An `ingest` whose appends meet no fault, with the clock it reads at each flush. -/
structure IngestCall where
  tenant : TenantId
  batchSize : Nat
  input : Bytes
  clock : Nat → Cinder.SystemTime

/-- What `read` fails with. -/
inductive ReadError where
  | lumenOpen (error : LogStoreError)
  | serialiseRecord (error : String)

namespace Codecs

variable (c : Codecs)

/-- `ingest`, with the directory it leaves. -/
def ingest (dir : DataDir) (call : IngestCall) : Except Error IngestStats × DataDir :=
  let (result, dir, _) := ingestLines c.json.fromStr c.lumenWal c.lumenSnap c.cinderWal
    c.cinderSnap call.tenant call.batchSize (inputLines call.input)
    (fun batchSeq => ⟨.none, .none, call.clock batchSeq⟩) dir
  (result, dir)

/-- The loop of `read`: one line for each record, until one does not serialise. -/
def writeRecords : List LogRecord → Except ReadError Unit × Bytes
  | [] => (.ok (), [])
  | record :: rest =>
    match c.json.toString record with
    | .error e => (.error (.serialiseRecord e), [])
    | .ok line =>
      let (result, written) := writeRecords rest
      (result, wireLine line ++ written)

/-- `read`, with the bytes it writes and the directory it leaves. -/
def read (dir : DataDir) (tenant : TenantId) (range : TimeRange) :
    Except ReadError Nat × Bytes × DataDir :=
  match (fileBackedLogStore c.lumenWal c.lumenSnap).openWithFsyncBackend dir.lumen with
  | .error e => (.error (.lumenOpen e), [], dir)
  | .ok lumen =>
    let records := query lumen tenant range
    let (result, written) := c.writeRecords records
    (result.map fun _ => records.length, written, { dir with lumen := lumen.drop })

/-- What an operator sees of it. -/
def answer (dir : DataDir) (tenant : TenantId) (range : TimeRange) :
    Except ReadError Nat × Bytes :=
  ((c.read dir tenant range).1, (c.read dir tenant range).2.1)

/-- An empty data directory. -/
def emptyDir : DataDir := World.init.dir

/-- The directory a sequence of ingests leaves. -/
def ingestAll (calls : List IngestCall) : DataDir :=
  Run.run (fun dir call => (c.ingest dir call).2) emptyDir calls

/-- A line is blank or a record. -/
def LineFits : Except String Text → Prop
  | .ok line => line.all isWhitespace = true ∨ (c.json.fromStr line).isOk = true
  | .error _ => False

instance : DecidablePred c.LineFits := fun line => by
  unfold LineFits
  cases line <;> infer_instance

/-- The record of a line, if it has one. -/
def lineRecord : Except String Text → Option LogRecord
  | .ok line => if line.all isWhitespace then none else (c.json.fromStr line).toOption
  | .error _ => none

/-- The records an ingest adds: those of its lines, if every line fits. -/
def accepted (call : IngestCall) : List LogRecord :=
  if ∀ line ∈ inputLines call.input, c.LineFits line then
    (inputLines call.input).filterMap c.lineRecord
  else []

/-- Those it adds for a tenant. -/
def addedFor (call : IngestCall) (tenant : TenantId) : List LogRecord :=
  if call.tenant = tenant then c.accepted call else []

/-- The records a sequence of ingests adds for a tenant, in the order of the input. -/
def acceptedFor (calls : List IngestCall) (tenant : TenantId) : List LogRecord :=
  calls.flatMap fun call => c.addedFor call tenant

/-- The encodings do what `serde_json` does: what they write reads back, and a record that was
read can be written, as an object. -/
structure Reliable : Prop where
  json : ∀ r, c.json.Faithful r
  lumenWal : ∀ r, c.lumenWal.Faithful r
  lumenSnap : ∀ k, c.lumenSnap.Faithful k
  cinderWal : ∀ r, c.cinderWal.Faithful r
  cinderSnap : ∀ k, c.cinderSnap.Faithful k
  writesObject : ∀ line r, c.json.fromStr line = .ok r →
    ∃ t, c.json.toString r = .ok t ∧ t.head? = some '\x7b'

/-- The batches are not empty, and each line the ingest logs serialises. -/
structure Loggable (call : IngestCall) : Prop where
  batchSize_pos : 0 < call.batchSize
  ingests : ∀ chunk ∈ (c.accepted call).toChunks call.batchSize,
    ∃ t, c.lumenWal.toString (.ingest call.tenant chunk) = .ok t
  places : ∀ batchSeq < ((c.accepted call).toChunks call.batchSize).length,
    ∃ t, c.cinderWal.toString
      (.place call.tenant (batchItem call.tenant batchSeq) .hot (call.clock batchSeq)) = .ok t

end Codecs

/-- The same bytes, a log that is missing being an empty one. -/
def SameFiles (f g : Files) : Prop :=
  f.snapshot = g.snapshot ∧ f.tmp = g.tmp ∧ f.wal.getD [] = g.wal.getD []

/-- The same files in both stores. -/
def DataDir.Same (dir dir' : DataDir) : Prop :=
  SameFiles dir.lumen dir'.lumen ∧ SameFiles dir.cinder dir'.cinder

/-- The records of a range, by observed time, those of one time in the order in which they
came. -/
structure Listing (added : List LogRecord) (range : TimeRange) (records : List LogRecord) :
    Prop where
  sorted : records.Pairwise fun a b => a.observedTimeUnixNano ≤ b.observedTimeUnixNano
  ties : ∀ t, (records.filter fun r => r.observedTimeUnixNano = t) =
    added.filter fun r => range.contains r.observedTimeUnixNano ∧ r.observedTimeUnixNano = t


/-- What an ingest does to a directory: with a line that does not fit it fails, names the first
such line and changes neither store, and otherwise it counts every record. -/
structure AllOrNothing (c : Codecs) (dir : DataDir) (call : IngestCall) : Prop where
  malformed : ∀ fitting line rest e,
    inputLines call.input = fitting ++ .ok line :: rest → (∀ l ∈ fitting, c.LineFits l) →
      ¬ line.all isWhitespace = true → c.json.fromStr line = .error e →
        (c.ingest dir call).1 = .error (.parseRecord (fitting.length + 1) e) ∧
          (c.ingest dir call).2.Same dir
  unreadable : ∀ fitting rest e,
    inputLines call.input = fitting ++ .error e :: rest → (∀ l ∈ fitting, c.LineFits l) →
      (c.ingest dir call).1 = .error (.io e) ∧ (c.ingest dir call).2.Same dir
  accepted : (∀ line ∈ inputLines call.input, c.LineFits line) →
    ∃ stats, (c.ingest dir call).1 = .ok stats ∧
      stats.recordsIngested = (c.accepted call).length

section Parsing

variable {c : Codecs}

/-- Lines that fit are parsed to their records. -/
theorem parseAll_append {lines : List (Except String Text)} (h : ∀ l ∈ lines, c.LineFits l)
    (rest : List (Except String Text)) (idx : Nat) :
    parseAll c.json.fromStr idx (lines ++ rest) =
      (parseAll c.json.fromStr (idx + lines.length) rest).map
        (lines.filterMap c.lineRecord ++ ·) := by
  induction lines generalizing idx with
  | nil => cases hrest : parseAll c.json.fromStr idx rest <;> simp [Except.map, hrest]
  | cons l lines ih =>
    obtain ⟨hl, hlines⟩ := List.forall_mem_cons.mp h
    have hidx : idx + (l :: lines).length = idx + 1 + lines.length := by
      rw [List.length_cons]
      omega
    rw [hidx]
    cases l with
    | error e => exact absurd hl id
    | ok line =>
      rw [List.cons_append, parseAll]
      by_cases hblank : line.all isWhitespace = true
      · have hnone : c.lineRecord (.ok line) = none := by simp [Codecs.lineRecord, hblank]
        rw [if_pos hblank, ih hlines, List.filterMap_cons_none hnone]
      · rw [if_neg hblank]
        obtain ⟨record, hrecord⟩ : ∃ record, c.json.fromStr line = .ok record := by
          have hok := hl.resolve_left hblank
          cases hf : c.json.fromStr line with
          | error e => simp [hf, Except.isOk, Except.toBool] at hok
          | ok record => exact ⟨record, rfl⟩
        have hsome : c.lineRecord (.ok line) = some record := by
          simp [Codecs.lineRecord, hblank, hrecord, Except.toOption]
        simp only [hrecord, ih hlines]
        rw [List.filterMap_cons_some hsome]
        cases parseAll c.json.fromStr (idx + 1 + lines.length) rest <;> rfl

theorem parseAll_fits {lines : List (Except String Text)} (h : ∀ l ∈ lines, c.LineFits l) :
    parseAll c.json.fromStr 0 lines = .ok (lines.filterMap c.lineRecord) := by
  have happend := parseAll_append h [] 0
  rw [List.append_nil] at happend
  simpa [parseAll, Except.map] using happend

/-- The first line that does not fit decides. -/
theorem parseAll_malformed {fitting rest : List (Except String Text)} {line : Text} {e : String}
    (h : ∀ l ∈ fitting, c.LineFits l) (hblank : ¬ line.all isWhitespace = true)
    (he : c.json.fromStr line = .error e) :
    parseAll c.json.fromStr 0 (fitting ++ .ok line :: rest) =
      .error (.parseRecord (fitting.length + 1) e) := by
  rw [parseAll_append h, Nat.zero_add, parseAll, if_neg hblank]
  simp only [he, Except.map]

theorem parseAll_unreadable {fitting rest : List (Except String Text)} {e : String}
    (h : ∀ l ∈ fitting, c.LineFits l) :
    parseAll c.json.fromStr 0 (fitting ++ .error e :: rest) = .error (.io e) := by
  rw [parseAll_append h]
  rfl

end Parsing

section Stores

variable {c : Codecs}

/-- Opening a store and dropping it changes no byte of its files. -/
theorem sameFiles_of_open {σ ρ κ ε ω : Type} {P : Pillar σ ρ κ ε ω} {f : Files} {s : Store σ}
    (h : P.openWithFsyncBackend f = .ok s) : SameFiles s.drop f := by
  rw [P.openWithFsyncBackend_eq] at h
  cases hload : (P.loadSnapshot f).bind (P.replay (f.wal.getD [])) with
  | error e => simp [hload, Except.map] at h
  | ok state =>
    rw [hload] at h
    obtain rfl := Except.ok.inj h
    exact ⟨rfl, rfl, by simp [Store.drop, BufWriter.drop, BufWriter.new]⟩

/-- An open log store in which every append has succeeded, and what it files. -/
structure LogServes (c : Codecs) (lumen : Store PerTenant)
    (filed : TenantId → List LogRecord) : Prop where
  inService : ∃ ledger i,
    (appendOnly c.lumenWal c.lumenSnap).refinement.InService ledger lumen i
  buckets : ∀ t, bucket lumen.state t = sortBucket (filed t)

/-- A data directory from which both stores open. -/
structure Serves (c : Codecs) (dir : DataDir) (filed : TenantId → List LogRecord) : Prop where
  lumen : ∃ lumen,
    (fileBackedLogStore c.lumenWal c.lumenSnap).openWithFsyncBackend dir.lumen = .ok lumen ∧
      LogServes c lumen filed
  cinder : ∃ cinder,
    (Cinder.fileBackedTieringStore c.cinderWal c.cinderSnap).openWithFsyncBackend dir.cinder =
      .ok cinder ∧ Serving c.cinderWal c.cinderSnap cinder

theorem LogServes.reopen {lumen : Store PerTenant} {filed : TenantId → List LogRecord}
    (h : LogServes c lumen filed) :
    ∃ lumen', (fileBackedLogStore c.lumenWal c.lumenSnap).openWithFsyncBackend lumen.drop =
      .ok lumen' ∧ LogServes c lumen' filed := by
  obtain ⟨⟨ledger, i, hservice⟩, hbuckets⟩ := h
  obtain ⟨d, lumen', hd, hopen, hstate, hservice'⟩ := hservice.reopen
  refine ⟨lumen', Pillar.openWithFsyncBackend_of_openNode _ hopen, ⟨ledger, i, hservice'⟩,
    fun t => ?_⟩
  rw [hstate, bucket_reopened hservice.live hd, hbuckets]

theorem serves_emptyDir : Serves c Codecs.emptyDir fun _ => [] where
  lumen := ⟨_, rfl, ⟨[], _, (appendOnly c.lumenWal c.lumenSnap).refinement.inService_new⟩,
    fun _ => rfl⟩
  cinder := ⟨_, serving_new.1, serving_new.2⟩

/-- What two stores leave behind when they are dropped. -/
theorem LogServes.serves_drop {lumen : Store PerTenant} {filed : TenantId → List LogRecord}
    (h : LogServes c lumen filed) {cinder : Store Cinder.Entries}
    (hcinder : Serving c.cinderWal c.cinderSnap cinder) :
    Serves c ⟨lumen.drop, cinder.drop⟩ filed := by
  obtain ⟨cinder', hopen, -, hserving⟩ := hcinder.reopen
  exact ⟨h.reopen, cinder', hopen, hserving⟩

/-- An ingest of a batch files its records. -/
theorem LogServes.ingest (hc : c.Reliable) {lumen : Store PerTenant}
    {filed : TenantId → List LogRecord} (h : LogServes c lumen filed) {tenant : TenantId}
    {batch : List LogRecord} (henc : ∃ t, c.lumenWal.toString (.ingest tenant batch) = .ok t) :
    ∃ lumen', Lumen.ingest c.lumenWal c.lumenSnap lumen tenant ⟨batch⟩ .none =
        (.ok ⟨batch.length⟩, lumen') ∧
      LogServes c lumen' fun t => filed t ++ if tenant = t then batch else [] := by
  obtain ⟨⟨ledger, i, hservice⟩, hbuckets⟩ := h
  have hsteps : (fileBackedLogStore c.lumenWal c.lumenSnap).Encodable
      (plan (.ingest tenant ⟨batch⟩) lumen.state).steps := by
    intro step hstep
    rw [plan, ingestSteps] at hstep
    split_ifs at hstep
    · exact absurd hstep List.not_mem_nil
    · rwa [List.mem_singleton.mp hstep]
  obtain ⟨hresult, hstate, j, -, hservice'⟩ := hservice.succeeds
    ((appendOnly c.lumenWal c.lumenSnap).restores hc.lumenSnap)
    (fun hlive => legal _ _ hc.lumenWal (.ingest tenant ⟨batch⟩) [] _ _ hlive) hsteps
  refine ⟨_, ?_, ⟨_, j, hservice'⟩, fun t => ?_⟩
  · rw [Lumen.ingest, hresult]
    rfl
  · rw [hstate, bucket_outcome hservice.live]
    by_cases ht : t = tenant
    · subst ht
      rw [if_pos rfl, if_pos rfl, hbuckets]
      exact sortByKey_append_left _ _ _
    · rw [if_neg ht, if_neg (Ne.symm ht), List.append_nil, hbuckets]

/-- A placement succeeds. -/
theorem Serving.place_ok (hc : c.Reliable) {cinder : Store Cinder.Entries}
    (h : Serving c.cinderWal c.cinderSnap cinder) {tenant : TenantId} {item : Cinder.ItemId}
    {now : Cinder.SystemTime}
    (henc : ∃ t, c.cinderWal.toString (.place tenant item .hot now) = .ok t) :
    ∃ cinder', Cinder.place c.cinderWal c.cinderSnap cinder tenant item .hot now .none =
      (.ok (), cinder') ∧ Serving c.cinderWal c.cinderSnap cinder' := by
  have hsteps : (Cinder.fileBackedTieringStore c.cinderWal c.cinderSnap).Encodable
      (Cinder.plan (.place tenant item .hot now) cinder.state).steps := by
    intro step hstep
    rwa [List.mem_singleton.mp hstep]
  obtain ⟨ledger, hservice⟩ := id h
  have hresult := (Pillar.call_of_encodable _ hservice.unbuffered hsteps).1
  rw [← Pillar.call_none] at hresult
  exact ⟨_, Prod.ext hresult rfl, h.call hc.cinderWal hc.cinderSnap (.place tenant item .hot now)
    fun _ _ => ⟨.inl trivial, fun _ => trivial⟩⟩

/-- The sections of a list are the list. -/
theorem flatten_toChunks {α : Type} (n : Nat) (l : List α) : (l.toChunks n).flatten = l := by
  have hgo : ∀ (xs : List α) (acc₁ : Array α) (acc₂ : Array (List α)),
      (List.toChunks.go n xs acc₁ acc₂).flatten = acc₂.toList.flatten ++ acc₁.toList ++ xs := by
    intro xs
    induction xs with
    | nil => simp [List.toChunks.go]
    | cons x xs ih =>
      intro acc₁ acc₂
      rw [List.toChunks.go]
      split_ifs <;> simp [ih]
  cases l with
  | nil => cases n <;> rfl
  | cons x xs =>
    cases n with
    | zero => simp [List.toChunks]
    | succ n => simp [List.toChunks, hgo]

/-- The open stores of an ingest in progress. -/
structure Progress.Serves (c : Codecs) (p : Progress) (filed : TenantId → List LogRecord) :
    Prop where
  lumen : LogServes c p.lumen filed
  cinder : Serving c.cinderWal c.cinderSnap p.cinder

/-- A flush files its batch and counts it. -/
theorem Progress.Serves.flush (hc : c.Reliable) {p : Progress}
    {filed : TenantId → List LogRecord} (h : p.Serves c filed) {tenant : TenantId}
    {batch : List LogRecord} {now : Cinder.SystemTime}
    (hlog : ∃ t, c.lumenWal.toString (.ingest tenant batch) = .ok t)
    (hplace : ∃ t, c.cinderWal.toString
      (.place tenant (batchItem tenant p.stats.batchesFlushed) .hot now) = .ok t) :
    ∃ p', Cli.flush c.lumenWal c.lumenSnap c.cinderWal c.cinderSnap tenant ⟨.none, .none, now⟩
        batch p = (.ok (), p') ∧
      p'.Serves c (fun t => filed t ++ if tenant = t then batch else []) ∧
      p'.stats = ⟨p.stats.recordsIngested + batch.length, p.stats.batchesFlushed,
        p.stats.tierItemsPlaced + 1⟩ := by
  obtain ⟨lumen', hingest, hlumen⟩ := h.lumen.ingest hc hlog
  obtain ⟨cinder', hplaced, hcinder⟩ := Serving.place_ok hc h.cinder hplace
  rw [Cli.flush, hingest]
  simp only [hplaced]
  exact ⟨_, rfl, ⟨hlumen, hcinder⟩, rfl⟩

/-- Flushing one chunk after the other files them all. -/
theorem Progress.Serves.flushAll (hc : c.Reliable) {tenant : TenantId}
    {clock : Nat → Cinder.SystemTime} {chunks : List (List LogRecord)} {p : Progress}
    {filed : TenantId → List LogRecord} (h : p.Serves c filed)
    (hlog : ∀ chunk ∈ chunks, ∃ t, c.lumenWal.toString (.ingest tenant chunk) = .ok t)
    (hplace : ∀ k < chunks.length, ∃ t, c.cinderWal.toString
      (.place tenant (batchItem tenant (p.stats.batchesFlushed + k)) .hot
        (clock (p.stats.batchesFlushed + k))) = .ok t) :
    ∃ p', Cli.flushAll c.lumenWal c.lumenSnap c.cinderWal c.cinderSnap tenant
        (fun batchSeq => ⟨.none, .none, clock batchSeq⟩) chunks p = (.ok (), p') ∧
      p'.Serves c (fun t => filed t ++ if tenant = t then chunks.flatten else []) ∧
      p'.stats.recordsIngested = p.stats.recordsIngested + chunks.flatten.length := by
  induction chunks generalizing p filed with
  | nil => exact ⟨p, rfl, by simpa using h, rfl⟩
  | cons chunk rest ih =>
    have hfirst := hplace 0 (by simp)
    rw [Nat.add_zero] at hfirst
    obtain ⟨p₁, hflush, hserves, hstats⟩ := h.flush hc (hlog chunk List.mem_cons_self) hfirst
    obtain ⟨p₂, hrest, hserves', hrecords⟩ := ih
      (p := { p₁ with stats := { p₁.stats with batchesFlushed := p₁.stats.batchesFlushed + 1 } })
      ⟨hserves.lumen, hserves.cinder⟩ (fun chunk' hm => hlog chunk' (List.mem_cons_of_mem _ hm))
      fun k hk => by
        have hnext := hplace (k + 1) (by simpa using hk)
        rw [hstats, Nat.add_assoc, Nat.add_comm 1]
        exact hnext
    refine ⟨p₂, ?_, ?_, ?_⟩
    · rw [Cli.flushAll, hflush]
      exact hrest
    · convert hserves' using 2 with t
      by_cases ht : tenant = t <;> simp [ht]
    · rw [hrecords, hstats, List.flatten_cons, List.length_append, Nat.add_assoc]

/-- An ingest that parses files its records and counts them. -/
theorem Serves.ingest_fits (hc : c.Reliable) {dir : DataDir} {filed : TenantId → List LogRecord}
    (h : Serves c dir filed) {call : IngestCall} (hcall : c.Loggable call)
    (hfits : ∀ line ∈ inputLines call.input, c.LineFits line) :
    ∃ stats dir', c.ingest dir call = (.ok stats, dir') ∧
      stats.recordsIngested = (c.accepted call).length ∧
      Serves c dir' fun t => filed t ++ c.addedFor call t := by
  obtain ⟨⟨lumen, hopen, hlumen⟩, cinder, hopen', hcinder⟩ := h
  have haccepted : c.accepted call = (inputLines call.input).filterMap c.lineRecord := if_pos hfits
  have hprogress : Progress.Serves c ⟨lumen, cinder, ⟨0, 0, 0⟩, []⟩ filed := ⟨hlumen, hcinder⟩
  have hplaces : ∀ k < ((c.accepted call).toChunks call.batchSize).length,
      ∃ t, c.cinderWal.toString (.place call.tenant (batchItem call.tenant (0 + k)) .hot
        (call.clock (0 + k))) = .ok t := fun k hk => by simpa using hcall.places k hk
  obtain ⟨p, hflush, hserves, hrecords⟩ := hprogress.flushAll hc hcall.ingests hplaces
  rw [flatten_toChunks] at hserves hrecords
  rw [haccepted] at hflush
  rw [Codecs.ingest, ingestLines, hopen, hopen', parseAll_fits hfits]
  simp only [hflush]
  exact ⟨_, _, rfl, by simpa using hrecords, hserves.lumen.serves_drop hserves.cinder⟩

/-- One that does not parse leaves the files as they are. -/
theorem Serves.ingest_refused {dir : DataDir} {filed : TenantId → List LogRecord}
    (h : Serves c dir filed) {call : IngestCall} {e : Error}
    (he : parseAll c.json.fromStr 0 (inputLines call.input) = .error e) :
    ∃ dir', c.ingest dir call = (.error e, dir') ∧ dir'.Same dir ∧ Serves c dir' filed := by
  obtain ⟨⟨lumen, hopen, hlumen⟩, cinder, hopen', hcinder⟩ := h
  rw [Codecs.ingest, ingestLines, hopen, hopen', he]
  exact ⟨_, rfl, ⟨sameFiles_of_open hopen, sameFiles_of_open hopen'⟩, hlumen.serves_drop hcinder⟩

/-- Lines that do not all fit have a first that does not. -/
theorem exists_first_unfit {lines : List (Except String Text)}
    (h : ¬ ∀ line ∈ lines, c.LineFits line) :
    ∃ fitting first rest, lines = fitting ++ first :: rest ∧ (∀ l ∈ fitting, c.LineFits l) ∧
      ¬ c.LineFits first := by
  induction lines with
  | nil => exact absurd (fun _ hl => absurd hl List.not_mem_nil) h
  | cons l lines ih =>
    by_cases hl : c.LineFits l
    · obtain ⟨fitting, first, rest, rfl, hfitting, hfirst⟩ :=
        ih fun hlines => h (List.forall_mem_cons.mpr ⟨hl, hlines⟩)
      exact ⟨l :: fitting, first, rest, rfl, List.forall_mem_cons.mpr ⟨hl, hfitting⟩, hfirst⟩
    · exact ⟨[], l, lines, rfl, fun _ hm => absurd hm List.not_mem_nil, hl⟩

theorem exists_parseAll_error {lines : List (Except String Text)}
    (h : ¬ ∀ line ∈ lines, c.LineFits line) :
    ∃ e, parseAll c.json.fromStr 0 lines = .error e := by
  obtain ⟨fitting, first, rest, rfl, hfitting, hfirst⟩ := exists_first_unfit h
  cases first with
  | error e => exact ⟨_, parseAll_unreadable hfitting⟩
  | ok line =>
    rw [Codecs.LineFits, not_or] at hfirst
    cases he : c.json.fromStr line with
    | ok record => simp [he, Except.isOk, Except.toBool] at hfirst
    | error e => exact ⟨_, parseAll_malformed hfitting hfirst.1 he⟩

/-- Whatever the input is, an ingest files exactly what it adds. -/
theorem Serves.ingest (hc : c.Reliable) {dir : DataDir} {filed : TenantId → List LogRecord}
    (h : Serves c dir filed) {call : IngestCall} (hcall : c.Loggable call) :
    Serves c (c.ingest dir call).2 fun t => filed t ++ c.addedFor call t := by
  by_cases hfits : ∀ line ∈ inputLines call.input, c.LineFits line
  · obtain ⟨stats, dir', hingest, -, hserves⟩ := h.ingest_fits hc hcall hfits
    rw [hingest]
    exact hserves
  · obtain ⟨e, he⟩ := exists_parseAll_error hfits
    obtain ⟨dir', hingest, -, hserves⟩ := h.ingest_refused he
    rw [hingest]
    simpa [Codecs.addedFor, Codecs.accepted, hfits] using hserves

theorem Serves.allOrNothing (hc : c.Reliable) {dir : DataDir}
    {filed : TenantId → List LogRecord} (h : Serves c dir filed) {call : IngestCall}
    (hcall : c.Loggable call) : AllOrNothing c dir call where
  malformed fitting line rest e hlines hfitting hblank he := by
    obtain ⟨dir', hingest, hsame, -⟩ :=
      h.ingest_refused (hlines ▸ parseAll_malformed hfitting hblank he)
    rw [hingest]
    exact ⟨rfl, hsame⟩
  unreadable fitting rest e hlines hfitting := by
    obtain ⟨dir', hingest, hsame, -⟩ := h.ingest_refused (hlines ▸ parseAll_unreadable hfitting)
    rw [hingest]
    exact ⟨rfl, hsame⟩
  accepted hfits := by
    obtain ⟨stats, dir', hingest, hcount, -⟩ := h.ingest_fits hc hcall hfits
    rw [hingest]
    exact ⟨stats, rfl, hcount⟩

/-- So do all ingests of a sequence. -/
theorem serves_ingestAll (hc : c.Reliable) {calls : List IngestCall}
    (hcalls : ∀ call ∈ calls, c.Loggable call) :
    Serves c (c.ingestAll calls) (c.acceptedFor calls) := by
  induction calls using List.reverseRecOn with
  | nil => exact serves_emptyDir
  | append_singleton calls call ih =>
    have hserves := (ih fun call' hm => hcalls call' (List.mem_append_left _ hm)).ingest hc
      (hcalls call (by simp))
    have hadded : c.acceptedFor (calls ++ [call]) =
        fun t => c.acceptedFor calls t ++ c.addedFor call t := by
      funext t
      rw [Codecs.acceptedFor, List.flatMap_append, List.flatMap_singleton]
      rfl
    rw [Codecs.ingestAll, Run.run_append, hadded]
    exact hserves

/-- The records of a range in the order of a read. -/
def listed (filed : List LogRecord) (range : TimeRange) : List LogRecord :=
  (sortBucket filed).filter fun r => range.contains r.observedTimeUnixNano

theorem listing_listed (filed : List LogRecord) (range : TimeRange) :
    Listing filed range (listed filed range) where
  sorted := (pairwise_sortByKey _ filed).filter _
  ties t := by
    have hties := filter_sortByKey LogRecord.observedTimeUnixNano filed t
    calc (listed filed range).filter (fun r => r.observedTimeUnixNano = t)
        = ((sortBucket filed).filter fun r => r.observedTimeUnixNano = t).filter
            fun r => range.contains r.observedTimeUnixNano := by
          rw [listed, List.filter_filter, List.filter_filter]
          exact List.filter_congr fun r _ => Bool.and_comm _ _
      _ = (filed.filter fun r => r.observedTimeUnixNano = t).filter
            fun r => range.contains r.observedTimeUnixNano := by rw [sortBucket, hties]
      _ = filed.filter fun r =>
            range.contains r.observedTimeUnixNano ∧ r.observedTimeUnixNano = t := by
          rw [List.filter_filter]
          exact List.filter_congr fun r _ => by simp

/-- A listing lists as it is. -/
theorem listed_listed (filed : List LogRecord) (range : TimeRange) :
    listed (listed filed range) range = listed filed range := by
  have hsorted : sortBucket (listed filed range) = listed filed range :=
    sortByKey_of_pairwise _ (listing_listed filed range).sorted
  rw [listed, hsorted, listed, List.filter_filter]
  simp only [Bool.and_self]

/-- A read writes the records that the directory files, in order. -/
theorem Serves.answer {dir : DataDir} {filed : TenantId → List LogRecord}
    (h : Serves c dir filed) (tenant : TenantId) (range : TimeRange) :
    c.answer dir tenant range =
      ((c.writeRecords (listed (filed tenant) range)).1.map
          fun _ => (listed (filed tenant) range).length,
        (c.writeRecords (listed (filed tenant) range)).2) := by
  obtain ⟨⟨lumen, hopen, hlumen⟩, -⟩ := h
  have hquery : query lumen tenant range = listed (filed tenant) range := by
    rw [listed, ← hlumen.buckets, query, bucket]
    cases lumen.state.lookup tenant <;> rfl
  rw [Codecs.answer, Codecs.read, hopen]
  simp only [hquery]

/-- Records that were read from lines are written to lines. -/
theorem writeRecords_encodes (hc : c.Reliable) {records : List LogRecord}
    (h : ∀ r ∈ records, ∃ line, c.json.fromStr line = .ok r) :
    (c.writeRecords records).1 = .ok () ∧
      Encodes c.json records (c.writeRecords records).2 := by
  induction records with
  | nil => exact ⟨rfl, .nil _⟩
  | cons r rest ih =>
    obtain ⟨⟨line, hline⟩, hrest⟩ := List.forall_mem_cons.mp h
    obtain ⟨t, ht, -⟩ := hc.writesObject line r hline
    obtain ⟨hresult, ts, hts, hwritten⟩ := ih hrest
    rw [Codecs.writeRecords, ht]
    exact ⟨hresult, t :: ts, .cons ⟨hc.json r, ht⟩ hts, congrArg (wireLine t ++ ·) hwritten⟩

/-- Every record that is filed was read from a line. -/
theorem exists_line_of_mem_acceptedFor {calls : List IngestCall} {tenant : TenantId}
    {r : LogRecord} (h : r ∈ c.acceptedFor calls tenant) :
    ∃ line, c.json.fromStr line = .ok r := by
  obtain ⟨call, -, hr⟩ := List.mem_flatMap.mp h
  rw [Codecs.addedFor, Codecs.accepted] at hr
  split_ifs at hr
  · obtain ⟨l, -, hl⟩ := List.mem_filterMap.mp hr
    cases l with
    | error e => cases hl
    | ok line =>
      rw [Codecs.lineRecord] at hl
      split_ifs at hl
      refine ⟨line, ?_⟩
      cases hf : c.json.fromStr line with
      | error e => simp [hf, Except.toOption] at hl
      | ok record => simpa [hf, Except.toOption] using hl
  · cases hr
  · cases hr

/-- Only tenants and inputs matter. -/
theorem acceptedFor_congr {calls calls' : List IngestCall}
    (h : calls'.map (fun call => (call.tenant, call.input)) =
      calls.map fun call => (call.tenant, call.input)) (tenant : TenantId) :
    c.acceptedFor calls' tenant = c.acceptedFor calls tenant := by
  let added (e : TenantId × Bytes) : List LogRecord :=
    if e.1 = tenant then
      if ∀ line ∈ inputLines e.2, c.LineFits line then (inputLines e.2).filterMap c.lineRecord
      else []
    else []
  have hadded (calls : List IngestCall) : c.acceptedFor calls tenant =
      (calls.map fun call => (call.tenant, call.input)).flatMap added := by
    rw [List.flatMap_map]
    rfl
  rw [hadded, h, ← hadded]

/-- An ingest of lines that were written takes the records they were written from. -/
theorem accepted_of_encodes (hc : c.Reliable) {call : IngestCall} {records : List LogRecord}
    (h : Encodes c.json records call.input) :
    (∀ line ∈ inputLines call.input, c.LineFits line) ∧ c.accepted call = records := by
  obtain ⟨ts, hts, hinput⟩ := h
  have hlines : inputLines call.input = ts.map .ok := by
    have hread := bufReaderLines_flatMap_wireLine hts (List.not_mem_nil (a := 10))
    rw [List.append_nil] at hread
    rw [inputLines, hinput, hread, if_pos rfl, List.append_nil, List.map_map]
    rfl
  have hall : (∀ l ∈ ts.map Except.ok, c.LineFits l) ∧
      (ts.map Except.ok).filterMap c.lineRecord = records := by
    clear hinput hlines
    induction hts with
    | nil => exact ⟨fun _ hm => absurd hm List.not_mem_nil, rfl⟩
    | @cons r t rs ts hw _ ih =>
      have hblank : ¬ t.all isWhitespace = true := by
        obtain ⟨t', ht', hbrace⟩ := hc.writesObject t r hw.fromStr
        obtain rfl := Except.ok.inj (hw.2.symm.trans ht')
        cases t with
        | nil => cases hbrace
        | cons a t =>
          obtain rfl := Option.some.inj hbrace
          simp [isWhitespace]
      have hrecord : c.lineRecord (.ok t) = some r := by
        simp [Codecs.lineRecord, hblank, hw.fromStr, Except.toOption]
      refine ⟨List.forall_mem_cons.mpr ⟨.inr ?_, ih.1⟩, ?_⟩
      · simp [hw.fromStr, Except.isOk, Except.toBool]
      · rw [List.map_cons, List.filterMap_cons_some hrecord, ih.2]
  rw [Codecs.accepted, hlines, if_pos hall.1]
  exact hall

/-- What a read wrote, ingested into an empty directory, reads the same. -/
theorem Serves.answer_again (hc : c.Reliable) {dir : DataDir}
    {filed : TenantId → List LogRecord} (h : Serves c dir filed) {tenant : TenantId}
    (hfiled : ∀ r ∈ filed tenant, ∃ line, c.json.fromStr line = .ok r) {range : TimeRange}
    {again : IngestCall} (hagain : c.Loggable again)
    (hinput : again.input = (c.answer dir tenant range).2) :
    (∃ stats, (c.ingest Codecs.emptyDir again).1 = .ok stats) ∧
      c.answer (c.ingest Codecs.emptyDir again).2 again.tenant range =
        c.answer dir tenant range := by
  have hlisted : ∀ r ∈ listed (filed tenant) range, ∃ line, c.json.fromStr line = .ok r :=
    fun r hr => hfiled r ((sortByKey_perm _ _).mem_iff.mp (List.mem_of_mem_filter hr))
  have hencodes : Encodes c.json (listed (filed tenant) range) again.input := by
    rw [hinput, h.answer]
    exact (writeRecords_encodes hc hlisted).2
  obtain ⟨hfits, haccepted⟩ := accepted_of_encodes hc hencodes
  obtain ⟨stats, dir', hingest, -, hserves⟩ := serves_emptyDir.ingest_fits hc hagain hfits
  rw [hingest]
  refine ⟨⟨stats, rfl⟩, ?_⟩
  rw [hserves.answer, h.answer, List.nil_append, Codecs.addedFor, if_pos rfl, haccepted,
    listed_listed]

end Stores

/-- However the inputs are cut into batches: every ingest of a sequence takes its input whole
or not at all, a read lists exactly the records taken, batch sizes do not show, and what a read
wrote can be ingested into an empty directory to be read again. -/
theorem ingest_all_or_nothing {c : Codecs} (hc : c.Reliable) {calls : List IngestCall}
    (hcalls : ∀ call ∈ calls, c.Loggable call) :
    (∀ call, c.Loggable call → AllOrNothing c (c.ingestAll calls) call) ∧
    (∀ tenant range, ∃ records, Listing (c.acceptedFor calls tenant) range records ∧
      (c.answer (c.ingestAll calls) tenant range).1 = .ok records.length ∧
      Encodes c.json records (c.answer (c.ingestAll calls) tenant range).2) ∧
    (∀ calls' : List IngestCall, (∀ call ∈ calls', c.Loggable call) →
      calls'.map (fun call => (call.tenant, call.input)) =
        calls.map (fun call => (call.tenant, call.input)) →
      ∀ tenant range, c.answer (c.ingestAll calls') tenant range =
        c.answer (c.ingestAll calls) tenant range) ∧
    ∀ tenant range again, c.Loggable again →
      again.input = (c.answer (c.ingestAll calls) tenant range).2 →
        (∃ stats, (c.ingest Codecs.emptyDir again).1 = .ok stats) ∧
          c.answer (c.ingest Codecs.emptyDir again).2 again.tenant range =
            c.answer (c.ingestAll calls) tenant range := by
  have hserves := serves_ingestAll hc hcalls
  refine ⟨fun call hcall => hserves.allOrNothing hc hcall, fun tenant range => ?_,
    fun calls' hcalls' hsame tenant range => ?_, fun tenant range again hagain hinput =>
      hserves.answer_again hc (fun r hr => exists_line_of_mem_acceptedFor hr) hagain hinput⟩
  · have hlisted : ∀ r ∈ listed (c.acceptedFor calls tenant) range,
        ∃ line, c.json.fromStr line = .ok r := fun r hr =>
      exists_line_of_mem_acceptedFor
        ((sortByKey_perm _ _).mem_iff.mp (List.mem_of_mem_filter hr))
    obtain ⟨hresult, hencodes⟩ := writeRecords_encodes hc hlisted
    refine ⟨_, listing_listed _ range, ?_, ?_⟩
    · rw [hserves.answer, hresult]
      rfl
    · rw [hserves.answer]
      exact hencodes
  · rw [(serves_ingestAll hc hcalls').answer, hserves.answer, acceptedFor_congr hsame]

/-- Lines of input with two log records. -/
def startInputs : LineTable LogRecord where
  rows := startedInput.rows ++
    [(listening,
      chars "\x7b\"observed_time_unix_nano\":1,\"severity_number\":9," rfl ++
        chars "\"severity_text\":\"INFO\",\"body\":\"listening\"," rfl ++
        chars "\"attributes\":\x7b\x7d,\"resource_attributes\":\x7b\x7d," rfl ++
        chars "\"trace_id\":null,\"span_id\":null\x7d" rfl)]
  ascii := by decide +kernel
  oneLine := by decide +kernel
  prefixFree := by decide +kernel

/-- The JSON of the log lines that ingest them, in two batches or in one. -/
def batchedLines : LineTable WalRecord where
  rows := startLines.rows ++
    [(.ingest ⟨"acme"⟩ [started, listening],
      chars "\x7b\"op\":\"ingest\",\"tenant\":\"acme\",\"records\":[" rfl ++
        chars "\x7b\"observed_time_unix_nano\":1,\"severity_number\":9," rfl ++
        chars "\"severity_text\":\"INFO\",\"body\":\"started\"," rfl ++
        chars "\"attributes\":\x7b\x7d,\"resource_attributes\":\x7b\x7d," rfl ++
        chars "\"trace_id\":null,\"span_id\":null\x7d," rfl ++
        chars "\x7b\"observed_time_unix_nano\":1,\"severity_number\":9," rfl ++
        chars "\"severity_text\":\"INFO\",\"body\":\"listening\"," rfl ++
        chars "\"attributes\":\x7b\x7d,\"resource_attributes\":\x7b\x7d," rfl ++
        chars "\"trace_id\":null,\"span_id\":null\x7d]\x7d" rfl)]
  ascii := by decide +kernel
  oneLine := by decide +kernel
  prefixFree := by decide +kernel

/-- The JSON of the placements of two batches. -/
def placeLines : LineTable Cinder.WalRecord where
  rows := batchLine.rows ++
    [(.place ⟨"acme"⟩ (batchItem ⟨"acme"⟩ 1) .hot 1000000000,
      chars "\x7b\"op\":\"place\",\"tenant\":\"acme\",\"item\":\"acme/batch-00001\"," rfl ++
        chars "\"tier\":\"Hot\",\"placed_at\":\x7b\"secs_since_epoch\":1," rfl ++
        chars "\"nanos_since_epoch\":0\x7d\x7d" rfl)]
  ascii := by decide +kernel
  oneLine := by decide +kernel
  prefixFree := by decide +kernel

/-- Encodings that know these. -/
def startedCodecs : Codecs where
  json := startInputs.serde
  lumenWal := batchedLines.serde
  lumenSnap := .single ⟨[]⟩ []
  cinderWal := placeLines.serde
  cinderSnap := .single ⟨[]⟩ []

theorem startedCodecs_reliable : startedCodecs.Reliable where
  json := startInputs.faithful
  lumenWal := batchedLines.faithful
  lumenSnap := FileSerde.single_faithful _ _
  cinderWal := placeLines.faithful
  cinderSnap := FileSerde.single_faithful _ _
  writesObject line r h := by
    have hrow : ∀ e ∈ startInputs.rows, ∃ t, startInputs.serde.toString e.1 = .ok t ∧
        t.head? = some '\x7b' :=
      List.forall_mem_cons.mpr ⟨⟨_, rfl, rfl⟩, List.forall_mem_singleton.mpr ⟨_, rfl, rfl⟩⟩
    exact hrow _ (startInputs.mem_of_fromStr h)

/-- A blank line and the two records, each in a batch of its own. -/
def startedCall : IngestCall where
  tenant := ⟨"acme"⟩
  batchSize := 1
  input := wireLine [' '] ++ startInputs.rows.flatMap fun e => wireLine e.2
  clock _ := 1000000000

/-- The same in one batch. -/
def wholeCall : IngestCall := { startedCall with batchSize := 3 }

/-- The same with a line more that is no record. -/
def malformedCall : IngestCall :=
  { startedCall with input := startedCall.input ++ wireLine ['\x7b'] }

theorem accepted_startedCall : startedCodecs.accepted startedCall = [started, listening] := by
  decide +kernel

theorem accepted_malformedCall : startedCodecs.accepted malformedCall = [] := by
  decide +kernel

/-- Whatever the size of its batches, that input can be logged. -/
theorem loggable_startedCall {call : IngestCall} (h : call = startedCall ∨ call = wholeCall) :
    startedCodecs.Loggable call := by
  have hplaced : ∀ batchSeq < 2, ∃ t, startedCodecs.cinderWal.toString
      (.place ⟨"acme"⟩ (batchItem ⟨"acme"⟩ batchSeq) .hot 1000000000) = .ok t := by
    intro batchSeq hseq
    interval_cases batchSeq
    · exact ⟨_, rfl⟩
    · exact ⟨_, rfl⟩
  rcases h with rfl | rfl
  · have hchunks : (startedCodecs.accepted startedCall).toChunks 1 = [[started], [listening]] := by
      decide +kernel
    refine ⟨by decide, ?_, ?_⟩
    · change ∀ chunk ∈ (startedCodecs.accepted startedCall).toChunks 1, _
      rw [hchunks]
      exact List.forall_mem_cons.mpr ⟨⟨_, rfl⟩, List.forall_mem_singleton.mpr ⟨_, rfl⟩⟩
    · change ∀ batchSeq < ((startedCodecs.accepted startedCall).toChunks 1).length, _
      rw [hchunks]
      exact hplaced
  · have hchunks : (startedCodecs.accepted wholeCall).toChunks 3 = [[started, listening]] := by
      decide +kernel
    refine ⟨by decide, ?_, ?_⟩
    · change ∀ chunk ∈ (startedCodecs.accepted wholeCall).toChunks 3, _
      rw [hchunks]
      exact List.forall_mem_singleton.mpr ⟨_, rfl⟩
    · change ∀ batchSeq < ((startedCodecs.accepted wholeCall).toChunks 3).length, _
      rw [hchunks]
      exact fun batchSeq hseq => hplaced batchSeq (hseq.trans (by decide))

theorem loggable_malformedCall : startedCodecs.Loggable malformedCall where
  batchSize_pos := by decide
  ingests chunk hchunk := by
    rw [accepted_malformedCall] at hchunk
    cases hchunk
  places batchSeq hseq := by
    rw [accepted_malformedCall] at hseq
    cases hseq

/-- The input with the malformed line is refused, a read lists both records once, and it answers
the same when they come in one batch. -/
theorem started_taken_once :
    AllOrNothing startedCodecs (startedCodecs.ingestAll [startedCall, malformedCall])
        malformedCall ∧
      (∃ records, Listing [started, listening] .all records ∧
        (startedCodecs.answer (startedCodecs.ingestAll [startedCall, malformedCall]) ⟨"acme"⟩
          .all).1 = .ok records.length) ∧
      startedCodecs.answer (startedCodecs.ingestAll [wholeCall, malformedCall]) ⟨"acme"⟩ .all =
        startedCodecs.answer (startedCodecs.ingestAll [startedCall, malformedCall]) ⟨"acme"⟩
          .all := by
  have hcalls {call : IngestCall} (h : call = startedCall ∨ call = wholeCall) :
      ∀ call' ∈ [call, malformedCall], startedCodecs.Loggable call' := by
    simpa using ⟨loggable_startedCall h, loggable_malformedCall⟩
  have hfiled : startedCodecs.acceptedFor [startedCall, malformedCall] ⟨"acme"⟩ =
      [started, listening] := by decide +kernel
  obtain ⟨hrefused, hread, hbatches, -⟩ :=
    ingest_all_or_nothing startedCodecs_reliable (hcalls (.inl rfl))
  obtain ⟨records, hlisting, hcount, -⟩ := hread ⟨"acme"⟩ .all
  exact ⟨hrefused malformedCall loggable_malformedCall, ⟨records, hfiled ▸ hlisting, hcount⟩,
    hbatches _ (hcalls (.inr rfl)) rfl _ _⟩

end Kaleidoscope.Cli
