import Kaleidoscope.Beacon.StateStore
import Kaleidoscope.Cinder.FileBacked
import Kaleidoscope.Lumen.FileBacked
import Kaleidoscope.Pulse.Recovery
import Kaleidoscope.Ray.FileBacked
import Kaleidoscope.Wal.Table

/-!
# Crashes inside appends

Five stores forgive a torn final line of their log. They recover every acknowledged write
as long as no record is appended behind an unfinished line.
-/

namespace Kaleidoscope

open Aegis HashMap StableSort

section Conditions

variable {σ ρ κ ε ω C : Type}

/-- Crashes inside appends, every append to a log that is empty or ends in a newline. -/
def TerminatedCrashes (plan : C → σ → Plan σ ρ) (w : World σ ρ) (e : Event C ω) : Prop :=
  e.CrashOnly ∧ Pillar.AppendsTerminated plan w e

instance (plan : C → σ → Plan σ ρ) (w : World σ ρ) (e : Event C ω) :
    Decidable (TerminatedCrashes plan w e) := inferInstanceAs (Decidable (_ ∧ _))

end Conditions

namespace Lumen

/-- A state holds the records of a ledger, those of each tenant in the order of time. -/
def HoldsLedger (perTenant : PerTenant) (ledger : List WalRecord) : Prop :=
  ∀ tenant, bucket perTenant tenant =
    sortBucket (valuesAt tenant (ledger.flatMap WalRecord.items))

theorem recovers {wal : LineSerde WalRecord} (snap : FileSerde Snapshot)
    (hwal : ∀ r, wal.Faithful r) :
    (fileBackedLogStore wal snap).Recovers plan (TerminatedCrashes plan) HoldsLedger := by
  refine ((appendOnly wal snap).recovers fun w e he =>
    (appendOnly wal snap).refinement.sound_of_crashOnly trivial
      (fun c _ s i h => legal wal snap hwal c [] s i h) he.1 e.calls_true he.2).mono ?_
  intro perTenant ledger h tenant
  exact (sortByKey_of_pairwise _ (h.2 tenant)).symm.trans (h.1 tenant)

end Lumen

namespace Ray

/-- A state holds the spans of a ledger in both indices, in the order of time. -/
def HoldsLedger (indices : Indices) (ledger : List WalRecord) : Prop :=
  ∀ k, (indices.bucket k).Perm (valuesAt k (ledger.flatMap WalRecord.items)) ∧
    (indices.bucket k).Pairwise fun a b => a.startTimeUnixNano ≤ b.startTimeUnixNano

theorem recovers {wal : LineSerde WalRecord} (snap : FileSerde Snapshot)
    (hwal : ∀ r, wal.Faithful r) :
    (fileBackedTraceStore wal snap).Recovers plan (TerminatedCrashes plan) HoldsLedger := by
  refine ((appendOnly wal snap).recovers fun w e he =>
    (appendOnly wal snap).refinement.sound_of_crashOnly trivial
      (fun c _ s i h => legal wal snap hwal c [] s i h) he.1 e.calls_true he.2).mono ?_
  exact fun indices ledger h k => ⟨h.1 k, h.2 k⟩

end Ray

namespace Pulse

/-- A state holds the series of a ledger, those refused at the cap included. -/
def HoldsLedger (inner : Inner) (ledger : List WalRecord) : Prop :=
  inner.series = sortAll (fileAll ∅ (ledger.flatMap WalRecordOf.metrics))

theorem recovers (order : IterOrder Key SeriesEntry) {read : NumberReader}
    {text : LineSerde (WalRecordOf JsonNumber)} (snap : FileSerde Snapshot)
    (htext : ∀ doc, text.Faithful doc) :
    (fileBackedMetricStore order (walSerde read text) snap).Recovers plan
      (fun w e => e.Calls (Call.AllValues (F64.ReadsBack read)) ∧ TerminatedCrashes plan w e)
      HoldsLedger := by
  let R := refinement (F64.ReadsBack read) order (walSerde read text) snap Eq
  refine R.recovers (fun _ => .mono fun w e he => R.sound_of_crashOnly trivial
    (fun c hc _ _ h => legal (fun _ hr => walSerde_faithful htext hr) hc [] h) he.2.1 he.1
    he.2.2) fun {ledger i d} hreach hd => ?_
  have hi : i = Content.push (.fresh ∅) (ledger.flatMap WalRecordOf.metrics) :=
    path_eq hreach.path
  refine hd.2.trans ?_
  rw [hi, Content.series_push]
  rfl

end Pulse

namespace Cinder

/-- A state is what the placements and migrations of a ledger make. -/
def HoldsLedger (entries : Entries) (ledger : List WalRecord) : Prop :=
  entries = ledger.foldl applyToEntries ∅

theorem recovers {wal : LineSerde WalRecord} (snap : FileSerde Snapshot)
    (hwal : ∀ r, wal.Faithful r) :
    (fileBackedTieringStore wal snap).Recovers plan (TerminatedCrashes plan) HoldsLedger :=
  (lastWriter wal snap).recovers fun _ => .mono fun _ e he =>
    (lastWriter wal snap).refinement.sound_of_crashOnly trivial
      (fun c _ s i h => legal wal snap hwal c [] s i h) he.1 e.calls_true he.2

end Cinder

namespace Beacon

/-- A state maps every rule to its last state in a ledger. -/
def HoldsLedger (rules : Rules) (ledger : List WalRecord) : Prop :=
  ∀ ruleName, rules.lookup ruleName = lastPut ledger ruleName

theorem recovers {wal : LineSerde WalRecord} (snap : FileSerde Snapshot)
    (hwal : ∀ r, wal.Faithful r) :
    (fileBackedRuleStateStore wal snap).Recovers plan (TerminatedCrashes plan) HoldsLedger := by
  refine ((lastWriter wal snap).recovers fun _ => .mono fun w e he =>
    (lastWriter wal snap).refinement.sound_of_crashOnly trivial
      (fun c _ s i h => legal wal snap hwal c [] s i h) he.1 e.calls_true he.2).mono ?_
  rintro rules ledger rfl ruleName
  exact lookup_foldl_applyRecord ledger ruleName

end Beacon

/-- No acknowledged write is lost to crashes inside appends as long as every append finds a
log that is empty or ends in a newline. -/
theorem acknowledgedWrites_survive_crashes (order : IterOrder Pulse.Key Pulse.SeriesEntry) :
    (∀ wal snap, (∀ r, wal.Faithful r) → (Lumen.fileBackedLogStore wal snap).Recovers
      Lumen.plan (TerminatedCrashes Lumen.plan) Lumen.HoldsLedger) ∧
    (∀ wal snap, (∀ r, wal.Faithful r) → (Ray.fileBackedTraceStore wal snap).Recovers
      Ray.plan (TerminatedCrashes Ray.plan) Ray.HoldsLedger) ∧
    (∀ read text snap, (∀ doc, text.Faithful doc) →
      (Pulse.fileBackedMetricStore order (Pulse.walSerde read text) snap).Recovers Pulse.plan
        (fun w e => e.Calls (Pulse.Call.AllValues (Pulse.F64.ReadsBack read)) ∧
          TerminatedCrashes Pulse.plan w e)
        Pulse.HoldsLedger) ∧
    (∀ wal snap, (∀ r, wal.Faithful r) → (Cinder.fileBackedTieringStore wal snap).Recovers
      Cinder.plan (TerminatedCrashes Cinder.plan) Cinder.HoldsLedger) ∧
    (∀ wal snap, (∀ r, wal.Faithful r) → (Beacon.fileBackedRuleStateStore wal snap).Recovers
      Beacon.plan (TerminatedCrashes Beacon.plan) Beacon.HoldsLedger) :=
  ⟨fun _ snap hwal => Lumen.recovers snap hwal, fun _ snap hwal => Ray.recovers snap hwal,
    fun _ _ snap htext => Pulse.recovers order snap htext,
    fun _ snap hwal => Cinder.recovers snap hwal, fun _ snap hwal => Beacon.recovers snap hwal⟩

namespace Lumen

/-- A log record. -/
def started : LogRecord where
  observedTimeUnixNano := 1
  severityNumber := ⟨9⟩
  severityText := "INFO"
  body := "started"
  attributes := .empty
  resourceAttributes := .empty
  traceId := none
  spanId := none

/-- The JSON of a log line with that record. -/
def startedLine : LineTable WalRecord where
  rows :=
    [(.ingest ⟨"acme"⟩ [started],
      chars "\x7b\"op\":\"ingest\",\"tenant\":\"acme\",\"records\":[" rfl ++
        chars "\x7b\"observed_time_unix_nano\":1,\"severity_number\":9," rfl ++
        chars "\"severity_text\":\"INFO\",\"body\":\"started\"," rfl ++
        chars "\"attributes\":\x7b\x7d,\"resource_attributes\":\x7b\x7d," rfl ++
        chars "\"trace_id\":null,\"span_id\":null\x7d]\x7d" rfl)]
  ascii := by decide +kernel
  oneLine := by decide +kernel
  prefixFree := by simp

/-- An ingest of that record. -/
def ingestStarted : Call := .ingest ⟨"acme"⟩ ⟨[started]⟩

/-- A log store that ingests that record. -/
def startedStore : Pillar PerTenant WalRecord Snapshot LogStoreError
    (IterOrder TenantId (List LogRecord)) :=
  fileBackedLogStore startedLine.serde (.single ⟨[]⟩ [])

/-- After an ingest and a crash inside the next one, the log store opens. -/
theorem opens_after_torn_ingest :
    startedStore.opens (Run.run (startedStore.step plan) (World.init _ _)
      [.openStore, .call ingestStarted [], .crash ingestStarted 0 5]) = true :=
  ((acknowledgedWrites_survive_crashes (.unspecified _ _)).1 _ _ startedLine.faithful).opens
    (by decide +kernel)

/-- An acknowledged ingest behind a torn tail makes the log unreadable. -/
theorem not_recovers_behind_torn_tail :
    ¬ startedStore.Recovers plan (fun _ e => e.CrashOnly) HoldsLedger := by
  intro h
  have hsteps : Run.AllSteps (startedStore.step plan) (fun _ e => e.CrashOnly) (World.init _ _)
      [.openStore, .crash ingestStarted 0 5, .openStore, .call ingestStarted [], .close] := by
    decide +kernel
  have hopens := h.opens hsteps
  exact absurd hopens (by decide +kernel)

end Lumen

end Kaleidoscope
