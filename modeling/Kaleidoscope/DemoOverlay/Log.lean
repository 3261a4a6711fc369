import Kaleidoscope.DemoOverlay.Identity
import Kaleidoscope.Library.ReadStore
import Kaleidoscope.Lumen.Memory

/-!
# The log overlay
-/

namespace Kaleidoscope.DemoOverlay.Log

open Aegis Lumen HashMap StableSort

/-- `DemoLogSpec`. -/
structure DemoLogSpec where
  startOffsetNanos : Nat
  severityNumber : SeverityNumber
  severityText : String
  body : String
  customerId : String
  isFailedCheckoutCause : Bool

/-- A log of level INFO. -/
def info (startOffsetNanos : Nat) (body customerId : String) : DemoLogSpec :=
  ⟨startOffsetNanos, ⟨9⟩, "INFO", body, customerId, false⟩

/-- A log of level WARN. -/
def warn (startOffsetNanos : Nat) (body customerId : String) : DemoLogSpec :=
  ⟨startOffsetNanos, ⟨13⟩, "WARN", body, customerId, false⟩

/-- `CAUSE_LOG_OFFSET_NANOS`. -/
def causeLogOffsetNanos : Nat := 30_000_000_000

/-- `DEMO_LOGS`. -/
def demoLogs : List DemoLogSpec :=
  [info 70_000_000_000 "GET /api/v1/products returned 200 in 34ms" "bob",
    info 68_000_000_000 "GET /api/v1/cart returned 200 in 12ms" "carol",
    info 66_000_000_000 "POST /api/v1/checkout returned 200 in 142ms" "alice",
    info 64_000_000_000 "GET /api/v1/products returned 200 in 28ms" "alice",
    warn 62_000_000_000 "GET /api/v1/cart slow response 512ms" "bob",
    info 60_000_000_000 "POST /api/v1/checkout returned 200 in 119ms" "bob",
    info 58_000_000_000 "GET /api/v1/products returned 200 in 41ms" "carol",
    warn 56_000_000_000 "POST /api/v1/checkout retry after upstream timeout" "carol",
    info 54_000_000_000 "GET /api/v1/cart returned 200 in 18ms" "alice",
    info 52_000_000_000 "user session started" "dave",
    info 50_000_000_000 "GET /api/v1/products returned 200 in 36ms" "dave",
    ⟨causeLogOffsetNanos, ⟨17⟩, "ERROR", failedCheckoutErrorMessage, failedCheckoutCustomerId,
      true⟩]

/-- `synthesize_log`. -/
def synthesizeLog (nowUnixNano : Nat) (spec : DemoLogSpec) : LogRecord where
  observedTimeUnixNano := nowUnixNano - spec.startOffsetNanos
  severityNumber := spec.severityNumber
  severityText := spec.severityText
  body := spec.body
  attributes := .single demoCustomerIdKey spec.customerId
  resourceAttributes := .single "service.name" demoServiceName
  traceId := if spec.isFailedCheckoutCause then some failedCheckoutTraceId else none
  spanId := if spec.isFailedCheckoutCause then some failedCheckoutSpanId else none

/-- `synthesize_all`. -/
def synthesizeAll (nowUnixNano : Nat) : List LogRecord := demoLogs.map (synthesizeLog nowUnixNano)

/-- A read of a log store. -/
inductive LogRead where
  | query (tenant : TenantId) (range : TimeRange)
  | queryWith (tenant : TenantId) (range : TimeRange) (predicate : Predicate)

/-- The tenant that is asked about. -/
def LogRead.tenant : LogRead → TenantId
  | .query tenant _ => tenant
  | .queryWith tenant _ _ => tenant

/-- The records that are asked for. -/
def LogRead.wants : LogRead → LogRecord → Bool
  | .query _ range, record => range.contains record.observedTimeUnixNano
  | .queryWith _ range predicate, record =>
    range.contains record.observedTimeUnixNano && predicate.matchesRecord record

/-- `LogStore`. -/
abbrev LogStore (State : Type) :=
  ReadStore State (TenantId × LogBatch) (Except LogStoreError IngestReceipt) LogRead
    (Except LogStoreError (List LogRecord))

/-- `InMemoryLogStore`. -/
def inMemory : LogStore PerTenant where
  write perTenant w := InMemoryLogStore.ingest perTenant w.1 w.2
  read perTenant
    | .query tenant range => .ok (InMemoryLogStore.query perTenant tenant range)
    | .queryWith tenant range predicate =>
      .ok (InMemoryLogStore.queryWith perTenant tenant range predicate)

/-- `DemoLogOverlay`, at a time. -/
def overlay {State : Type} (inner : LogStore State) (nowUnixNano : Nat) : LogStore State where
  write := inner.write
  read state
    | .query tenant range =>
      extend LogRecord.observedTimeUnixNano (isDemoTenant tenant)
        (inner.read state (.query tenant range))
        ((synthesizeAll nowUnixNano).filter fun record =>
          range.contains record.observedTimeUnixNano)
    | .queryWith tenant range predicate =>
      extend LogRecord.observedTimeUnixNano (isDemoTenant tenant)
        (inner.read state (.queryWith tenant range predicate))
        ((synthesizeAll nowUnixNano).filter fun record =>
          range.contains record.observedTimeUnixNano && predicate.matchesRecord record)

/-- What the overlay adds to an answer. -/
def added (nowUnixNano : Nat) (read : LogRead) : List LogRecord :=
  if read.tenant = demoTenant then (synthesizeAll nowUnixNano).filter read.wants else []

/-- Every bucket is in the order of time. -/
def Sorted (perTenant : PerTenant) : Prop :=
  ∀ tenant, (bucket perTenant tenant).Pairwise fun a b =>
    a.observedTimeUnixNano ≤ b.observedTimeUnixNano

/-- The overlay answers like the store with the demo in it. -/
structure Unites (nowUnixNano : Nat) (perTenant : PerTenant) : Prop where
  reference : ∀ read, (overlay inMemory nowUnixNano).read perTenant read =
    inMemory.read (inMemory.write perTenant (demoTenant, ⟨synthesizeAll nowUnixNano⟩)).2 read
  filtered : ∀ tenant range predicate,
    (overlay inMemory nowUnixNano).read perTenant (.queryWith tenant range predicate) =
      ((overlay inMemory nowUnixNano).read perTenant (.query tenant range)).map
        fun records => records.filter predicate.matchesRecord
  merged : ∀ read, ∃ stored records, inMemory.read perTenant read = .ok stored ∧
    (overlay inMemory nowUnixNano).read perTenant read = .ok records ∧
      Merges LogRecord.observedTimeUnixNano stored (added nowUnixNano read) records
  others : ∀ read : LogRead, read.tenant ≠ demoTenant →
    (overlay inMemory nowUnixNano).read perTenant read = inMemory.read perTenant read

theorem sorted_after (writes : List (TenantId × LogBatch)) : Sorted (inMemory.after ∅ writes) := by
  refine inMemory.after_induction Sorted (fun tenant => by simp) (fun perTenant w h t => ?_) writes
  change (bucket (InMemoryLogStore.ingest perTenant w.1 w.2).2 t).Pairwise _
  rw [bucket_ingest]
  split_ifs
  · exact pairwise_sortByKey _ _
  · exact h t

section Reads

variable (nowUnixNano : Nat) (perTenant : PerTenant) (read : LogRead)

/-- A read of the store lists the wanted records of the bucket. -/
theorem read_inMemory : inMemory.read perTenant read =
    .ok ((bucket perTenant read.tenant).filter read.wants) := by
  cases read <;> exact congrArg Except.ok (matching_eq _ _ _)

/-- A read of the overlay merges the demo into the answer for the demo tenant. -/
theorem read_overlay : (overlay inMemory nowUnixNano).read perTenant read =
    .ok (if read.tenant = demoTenant then
      sortByKey LogRecord.observedTimeUnixNano
        ((bucket perTenant read.tenant).filter read.wants ++
          (synthesizeAll nowUnixNano).filter read.wants)
      else (bucket perTenant read.tenant).filter read.wants) := by
  have hextend : (overlay inMemory nowUnixNano).read perTenant read =
      extend LogRecord.observedTimeUnixNano (isDemoTenant read.tenant)
        (inMemory.read perTenant read) ((synthesizeAll nowUnixNano).filter read.wants) := by
    cases read <;> rfl
  rw [hextend, read_inMemory, extend_ok]
  simp only [isDemoTenant_iff]

end Reads

/-- A read of the overlay is a read of the store with the demo in it. -/
theorem read_overlay_eq (nowUnixNano : Nat) (perTenant : PerTenant) (read : LogRead) :
    (overlay inMemory nowUnixNano).read perTenant read =
      inMemory.read (inMemory.write perTenant (demoTenant, ⟨synthesizeAll nowUnixNano⟩)).2
        read := by
  rw [read_overlay, read_inMemory]
  change _ = Except.ok ((bucket (InMemoryLogStore.ingest _ _ _).2 read.tenant).filter read.wants)
  rw [bucket_ingest]
  split_ifs with htenant
  · rw [sortByKey_filter_append, htenant]
    rfl
  · rfl

theorem unites (nowUnixNano : Nat) {perTenant : PerTenant} (h : Sorted perTenant) :
    Unites nowUnixNano perTenant where
  reference := read_overlay_eq nowUnixNano perTenant
  filtered tenant range predicate := by
    rw [read_overlay_eq, read_overlay_eq]
    exact congrArg Except.ok (InMemoryLogStore.queryWith_eq _ tenant range predicate)
  merged read := by
    refine ⟨_, _, read_inMemory perTenant read, read_overlay nowUnixNano perTenant read, ?_⟩
    rw [added]
    split_ifs
    · exact merges_sortByKey _ _ _
    · exact merges_nil _ ((h read.tenant).filter _)
  others read hread := by rw [read_overlay, if_neg hread, read_inMemory]

end Kaleidoscope.DemoOverlay.Log
