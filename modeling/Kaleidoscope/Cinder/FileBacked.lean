import Kaleidoscope.Aegis.Validator
import Kaleidoscope.Cinder.Tier
import Kaleidoscope.Library.HashMap
import Kaleidoscope.Wal.LastWriter

/-!
# The file-backed tiering store
-/

namespace Kaleidoscope.Cinder

open Aegis HashMap

/-- Typed migration failures. -/
inductive MigrateError where
  | unknownItem (tenant : TenantId) (item : ItemId)
  | persistenceFailed (reason : String)
  deriving DecidableEq, Repr

/-- One line of the log. -/
inductive WalRecord where
  | place (tenant : TenantId) (item : ItemId) (tier : Tier) (placedAt : SystemTime)
  | migrate (tenant : TenantId) (item : ItemId) (toTier : Tier) (migratedAt : SystemTime)
  deriving DecidableEq, Repr

/-- One entry of a snapshot. -/
structure SnapshotEntry where
  tenant : TenantId
  item : ItemId
  entry : TierEntry
  deriving DecidableEq, Repr

/-- The snapshot file. -/
structure Snapshot where
  entries : List SnapshotEntry
  deriving DecidableEq, Repr

/-- The entry of each item of each tenant. -/
abbrev Entries := HashMap (TenantId × ItemId) TierEntry

/-- `apply_to_entries`: a placement overwrites the entry, a migration keeps `placed_at`
and skips an unknown item. -/
def applyToEntries (entries : Entries) : WalRecord → Entries
  | .place tenant item tier placedAt =>
    entries.insert (tenant, item) ⟨tier, placedAt, placedAt⟩
  | .migrate tenant item toTier migratedAt =>
    entries.modify (tenant, item) fun entry =>
      { entry with tier := toTier, migratedAt := migratedAt }

/-- The map `open` builds from a snapshot. -/
def fromSnapshot (snapshot : Snapshot) : Entries :=
  snapshot.entries.foldl (fun entries e => entries.insert (e.tenant, e.item) e.entry) ∅

/-- The snapshot of the current state. -/
def toSnapshot (order : IterOrder (TenantId × ItemId) TierEntry) (entries : Entries) :
    Snapshot :=
  ⟨(order.entries entries).map fun e => ⟨e.1.1, e.1.2, e.2⟩⟩

/-- `FileBackedTieringStore`. -/
def fileBackedTieringStore (wal : LineSerde WalRecord) (snap : FileSerde Snapshot) :
    Pillar Entries WalRecord Snapshot MigrateError
      (IterOrder (TenantId × ItemId) TierEntry) where
  walSerde := wal
  snapSerde := snap
  persistenceFailed := .persistenceFailed
  empty := ∅
  restore snapshot := .ok (fromSnapshot snapshot)
  apply entries record := .ok (applyToEntries entries record)
  replayLoop := .tornTail fun line error =>
    .persistenceFailed s!"WAL parse error at line {line}: {error}"
  settle := id
  capture := toSnapshot

/-- What `place` appends. -/
def placeSteps (tenant : TenantId) (item : ItemId) (tier : Tier) (placedAt : SystemTime) :
    List (LogStep Entries WalRecord) :=
  let record := .place tenant item tier placedAt
  [{ record := record, commit := fun entries => applyToEntries entries record }]

/-- What `migrate` appends: nothing for an item that was never placed. -/
def migrateSteps (tenant : TenantId) (item : ItemId) (toTier : Tier) (migratedAt : SystemTime)
    (entries : Entries) : List (LogStep Entries WalRecord) :=
  if (entries.lookup (tenant, item)).isSome then
    let record := .migrate tenant item toTier migratedAt
    [{ record := record, commit := fun entries => applyToEntries entries record }]
  else []

/-- Whether `evaluate_at` migrates an entry, and where to. -/
def due (now : SystemTime) (policy : TierPolicy) (entry : TierEntry) : Option Tier := do
  let threshold ← policy.thresholdFrom entry.tier
  let next ← entry.tier.nextForward
  let age ← durationSince now entry.migratedAt
  if threshold ≤ age then some next else none

/-- The migrations `evaluate_at` collects, in the order in which the map is visited. -/
def toMigrate (order : IterOrder (TenantId × ItemId) TierEntry) (now : SystemTime)
    (policy : TierPolicy) (entries : Entries) : List ((TenantId × ItemId) × Tier) :=
  (order.entries entries).filterMap fun e => (due now policy e.2).map fun next => (e.1, next)

/-- What `evaluate_at` appends: one migration after another, each applied to the map
through the entry itself. -/
def evaluateAtSteps (order : IterOrder (TenantId × ItemId) TierEntry) (now : SystemTime)
    (policy : TierPolicy) (entries : Entries) : List (LogStep Entries WalRecord) :=
  (toMigrate order now policy entries).map fun m =>
    { record := .migrate m.1.1 m.1.2 m.2 now
      commit := fun entries => entries.modify m.1 fun entry =>
        { entry with tier := m.2, migratedAt := now } }

/-- The operations that write to the log. -/
inductive Call where
  | place (tenant : TenantId) (item : ItemId) (tier : Tier) (placedAt : SystemTime)
  | migrate (tenant : TenantId) (item : ItemId) (toTier : Tier) (migratedAt : SystemTime)
  | evaluateAt (order : IterOrder (TenantId × ItemId) TierEntry) (now : SystemTime)
      (policy : TierPolicy)

/-- The appends of an operation. -/
def plan (c : Call) (entries : Entries) : Plan Entries WalRecord where
  prepared := entries
  steps :=
    match c with
    | .place tenant item tier placedAt => placeSteps tenant item tier placedAt
    | .migrate tenant item toTier migratedAt =>
      migrateSteps tenant item toTier migratedAt entries
    | .evaluateAt order now policy => evaluateAtSteps order now policy entries

section Operations

variable (wal : LineSerde WalRecord) (snap : FileSerde Snapshot)

/-- `place`. -/
def place (store : Store Entries) (tenant : TenantId) (item : ItemId) (tier : Tier)
    (placedAt : SystemTime) (fault : Fault) : Except MigrateError Unit × Store Entries :=
  let ran := (fileBackedTieringStore wal snap).call
    (plan (.place tenant item tier placedAt) store.state) [fault] store
  (ran.result, ran.store)

/-- `get_entry`. -/
def getEntry (store : Store Entries) (tenant : TenantId) (item : ItemId) : Option TierEntry :=
  store.state.lookup (tenant, item)

/-- `get_tier`. -/
def getTier (store : Store Entries) (tenant : TenantId) (item : ItemId) : Option Tier :=
  (getEntry store tenant item).map TierEntry.tier

/-- `migrate`. -/
def migrate (store : Store Entries) (tenant : TenantId) (item : ItemId) (toTier : Tier)
    (migratedAt : SystemTime) (fault : Fault) : Except MigrateError Unit × Store Entries :=
  if (store.state.lookup (tenant, item)).isSome then
    let ran := (fileBackedTieringStore wal snap).call
      (plan (.migrate tenant item toTier migratedAt) store.state) [fault] store
    (ran.result, ran.store)
  else (.error (.unknownItem tenant item), store)

/-- `evaluate_at`: the number of migrations, or the first failure. -/
def evaluateAt (store : Store Entries) (order : IterOrder (TenantId × ItemId) TierEntry)
    (now : SystemTime) (policy : TierPolicy) (faults : List Fault) :
    Except MigrateError Nat × Store Entries :=
  let ran := (fileBackedTieringStore wal snap).call
    (plan (.evaluateAt order now policy) store.state) faults store
  (ran.result.map fun _ => (toMigrate order now policy store.state).length, ran.store)

/-- The item a log record is about. -/
def WalRecord.key : WalRecord → TenantId × ItemId
  | .place tenant item _ _ => (tenant, item)
  | .migrate tenant item _ _ => (tenant, item)

/-- What a log record makes of the entry of its item. -/
def WalRecord.effect : WalRecord → Option TierEntry → Option TierEntry
  | .place _ _ tier placedAt, _ => some ⟨tier, placedAt, placedAt⟩
  | .migrate _ _ toTier migratedAt, entry =>
    entry.map fun entry => { entry with tier := toTier, migratedAt := migratedAt }

theorem lookup_applyToEntries (entries : Entries) (record : WalRecord)
    (key : TenantId × ItemId) :
    (applyToEntries entries record).lookup key =
      if key = record.key then record.effect (entries.lookup key) else entries.lookup key := by
  cases record with
  | place => exact lookup_insert_ite entries _ key _
  | migrate tenant item =>
    rw [applyToEntries, lookup_modify]
    by_cases h : key = (tenant, item)
    · subst h
      exact (if_pos rfl).trans (if_pos rfl).symm
    · exact (if_neg h).trans (if_neg h).symm

/-- Placements and migrations obey the last-write laws, although a migration keeps
`placed_at`. -/
theorem lastWrite_applyToEntries : Replay.LastWrite applyToEntries :=
  .of_lookup WalRecord.key WalRecord.effect lookup_applyToEntries
    (fun r v => by cases r <;> cases v <;> rfl)
    (fun r r' v => by cases r <;> cases r' <;> cases v <;> rfl)

/-- The tiering store overwrites. -/
def lastWriter : LastWriter (fileBackedTieringStore wal snap) where
  write := applyToEntries
  apply_eq _ _ := rfl
  settle_eq _ := rfl
  restore_capture order entries := by
    refine congrArg Except.ok ?_
    change fromSnapshot (toSnapshot order entries) = entries
    rw [fromSnapshot, toSnapshot, List.foldl_map]
    exact order.insertAll_entries entries
  lastWrite := lastWrite_applyToEntries

/-- Every operation is legal: `evaluate_at` changes an entry as its record does. -/
theorem legal (hwal : ∀ r, wal.Faithful r) (c : Call) (faults : List Fault) (entries i : Entries)
    (h : (lastWriter wal snap).refinement.live entries i) :
    (lastWriter wal snap).refinement.Legal (plan c entries) faults i := by
  refine (lastWriter wal snap).legal_of_commit (fun step hstep => ?_) faults h
  refine ⟨hwal _, ?_⟩
  cases c with
  | place tenant item tier placedAt =>
    obtain rfl := List.mem_singleton.mp hstep
    exact fun _ => rfl
  | migrate tenant item toTier migratedAt =>
    simp only [migrateSteps] at hstep
    split_ifs at hstep with hplaced
    · obtain rfl := List.mem_singleton.mp hstep
      exact fun _ => rfl
    · exact absurd hstep List.not_mem_nil
  | evaluateAt order now policy =>
    obtain ⟨m, -, rfl⟩ := List.mem_map.mp hstep
    exact fun _ => rfl

end Operations

end Kaleidoscope.Cinder
