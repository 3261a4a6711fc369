import Kaleidoscope.Aegis.Validator
import Kaleidoscope.Strata.Profile
import Kaleidoscope.Wal.AppendOnly

/-!
# The file-backed profile store
-/

namespace Kaleidoscope.Strata

open Aegis HashMap StableSort

/-- Typed store failures. -/
inductive ProfileStoreError where
  | persistenceFailed (reason : String)
  deriving DecidableEq, Repr

/-- Successful ingest response. -/
structure IngestReceipt where
  count : Nat
  deriving DecidableEq, Repr

/-- One line of the log. -/
inductive WalRecord where
  | ingest (tenant : TenantId) (profiles : List Profile)
  deriving DecidableEq

/-- The profiles of one service in a snapshot. -/
structure ServiceBucket where
  tenant : TenantId
  service : ServiceName
  profiles : List Profile
  deriving DecidableEq

/-- The snapshot file. -/
structure Snapshot where
  buckets : List ServiceBucket
  deriving DecidableEq

/-- The profiles of each service of each tenant. -/
abbrev PerService := HashMap (TenantId × ServiceName) (List Profile)

/-- `apply_ingest`: profiles without a service name are dropped; the buckets that were
touched are returned. -/
def applyIngest (perService : PerService) (tenant : TenantId) (profiles : List Profile) :
    PerService × List (TenantId × ServiceName) :=
  profiles.foldl
    (fun (perService, touched) profile =>
      if profile.serviceName = "" then (perService, touched)
      else
        let key := (tenant, ServiceName.mk profile.serviceName)
        (perService.upsert key [] (· ++ [profile]), touched ++ [key]))
    (perService, [])

/-- Sort a bucket on the time of its profiles. -/
def sortBucket (bucket : List Profile) : List Profile := sortByKey Profile.timeUnixNano bucket

/-- The map `open` builds from a snapshot. -/
def fromSnapshot (snap : Snapshot) : PerService :=
  snap.buckets.foldl (fun perService b => perService.insert (b.tenant, b.service) b.profiles) ∅

/-- The effect of one line of the log during `open`. -/
def applyRecord (perService : PerService) : WalRecord → PerService
  | .ingest tenant profiles => (applyIngest perService tenant profiles).1

/-- The snapshot of the current state. -/
def toSnapshot (order : IterOrder (TenantId × ServiceName) (List Profile))
    (perService : PerService) : Snapshot :=
  ⟨(order.entries perService).map fun e => ⟨e.1.1, e.1.2, e.2⟩⟩

/-- `FileBackedProfileStore`. -/
def fileBackedProfileStore (wal : LineSerde WalRecord) (snap : FileSerde Snapshot) :
    Pillar PerService WalRecord Snapshot ProfileStoreError
      (IterOrder (TenantId × ServiceName) (List Profile)) where
  walSerde := wal
  snapSerde := snap
  persistenceFailed := .persistenceFailed
  empty := ∅
  restore snap := .ok (fromSnapshot snap)
  apply perService record := .ok (applyRecord perService record)
  replayLoop := .lines fun line _ error =>
    .persistenceFailed s!"WAL parse error at line {line}: {error}"
  settle perService := perService.mapValues sortBucket
  capture := toSnapshot

/-- The operations that write to the log. -/
inductive Call where
  | ingest (tenant : TenantId) (batch : ProfileBatch)

/-- What `ingest` appends: nothing for an empty batch. Only the buckets it touched are
sorted again. -/
def ingestSteps (tenant : TenantId) (batch : ProfileBatch) : List (LogStep PerService WalRecord) :=
  if batch.isEmpty then []
  else
    [{ record := .ingest tenant batch.profiles
       commit := fun perService =>
         let (perService, touched) := applyIngest perService tenant batch.profiles
         perService.modifyAll touched sortBucket }]

/-- The appends of an operation. -/
def plan : Call → PerService → Plan PerService WalRecord
  | .ingest tenant batch, perService => ⟨perService, ingestSteps tenant batch⟩

section Operations

variable (wal : LineSerde WalRecord) (snap : FileSerde Snapshot)

/-- `ingest`. -/
def ingest (store : Store PerService) (tenant : TenantId) (batch : ProfileBatch)
    (fault : Fault) : Except ProfileStoreError IngestReceipt × Store PerService :=
  let ran := (fileBackedProfileStore wal snap).call (plan (.ingest tenant batch) store.state)
    [fault] store
  (ran.result.map fun _ => ⟨batch.len⟩, ran.store)

/-- `query`. -/
def query (store : Store PerService) (tenant : TenantId) (service : ServiceName)
    (range : TimeRange) : List Profile :=
  match store.state.lookup (tenant, service) with
  | some bucket => bucket.filter fun p => range.contains p.timeUnixNano
  | none => []

/-- What a log record files: the profiles with a service name. -/
def WalRecord.items : WalRecord → List ((TenantId × ServiceName) × Profile)
  | .ingest tenant profiles => profiles.filterMap fun profile =>
      if profile.serviceName = "" then none else some ((tenant, ⟨profile.serviceName⟩), profile)

/-- `apply_ingest` files the items of the record and touches their keys. -/
theorem applyIngest_eq (perService : PerService) (tenant : TenantId) (profiles : List Profile) :
    applyIngest perService tenant profiles =
      (perService.pushAll (WalRecord.ingest tenant profiles).items,
        (WalRecord.ingest tenant profiles).items.map Prod.fst) := by
  induction profiles using List.reverseRecOn with
  | nil => rfl
  | append_singleton profiles profile ih =>
    rw [applyIngest, List.foldl_append, ← applyIngest, ih]
    simp only [List.foldl_cons, List.foldl_nil, WalRecord.items, List.filterMap_append,
      List.filterMap_cons, List.filterMap_nil]
    split_ifs
    · simp
    · simp [pushAll, List.foldl_append]

theorem fromSnapshot_toSnapshot (order : IterOrder (TenantId × ServiceName) (List Profile))
    (perService : PerService) : fromSnapshot (toSnapshot order perService) = perService := by
  rw [fromSnapshot, toSnapshot, List.foldl_map]
  exact order.insertAll_entries perService

/-- The profile store only ever files profiles under services. -/
def appendOnly : AppendOnly (fileBackedProfileStore wal snap) (TenantId × ServiceName) Profile where
  time := Profile.timeUnixNano
  keeps := .stable _
  bucket := bucket
  items := WalRecord.items
  good _ := True
  bucket_empty := bucket_empty
  apply_ok perService record := by
    refine ⟨_, rfl, fun k => ?_⟩
    obtain ⟨tenant, profiles⟩ := record
    rw [applyRecord, applyIngest_eq, bucket_pushAll]
  bucket_settle perService k := bucket_mapValues perService k rfl
  restore_capture order perService _ _ :=
    ⟨perService, congrArg Except.ok (fromSnapshot_toSnapshot order perService), fun _ => rfl⟩

/-- Sorting the touched buckets sorts every bucket of a sorted store. -/
theorem bucket_commit {perService : PerService} (hsorted : ∀ k, (bucket perService k).Pairwise
      fun a b => a.timeUnixNano ≤ b.timeUnixNano) (tenant : TenantId) (profiles : List Profile)
    (k : TenantId × ServiceName) :
    bucket ((applyIngest perService tenant profiles).1.modifyAll
        (applyIngest perService tenant profiles).2 sortBucket) k =
      sortBucket (bucket perService k ++ valuesAt k (WalRecord.ingest tenant profiles).items) := by
  rw [applyIngest_eq]
  exact bucket_modifyAll_pushAll rfl (sortByKey_sortByKey _)
    (fun k => sortByKey_of_pairwise _ (hsorted k)) _ k

/-- Every ingest is legal. -/
theorem legal (hwal : ∀ r, wal.Faithful r) (c : Call) (faults : List Fault)
    (perService : PerService) (i : List WalRecord)
    (h : (appendOnly wal snap).refinement.live perService i) :
    (appendOnly wal snap).refinement.Legal (plan c perService) faults i := by
  obtain ⟨tenant, batch⟩ := c
  rw [plan, ingestSteps]
  split_ifs
  · exact ⟨Or.inl h, trivial⟩
  · refine (appendOnly wal snap).legal_ingest (hwal _) trivial (fun s hsorted k => ?_) h faults
    exact bucket_commit hsorted tenant batch.profiles k

end Operations

end Kaleidoscope.Strata
