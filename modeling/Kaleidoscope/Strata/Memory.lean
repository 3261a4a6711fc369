import Kaleidoscope.Strata.FileBacked
import Kaleidoscope.Wal.Session

/-!
# The in-memory profile store

The adapter without files, and the filtered query of both adapters. Profiles without a service
name are dropped by both, and counted by both.
-/

namespace Kaleidoscope.Strata

open Aegis HashMap StableSort

/-- Query predicate; a filter that is not set accepts every profile. -/
structure Predicate where
  profileType : Option String
  deriving DecidableEq

/-- `matches`. -/
def Predicate.matchesProfile (predicate : Predicate) (profile : Profile) : Bool :=
  predicate.profileType.all fun target => profile.profileType = target

/-- The profiles of a service that are wanted, in the order of its bucket. -/
def matching (perService : PerService) (tenant : TenantId) (service : ServiceName)
    (wanted : Profile → Bool) : List Profile :=
  match perService.lookup (tenant, service) with
  | some bucket => bucket.filter wanted
  | none => []

/-- `query_with` of the file-backed store. -/
def queryWith (store : Store PerService) (tenant : TenantId) (service : ServiceName)
    (range : TimeRange) (predicate : Predicate) : List Profile :=
  matching store.state tenant service fun p =>
    range.contains p.timeUnixNano && predicate.matchesProfile p

namespace InMemoryProfileStore

/-- `ingest`. -/
def ingest (perService : PerService) (tenant : TenantId) (batch : ProfileBatch) :
    Except ProfileStoreError IngestReceipt × PerService :=
  let (perService, touched) := applyIngest perService tenant batch.profiles
  (.ok ⟨batch.len⟩, perService.modifyAll touched sortBucket)

/-- `query`. -/
def query (perService : PerService) (tenant : TenantId) (service : ServiceName)
    (range : TimeRange) : List Profile :=
  matching perService tenant service fun p => range.contains p.timeUnixNano

/-- `query_with`. -/
def queryWith (perService : PerService) (tenant : TenantId) (service : ServiceName)
    (range : TimeRange) (predicate : Predicate) : List Profile :=
  matching perService tenant service fun p =>
    range.contains p.timeUnixNano && predicate.matchesProfile p

/-- An ingest as a request. -/
def ask (perService : PerService) : Call → Except ProfileStoreError IngestReceipt × PerService
  | .ingest tenant batch => ingest perService tenant batch

end InMemoryProfileStore

theorem matching_eq (perService : PerService) (tenant : TenantId) (service : ServiceName)
    (wanted : Profile → Bool) :
    matching perService tenant service wanted =
      (bucket perService (tenant, service)).filter wanted := by
  rw [matching, HashMap.bucket]
  cases perService.lookup (tenant, service) <;> rfl

/-- Every bucket is in the order of time. -/
def SortedBuckets (perService : PerService) : Prop :=
  ∀ k, (bucket perService k).Pairwise fun a b => a.timeUnixNano ≤ b.timeUnixNano

/-- An ingest appends to the buckets of its profiles and sorts them. -/
theorem bucket_ingest {perService : PerService} (h : SortedBuckets perService) (tenant : TenantId)
    (batch : ProfileBatch) (k : TenantId × ServiceName) :
    bucket (InMemoryProfileStore.ingest perService tenant batch).2 k =
      sortBucket (bucket perService k ++
        valuesAt k (WalRecord.ingest tenant batch.profiles).items) :=
  bucket_commit h tenant batch.profiles k

theorem sortedBuckets_ingest {perService : PerService} (h : SortedBuckets perService)
    (tenant : TenantId) (batch : ProfileBatch) :
    SortedBuckets (InMemoryProfileStore.ingest perService tenant batch).2 := by
  intro k
  rw [bucket_ingest h]
  exact pairwise_sortByKey _ _

section FileBacked

variable (wal : LineSerde WalRecord) (snap : FileSerde Snapshot)

/-- An ingest of the file-backed store as a request, while no append fails. -/
def ask (store : Store PerService) :
    Call → Except ProfileStoreError IngestReceipt × Store PerService
  | .ingest tenant batch => ingest wal snap store tenant batch .none

variable {wal snap}

/-- Memory after an ingest: the file-backed store leaves an empty batch alone. -/
theorem bucket_outcome {perService : PerService} (h : SortedBuckets perService) (tenant : TenantId)
    (batch : ProfileBatch) (k : TenantId × ServiceName) :
    bucket (plan (.ingest tenant batch) perService).outcome k =
      sortBucket (bucket perService k ++
        valuesAt k (WalRecord.ingest tenant batch.profiles).items) := by
  rw [plan, ingestSteps]
  by_cases hempty : batch.isEmpty
  · rw [if_pos hempty]
    have hnil : batch.profiles = [] := by simpa [ProfileBatch.isEmpty] using hempty
    rw [hnil]
    change bucket perService k = sortBucket (bucket perService k ++ [])
    rw [List.append_nil]
    exact (sortByKey_of_pairwise _ (h k)).symm
  · rw [if_neg hempty]
    exact bucket_commit h tenant batch.profiles k

/-- Replay and the sort after it rebuild every bucket as it was. -/
theorem bucket_reopened {perService d : PerService} {i : List WalRecord}
    (h : (appendOnly wal snap).refinement.live perService i)
    (hd : (appendOnly wal snap).refinement.disk d i) (k : TenantId × ServiceName) :
    bucket ((fileBackedProfileStore wal snap).settle d) k = bucket perService k := by
  have hdisk : sortBucket (bucket d k) = _ := hd k
  have hlive : sortBucket (bucket perService k) = _ := h.1 k
  calc bucket ((fileBackedProfileStore wal snap).settle d) k
      = sortBucket (bucket d k) := (appendOnly wal snap).bucket_settle d k
    _ = sortBucket (bucket perService k) := hdisk.trans hlive.symm
    _ = bucket perService k := sortByKey_of_pairwise _ (h.2 k)

end FileBacked

end Kaleidoscope.Strata
