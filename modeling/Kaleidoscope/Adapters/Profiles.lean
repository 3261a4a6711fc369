import Kaleidoscope.Durability.TornTail
import Kaleidoscope.Strata.Memory

/-!
# The two profile stores

After the same ingests the file-backed store gives the same receipts and answers every query with
the list the in-memory store answers. A receipt counts the whole batch; a profile without a service
name, or at the end of time, is not returned by any query.
-/

namespace Kaleidoscope.Strata

open Aegis HashMap StableSort Utf8

/-- The orders in which a snapshot visits the services. -/
abbrev SnapshotOrder := IterOrder (TenantId × ServiceName) (List Profile)

/-- The profiles of a batch that are filed under a service. -/
def filedUnder (service : ServiceName) (profiles : List Profile) : List Profile :=
  profiles.filter fun p => p.serviceName ≠ "" ∧ p.serviceName = service.name

/-- What an action ingests for a service of a tenant. -/
def ingestedBy (tenant : TenantId) (service : ServiceName) :
    Action Call SnapshotOrder → List Profile
  | .request (.ingest t batch) =>
    if tenant = t then filedUnder service batch.profiles else []
  | _ => []

/-- What actions ingest for a service of a tenant, in the order of the ingests. -/
def ingestedFor (tenant : TenantId) (service : ServiceName)
    (actions : List (Action Call SnapshotOrder)) : List Profile :=
  actions.flatMap (ingestedBy tenant service)

/-- A receipt counts the profiles of the batch. -/
def receiptOf : Action Call SnapshotOrder → Option (Except ProfileStoreError IngestReceipt)
  | .request (.ingest _ batch) => some (.ok ⟨batch.len⟩)
  | _ => none

/-- What an ingest of a batch files under a service. -/
theorem valuesAt_items (tenant t : TenantId) (service : ServiceName) (profiles : List Profile) :
    valuesAt (tenant, service) (WalRecord.ingest t profiles).items =
      if tenant = t then filedUnder service profiles else [] := by
  induction profiles with
  | nil => simp [WalRecord.items, filedUnder]
  | cons profile profiles ih =>
    have hcons : (WalRecord.ingest t (profile :: profiles)).items =
        (if profile.serviceName = "" then [] else [((t, ⟨profile.serviceName⟩), profile)]) ++
          (WalRecord.ingest t profiles).items := by
      simp only [WalRecord.items, List.filterMap_cons]
      split_ifs <;> rfl
    rw [hcons, valuesAt_append, ih]
    by_cases hname : profile.serviceName = ""
    · simp [hname, filedUnder]
    · have hkey : (t, ServiceName.mk profile.serviceName) = (tenant, service) ↔
          tenant = t ∧ profile.serviceName = service.name := by
        rw [Prod.mk.injEq, eq_comm, ServiceName.mk.injEq]
      simp only [if_neg hname, valuesAt_cons, hkey, valuesAt_nil]
      by_cases ht : tenant = t <;> by_cases hservice : profile.serviceName = service.name <;>
        simp_all [filedUnder]

/-- The in-memory store sorts on every ingest, which comes to sorting once at the end. -/
theorem bucket_run (actions : List (Action Call SnapshotOrder)) {perService : PerService}
    (hsorted : SortedBuckets perService) (tenant : TenantId) (service : ServiceName) :
    bucket (Run.run (Action.perform InMemoryProfileStore.ask) perService actions)
        (tenant, service) =
      sortBucket (bucket perService (tenant, service) ++ ingestedFor tenant service actions) := by
  induction actions generalizing perService with
  | nil =>
    rw [ingestedFor, List.flatMap_nil, List.append_nil]
    exact (sortByKey_of_pairwise _ (hsorted _)).symm
  | cons a actions ih =>
    rw [Run.run_cons, ingestedFor, List.flatMap_cons, ← ingestedFor]
    cases a with
    | request c =>
      obtain ⟨t, batch⟩ := c
      have hbucket := bucket_ingest hsorted t batch (tenant, service)
      rw [valuesAt_items] at hbucket
      change bucket (Run.run _ (InMemoryProfileStore.ingest perService t batch).2 actions) _ = _
      rw [ih (sortedBuckets_ingest hsorted t batch), hbucket, ← List.append_assoc]
      exact sortByKey_append_left _ _ _
    | snapshot order => exact ih hsorted
    | reopen => exact ih hsorted

/-- The in-memory store answers with the receipts. -/
theorem transcript_inMemory (actions : List (Action Call SnapshotOrder)) (perService : PerService) :
    Run.transcript (Action.perform InMemoryProfileStore.ask)
        (Action.reply InMemoryProfileStore.ask) perService actions =
      actions.map receiptOf := by
  induction actions generalizing perService with
  | nil => rfl
  | cons a actions ih =>
    rw [Run.transcript, ih, List.map_cons]
    cases a <;> rfl

section FileBacked

variable {wal : LineSerde WalRecord} {snap : FileSerde Snapshot}

/-- Two states with the same buckets. -/
def SameBuckets (perService m : PerService) : Prop :=
  ∀ k, bucket perService k = bucket m k

/-- Ingest by ingest the file-backed store answers as the in-memory store, and at the end it
has the same buckets. -/
theorem ask_simulates (hwal : ∀ r, wal.Faithful r) (hsnap : ∀ k, snap.Faithful k)
    {actions : List (Action Call SnapshotOrder)}
    (h : Run.AllSteps ((fileBackedProfileStore wal snap).perform (ask wal snap))
      ((fileBackedProfileStore wal snap).Serialises plan)
      ((fileBackedProfileStore wal snap).openNode .none) actions) :
    Run.transcript ((fileBackedProfileStore wal snap).perform (ask wal snap))
        (Pillar.reply (ask wal snap)) ((fileBackedProfileStore wal snap).openNode .none) actions =
      Run.transcript (Action.perform InMemoryProfileStore.ask)
        (Action.reply InMemoryProfileStore.ask) ∅ actions ∧
    (appendOnly wal snap).refinement.Agrees SameBuckets
      (Run.run ((fileBackedProfileStore wal snap).perform (ask wal snap))
        ((fileBackedProfileStore wal snap).openNode .none) actions)
      (Run.run (Action.perform InMemoryProfileStore.ask) ∅ actions) := by
  have hR : (appendOnly wal snap).refinement.Restores := (appendOnly wal snap).restores hsnap
  refine (appendOnly wal snap).refinement.simulates _ _ hR
    (fun {ledger s i m c} hservice hagree henc => ?_) (fun hlive hdisk hagree k => ?_)
    (fun _ => rfl) h
  · obtain ⟨tenant, batch⟩ := c
    obtain ⟨hresult, hstate, j, -, hnext⟩ := hservice.succeeds hR
      (fun hlive => legal wal snap hwal _ [] _ _ hlive) henc
    have hsorted : SortedBuckets m := fun k => hagree k ▸ hservice.live.2 k
    refine ⟨?_, fun k => ?_, _, j, hnext⟩
    · change Except.map _ _ = _
      rw [hresult]
      rfl
    · change bucket (Pillar.call _ _ _ _).store.state k = _
      rw [hstate, bucket_outcome hservice.live.2]
      change _ = bucket (InMemoryProfileStore.ingest m tenant batch).2 k
      rw [bucket_ingest hsorted, hagree k]
  · rw [bucket_reopened hlive hdisk]
    exact hagree k

end FileBacked

/-- Some query of a time range in `u64` returns the profile. -/
def Returned (s : Store PerService) (tenant : TenantId) (profile : Profile) : Prop :=
  ∃ service range predicate, range.endUnixNano < 2 ^ 64 ∧
    profile ∈ queryWith s tenant service range predicate

/-- A file-backed store answers as the in-memory store: with what was ingested, in the order of time
and, at one time, in the order of the ingests. Of a batch it returns what has a service name and is
not at the end of time. -/
structure Keeps (s : Store PerService) (m : PerService)
    (actions : List (Action Call SnapshotOrder)) : Prop where
  query_eq : ∀ tenant service range,
    query s tenant service range = InMemoryProfileStore.query m tenant service range
  queryWith_eq : ∀ tenant service range predicate,
    queryWith s tenant service range predicate =
      InMemoryProfileStore.queryWith m tenant service range predicate
  stored : ∀ tenant service range predicate,
    queryWith s tenant service range predicate =
      (sortBucket (ingestedFor tenant service actions)).filter fun p =>
        range.contains p.timeUnixNano && predicate.matchesProfile p
  returned : ∀ tenant batch, .request (.ingest tenant batch) ∈ actions →
    ∀ profile ∈ batch.profiles, Returned s tenant profile ↔
      profile.serviceName ≠ "" ∧ profile.timeUnixNano < 2 ^ 64 - 1

theorem mem_filedUnder {service : ServiceName} {profiles : List Profile} {profile : Profile} :
    profile ∈ filedUnder service profiles ↔
      profile ∈ profiles ∧ profile.serviceName ≠ "" ∧ profile.serviceName = service.name := by
  rw [filedUnder, List.mem_filter, decide_eq_true_iff]

theorem mem_ingestedFor {tenant : TenantId} {service : ServiceName}
    {actions : List (Action Call SnapshotOrder)} {profile : Profile} :
    profile ∈ ingestedFor tenant service actions ↔
      (∃ batch, .request (.ingest tenant batch) ∈ actions ∧ profile ∈ batch.profiles) ∧
        profile.serviceName ≠ "" ∧ profile.serviceName = service.name := by
  rw [ingestedFor, List.mem_flatMap]
  constructor
  · rintro ⟨a, ha, hmem⟩
    match a, hmem with
    | .request (.ingest t batch), hmem =>
      rw [ingestedBy] at hmem
      split_ifs at hmem with ht
      · obtain ⟨hprofile, hname⟩ := mem_filedUnder.mp hmem
        exact ⟨⟨batch, ht ▸ ha, hprofile⟩, hname⟩
      · exact absurd hmem List.not_mem_nil
  · rintro ⟨⟨batch, ha, hprofile⟩, hname⟩
    refine ⟨_, ha, ?_⟩
    rw [ingestedBy, if_pos rfl]
    exact mem_filedUnder.mpr ⟨hprofile, hname⟩

/-- Of the profiles that were ingested, some query returns those with a service name that are not
at the end of time. -/
theorem returned_iff {s : Store PerService} {actions : List (Action Call SnapshotOrder)}
    (hstored : ∀ tenant service range predicate,
      queryWith s tenant service range predicate =
        (sortBucket (ingestedFor tenant service actions)).filter fun p =>
          range.contains p.timeUnixNano && predicate.matchesProfile p)
    {tenant : TenantId} {batch : ProfileBatch} (hbatch : .request (.ingest tenant batch) ∈ actions)
    {profile : Profile} (hprofile : profile ∈ batch.profiles) :
    Returned s tenant profile ↔ profile.serviceName ≠ "" ∧ profile.timeUnixNano < 2 ^ 64 - 1 := by
  constructor
  · rintro ⟨service, range, predicate, hrange, hmem⟩
    rw [hstored, List.mem_filter, Bool.and_eq_true] at hmem
    obtain ⟨hmem, hcontains, -⟩ := hmem
    obtain ⟨-, hname, -⟩ := mem_ingestedFor.mp ((sortByKey_perm _ _).mem_iff.mp hmem)
    have htime : profile.timeUnixNano < range.endUnixNano := by
      rw [TimeRange.contains, Bool.and_eq_true] at hcontains
      exact of_decide_eq_true hcontains.2
    exact ⟨hname, by omega⟩
  · rintro ⟨hname, htime⟩
    refine ⟨⟨profile.serviceName⟩, ⟨0, 2 ^ 64 - 1⟩, ⟨none⟩, by decide, ?_⟩
    rw [hstored, List.mem_filter]
    refine ⟨(sortByKey_perm _ _).mem_iff.mpr
      (mem_ingestedFor.mpr ⟨⟨batch, hbatch, hprofile⟩, hname, rfl⟩), ?_⟩
    simpa [TimeRange.contains, Predicate.matchesProfile] using htime

/-- For every series of ingests, with snapshots and reopens anywhere between them, the file-backed
store is open, gives the receipts that the in-memory store gives, and keeps what it acknowledged. -/
theorem profileStores_agree {wal : LineSerde WalRecord} {snap : FileSerde Snapshot}
    (hwal : ∀ r, wal.Faithful r) (hsnap : ∀ k, snap.Faithful k)
    (actions : List (Action Call SnapshotOrder))
    (h : Run.AllSteps ((fileBackedProfileStore wal snap).perform (ask wal snap))
      ((fileBackedProfileStore wal snap).Serialises plan)
      ((fileBackedProfileStore wal snap).openNode .none) actions) :
    Run.transcript (Action.perform InMemoryProfileStore.ask)
        (Action.reply InMemoryProfileStore.ask) ∅ actions = actions.map receiptOf ∧
    Run.transcript ((fileBackedProfileStore wal snap).perform (ask wal snap))
        (Pillar.reply (ask wal snap)) ((fileBackedProfileStore wal snap).openNode .none) actions =
      actions.map receiptOf ∧
    ∃ s, Run.run ((fileBackedProfileStore wal snap).perform (ask wal snap))
        ((fileBackedProfileStore wal snap).openNode .none) actions = .up s ∧
      Keeps s (Run.run (Action.perform InMemoryProfileStore.ask) ∅ actions) actions := by
  obtain ⟨htranscript, s, ledger, i, hs, -, hsame⟩ := ask_simulates hwal hsnap h
  have hreceipts := transcript_inMemory actions ∅
  have hmatching (tenant : TenantId) (service : ServiceName) (wanted : Profile → Bool) :
      matching s.state tenant service wanted = matching
        (Run.run (Action.perform InMemoryProfileStore.ask) ∅ actions) tenant service wanted := by
    rw [matching_eq, matching_eq, hsame]
  have hstored (tenant : TenantId) (service : ServiceName) (wanted : Profile → Bool) :
      matching s.state tenant service wanted =
        (sortBucket (ingestedFor tenant service actions)).filter wanted := by
    have hempty : SortedBuckets ∅ := fun k => by simp
    rw [hmatching, matching_eq, bucket_run actions hempty, bucket_empty, List.nil_append]
  exact ⟨hreceipts, htranscript.trans hreceipts, s, hs, fun _ _ _ => hmatching _ _ _,
    fun _ _ _ _ => hmatching _ _ _, fun _ _ _ _ => hstored _ _ _,
    fun _ _ hbatch _ hprofile => returned_iff (fun _ _ _ _ => hstored _ _ _) hbatch hprofile⟩

/-- A profile at one time, of a service or of none. -/
def profileOf (resourceAttributes : BTreeMap String) : Profile where
  timeUnixNano := 100
  durationNanos := 0
  profileType := "cpu"
  sampleType := []
  samples := []
  locations := []
  functions := []
  mappings := []
  stringTable := []
  resourceAttributes
  attributes := .empty

/-- A profile of `checkout`. -/
def checkoutProfile : Profile := profileOf (.single "service.name" "checkout")

/-- An earlier one. -/
def earlierProfile : Profile := { checkoutProfile with timeUnixNano := 50 }

/-- The JSON of the log lines with these. -/
def checkoutLines : LineTable WalRecord where
  rows :=
    [(.ingest ⟨"acme"⟩ [checkoutProfile],
      chars "\x7b\"op\":\"ingest\",\"tenant\":\"acme\",\"profiles\":[" rfl ++
        chars "\x7b\"time_unix_nano\":100," rfl ++
        chars "\"duration_nanos\":0,\"profile_type\":\"cpu\",\"sample_type\":[]," rfl ++
        chars "\"samples\":[],\"locations\":[],\"functions\":[],\"mappings\":[]," rfl ++
        chars "\"string_table\":[],\"resource_attributes\":\x7b\"service.name\":" rfl ++
        chars "\"checkout\"\x7d,\"attributes\":\x7b\x7d\x7d]\x7d" rfl),
    (.ingest ⟨"acme"⟩ [earlierProfile],
      chars "\x7b\"op\":\"ingest\",\"tenant\":\"acme\",\"profiles\":[" rfl ++
        chars "\x7b\"time_unix_nano\":50," rfl ++
        chars "\"duration_nanos\":0,\"profile_type\":\"cpu\",\"sample_type\":[]," rfl ++
        chars "\"samples\":[],\"locations\":[],\"functions\":[],\"mappings\":[]," rfl ++
        chars "\"string_table\":[],\"resource_attributes\":\x7b\"service.name\":" rfl ++
        chars "\"checkout\"\x7d,\"attributes\":\x7b\x7d\x7d]\x7d" rfl)]
  ascii := by decide +kernel
  oneLine := by decide +kernel
  prefixFree := by decide +kernel

/-- The snapshot of both. -/
def checkoutSnapshot : Snapshot :=
  ⟨[⟨⟨"acme"⟩, ⟨"checkout"⟩, [earlierProfile, checkoutProfile]⟩]⟩

/-- The bytes of that snapshot. -/
def checkoutBytes : Bytes :=
  asBytes (chars "\x7b\"buckets\":[\x7b\"tenant\":\"acme\",\"service\":\"checkout\"," rfl ++
        chars "\"profiles\":[" rfl ++
        chars "\x7b\"time_unix_nano\":50," rfl ++
        chars "\"duration_nanos\":0,\"profile_type\":\"cpu\",\"sample_type\":[]," rfl ++
        chars "\"samples\":[],\"locations\":[],\"functions\":[],\"mappings\":[]," rfl ++
        chars "\"string_table\":[],\"resource_attributes\":\x7b\"service.name\":" rfl ++
        chars "\"checkout\"\x7d,\"attributes\":\x7b\x7d\x7d," rfl ++
        chars "\x7b\"time_unix_nano\":100," rfl ++
        chars "\"duration_nanos\":0,\"profile_type\":\"cpu\",\"sample_type\":[]," rfl ++
        chars "\"samples\":[],\"locations\":[],\"functions\":[],\"mappings\":[]," rfl ++
        chars "\"string_table\":[],\"resource_attributes\":\x7b\"service.name\":" rfl ++
        chars "\"checkout\"\x7d,\"attributes\":\x7b\x7d\x7d]\x7d]\x7d" rfl)

/-- A profile store for these. -/
abbrev checkoutStore : Pillar PerService WalRecord Snapshot ProfileStoreError SnapshotOrder :=
  fileBackedProfileStore checkoutLines.serde (.single checkoutSnapshot checkoutBytes)

/-- An ingest of each profile, with a reopen between them. -/
def checkoutIngests : List (Action Call SnapshotOrder) :=
  [.request (.ingest ⟨"acme"⟩ ⟨[checkoutProfile]⟩), .reopen,
    .request (.ingest ⟨"acme"⟩ ⟨[earlierProfile]⟩)]

/-- A snapshot, a reopen from it and an empty ingest follow. -/
noncomputable def checkoutActions : List (Action Call SnapshotOrder) :=
  checkoutIngests ++ .snapshot (.unspecified _ _) ::
    [.reopen, .request (.ingest ⟨"acme"⟩ ⟨[]⟩)]

/-- The store when the snapshot is taken. -/
def checkoutOpen : Store PerService where
  state := (∅ : PerService).insert (⟨"acme"⟩, ⟨"checkout"⟩) [earlierProfile, checkoutProfile]
  snapshot := none
  tmp := none
  wal := ⟨checkoutLines.rows.flatMap fun e => wireLine e.2, []⟩

set_option maxRecDepth 4000 in
theorem run_checkoutIngests : Run.run (checkoutStore.perform
      (ask checkoutLines.serde (.single checkoutSnapshot checkoutBytes)))
    (checkoutStore.openNode .none) checkoutIngests = .up checkoutOpen := by rfl

theorem toWriter_checkoutOpen (order : SnapshotOrder) :
    checkoutStore.snapSerde.toWriter (checkoutStore.capture order checkoutOpen.state) =
      .ok checkoutBytes := by
  have hentries : order.entries checkoutOpen.state =
      [((⟨"acme"⟩, ⟨"checkout"⟩), [earlierProfile, checkoutProfile])] :=
    order.entries_singleton fun key => by
      rw [checkoutOpen, lookup_insert_ite, Finmap.lookup_empty]
  have hcapture : toSnapshot order checkoutOpen.state = checkoutSnapshot := by
    rw [toSnapshot, hentries]
    rfl
  exact (congrArg _ hcapture).trans (FileSerde.single_toWriter _ _)

/-- The file-backed store then keeps both profiles. -/
theorem checkoutActions_kept :
    ∃ s, Run.run (checkoutStore.perform
          (ask checkoutLines.serde (.single checkoutSnapshot checkoutBytes)))
        (checkoutStore.openNode .none) checkoutActions = .up s ∧
      Keeps s (Run.run (Action.perform InMemoryProfileStore.ask) ∅ checkoutActions)
        checkoutActions :=
  (profileStores_agree checkoutLines.faithful (FileSerde.single_faithful _ _) checkoutActions
    (checkoutStore.allSteps_snapshot _ run_checkoutIngests (toWriter_checkoutOpen _)
      (by decide +kernel) trivial (by decide +kernel))).2.2

/-- A profile without a service name is counted, and no query returns it. -/
theorem nameless_counted :
    (InMemoryProfileStore.ingest ∅ ⟨"acme"⟩ ⟨[profileOf .empty]⟩).1 = .ok ⟨1⟩ ∧
      ∀ service range predicate,
        InMemoryProfileStore.queryWith
          (InMemoryProfileStore.ingest ∅ ⟨"acme"⟩ ⟨[profileOf .empty]⟩).2 ⟨"acme"⟩ service range
            predicate = [] := by
  refine ⟨rfl, fun service range predicate => ?_⟩
  have hempty : SortedBuckets ∅ := fun k => by simp
  rw [InMemoryProfileStore.queryWith, matching_eq, bucket_ingest hempty, bucket_empty,
    List.nil_append, valuesAt_items, if_pos rfl]
  rfl

end Kaleidoscope.Strata
