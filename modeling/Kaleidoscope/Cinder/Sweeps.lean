import Kaleidoscope.Cinder.FileBacked

/-!
# Repeated sweeps

What a sweep of the policy leaves for a second sweep at the same time: nothing, unless the entries
that it moved out of the hot tier are due again at once or an append failed.
-/

namespace Kaleidoscope

variable {σ ρ κ ε ω : Type} (P : Pillar σ ρ κ ε ω)

/-- Every append of a series succeeds. -/
def Pillar.AppendsSucceed : List (LogStep σ ρ) → List Fault → BufWriter → Prop
  | [], _, _ => True
  | step :: rest, faults, wal => ∃ written,
    appendWal P.walSerde P.persistenceFailed wal step.record (faults.headD .none) =
      (.ok (), written) ∧ Pillar.AppendsSucceed rest faults.tail written

/-- A series of appends commits some first steps, all of them exactly if it succeeds. -/
theorem Pillar.exists_done (steps : List (LogStep σ ρ)) (faults : List Fault) (s : Store σ) :
    ∃ done rest, steps = done ++ rest ∧
      (P.runSteps steps faults s).store.state = done.foldl (fun s step => step.commit s) s.state ∧
      (P.AppendsSucceed steps faults s.wal ↔ rest = []) := by
  induction steps generalizing faults s with
  | nil => exact ⟨[], [], rfl, rfl, by simp [AppendsSucceed]⟩
  | cons step rest ih =>
    simp only [runSteps, AppendsSucceed]
    rcases appendWal P.walSerde P.persistenceFailed s.wal step.record (faults.headD .none) with
      ⟨e | _, wal⟩
    · exact ⟨[], step :: rest, rfl, rfl, by simp⟩
    · obtain ⟨done, left, hsteps, hstate, hsucceed⟩ :=
        ih faults.tail { s with state := step.commit s.state, wal := wal }
      refine ⟨step :: done, left, by rw [hsteps, List.cons_append], hstate, ?_⟩
      rw [← hsucceed]
      simp

namespace Cinder

open Aegis HashMap

/-- A collected migration applied through the entry. -/
def applyMigration (now : SystemTime) (entries : Entries) (m : (TenantId × ItemId) × Tier) :
    Entries :=
  entries.modify m.1 fun entry => { entry with tier := m.2, migratedAt := now }

/-- `InMemoryTieringStore::evaluate_at`; the state is the map of the entries. -/
def InMemoryTieringStore.evaluateAt (order : IterOrder (TenantId × ItemId) TierEntry)
    (now : SystemTime) (policy : TierPolicy) (entries : Entries) :
    Except MigrateError Nat × Entries :=
  let migrations := toMigrate order now policy entries
  (.ok migrations.length, migrations.foldl (applyMigration now) entries)

section Sweep

variable (now : SystemTime) (policy : TierPolicy)

/-- A sweep on one entry. -/
def sweepEntry (entry : TierEntry) : TierEntry :=
  match due now policy entry with
  | some next => { entry with tier := next, migratedAt := now }
  | none => entry

/-- A hot entry is due, and the warm tier is left at once. -/
def Cascades (entries : Entries) : Prop :=
  policy.warmToCold = 0 ∧ ∃ key entry, entries.lookup key = some entry ∧ entry.tier = .hot ∧
    (due now policy entry).isSome

theorem durationSince_self : durationSince now now = some 0 := by
  simp [durationSince]

/-- A due entry leaves its tier for the next one. -/
theorem nextForward_of_due {entry : TierEntry} {next : Tier}
    (h : due now policy entry = some next) : entry.tier.nextForward = some next := by
  simp only [due, Option.bind_eq_bind, Option.bind_eq_some_iff] at h
  obtain ⟨threshold, -, next', hnext, age, -, h⟩ := h
  split_ifs at h
  obtain rfl := Option.some.inj h
  exact hnext

/-- Right after its migration an entry is due again only under a zero threshold. -/
theorem due_migrated (placedAt : SystemTime) (tier : Tier) :
    (due now policy ⟨tier, placedAt, now⟩).isSome ↔
      (tier = .hot ∧ policy.hotToWarm = 0) ∨ (tier = .warm ∧ policy.warmToCold = 0) := by
  cases tier <;>
    simp [due, TierPolicy.thresholdFrom, Tier.nextForward, durationSince_self,
      Option.isSome_iff_exists]

/-- What is due again right after its migration came from the hot tier, under a zero threshold. -/
theorem due_sweepEntry_isSome_iff (entry : TierEntry) :
    (due now policy (sweepEntry now policy entry)).isSome ↔
      policy.warmToCold = 0 ∧ entry.tier = .hot ∧ (due now policy entry).isSome := by
  rw [sweepEntry]
  cases hdue : due now policy entry with
  | none => simp [hdue]
  | some next =>
    have hnext := nextForward_of_due now policy hdue
    rw [due_migrated]
    rcases entry with ⟨_ | _ | _, placedAt, migratedAt⟩ <;> cases hnext <;> simp

/-! ## The entries after a sweep -/

variable {now policy} {order : IterOrder (TenantId × ItemId) TierEntry} {entries : Entries}

theorem mem_toMigrate {key : TenantId × ItemId} {next : Tier} :
    (key, next) ∈ toMigrate order now policy entries ↔
      ∃ entry, entries.lookup key = some entry ∧ due now policy entry = some next := by
  rw [toMigrate, List.mem_filterMap]
  constructor
  · rintro ⟨⟨key', entry⟩, hentry, h⟩
    obtain ⟨next', hdue, heq⟩ := Option.map_eq_some_iff.mp h
    cases heq
    exact ⟨entry, (order.mem_iff _ _ _).mp hentry, hdue⟩
  · rintro ⟨entry, hentry, hdue⟩
    exact ⟨(key, entry), (order.mem_iff _ _ _).mpr hentry,
      Option.map_eq_some_iff.mpr ⟨next, hdue, rfl⟩⟩

theorem due_of_mem_keys {key : TenantId × ItemId}
    (h : key ∈ (toMigrate order now policy entries).map Prod.fst) :
    ∃ entry next, entries.lookup key = some entry ∧ due now policy entry = some next := by
  obtain ⟨⟨key', next⟩, hm, hkey⟩ := List.mem_map.mp h
  obtain rfl : key' = key := hkey
  obtain ⟨entry, hentry, hdue⟩ := mem_toMigrate.mp hm
  exact ⟨entry, next, hentry, hdue⟩

/-- A sweep visits an entry once. -/
theorem nodup_toMigrate : ((toMigrate order now policy entries).map Prod.fst).Nodup := by
  have hnodup := order.nodup entries
  rw [List.Nodup, List.pairwise_map] at hnodup ⊢
  rw [toMigrate, List.pairwise_filterMap]
  refine hnodup.imp fun hne m hm m' hm' => ?_
  obtain ⟨_, -, rfl⟩ := Option.map_eq_some_iff.mp hm
  obtain ⟨_, -, rfl⟩ := Option.map_eq_some_iff.mp hm'
  exact hne

theorem toMigrate_eq_nil_iff : toMigrate order now policy entries = [] ↔
    ∀ key entry, entries.lookup key = some entry → due now policy entry = none := by
  rw [List.eq_nil_iff_forall_not_mem]
  constructor
  · intro h key entry hentry
    exact Option.eq_none_iff_forall_ne_some.mpr fun next hdue =>
      h (key, next) (mem_toMigrate.mpr ⟨entry, hentry, hdue⟩)
  · rintro h ⟨key, next⟩ hm
    obtain ⟨entry, hentry, hdue⟩ := mem_toMigrate.mp hm
    rw [h key entry hentry] at hdue
    cases hdue

theorem lookup_foldl_of_notMem (now : SystemTime) {migrations : List ((TenantId × ItemId) × Tier)}
    {key : TenantId × ItemId} (h : key ∉ migrations.map Prod.fst) :
    (migrations.foldl (applyMigration now) entries).lookup key = entries.lookup key := by
  induction migrations generalizing entries with
  | nil => rfl
  | cons m migrations ih =>
    simp only [List.map_cons, List.mem_cons, not_or] at h
    rw [List.foldl_cons, ih h.2, applyMigration, lookup_modify, if_neg h.1]

theorem lookup_foldl_of_mem {migrations : List ((TenantId × ItemId) × Tier)}
    (hnodup : (migrations.map Prod.fst).Nodup) {key : TenantId × ItemId} {next : Tier}
    (h : (key, next) ∈ migrations) :
    (migrations.foldl (applyMigration now) entries).lookup key =
      (entries.lookup key).map fun entry => { entry with tier := next, migratedAt := now } := by
  induction migrations generalizing entries with
  | nil => exact absurd h List.not_mem_nil
  | cons m migrations ih =>
    rw [List.map_cons, List.nodup_cons] at hnodup
    rw [List.foldl_cons]
    rcases List.mem_cons.mp h with rfl | h
    · rw [lookup_foldl_of_notMem now hnodup.1, applyMigration, lookup_modify, if_pos rfl]
    · have hne : key ≠ m.1 := by
        rintro rfl
        exact hnodup.1 (List.mem_map.mpr ⟨_, h, rfl⟩)
      rw [ih hnodup.2 h, applyMigration, lookup_modify, if_neg hne]

/-- A whole sweep treats every entry on its own. -/
theorem lookup_sweep (key : TenantId × ItemId) :
    ((toMigrate order now policy entries).foldl (applyMigration now) entries).lookup key =
      (entries.lookup key).map (sweepEntry now policy) := by
  cases hentry : entries.lookup key with
  | none =>
    rw [lookup_foldl_of_notMem now, hentry]
    · rfl
    · intro hm
      obtain ⟨entry, next, h, -⟩ := due_of_mem_keys hm
      rw [hentry] at h
      cases h
  | some entry =>
    cases hdue : due now policy entry with
    | none =>
      rw [lookup_foldl_of_notMem now, hentry, Option.map_some, sweepEntry, hdue]
      intro hm
      obtain ⟨entry', next, h, hdue'⟩ := due_of_mem_keys hm
      obtain rfl := Option.some.inj (hentry.symm.trans h)
      rw [hdue] at hdue'
      cases hdue'
    | some next =>
      rw [lookup_foldl_of_mem nodup_toMigrate (mem_toMigrate.mpr ⟨entry, hentry, hdue⟩), hentry,
        Option.map_some, Option.map_some, sweepEntry, hdue]

/-- A second sweep collects nothing unless the first one cascades. -/
theorem toMigrate_sweep_eq_nil_iff (order order' : IterOrder (TenantId × ItemId) TierEntry) :
    toMigrate order' now policy
        ((toMigrate order now policy entries).foldl (applyMigration now) entries) = [] ↔
      ¬ Cascades now policy entries := by
  simp only [toMigrate_eq_nil_iff, lookup_sweep, Option.map_eq_some_iff, Cascades]
  constructor
  · rintro h ⟨hzero, key, entry, hentry, hhot, hdue⟩
    have hagain := (due_sweepEntry_isSome_iff now policy entry).mpr ⟨hzero, hhot, hdue⟩
    rw [h key _ ⟨entry, hentry, rfl⟩] at hagain
    cases hagain
  · rintro h key _ ⟨entry, hentry, rfl⟩
    rw [← Option.not_isSome_iff_eq_none, due_sweepEntry_isSome_iff]
    rintro ⟨hzero, hhot, hdue⟩
    exact h ⟨hzero, key, entry, hentry, hhot, hdue⟩

/-- A sweep that stops early leaves the next entry due. -/
theorem toMigrate_partial_ne_nil {done rest : List ((TenantId × ItemId) × Tier)}
    {m : (TenantId × ItemId) × Tier} (h : toMigrate order now policy entries = done ++ m :: rest)
    (order' : IterOrder (TenantId × ItemId) TierEntry) :
    toMigrate order' now policy (done.foldl (applyMigration now) entries) ≠ [] := by
  have hm : m ∈ toMigrate order now policy entries := by simp [h]
  obtain ⟨entry, hentry, hdue⟩ := mem_toMigrate.mp hm
  have hnodup : ((toMigrate order now policy entries).map Prod.fst).Nodup := nodup_toMigrate
  rw [h, List.map_append, List.map_cons] at hnodup
  have hnotMem : m.1 ∉ done.map Prod.fst := fun hmem =>
    List.disjoint_of_nodup_append hnodup hmem List.mem_cons_self
  rw [← lookup_foldl_of_notMem now hnotMem] at hentry
  intro hnil
  rw [toMigrate_eq_nil_iff.mp hnil _ _ hentry] at hdue
  cases hdue

end Sweep

section FileBacked

variable (wal : LineSerde WalRecord) (snap : FileSerde Snapshot)

/-- A sweep reports nothing and changes no entry exactly if it collects nothing. -/
theorem evaluateAt_idle_iff (store : Store Entries)
    (order : IterOrder (TenantId × ItemId) TierEntry) (now : SystemTime) (policy : TierPolicy)
    (faults : List Fault) :
    ((evaluateAt wal snap store order now policy faults).1 = .ok 0 ∧
      (evaluateAt wal snap store order now policy faults).2.state = store.state) ↔
      toMigrate order now policy store.state = [] := by
  constructor
  · rintro ⟨hresult, -⟩
    rw [evaluateAt] at hresult
    rw [← List.length_eq_zero_iff]
    revert hresult
    cases ((fileBackedTieringStore wal snap).call
      (plan (.evaluateAt order now policy) store.state) faults store).result with
    | error e => intro hresult; cases hresult
    | ok _ => exact Except.ok.inj
  · intro hnil
    have hsteps : (plan (.evaluateAt order now policy) store.state).steps = [] := by
      rw [plan, evaluateAtSteps, hnil]
      rfl
    rw [evaluateAt, Pillar.call, hsteps, hnil]
    exact ⟨rfl, rfl⟩

/-- After a sweep a second one at the same time is idle exactly if all appends of the first one
succeeded and it did not cascade. -/
theorem evaluateAt_evaluateAt_idle_iff (store : Store Entries)
    (order order' : IterOrder (TenantId × ItemId) TierEntry) (now : SystemTime)
    (policy : TierPolicy) (faults : List Fault) :
    toMigrate order' now policy (evaluateAt wal snap store order now policy faults).2.state = [] ↔
      (fileBackedTieringStore wal snap).AppendsSucceed
        (evaluateAtSteps order now policy store.state) faults store.wal ∧
      ¬ Cascades now policy store.state := by
  obtain ⟨done, rest, hsteps, hstate, hsucceed⟩ :=
    (fileBackedTieringStore wal snap).exists_done (evaluateAtSteps order now policy store.state)
      faults store
  obtain ⟨migrated, left, hmigrations, rfl, rfl⟩ := List.map_eq_append_iff.mp hsteps
  rw [List.foldl_map] at hstate
  change (evaluateAt wal snap store order now policy faults).2.state =
    migrated.foldl (applyMigration now) store.state at hstate
  rw [hstate, hsucceed]
  cases left with
  | nil =>
    rw [List.append_nil] at hmigrations
    rw [← hmigrations, toMigrate_sweep_eq_nil_iff]
    simp
  | cons m left => simp [toMigrate_partial_ne_nil hmigrations]

end FileBacked

/-- One hot entry, and a policy that leaves the warm tier at once: the second sweep moves it on. -/
theorem swept_again : ¬ ∀ (order order' : IterOrder (TenantId × ItemId) TierEntry)
    (now : SystemTime) (policy : TierPolicy) (entries : Entries),
    InMemoryTieringStore.evaluateAt order' now policy
        (InMemoryTieringStore.evaluateAt order now policy entries).2 =
      (.ok 0, (InMemoryTieringStore.evaluateAt order now policy entries).2) := by
  intro h
  have hsecond := h (.unspecified _ _) (.unspecified _ _) 60 ⟨60, 0⟩
    (Finmap.singleton (⟨"acme"⟩, ⟨"a"⟩) ⟨.hot, 0, 0⟩)
  have hnil := List.length_eq_zero_iff.mp (Except.ok.inj (Prod.mk.inj hsecond).1)
  refine (toMigrate_sweep_eq_nil_iff _ _).mp hnil ⟨rfl, (⟨"acme"⟩, ⟨"a"⟩), ⟨.hot, 0, 0⟩, ?_⟩
  exact ⟨Finmap.lookup_singleton_eq, rfl, by decide⟩

/-- A second sweep at the same time finds nothing and changes no entry, in both stores, exactly if
no hot entry was due under a policy that leaves the warm tier at once; for the store with files, all
appends of the first sweep have to succeed too. -/
theorem evaluateAt_twice_iff (now : SystemTime) (policy : TierPolicy)
    (order order' : IterOrder (TenantId × ItemId) TierEntry) :
    (∀ entries : Entries,
      InMemoryTieringStore.evaluateAt order' now policy
          (InMemoryTieringStore.evaluateAt order now policy entries).2 =
        (.ok 0, (InMemoryTieringStore.evaluateAt order now policy entries).2) ↔
      ¬ Cascades now policy entries) ∧
    ∀ (wal : LineSerde WalRecord) (snap : FileSerde Snapshot) (store : Store Entries)
      (faults faults' : List Fault),
      let first := (evaluateAt wal snap store order now policy faults).2
      let second := evaluateAt wal snap first order' now policy faults'
      (second.1 = .ok 0 ∧ second.2.state = first.state) ↔
        (fileBackedTieringStore wal snap).AppendsSucceed
          (evaluateAtSteps order now policy store.state) faults store.wal ∧
        ¬ Cascades now policy store.state := by
  refine ⟨fun entries => ?_, fun wal snap store faults faults' => ?_⟩
  · rw [← toMigrate_sweep_eq_nil_iff order order']
    constructor
    · exact fun h => List.length_eq_zero_iff.mp (Except.ok.inj (Prod.mk.inj h).1)
    · intro hnil
      rw [InMemoryTieringStore.evaluateAt, InMemoryTieringStore.evaluateAt, hnil]
      rfl
  · exact (evaluateAt_idle_iff ..).trans (evaluateAt_evaluateAt_idle_iff ..)

end Cinder

end Kaleidoscope
