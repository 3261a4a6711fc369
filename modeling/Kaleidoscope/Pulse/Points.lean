import Kaleidoscope.Library.Buckets
import Kaleidoscope.Pulse.Recovery

/-!
# The points of the metric store

What is counted in a crash inside `snapshot` is the points of each series.
-/

namespace Kaleidoscope.Pulse

open Aegis HashMap StableSort Replay

variable {p : F64 → Prop}

/-- The points of a series. -/
def pointsOf (series : Series) (k : Key) : List MetricPoint :=
  ((series.lookup k).map SeriesEntry.points).getD []

/-- Two states have the same points in every series. -/
def SamePoints (inner inner' : Inner) : Prop :=
  ∀ k, (pointsOf inner'.series k).Perm (pointsOf inner.series k)

/-- The points of a logged metric, with their series. -/
def loggedPoints (e : TenantId × Metric) : List (Key × MetricPoint) :=
  e.2.points.map fun p => (keyOf e, p)

theorem pointsOf_file (series : Series) (e : TenantId × Metric) (k : Key) :
    pointsOf (file series e.1 e.2) k = pointsOf series k ++ valuesAt k (loggedPoints e) := by
  rw [pointsOf, lookup_file, loggedPoints, valuesAt_map_pair, pointsOf]
  change ((if k = keyOf e then _ else _ : Option SeriesEntry).map _).getD [] = _
  by_cases hk : k = keyOf e
  · rw [if_pos hk, if_pos hk.symm]
    cases series.lookup k <;> rfl
  · rw [if_neg hk, if_neg (Ne.symm hk), List.append_nil]

/-- Filing appends the points of each metric to its series. -/
theorem pointsOf_fileAll (series : Series) (log : List (TenantId × Metric)) (k : Key) :
    pointsOf (fileAll series log) k =
      pointsOf series k ++ valuesAt k (log.flatMap loggedPoints) := by
  induction log generalizing series with
  | nil => simp [fileAll]
  | cons e log ih =>
    rw [fileAll, List.foldl_cons, ← fileAll, ih, pointsOf_file, List.flatMap_cons,
      valuesAt_append, List.append_assoc]

theorem pointsOf_sortAll (series : Series) (k : Key) :
    (pointsOf (sortAll series) k).Perm (pointsOf series k) := by
  rw [pointsOf, pointsOf, lookup_sortAll]
  cases series.lookup k with
  | none => rfl
  | some entry => exact sortByKey_perm _ _

/-- The points of an indexed series are those of the content. -/
theorem Indexes.pointsOf_perm {inner : Inner} {i : Content} (h : Indexes p inner i) {k : Key}
    (hk : (inner.series.lookup k).isSome) :
    (pointsOf i.series k).Perm (pointsOf inner.series k) := by
  obtain ⟨entry, hentry⟩ := Option.isSome_iff_exists.mp hk
  obtain ⟨entry', hentry', hsame⟩ := Option.map_eq_some_iff.mp (h.exact k entry hentry)
  have hpoints := congrArg SeriesEntry.points hsame
  rw [pointsOf, pointsOf, hentry, hentry']
  exact (sortByKey_perm _ _).symm.trans (.trans (.of_eq hpoints) (sortByKey_perm _ _))

/-- The points of a series that memory lacks are those logged since the last snapshot. -/
theorem Indexes.pointsOf_refused {inner : Inner} {i : Content} (h : Indexes p inner i) {k : Key}
    (hk : inner.series.lookup k = none) :
    pointsOf i.series k = valuesAt k (i.log.flatMap loggedPoints) := by
  have hbase : i.base.lookup k = none := by
    cases hb : i.base.lookup k with
    | none => rfl
    | some entry =>
      have := h.base k (by rw [hb]; rfl)
      rw [hk] at this
      cases this
  rw [Content.series, pointsOf_fileAll, pointsOf, hbase]
  rfl

/-- No logged metric has a point of a series for which the condition fails. -/
theorem valuesAt_loggedPoints_eq_nil_iff {log : List (TenantId × Metric)} {p : Key → Prop} :
    (∀ k, ¬ p k → valuesAt k (log.flatMap loggedPoints) = []) ↔
      ∀ e ∈ log, e.2.points ≠ [] → p (keyOf e) := by
  have hmem (k : Key) : valuesAt k (log.flatMap loggedPoints) = [] ↔
      ∀ e ∈ log, keyOf e = k → e.2.points = [] := by
    induction log with
    | nil => simp
    | cons e log ih =>
      rw [List.flatMap_cons, valuesAt_append, List.append_eq_nil_iff, ih, loggedPoints,
        valuesAt_map_pair, List.forall_mem_cons]
      by_cases hk : keyOf e = k <;> simp [hk]
  constructor
  · intro h e he hne
    by_contra hp
    exact hne ((hmem _).mp (h _ hp) e he rfl)
  · intro h k hp
    refine (hmem k).mpr fun e he hk => ?_
    by_contra hne
    exact hp (hk ▸ h e he hne)

/-- At each stage of `snapshot`, what the log must not hold for a crash to be invisible:
before the rename points of refused series, between rename and truncation any points. -/
def Hides (wal : LineSerde WalRecord) (s : Store Inner) : SnapshotStage → Prop
  | .unrenamed => ∀ e ∈ (wal.records s.wal.file).flatMap WalRecordOf.metrics,
      e.2.points ≠ [] → (s.state.series.lookup (keyOf e)).isSome
  | .renamed => ∀ e ∈ (wal.records s.wal.file).flatMap WalRecordOf.metrics, e.2.points = []
  | .truncated => True

/-- In points, a content agrees with memory when the metrics logged of refused series have
none. -/
theorem Indexes.pointsOf_perm_iff {inner : Inner} {i : Content} (h : Indexes p inner i) :
    (∀ k, (pointsOf i.series k).Perm (pointsOf inner.series k)) ↔
      ∀ e ∈ i.log, e.2.points ≠ [] → (inner.series.lookup (keyOf e)).isSome := by
  rw [← valuesAt_loggedPoints_eq_nil_iff (p := fun k => (inner.series.lookup k).isSome)]
  have hnone {k : Key} (hk : ¬ (inner.series.lookup k).isSome = true) :
      inner.series.lookup k = none := by simpa using hk
  constructor
  · intro hperm k hk
    have hp := hperm k
    rw [h.pointsOf_refused (hnone hk), pointsOf, hnone hk] at hp
    exact hp.eq_nil
  · intro hnil k
    by_cases hk : (inner.series.lookup k).isSome
    · exact h.pointsOf_perm hk
    · rw [h.pointsOf_refused (hnone hk), hnil k hk, pointsOf, hnone hk]
      rfl

section Refinement

variable {order : IterOrder Key SeriesEntry} {wal : LineSerde WalRecord}
  {snap : FileSerde Snapshot}

/-- What files hold is, in points, what they reopen to. -/
theorem crashInvisible_of_holds {ledger : List WalRecord} {s : Store Inner} {j : Content}
    {order' : IterOrder Key SeriesEntry} {k : Nat}
    (h : (refinement p order wal snap Content.Forgets).Holds ledger
      ((fileBackedMetricStore order wal snap).snapshotCrash order' s k) j) :
    (fileBackedMetricStore order wal snap).CrashInvisible SamePoints s order' k ↔
      ∀ k, (pointsOf j.series k).Perm (pointsOf s.state.series k) := by
  obtain ⟨s', hs', hseries, -⟩ := reopens h
  simp only [Pillar.CrashInvisible, hs', Except.ok.injEq, exists_eq_left', SamePoints, hseries]
  refine forall_congr' fun k => ⟨fun hp => ?_, fun hp => ?_⟩
  · exact (pointsOf_sortAll _ k).symm.trans hp
  · exact (pointsOf_sortAll _ k).trans hp

/-- The log of a serving store holds the metrics of its content. -/
theorem log_eq {ledger : List WalRecord} {s : Store Inner} {i : Content}
    (h : (refinement p order wal snap Content.Forgets).Serves ledger s i)
    (hterm : Terminated s.wal.file) :
    i.log = (wal.records s.wal.file).flatMap WalRecordOf.metrics := by
  obtain ⟨s₀, i₀, rs, -, hloaded, -, hlog, hpath⟩ := h.holds
  have hrecords : wal.records s.wal.file = rs := (hlog.encodes hterm).records_eq
  rw [hrecords, path_eq hpath, Content.push, hloaded.1, List.nil_append]

/-- A crash inside `snapshot` is invisible exactly when the log does not hold what shows at
its stage. -/
theorem crashInvisible_iff
    (hsnap : ∀ snapshot : Snapshot, snapshot.AllValues p → snap.Faithful snapshot)
    {ledger : List WalRecord} {s : Store Inner} {i : Content}
    (h : (refinement p order wal snap Content.Forgets).Serves ledger s i)
    (hterm : Terminated s.wal.file) (order' : IterOrder Key SeriesEntry) (k : Nat) :
    (fileBackedMetricStore order wal snap).CrashInvisible SamePoints s order' k ↔
      Hides wal s ((fileBackedMetricStore order wal snap).snapshotStage order' s k) := by
  have hR : (refinement p order wal snap Content.Forgets).Restores := restores hsnap
  by_cases hk : (fileBackedMetricStore order wal snap).snapshotStage order' s k = .renamed
  · obtain ⟨-, i₀, rs, j, -, hlog, hpath, hforgets, hlive, hholds⟩ :=
      (refinement p order wal snap Content.Forgets).holds_renamed h hR hk
    have hrecords : wal.records s.wal.file = rs := (hlog.encodes hterm).records_eq
    have hj : ∀ k, (pointsOf j.series k).Perm (pointsOf s.state.series k) :=
      hlive.1.pointsOf_perm_iff.mpr fun e he => by rw [hforgets] at he; cases he
    rw [crashInvisible_of_holds (hholds _ (path_push hpath j)), hk, Hides, hrecords]
    -- the points of the log come on top of those of the snapshot
    have hnil : (∀ e ∈ rs.flatMap WalRecordOf.metrics, e.2.points = []) ↔
        ∀ k, valuesAt k ((rs.flatMap WalRecordOf.metrics).flatMap loggedPoints) = [] := by
      rw [valuesAt_eq_nil_iff, List.flatMap_eq_nil_iff]
      simp [loggedPoints]
    rw [hnil]
    refine forall_congr' fun k => ?_
    rw [Content.series_push, pointsOf_fileAll]
    constructor
    · intro hp
      have hlen := hp.length_eq
      rw [List.length_append, (hj k).length_eq] at hlen
      exact List.length_eq_zero_iff.mp (by omega)
    · intro hk
      rw [hk, List.append_nil]
      exact hj k
  · obtain ⟨j, hholds, hlive, ⟨hstage, rfl⟩ | ⟨hstage, hforgets⟩⟩ :=
      (refinement p order wal snap Content.Forgets).holds_unless_renamed h hR hk
    · rw [crashInvisible_of_holds hholds, hstage, Hides, ← log_eq h hterm]
      exact hlive.1.pointsOf_perm_iff
    · rw [crashInvisible_of_holds hholds, hstage, Hides, iff_true, hlive.1.pointsOf_perm_iff]
      rw [hforgets]
      exact fun e he => nomatch he

/-- So it is in every state that orderly events with such values lead to. -/
theorem crashInvisibleIff_hides (hwal : ∀ r : WalRecord, r.AllValues p → wal.Faithful r)
    (hsnap : ∀ snapshot : Snapshot, snapshot.AllValues p → snap.Faithful snapshot) :
    (fileBackedMetricStore order wal snap).CrashInvisibleIff plan
      (fun _ e => e.Orderly ∧ e.Calls (Call.AllValues p)) SamePoints (Hides wal) :=
  (refinement p order wal snap Content.Forgets).everyStore (restores hsnap)
    (fun _ _ he => (refinement p order wal snap Content.Forgets).gentle_of_orderly
      (fun {s c i} _ hcall h => by subst hcall; exact legal hwal he.2 [] h) he.1)
    fun _ hserves hterm => crashInvisible_iff hsnap hserves hterm

end Refinement

end Kaleidoscope.Pulse
