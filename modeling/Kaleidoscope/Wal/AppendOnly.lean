import Kaleidoscope.Library.Buckets
import Kaleidoscope.Wal.Refinement

/-!
# Append-only stores

The log, trace and profile stores file what they ingest under keys and keep every bucket
sorted by time. Their abstract state is the list of everything filed so far.
-/

namespace Kaleidoscope

open Utf8 Replay HashMap StableSort

/-- When two buckets hold the same values: a notion that sorting does not disturb, that
appending respects, and under which nothing is lost or duplicated. -/
structure Sameness {V : Type} (key : V → Nat) where
  same : List V → List V → Prop
  symm : ∀ {a b}, same a b → same b a
  trans : ∀ {a b c}, same a b → same b c → same a c
  append : ∀ {a b}, same a b → ∀ c, same (a ++ c) (b ++ c)
  sorted : ∀ a, same (sortByKey key a) a
  perm : ∀ {a b}, same a b → a.Perm b

namespace Sameness

variable {V : Type} (key : V → Nat)

/-- The same values, with the order kept among those of equal time. -/
def stable : Sameness key where
  same a b := sortByKey key a = sortByKey key b
  symm := Eq.symm
  trans := Eq.trans
  append h c := sortByKey_append_congr key h c
  sorted a := sortByKey_sortByKey key a
  perm {a b} h := by
    have hb := sortByKey_perm key b
    rw [← h] at hb
    exact (sortByKey_perm key a).symm.trans hb

/-- The same values as a multiset. -/
def multiset : Sameness key where
  same := List.Perm
  symm := List.Perm.symm
  trans := List.Perm.trans
  append h c := h.append_right c
  sorted a := sortByKey_perm key a
  perm := id

end Sameness

variable {σ ρ κ ε ω C K V : Type} [DecidableEq K]

/-- A pillar that only ever files values under keys. -/
structure AppendOnly (P : Pillar σ ρ κ ε ω) (K V : Type) [DecidableEq K] where
  /-- The time the buckets are sorted by. -/
  time : V → Nat
  /-- How exactly a snapshot preserves a bucket. -/
  keeps : Sameness time
  /-- The bucket of a key. -/
  bucket : σ → K → List V
  /-- What one log record files. -/
  items : ρ → List (K × V)
  /-- What every operation makes sure of before it logs a record. -/
  good : ρ → Prop
  bucket_empty : ∀ k, bucket P.empty k = []
  apply_ok : ∀ s r, ∃ s', P.apply s r = .ok s' ∧
    ∀ k, bucket s' k = bucket s k ++ valuesAt k (items r)
  bucket_settle : ∀ s k, bucket (P.settle s) k = sortByKey time (bucket s k)
  restore_capture : ∀ order s (rs : List ρ),
    (∀ k, keeps.same (bucket s k) (valuesAt k (rs.flatMap items))) →
      ∃ s', P.restore (P.capture order s) = .ok s' ∧ ∀ k, keeps.same (bucket s' k) (bucket s k)

namespace AppendOnly

variable {P : Pillar σ ρ κ ε ω} (A : AppendOnly P K V)

/-- Every bucket holds what the records filed under its key. -/
def Holds (s : σ) (rs : List ρ) : Prop :=
  ∀ k, A.keeps.same (A.bucket s k) (valuesAt k (rs.flatMap A.items))

/-- Every bucket is in the order of time. -/
def Sorted (s : σ) : Prop :=
  ∀ k, (A.bucket s k).Pairwise fun a b => A.time a ≤ A.time b

/-- One more record. -/
theorem Holds.snoc {s s' : σ} {rs : List ρ} {r : ρ} (h : A.Holds s rs)
    (hs' : ∀ k, A.keeps.same (A.bucket s' k) (A.bucket s k ++ valuesAt k (A.items r))) :
    A.Holds s' (rs ++ [r]) := by
  intro k
  rw [List.flatMap_append, valuesAt_append, List.flatMap_singleton]
  exact A.keeps.trans (hs' k) (A.keeps.append (h k) _)

/-- The refinement of an append-only pillar: the abstract state is the list of records. -/
def refinement : Refinement P (List ρ) where
  init := []
  next i r j := (P.walSerde.Faithful r ∧ A.good r) ∧ j = i ++ [r]
  compacts := Eq
  loaded := A.Holds
  disk := A.Holds
  live s i := A.Holds s i ∧ A.Sorted s
  faithful h := h.1.1
  empty_loaded k := by
    rw [A.bucket_empty]
    exact A.keeps.sorted []
  loaded_disk := id
  apply_disk {i r j s} h hs := by
    obtain ⟨s', hs', hbucket⟩ := A.apply_ok s r
    refine ⟨s', hs', h.2 ▸ hs.snoc A fun k => ?_⟩
    rw [hbucket]
    exact A.keeps.trans (A.keeps.symm (A.keeps.sorted _)) (A.keeps.sorted _)
  settle_live {s i} hs := by
    refine ⟨fun k => ?_, fun k => ?_⟩
    · rw [A.bucket_settle]
      exact A.keeps.trans (A.keeps.sorted _) (hs k)
    · rw [A.bucket_settle]
      exact pairwise_sortByKey A.time _

/-- A path is a list of good records. -/
theorem path_iff {i j rs : List ρ} :
    Path A.refinement.next i rs j ↔
      (∀ r ∈ rs, P.walSerde.Faithful r ∧ A.good r) ∧ j = i ++ rs := by
  constructor
  · intro h
    induction h with
    | nil => simp
    | snoc _ hr ih =>
      refine ⟨fun r hm => ?_, by rw [hr.2, ih.2, List.append_assoc]⟩
      rcases List.mem_append.mp hm with hm | hm
      · exact ih.1 r hm
      · rw [List.mem_singleton.mp hm]
        exact hr.1
  · rintro ⟨hgood, rfl⟩
    induction rs using List.reverseRecOn with
    | nil => simpa using .nil i
    | append_singleton rs r ih =>
      exact .snoc (ih fun r hm => hgood r (List.mem_append_left _ hm))
        ⟨hgood r (by simp), (List.append_assoc ..).symm⟩

/-- A snapshot is restored to what the store held. -/
theorem restores (hsnap : ∀ k, P.snapSerde.Faithful k) : A.refinement.Restores := by
  intro s i hs order
  obtain ⟨s', hs', hsame⟩ := A.restore_capture order s i hs.1
  exact ⟨hsnap _, s', i, hs', fun k => A.keeps.trans (hsame k) (hs.1 k), hs, rfl⟩

/-- The single append of an ingest drives memory as its record drives the log. -/
theorem legal_ingest {r : ρ} (hr : P.walSerde.Faithful r) (hgood : A.good r) {commit : σ → σ}
    (hcommit : ∀ s, A.Sorted s → ∀ k,
      A.bucket (commit s) k = sortByKey A.time (A.bucket s k ++ valuesAt k (A.items r)))
    {s : σ} {i : List ρ} (hs : A.refinement.live s i) (faults : List Fault) :
    A.refinement.Legal ⟨s, [⟨r, commit⟩]⟩ faults i := by
  refine ⟨Or.inl hs, i ++ [r], ⟨⟨hr, hgood⟩, rfl⟩, ⟨hs.1.snoc A fun k => ?_, fun k => ?_⟩, trivial⟩
  · rw [hcommit s hs.2]
    exact A.keeps.sorted _
  · rw [hcommit s hs.2]
    exact pairwise_sortByKey A.time _

/-- What a reopened store holds is what the ledger filed. -/
theorem recovers {plan : C → σ → Plan σ ρ} {cond : World σ ρ → Event C ω → Prop}
    (hsound : ∀ w e, cond w e → A.refinement.Sound plan w e) :
    P.Recovers plan cond fun s ledger => A.Holds s ledger ∧ A.Sorted s := by
  refine A.refinement.recovers (fun _ => .mono hsound) fun {ledger i d} hreach hd => ?_
  obtain rfl : i = ledger := (A.path_iff.mp hreach.path).2
  exact A.refinement.settle_live hd

/-- Nothing is lost and nothing appears twice. -/
def SameMultisets (s s' : σ) : Prop := ∀ k, (A.bucket s' k).Perm (A.bucket s k)

private theorem sameMultisets_iff {s s' : σ} {i j : List ρ} (hs : A.Holds s i)
    (hs' : A.Holds s' j) : A.SameMultisets s s' ↔
      ∀ k, (valuesAt k (j.flatMap A.items)).Perm (valuesAt k (i.flatMap A.items)) := by
  have h (k : K) := A.keeps.perm (hs k)
  have h' (k : K) := A.keeps.perm (hs' k)
  constructor
  · exact fun hsame k => (h' k).symm.trans ((hsame k).trans (h k))
  · exact fun hperm k => (h' k).trans ((hperm k).trans (h k).symm)

/-- Replaying a log again keeps every bucket only when the log files nothing. -/
private theorem perm_again_iff {i rs : List ρ} :
    (∀ k, (valuesAt k ((i ++ rs).flatMap A.items)).Perm (valuesAt k (i.flatMap A.items))) ↔
      ∀ r ∈ rs, A.items r = [] := by
  rw [← List.flatMap_eq_nil_iff, ← valuesAt_eq_nil_iff]
  refine forall_congr' fun k => ?_
  rw [List.flatMap_append, valuesAt_append]
  constructor
  · intro h
    have := h.length_eq
    rw [List.length_append] at this
    exact List.length_eq_zero_iff.mp (by omega)
  · intro h
    rw [h, List.append_nil]

/-- A crash inside `snapshot` shows nothing, except between the rename and the truncation of
a log that files something. -/
def Hides (s : Store σ) (stage : SnapshotStage) : Prop :=
  stage ≠ .renamed ∨ ∀ r ∈ P.walSerde.records s.wal.file, A.items r = []

theorem crashInvisible_iff (hsnap : ∀ k, P.snapSerde.Faithful k) {ledger : List ρ}
    {s : Store σ} {i : List ρ} (h : A.refinement.Serves ledger s i)
    (hterm : Terminated s.wal.file) (order : ω) (k : Nat) :
    P.CrashInvisible A.SameMultisets s order k ↔ A.Hides s (P.snapshotStage order s k) := by
  rw [Pillar.CrashInvisible, Hides]
  by_cases hk : P.snapshotStage order s k = .renamed
  · obtain ⟨-, i₀, rs, j, -, hlog, hpath, rfl, -, hholds⟩ :=
      A.refinement.holds_renamed h (A.restores hsnap) hk
    rw [(hlog.encodes hterm).records_eq]
    have hagain : Path A.refinement.next i rs (i ++ rs) :=
      A.path_iff.mpr ⟨(A.path_iff.mp hpath).1, rfl⟩
    obtain ⟨s', hs', hserves⟩ := (hholds _ hagain).opens
    simp only [hs', Except.ok.injEq, exists_eq_left', hk, ne_eq, not_true_eq_false, false_or,
      A.sameMultisets_iff h.live.1 hserves.live.1, A.perm_again_iff]
  · obtain ⟨j, hholds, -, hj⟩ := A.refinement.holds_unless_renamed h (A.restores hsnap) hk
    obtain rfl : i = j := hj.elim (fun h => h.2.symm) fun h => h.2
    obtain ⟨s', hs', hserves⟩ := hholds.opens
    simp only [hs', Except.ok.injEq, exists_eq_left', hk, ne_eq, not_false_eq_true, true_or,
      iff_true]
    exact (A.sameMultisets_iff h.live.1 hserves.live.1).mpr fun k => .refl _

/-- So it is in every state that orderly events lead to. -/
theorem crashInvisibleIff_hides {plan : C → σ → Plan σ ρ}
    (hsnap : ∀ k, P.snapSerde.Faithful k)
    (hlegal : ∀ c s i, A.refinement.live s i → A.refinement.Legal (plan c s) [] i) :
    P.CrashInvisibleIff plan (fun _ e => e.Orderly) A.SameMultisets A.Hides :=
  A.refinement.everyStore (A.restores hsnap)
    (fun _ _ he => A.refinement.gentle_of_orderly (fun _ _ h => hlegal _ _ _ h) he)
    fun _ hserves hterm => A.crashInvisible_iff hsnap hserves hterm

end AppendOnly

end Kaleidoscope
