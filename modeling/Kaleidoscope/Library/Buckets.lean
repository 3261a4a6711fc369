import Kaleidoscope.Library.HashMap
import Kaleidoscope.Library.StableSort

/-!
# Hash maps of lists

An index files values under keys, in the order in which they come; a key that was never
used has the empty bucket.
-/

namespace HashMap

variable {K V : Type} [DecidableEq K]

/-- The values filed under a key. -/
def bucket (m : HashMap K (List V)) (k : K) : List V := (m.lookup k).getD []

/-- The values that a list of filings puts under a key. -/
def valuesAt (k : K) (items : List (K × V)) : List V :=
  items.filterMap fun e => if e.1 = k then some e.2 else none

@[simp] theorem bucket_empty (k : K) : bucket (∅ : HashMap K (List V)) k = [] := by
  simp [bucket]

@[simp] theorem valuesAt_nil (k : K) : valuesAt k ([] : List (K × V)) = [] := rfl

@[simp] theorem valuesAt_append (k : K) (a b : List (K × V)) :
    valuesAt k (a ++ b) = valuesAt k a ++ valuesAt k b := List.filterMap_append

theorem valuesAt_cons (k : K) (e : K × V) (l : List (K × V)) :
    valuesAt k (e :: l) = (if e.1 = k then [e.2] else []) ++ valuesAt k l := by
  unfold valuesAt
  rw [List.filterMap_cons]
  split_ifs <;> rfl

/-- Filing a list of values under one key. -/
theorem valuesAt_map_pair (k k' : K) (vs : List V) :
    valuesAt k (vs.map fun v => (k', v)) = if k' = k then vs else [] := by
  induction vs with
  | nil => simp
  | cons v vs ih =>
    rw [List.map_cons, valuesAt_cons, ih]
    split_ifs <;> rfl

/-- A key under which nothing is filed. -/
theorem valuesAt_of_notMem {k : K} {items : List (K × V)} (h : k ∉ items.map Prod.fst) :
    valuesAt k items = [] := by
  induction items with
  | nil => rfl
  | cons e items ih =>
    simp only [List.map_cons, List.mem_cons, not_or] at h
    rw [valuesAt_cons, if_neg (Ne.symm h.1), ih h.2, List.nil_append]

/-- Only nothing files nothing under every key. -/
theorem valuesAt_eq_nil_iff {items : List (K × V)} :
    (∀ k, valuesAt k items = []) ↔ items = [] := by
  constructor
  · intro h
    cases items with
    | nil => rfl
    | cons e items =>
      have := h e.1
      rw [valuesAt_cons, if_pos rfl] at this
      exact absurd this (by simp)
  · rintro rfl k
    rfl

/-- The filings of two indices, as those of one index over both kinds of keys. -/
def sumItems {J : Type} (a : List (J × V)) (b : List (K × V)) : List ((J ⊕ K) × V) :=
  a.map (Prod.map .inl id) ++ b.map (Prod.map .inr id)

theorem valuesAt_inl {J : Type} [DecidableEq J] (k : J) (a : List (J × V)) (b : List (K × V)) :
    valuesAt (.inl k) (sumItems a b) = valuesAt k a := by
  simp [valuesAt, sumItems, List.filterMap_map]

theorem valuesAt_inr {J : Type} [DecidableEq J] (k : K) (a : List (J × V)) (b : List (K × V)) :
    valuesAt (.inr k) (sumItems a b) = valuesAt k b := by
  simp [valuesAt, sumItems, List.filterMap_map]

/-- Lists that file the same values under every key file the same. -/
theorem perm_of_valuesAt {a b : List (K × V)}
    (h : ∀ k, (valuesAt k a).Perm (valuesAt k b)) : a.Perm b := by
  classical
  have hcount (k : K) (v : V) (l : List (K × V)) : (valuesAt k l).count v = l.count (k, v) := by
    induction l with
    | nil => rfl
    | cons e l ih =>
      rw [valuesAt_cons, List.count_append, ih, List.count_cons]
      by_cases he : e.1 = k
      · by_cases hv : e.2 = v <;> simp [he, hv, Prod.ext_iff, Nat.add_comm]
      · simp [he, Prod.ext_iff]
  rw [List.perm_iff_count]
  rintro ⟨k, v⟩
  rw [← hcount, ← hcount, (h k).count_eq]

theorem bucket_upsert (m : HashMap K (List V)) (k j : K) (f : List V → List V) :
    bucket (m.upsert k [] f) j = if j = k then f (bucket m k) else bucket m j := by
  unfold bucket
  rw [lookup_upsert]
  split_ifs <;> rfl

theorem bucket_modify (m : HashMap K (List V)) (k j : K) {f : List V → List V} (h : f [] = []) :
    bucket (m.modify k f) j = if j = k then f (bucket m k) else bucket m j := by
  unfold bucket
  rw [lookup_modify]
  split_ifs
  · cases m.lookup k with
    | none => exact h.symm
    | some v => rfl
  · rfl

theorem bucket_mapValues (m : HashMap K (List V)) (k : K) {f : List V → List V} (h : f [] = []) :
    bucket (m.mapValues f) k = f (bucket m k) := by
  unfold bucket
  rw [lookup_mapValues]
  cases m.lookup k with
  | none => exact h.symm
  | some v => rfl

/-- File each value under its key. -/
def pushAll (m : HashMap K (List V)) (items : List (K × V)) : HashMap K (List V) :=
  items.foldl (fun m e => m.upsert e.1 [] (· ++ [e.2])) m

/-- What is filed is appended to its buckets. -/
theorem bucket_pushAll (m : HashMap K (List V)) (items : List (K × V)) (k : K) :
    bucket (m.pushAll items) k = bucket m k ++ valuesAt k items := by
  induction items generalizing m with
  | nil => simp [pushAll]
  | cons e items ih =>
    have h := ih (m.upsert e.1 [] (· ++ [e.2]))
    rw [pushAll, List.foldl_cons, ← pushAll, h, bucket_upsert, valuesAt_cons]
    by_cases he : e.1 = k
    · simp [he]
    · simp [he, Ne.symm he]

/-- Filing makes no key without values. -/
theorem lookup_pushAll_ne_nil {m : HashMap K (List V)} (hm : ∀ k, m.lookup k ≠ some [])
    (items : List (K × V)) (k : K) : (m.pushAll items).lookup k ≠ some [] := by
  induction items generalizing m with
  | nil => exact hm k
  | cons e items ih =>
    refine ih fun j => ?_
    rw [lookup_upsert]
    split_ifs
    · simp
    · exact hm j

/-- Where no key is without values, the keys are those with a bucket. -/
theorem lookup_eq_some_iff {m : HashMap K (List V)} {k : K} {vs : List V}
    (hm : m.lookup k ≠ some []) : m.lookup k = some vs ↔ bucket m k ≠ [] ∧ vs = bucket m k := by
  unfold bucket
  cases h : m.lookup k with
  | none => simp
  | some vs' =>
    have hne : vs' ≠ [] := fun hnil => hm (by rw [h, hnil])
    simp [hne, eq_comm]

/-- Apply the same function to the bucket of every key of a list. -/
def modifyAll (m : HashMap K (List V)) (ks : List K) (f : List V → List V) : HashMap K (List V) :=
  ks.foldl (fun m k => m.modify k f) m

/-- Buckets may be visited in any order, and more than once, by an idempotent function. -/
theorem bucket_modifyAll (m : HashMap K (List V)) (ks : List K) {f : List V → List V}
    (h : f [] = []) (hf : ∀ l, f (f l) = f l) (k : K) :
    bucket (m.modifyAll ks f) k = if k ∈ ks then f (bucket m k) else bucket m k := by
  induction ks generalizing m with
  | nil => simp [modifyAll]
  | cons j ks ih =>
    have hj := ih (m.modify j f)
    rw [modifyAll, List.foldl_cons, ← modifyAll, hj, bucket_modify _ _ _ h]
    by_cases hkj : k = j
    · subst hkj
      simp [hf]
    · simp [hkj]

/-- Filing under some keys and then putting exactly their buckets in order puts every
bucket in order, when the others were before. -/
theorem bucket_modifyAll_pushAll {m : HashMap K (List V)} {f : List V → List V}
    (h : f [] = []) (hf : ∀ l, f (f l) = f l) (hm : ∀ k, f (bucket m k) = bucket m k)
    (items : List (K × V)) (k : K) :
    bucket ((m.pushAll items).modifyAll (items.map Prod.fst) f) k =
      f (bucket m k ++ valuesAt k items) := by
  rw [bucket_modifyAll _ _ h hf, bucket_pushAll]
  split_ifs with hk
  · rfl
  · rw [valuesAt_of_notMem hk, List.append_nil, hm]

/-- The filings a map holds, bucket by bucket in iteration order. -/
def filings (ord : IterOrder K (List V)) (m : HashMap K (List V)) : List (K × V) :=
  (ord.entries m).flatMap fun e => e.2.map fun v => (e.1, v)

private theorem valuesAt_flatMap_of_notMem {l : List (K × List V)} {k : K}
    (h : k ∉ l.map Prod.fst) : valuesAt k (l.flatMap fun e => e.2.map fun v => (e.1, v)) = [] := by
  induction l with
  | nil => rfl
  | cons e l ih =>
    simp only [List.map_cons, List.mem_cons, not_or] at h
    rw [List.flatMap_cons, valuesAt_append, valuesAt_map_pair, if_neg (Ne.symm h.1), ih h.2,
      List.nil_append]

private theorem valuesAt_flatMap_of_mem {l : List (K × List V)} (hl : (l.map Prod.fst).Nodup)
    {k : K} {vs : List V} (h : (k, vs) ∈ l) :
    valuesAt k (l.flatMap fun e => e.2.map fun v => (e.1, v)) = vs := by
  induction l with
  | nil => exact absurd h List.not_mem_nil
  | cons e l ih =>
    simp only [List.map_cons, List.nodup_cons] at hl
    rw [List.flatMap_cons, valuesAt_append, valuesAt_map_pair]
    rcases List.mem_cons.mp h with rfl | h
    · rw [if_pos rfl, valuesAt_flatMap_of_notMem hl.1, List.append_nil]
    · have hne : e.1 ≠ k := fun he => hl.1 (he ▸ List.mem_map.mpr ⟨_, h, rfl⟩)
      rw [if_neg hne, ih hl.2 h, List.nil_append]

/-- Whatever the iteration order, each bucket is filed again as it was. -/
theorem valuesAt_filings (ord : IterOrder K (List V)) (m : HashMap K (List V)) (k : K) :
    valuesAt k (filings ord m) = bucket m k := by
  unfold bucket
  cases h : m.lookup k with
  | some vs => exact valuesAt_flatMap_of_mem (ord.nodup m) ((ord.mem_iff m k vs).mpr h)
  | none =>
    refine valuesAt_flatMap_of_notMem ?_
    rw [ord.mem_keys_iff, h]
    simp

end HashMap
