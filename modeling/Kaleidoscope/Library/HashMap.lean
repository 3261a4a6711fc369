import Mathlib.Data.Finmap
import Mathlib.Tactic

/-!
# Hash maps as finite maps

A hash map is a finite map; two maps with the same lookups are equal. The order in
which a hash map is iterated is unspecified: every traversal takes it as an
argument, an enumeration of the entries of each map.
-/

/-- A hash map. -/
abbrev HashMap (K V : Type) := Finmap (fun _ : K => V)

namespace HashMap

variable {K V W : Type} [DecidableEq K]

/-- `entry(k).or_insert(d)` followed by a mutation of the entry. -/
def upsert (m : HashMap K V) (k : K) (d : V) (f : V → V) : HashMap K V :=
  m.insert k (f ((m.lookup k).getD d))

/-- `get_mut(k)` followed by a mutation of the entry, when there is one. -/
def modify (m : HashMap K V) (k : K) (f : V → V) : HashMap K V :=
  match m.lookup k with
  | some v => m.insert k (f v)
  | none => m

/-- `values_mut()` followed by the same mutation of every value. -/
def mapValues (f : V → W) (m : HashMap K V) : HashMap K W where
  entries := m.entries.map fun e => ⟨e.1, f e.2⟩
  nodupKeys := by
    have h := m.nodupKeys
    rw [← Multiset.nodup_keys] at h ⊢
    simpa only [Multiset.keys, Multiset.map_map, Function.comp_def] using h

/-- Insert a list of entries, the later ones over the earlier. -/
def insertAll (m : HashMap K V) (l : List (K × V)) : HashMap K V :=
  l.foldl (fun m e => m.insert e.1 e.2) m

/-- A sum over the entries runs over any keys that include those of the map. -/
theorem sum_entries (m : HashMap K V) (w : V → Nat) {keys : Finset K} (h : m.keys ⊆ keys) :
    (m.entries.map fun e => w e.2).sum = ∑ k ∈ keys, (m.lookup k).elim 0 w := by
  have hvalue : ∀ e ∈ m.entries, w e.2 = (m.lookup e.1).elim 0 w := by
    rintro ⟨k, v⟩ he
    rw [Finmap.lookup_eq_some_iff.mpr he]
    rfl
  have hkeys : (m.entries.map fun e => w e.2).sum = ∑ k ∈ m.keys, (m.lookup k).elim 0 w := by
    rw [Multiset.map_congr rfl hvalue]
    exact congrArg Multiset.sum
      (Multiset.map_map (fun k => (m.lookup k).elim 0 w) Sigma.fst m.entries).symm
  rw [hkeys]
  refine Finset.sum_subset h fun k _ hk => ?_
  rw [Finmap.mem_keys, ← Finmap.lookup_eq_none] at hk
  rw [hk]
  rfl

theorem lookup_insert_ite (m : HashMap K V) (k j : K) (v : V) :
    (m.insert k v).lookup j = if j = k then some v else m.lookup j := by
  split_ifs with h
  · subst h
    exact Finmap.lookup_insert m
  · exact Finmap.lookup_insert_of_ne m h

theorem lookup_erase_ite (m : HashMap K V) (k j : K) :
    (m.erase k).lookup j = if j = k then none else m.lookup j := by
  split_ifs with h
  · subst h
    exact Finmap.lookup_erase j m
  · exact Finmap.lookup_erase_ne h

/-- The lookups of a map after an insertion, as a function. -/
theorem lookup_insert_eq_update (m : HashMap K V) (k : K) (v : V) :
    (fun j => (m.insert k v).lookup j) = Function.update (fun j => m.lookup j) k (some v) := by
  funext j
  rw [lookup_insert_ite, Function.update_apply]

theorem lookup_erase_eq_update (m : HashMap K V) (k : K) :
    (fun j => (m.erase k).lookup j) = Function.update (fun j => m.lookup j) k none := by
  funext j
  rw [lookup_erase_ite, Function.update_apply]

theorem lookup_upsert (m : HashMap K V) (k j : K) (d : V) (f : V → V) :
    (m.upsert k d f).lookup j = if j = k then some (f ((m.lookup k).getD d)) else m.lookup j :=
  lookup_insert_ite m k j _

theorem lookup_modify (m : HashMap K V) (k j : K) (f : V → V) :
    (m.modify k f).lookup j = if j = k then (m.lookup k).map f else m.lookup j := by
  unfold modify
  cases h : m.lookup k with
  | some v => simp only [lookup_insert_ite, Option.map_some]
  | none =>
    split_ifs with hj
    · rw [hj, h]; rfl
    · rfl

theorem isSome_lookup_modify (m : HashMap K V) (k j : K) (f : V → V) :
    ((m.modify k f).lookup j).isSome = (m.lookup j).isSome := by
  rw [lookup_modify]
  split_ifs with h
  · rw [Option.isSome_map, h]
  · rfl

/-- Where there is an entry, a default makes no difference. -/
theorem modify_eq_upsert {m : HashMap K V} {k : K} (h : (m.lookup k).isSome) (d : V)
    (f : V → V) : m.modify k f = m.upsert k d f := by
  obtain ⟨v, hv⟩ := Option.isSome_iff_exists.mp h
  rw [modify, upsert, hv]
  rfl

@[simp] theorem lookup_mapValues (f : V → W) (m : HashMap K V) (k : K) :
    (m.mapValues f).lookup k = (m.lookup k).map f := by
  apply Option.ext
  intro w
  rw [Finmap.lookup_eq_some_iff, Option.map_eq_some_iff]
  simp only [mapValues, Multiset.mem_map, Sigma.mk.injEq, Sigma.exists]
  constructor
  · rintro ⟨a, b, hm, rfl, hw⟩
    exact ⟨b, Finmap.lookup_eq_some_iff.mpr hm, eq_of_heq hw⟩
  · rintro ⟨v, hv, rfl⟩
    exact ⟨k, v, Finmap.lookup_eq_some_iff.mp hv, rfl, HEq.rfl⟩

@[simp] theorem insertAll_nil (m : HashMap K V) : m.insertAll [] = m := rfl

@[simp] theorem insertAll_cons (m : HashMap K V) (e : K × V) (l : List (K × V)) :
    m.insertAll (e :: l) = insertAll (m.insert e.1 e.2) l := rfl

theorem lookup_insertAll_of_notMem (m : HashMap K V) {l : List (K × V)} {k : K}
    (h : k ∉ l.map Prod.fst) : (m.insertAll l).lookup k = m.lookup k := by
  induction l generalizing m with
  | nil => rfl
  | cons e l ih =>
    simp only [List.map_cons, List.mem_cons, not_or] at h
    rw [insertAll_cons, ih _ h.2, lookup_insert_ite, if_neg h.1]

theorem lookup_insertAll_of_mem (m : HashMap K V) {l : List (K × V)}
    (hl : (l.map Prod.fst).Nodup) {k : K} {v : V} (h : (k, v) ∈ l) :
    (m.insertAll l).lookup k = some v := by
  induction l generalizing m with
  | nil => exact absurd h List.not_mem_nil
  | cons e l ih =>
    simp only [List.map_cons, List.nodup_cons] at hl
    rcases List.mem_cons.mp h with rfl | h
    · rw [insertAll_cons, lookup_insertAll_of_notMem _ hl.1, lookup_insert_ite, if_pos rfl]
    · exact ih _ hl.2 h

/-- What a map holds after an insertion was inserted, or was there before. -/
theorem mem_of_lookup_insertAll {m : HashMap K V} {l : List (K × V)} {k : K} {v : V}
    (h : (m.insertAll l).lookup k = some v) : (k, v) ∈ l ∨ m.lookup k = some v := by
  induction l generalizing m with
  | nil => exact .inr h
  | cons e l ih =>
    rcases ih h with hl | hm
    · exact .inl (List.mem_cons_of_mem e hl)
    · rw [lookup_insert_ite] at hm
      split_ifs at hm with hk
      · rw [hk, ← Option.some.inj hm]
        exact .inl List.mem_cons_self
      · exact .inr hm

theorem isSome_lookup_insertAll (m : HashMap K V) (l : List (K × V)) (k : K) :
    ((m.insertAll l).lookup k).isSome ↔ k ∈ l.map Prod.fst ∨ (m.lookup k).isSome := by
  induction l generalizing m with
  | nil => simp
  | cons e l ih =>
    rw [insertAll_cons, ih, lookup_insert_ite, List.map_cons, List.mem_cons]
    split_ifs with hk
    · simp [hk]
    · simp [hk]

/-- An iteration order: an enumeration of the entries of every map. -/
structure IterOrder (K V : Type) [DecidableEq K] where
  /-- The entries of a map, in the order in which they are visited. -/
  entries : HashMap K V → List (K × V)
  /-- No key is visited twice. -/
  nodup : ∀ m, ((entries m).map Prod.fst).Nodup
  /-- Exactly the entries of the map are visited. -/
  mem_iff : ∀ m k v, (k, v) ∈ entries m ↔ m.lookup k = some v

namespace IterOrder

theorem mem_keys_iff (ord : IterOrder K V) (m : HashMap K V) (k : K) :
    k ∈ (ord.entries m).map Prod.fst ↔ (m.lookup k).isSome := by
  rw [Option.isSome_iff_exists]
  constructor
  · intro h
    obtain ⟨⟨k', v⟩, hm, rfl⟩ := List.mem_map.mp h
    exact ⟨v, (ord.mem_iff m k' v).mp hm⟩
  · rintro ⟨v, hv⟩
    exact List.mem_map.mpr ⟨(k, v), (ord.mem_iff m k v).mpr hv, rfl⟩

/-- Two orders visit the same entries. -/
theorem entries_perm (ord ord' : IterOrder K V) (m : HashMap K V) :
    (ord.entries m).Perm (ord'.entries m) := by
  refine (List.perm_ext_iff_of_nodup (.of_map _ (ord.nodup m)) (.of_map _ (ord'.nodup m))).mpr ?_
  rintro ⟨k, v⟩
  rw [ord.mem_iff, ord'.mem_iff]

/-- Collecting the entries of a map, in any order, and inserting them again rebuilds it. -/
theorem insertAll_entries (ord : IterOrder K V) (m : HashMap K V) :
    insertAll (∅ : HashMap K V) (ord.entries m) = m := by
  apply Finmap.ext_lookup
  intro k
  cases h : m.lookup k with
  | some v => exact lookup_insertAll_of_mem _ (ord.nodup m) ((ord.mem_iff m k v).mpr h)
  | none =>
    rw [lookup_insertAll_of_notMem, Finmap.lookup_empty]
    rw [ord.mem_keys_iff, h]
    simp

/-- Inserting the entries of a map whose keys are wanted. -/
theorem lookup_insertAll_filter (ord : IterOrder K V) (m m' : HashMap K V) (p : K → Bool)
    (k : K) :
    (m'.insertAll ((ord.entries m).filter fun e => p e.1)).lookup k =
      if p k then (m.lookup k).or (m'.lookup k) else m'.lookup k := by
  have hnodup : (((ord.entries m).filter fun e => p e.1).map Prod.fst).Nodup :=
    (ord.nodup m).sublist (List.filter_sublist.map Prod.fst)
  have hskip (h : p k = false ∨ m.lookup k = none) :
      (m'.insertAll ((ord.entries m).filter fun e => p e.1)).lookup k = m'.lookup k := by
    apply lookup_insertAll_of_notMem
    intro hk
    obtain ⟨⟨j, v⟩, hmem, rfl⟩ := List.mem_map.mp hk
    obtain ⟨hentry, hp⟩ := List.mem_filter.mp hmem
    rcases h with hpk | hnone
    · exact Bool.false_ne_true (hpk.symm.trans hp)
    · rw [(ord.mem_iff m j v).mp hentry] at hnone
      cases hnone
  cases hp : p k with
  | false => exact hskip (.inl hp)
  | true =>
    rw [if_pos rfl]
    cases hm : m.lookup k with
    | none => exact hskip (.inr hm)
    | some v =>
      exact lookup_insertAll_of_mem _ hnodup
        (List.mem_filter.mpr ⟨(ord.mem_iff m k v).mpr hm, hp⟩)

/-- A map of one entry has one iteration order. -/
theorem entries_singleton (ord : IterOrder K V) {m : HashMap K V} {k : K} {v : V}
    (h : ∀ j, m.lookup j = if j = k then some v else none) : ord.entries m = [(k, v)] := by
  have hall : ∀ e ∈ ord.entries m, e = (k, v) := by
    rintro ⟨j, w⟩ he
    have hl := (ord.mem_iff m j w).mp he
    rw [h] at hl
    split_ifs at hl with hj
    rw [hj, Option.some.inj hl]
  have hk : (k, v) ∈ ord.entries m := (ord.mem_iff m k v).mpr (by rw [h, if_pos rfl])
  have hnd := ord.nodup m
  match hl : ord.entries m with
  | [] => rw [hl] at hk; exact absurd hk List.not_mem_nil
  | [e] => rw [hall e (by rw [hl]; exact List.mem_singleton_self e)]
  | e₁ :: e₂ :: rest =>
    rw [hl] at hall hnd
    have h₁ := hall e₁ (by simp)
    have h₂ := hall e₂ (by simp)
    subst h₁ h₂
    simp at hnd

theorem entries_upsert_empty (ord : IterOrder K V) (k : K) (d : V) (f : V → V) :
    ord.entries ((∅ : HashMap K V).upsert k d f) = [(k, f d)] :=
  ord.entries_singleton fun j => by
    rw [lookup_upsert, Finmap.lookup_empty, Finmap.lookup_empty]
    rfl

/-- The empty map is iterated in no step. -/
theorem entries_empty (ord : IterOrder K V) : ord.entries ∅ = [] := by
  apply List.eq_nil_iff_forall_not_mem.mpr
  rintro ⟨k, v⟩ h
  have := (ord.mem_iff ∅ k v).mp h
  rw [Finmap.lookup_empty] at this
  exact absurd this (by simp)

/-- Two maps with the same entries under some keys may be visited alike as far as these go. -/
theorem exists_entries_alike (ord : IterOrder K V) {m m' : HashMap K V} (p : K → Bool)
    (h : ∀ k, p k = true → m'.lookup k = m.lookup k) :
    ∃ ord' : IterOrder K V, ((ord'.entries m').filter fun e => p e.1) =
      (ord.entries m).filter fun e => p e.1 := by
  classical
  let here := (ord.entries m).filter fun e => p e.1
  let rest := (ord.entries m').filter fun e => !p e.1
  have hkeys {e : K × V} {q : K → Bool} {l : List (K × V)} (he : e ∈ l.filter fun e => q e.1) :
      q e.1 = true := (List.mem_filter.mp he).2
  have hnodup : ((here ++ rest).map Prod.fst).Nodup := by
    rw [List.map_append, List.nodup_append]
    refine ⟨(ord.nodup m).sublist (List.filter_sublist.map Prod.fst),
      (ord.nodup m').sublist (List.filter_sublist.map Prod.fst), ?_⟩
    rintro k hhere _ hrest rfl
    obtain ⟨e, he, rfl⟩ := List.mem_map.mp hhere
    obtain ⟨e', he', hsame⟩ := List.mem_map.mp hrest
    have hwanted : p e.1 = true := hkeys he
    have hunwanted := @hkeys e' (fun k => !p k) _ he'
    simp only [hsame, hwanted] at hunwanted
    cases hunwanted
  have hmem (k : K) (v : V) : (k, v) ∈ here ++ rest ↔ m'.lookup k = some v := by
    rw [List.mem_append, List.mem_filter, List.mem_filter, ord.mem_iff, ord.mem_iff]
    cases hp : p k with
    | false => simp
    | true => simp [h k hp]
  have hwanted : (here ++ rest).filter (fun e => p e.1) = here := by
    have hhere : here.filter (fun e => p e.1) = here :=
      List.filter_eq_self.mpr fun e he => hkeys he
    have hrest : rest.filter (fun e => p e.1) = [] :=
      List.filter_eq_nil_iff.mpr fun e he => by simpa using @hkeys e (fun k => !p k) _ he
    rw [List.filter_append, hhere, hrest, List.append_nil]
  refine ⟨⟨fun n => if n = m' then here ++ rest else ord.entries n, fun n => ?_,
    fun n k v => ?_⟩, ?_⟩
  · split_ifs
    · exact hnodup
    · exact ord.nodup n
  · split_ifs with hn
    · rw [hn]
      exact hmem k v
    · exact ord.mem_iff n k v
  · simp only [if_true]
    exact hwanted

/-- Every order may be the other way round. -/
def reverse (ord : IterOrder K V) : IterOrder K V where
  entries m := (ord.entries m).reverse
  nodup m := by
    rw [List.map_reverse, List.nodup_reverse]
    exact ord.nodup m
  mem_iff m k v := List.mem_reverse.trans (ord.mem_iff m k v)

/-- Some order exists for every map; a program relies on no particular one. -/
noncomputable def unspecified (K V : Type) [DecidableEq K] : IterOrder K V where
  entries m := m.entries.toList.map fun e => (e.1, e.2)
  nodup m := by
    have h := Multiset.nodup_keys.mpr m.nodupKeys
    rw [← Multiset.coe_toList m.entries, Multiset.coe_keys] at h
    simpa only [List.map_map, Function.comp_def, List.keys] using Multiset.coe_nodup.mp h
  mem_iff m k v := by
    rw [Finmap.lookup_eq_some_iff, ← Multiset.mem_toList, List.mem_map]
    constructor
    · rintro ⟨⟨a, b⟩, hm, he⟩
      cases he
      exact hm
    · exact fun h => ⟨⟨k, v⟩, h, rfl⟩

section Ascending

variable {K V : Type} [LinearOrder K]

/-- The keys of a map, in ascending order. -/
def ascendingKeys (m : HashMap K V) : List K :=
  Quot.liftOn m.keys.val (List.insertionSort (· ≤ ·)) fun l l' h =>
    ((List.perm_insertionSort _ l).trans
      (h.trans (List.perm_insertionSort _ l').symm)).eq_of_pairwise'
        (List.pairwise_insertionSort _ l) (List.pairwise_insertionSort _ l')

theorem coe_ascendingKeys (m : HashMap K V) : (ascendingKeys m : Multiset K) = m.keys.val := by
  rw [ascendingKeys]
  induction m.keys.val using Quot.inductionOn with
  | h l => exact Quot.sound (List.perm_insertionSort _ l)

/-- A map may be visited in the order of its keys. -/
def ascending (K V : Type) [LinearOrder K] : IterOrder K V where
  entries m := (ascendingKeys m).filterMap fun k => (m.lookup k).map (k, ·)
  nodup m := by
    have hnodup : (ascendingKeys m).Nodup := by
      rw [← Multiset.coe_nodup, coe_ascendingKeys]
      exact m.keys.nodup
    rw [List.map_filterMap]
    refine hnodup.filterMap fun k k' _ hk hk' => ?_
    simp only [Option.map_map, Option.mem_def, Option.map_eq_some_iff] at hk hk'
    obtain ⟨_, -, rfl⟩ := hk
    obtain ⟨_, -, hkeys⟩ := hk'
    exact hkeys.symm
  mem_iff m k v := by
    have hmem : k ∈ ascendingKeys m ↔ k ∈ m := by
      rw [← Multiset.mem_coe, coe_ascendingKeys]
      exact Finmap.mem_keys
    simp only [List.mem_filterMap, Option.map_eq_some_iff]
    constructor
    · rintro ⟨_, _, _, hv, ⟨⟩⟩
      exact hv
    · exact fun hv => ⟨k, hmem.mpr (Finmap.mem_of_lookup_eq_some hv), v, hv, rfl⟩

end Ascending

end IterOrder

end HashMap
