import Kaleidoscope.Library.HashMap

/-!
# Groups in the order of their first members

Values are filed under keys. The keys are listed as they are first seen, and a key has the values
filed under it, in their order.
-/

namespace Grouping

section Keys

variable {K L : Type} [DecidableEq K] [DecidableEq L]

/-- A further key is listed unless it was seen. -/
theorem eraseDups_concat (ks : List K) (k : K) :
    (ks ++ [k]).eraseDups = if k ∈ ks then ks.eraseDups else ks.eraseDups ++ [k] := by
  rw [List.eraseDups_append]
  split_ifs with h <;> simp [List.removeAll, h, List.eraseDups_cons]

theorem nodup_eraseDups (ks : List K) : ks.eraseDups.Nodup := by
  induction ks using List.reverseRecOn with
  | nil => exact List.nodup_nil
  | append_singleton ks k ih =>
    rw [eraseDups_concat]
    split_ifs with h
    · exact ih
    · rw [List.nodup_append]
      refine ⟨ih, List.nodup_singleton k, fun a ha b hb => ?_⟩
      rintro rfl
      exact h (List.mem_eraseDups.mp (List.mem_singleton.mp hb ▸ ha))

/-- Keys may be renamed before or after. -/
theorem eraseDups_map {f : K → L} (hf : Function.Injective f) (ks : List K) :
    (ks.map f).eraseDups = ks.eraseDups.map f := by
  induction ks using List.reverseRecOn with
  | nil => rfl
  | append_singleton ks k ih =>
    rw [List.map_append, List.map_singleton, eraseDups_concat, eraseDups_concat, ih]
    simp only [List.mem_map_of_injective hf]
    split_ifs
    · rfl
    · rw [List.map_append, List.map_singleton]

end Keys

variable {K V : Type} [DecidableEq K]

/-- The keys seen, in their order, and the values filed under each. -/
structure Groups (K V : Type) where
  order : List K
  buckets : HashMap K (List V)

/-- File a value. -/
def Groups.file (key : V → K) (groups : Groups K V) (v : V) : Groups K V :=
  match groups.buckets.lookup (key v) with
  | none => ⟨groups.order ++ [key v], groups.buckets.insert (key v) [v]⟩
  | some existing => ⟨groups.order, groups.buckets.insert (key v) (existing ++ [v])⟩

/-- File values one after the other. -/
def fileAll (key : V → K) (values : List V) : Groups K V :=
  values.foldl (Groups.file key) ⟨[], ∅⟩

/-- The groups of values. -/
def groupBy (key : V → K) (values : List V) : List (K × List V) :=
  let groups := fileAll key values
  groups.order.map fun k => (k, (groups.buckets.lookup k).getD [])

/-- The groups of values, said at once. -/
def groupsOf (key : V → K) (values : List V) : List (K × List V) :=
  (values.map key).eraseDups.map fun k => (k, values.filter fun v => key v = k)

/-- What was filed. -/
structure Files (key : V → K) (values : List V) (groups : Groups K V) : Prop where
  order : groups.order = (values.map key).eraseDups
  lookup : ∀ k, groups.buckets.lookup k =
    if k ∈ values.map key then some (values.filter fun v => key v = k) else none

/-- Filing a value lists its key unless it was seen and puts the value behind those of its key. -/
theorem Files.file_eq {key : V → K} {values : List V} {groups : Groups K V}
    (h : Files key values groups) (v : V) : groups.file key v =
      ⟨if key v ∈ values.map key then groups.order else groups.order ++ [key v],
        groups.buckets.insert (key v) (values.filter (fun w => key w = key v) ++ [v])⟩ := by
  have hlookup := h.lookup (key v)
  split_ifs at hlookup with hseen
  · rw [Groups.file, hlookup, if_pos hseen]
  · have hnone : values.filter (fun w => key w = key v) = [] := by
      rw [List.filter_eq_nil_iff]
      intro w hw hkey
      exact hseen (List.mem_map.mpr ⟨w, hw, of_decide_eq_true hkey⟩)
    rw [Groups.file, hlookup, if_neg hseen, hnone, List.nil_append]

theorem Files.file {key : V → K} {values : List V} {groups : Groups K V}
    (h : Files key values groups) (v : V) : Files key (values ++ [v]) (groups.file key v) := by
  rw [h.file_eq v]
  refine ⟨?_, fun k => ?_⟩
  · rw [List.map_append, List.map_singleton, eraseDups_concat, h.order]
  · rw [HashMap.lookup_insert_ite, h.lookup, List.map_append, List.map_singleton,
      List.filter_append]
    by_cases hk : k = key v
    · simp [hk]
    · simp [hk, Ne.symm hk]

theorem files_fileAll (key : V → K) (values : List V) : Files key values (fileAll key values) := by
  induction values using List.reverseRecOn with
  | nil => exact ⟨rfl, fun k => by simp [fileAll]⟩
  | append_singleton values v ih =>
    rw [fileAll, List.foldl_append]
    exact ih.file v

/-- Filing leads to the groups. -/
theorem groupBy_eq (key : V → K) (values : List V) : groupBy key values = groupsOf key values := by
  obtain ⟨horder, hlookup⟩ := files_fileAll key values
  rw [groupBy, groupsOf, horder]
  refine List.map_congr_left fun k hk => ?_
  rw [hlookup, if_pos (List.mem_eraseDups.mp hk), Option.getD_some]

/-- No group is without values. -/
theorem groupsOf_ne_nil {key : V → K} {values : List V} {group : K × List V}
    (h : group ∈ groupsOf key values) : group.2 ≠ [] := by
  obtain ⟨k, hk, rfl⟩ := List.mem_map.mp h
  obtain ⟨v, hv, rfl⟩ := List.mem_map.mp (List.mem_eraseDups.mp hk)
  exact List.ne_nil_of_mem (List.mem_filter.mpr ⟨hv, decide_eq_true rfl⟩)

/-- Groups that take values apart: each value is in one group, the group of its key, behind the
values that were before it. -/
structure Partitions (key : V → K) (values : List V) (groups : List (K × List V)) : Prop where
  /-- The keys are listed as they are first seen. -/
  keys : groups.map Prod.fst = (values.map key).eraseDups
  nodup : (groups.map Prod.fst).Nodup
  sublist : ∀ group ∈ groups, group.2.Sublist values
  key : ∀ group ∈ groups, ∀ v ∈ group.2, key v = group.1
  perm : (groups.flatMap Prod.snd).Perm values

/-- Values taken key by key are the values, when no key is missing. -/
theorem flatMap_filter_perm (key : V → K) (values : List V) {ks : List K} (hks : ks.Nodup)
    (h : ∀ v ∈ values, key v ∈ ks) :
    (ks.flatMap fun k => values.filter fun v => key v = k).Perm values := by
  induction ks generalizing values with
  | nil =>
    cases values with
    | nil => exact .nil
    | cons v values => exact absurd (h v List.mem_cons_self) List.not_mem_nil
  | cons k ks ih =>
    obtain ⟨hk, hks⟩ := List.nodup_cons.mp hks
    have hrest : ∀ v ∈ values.filter (fun v => ¬key v = k), key v ∈ ks := by
      intro v hv
      obtain ⟨hv, hne⟩ := List.mem_filter.mp hv
      exact (List.mem_cons.mp (h v hv)).resolve_left (of_decide_eq_true hne)
    have hsame : (ks.flatMap fun j => values.filter fun v => key v = j) =
        ks.flatMap fun j => (values.filter fun v => ¬key v = k).filter fun v => key v = j := by
      refine List.flatMap_congr fun j hj => ?_
      rw [List.filter_filter]
      refine List.filter_congr fun v _ => ?_
      have hne : j ≠ k := fun he => hk (he ▸ hj)
      by_cases hv : key v = j
      · simp [hv, hne]
      · simp [hv]
    rw [List.flatMap_cons, hsame]
    refine ((ih _ hks hrest).append_left _).trans ?_
    simpa using List.filter_append_perm (fun v => decide (key v = k)) values

/-- The groups of values take them apart. -/
theorem partitions_groupsOf (key : V → K) (values : List V) :
    Partitions key values (groupsOf key values) where
  keys := by
    rw [groupsOf, List.map_map]
    exact List.map_id _
  nodup := by
    rw [groupsOf, List.map_map]
    exact (List.map_id _).symm ▸ nodup_eraseDups _
  sublist group hgroup := by
    obtain ⟨k, -, rfl⟩ := List.mem_map.mp hgroup
    exact List.filter_sublist
  key group hgroup v hv := by
    obtain ⟨k, -, rfl⟩ := List.mem_map.mp hgroup
    exact of_decide_eq_true (List.mem_filter.mp hv).2
  perm := by
    rw [groupsOf, List.flatMap_map]
    refine flatMap_filter_perm key values (nodup_eraseDups _) fun v hv => ?_
    exact List.mem_eraseDups.mpr (List.mem_map_of_mem hv)

/-- Values may be renamed before or after, with keys that follow. -/
theorem groupsOf_map {L W : Type} [DecidableEq L] {f : V → W} {g : K → L} {key : V → K}
    {key' : W → L} (hg : Function.Injective g) (h : ∀ v, key' (f v) = g (key v))
    (values : List V) :
    groupsOf key' (values.map f) =
      (groupsOf key values).map fun group => (g group.1, group.2.map f) := by
  have hkeys : (values.map f).map key' = (values.map key).map g := by
    rw [List.map_map, List.map_map]
    exact List.map_congr_left fun v _ => h v
  rw [groupsOf, groupsOf, hkeys, eraseDups_map hg, List.map_map, List.map_map]
  refine List.map_congr_left fun k _ => ?_
  simp only [Function.comp_apply, List.filter_map, Prod.mk.injEq, true_and]
  refine congrArg (List.map f) (List.filter_congr fun v _ => ?_)
  simp [h, hg.eq_iff]

/-! ## Groups with a marked value -/

section Retain

variable (key : V → K) (mark mark' : V → Bool) (values : List V)

/-- Some value of a key is marked. -/
def Marked (k : K) : Prop := ∃ v ∈ values, mark v = true ∧ key v = k

instance (k : K) : Decidable (Marked key mark values k) :=
  inferInstanceAs (Decidable (∃ v ∈ values, mark v = true ∧ key v = k))

/-- Keep the values of the keys of marked values. -/
def retain : List V :=
  let marked := (values.filter mark).map key
  values.filter fun v => key v ∈ marked

/-- A group is kept whole or not at all. -/
theorem retain_eq_filter : retain key mark values =
    values.filter fun v => Marked key mark values (key v) := by
  refine List.filter_congr fun v _ => decide_eq_decide.mpr ?_
  simp only [List.mem_map, List.mem_filter, Marked, and_assoc]

/-- A group keeps its marked values, so it stays marked when it is kept for another mark. -/
theorem marked_retain_iff (k : K) : Marked key mark (retain key mark' values) k ↔
    Marked key mark values k ∧ Marked key mark' values k := by
  rw [retain_eq_filter]
  constructor
  · rintro ⟨v, hv, hmark, rfl⟩
    obtain ⟨hv, hmark'⟩ := List.mem_filter.mp hv
    exact ⟨⟨v, hv, hmark, rfl⟩, of_decide_eq_true hmark'⟩
  · rintro ⟨⟨v, hv, hmark, rfl⟩, hmark'⟩
    exact ⟨v, List.mem_filter.mpr ⟨hv, decide_eq_true hmark'⟩, hmark, rfl⟩

/-- Two marks keep the groups that have both, be it on different values. -/
theorem retain_retain : retain key mark (retain key mark' values) =
    values.filter fun v =>
      Marked key mark values (key v) ∧ Marked key mark' values (key v) := by
  rw [retain_eq_filter, retain_eq_filter, List.filter_filter, ← retain_eq_filter]
  refine List.filter_congr fun v _ => ?_
  rw [← Bool.decide_and, decide_eq_decide, marked_retain_iff, and_assoc, and_self]

theorem retain_comm : retain key mark (retain key mark' values) =
    retain key mark' (retain key mark values) := by
  rw [retain_retain, retain_retain]
  exact List.filter_congr fun v _ => decide_eq_decide.mpr and_comm

theorem retain_idem : retain key mark (retain key mark values) = retain key mark values := by
  rw [retain_retain, retain_eq_filter]
  exact List.filter_congr fun v _ => decide_eq_decide.mpr (and_self_iff)

end Retain

end Grouping
