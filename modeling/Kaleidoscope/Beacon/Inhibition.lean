import Kaleidoscope.Beacon.Loader

/-!
# The inhibition resolver

A rule suppresses the `Firing` of the rules it inhibits while it fires itself. The resolver
knows who inhibits whom, who is firing, and which incidents wait for their inhibitors.
-/

namespace Kaleidoscope.Beacon

open HashMap

/-- Cross-rule storm-suppression state. -/
structure InhibitionResolver where
  /-- The names of the rules whose `Firing` a rule suppresses. -/
  inhibits : HashMap String (List String)
  firing : HashMap String Bool
  /-- Suppressed incidents, waiting for their inhibitors to resolve. -/
  pending : HashMap String Incident

/-- What a reload takes over from the resolver before it. -/
structure Carryover where
  firing : HashMap String Bool
  pending : HashMap String Incident

namespace InhibitionResolver

/-- `new`. -/
def new (rules : List Rule) : InhibitionResolver where
  inhibits := insertAll ∅ (rules.map fun rule => (rule.name, rule.inhibits))
  firing := insertAll ∅ (rules.map fun rule => (rule.name, false))
  pending := ∅

/-- One rule inhibits another one. -/
def Inhibits (resolver : InhibitionResolver) (candidate targetName : String) : Prop :=
  candidate ≠ targetName ∧ targetName ∈ (resolver.inhibits.lookup candidate).getD []

/-- A rule is currently firing. -/
def Fires (resolver : InhibitionResolver) (ruleName : String) : Prop :=
  resolver.firing.lookup ruleName = some true

instance (resolver : InhibitionResolver) (candidate targetName : String) :
    Decidable (resolver.Inhibits candidate targetName) :=
  inferInstanceAs (Decidable (_ ∧ _))

instance (resolver : InhibitionResolver) (ruleName : String) :
    Decidable (resolver.Fires ruleName) :=
  inferInstanceAs (Decidable (_ = _))

/-- `has_active_inhibitor_of`: in whatever order the relation is searched. -/
def hasActiveInhibitorOf (resolver : InhibitionResolver) (targetName : String) : Bool :=
  decide (∃ candidate ∈ resolver.inhibits.keys,
    resolver.Inhibits candidate targetName ∧ resolver.Fires candidate)

/-- `has_surviving_inhibitor_of`. -/
def hasSurvivingInhibitorOf (resolver : InhibitionResolver) (targetName : String) : Bool :=
  decide (∃ candidate ∈ resolver.inhibits.keys, resolver.Inhibits candidate targetName)

/-- The loop of `observe` over the rules downstream of a resolved one. -/
def release (resolver : InhibitionResolver) :
    List String → List Emission × InhibitionResolver
  | [] => ([], resolver)
  | inhibitedName :: downstream =>
    if resolver.hasActiveInhibitorOf inhibitedName then resolver.release downstream
    else match resolver.pending.lookup inhibitedName with
      | none => resolver.release downstream
      | some incident =>
        let released := release
          { resolver with pending := resolver.pending.erase inhibitedName } downstream
        (.firing incident :: released.1, released.2)

/-- `observe`. -/
def observe (resolver : InhibitionResolver) (ruleName : String) :
    Option Emission → List Emission × InhibitionResolver
  | none => ([], resolver)
  | some (.firing incident) =>
    let resolver := { resolver with firing := resolver.firing.insert ruleName true }
    if resolver.hasActiveInhibitorOf ruleName then
      ([], { resolver with pending := resolver.pending.insert ruleName incident })
    else ([.firing incident], resolver)
  | some (.resolved incident) =>
    -- A `Firing` that was never delivered needs no `Resolved`.
    let out := if (resolver.pending.lookup ruleName).isSome then [] else [.resolved incident]
    let resolver := { resolver with
      firing := resolver.firing.insert ruleName false
      pending := resolver.pending.erase ruleName }
    let released := resolver.release ((resolver.inhibits.lookup ruleName).getD [])
    (out ++ released.1, released.2)

/-- `carryover`. -/
def carryover (resolver : InhibitionResolver) : Carryover where
  firing := resolver.firing
  pending := resolver.pending

/-- `firing.contains_key`. -/
def known (resolver : InhibitionResolver) (ruleName : String) : Bool :=
  (resolver.firing.lookup ruleName).isSome

/-- The step of `rebuild_from` for a carried flag. -/
def carryFlag (resolver : InhibitionResolver) (entry : String × Bool) : InhibitionResolver :=
  if resolver.known entry.1 then
    { resolver with firing := resolver.firing.insert entry.1 entry.2 }
  else resolver

/-- The step of `rebuild_from` for a carried incident. -/
def carryPending (resolver : InhibitionResolver) (entry : String × Incident) :
    InhibitionResolver :=
  if !resolver.known entry.1 then resolver
  else if resolver.hasSurvivingInhibitorOf entry.1 then
    { resolver with pending := resolver.pending.insert entry.1 entry.2 }
  else resolver

/-- `rebuild_from`; the two carried maps are consumed in some order. -/
def rebuildFrom (flags : IterOrder String Bool) (incidents : IterOrder String Incident)
    (newRules : List Rule) (carried : Carryover) : InhibitionResolver :=
  (incidents.entries carried.pending).foldl carryPending
    ((flags.entries carried.firing).foldl carryFlag (new newRules))

section Lookup

variable (resolver : InhibitionResolver)

theorem Inhibits.mem_keys {resolver : InhibitionResolver} {candidate targetName : String}
    (h : resolver.Inhibits candidate targetName) : candidate ∈ resolver.inhibits.keys := by
  rw [Finmap.mem_keys, ← Finmap.lookup_isSome]
  cases hl : resolver.inhibits.lookup candidate with
  | some names => rfl
  | none =>
    have := h.2
    rw [hl] at this
    exact absurd this List.not_mem_nil

theorem Fires.mem_keys {resolver : InhibitionResolver} {ruleName : String}
    (h : resolver.Fires ruleName) : ruleName ∈ resolver.firing.keys := by
  rw [Finmap.mem_keys, ← Finmap.lookup_isSome, h]
  rfl

@[simp] theorem hasActiveInhibitorOf_iff (targetName : String) :
    resolver.hasActiveInhibitorOf targetName = true ↔
      ∃ candidate, resolver.Inhibits candidate targetName ∧ resolver.Fires candidate := by
  rw [hasActiveInhibitorOf, decide_eq_true_iff]
  constructor
  · rintro ⟨candidate, -, h⟩
    exact ⟨candidate, h⟩
  · rintro ⟨candidate, h⟩
    exact ⟨candidate, h.1.mem_keys, h⟩

@[simp] theorem hasSurvivingInhibitorOf_iff (targetName : String) :
    resolver.hasSurvivingInhibitorOf targetName = true ↔
      ∃ candidate, resolver.Inhibits candidate targetName := by
  rw [hasSurvivingInhibitorOf, decide_eq_true_iff]
  constructor
  · rintro ⟨candidate, -, h⟩
    exact ⟨candidate, h⟩
  · rintro ⟨candidate, h⟩
    exact ⟨candidate, h.mem_keys, h⟩

/-- Who inhibits whom is a matter of the relation alone. -/
theorem inhibits_congr {r r' : InhibitionResolver} (h : r.inhibits = r'.inhibits) :
    r.Inhibits = r'.Inhibits := by
  unfold Inhibits
  rw [h]

/-- Suppression is a matter of the relation and the flags. -/
theorem hasActiveInhibitorOf_congr {r r' : InhibitionResolver} (h : r.inhibits = r'.inhibits)
    (hf : r.firing = r'.firing) : r.hasActiveInhibitorOf = r'.hasActiveInhibitorOf := by
  obtain ⟨inhibits, firing, _⟩ := r
  obtain ⟨inhibits', firing', _⟩ := r'
  obtain rfl : inhibits = inhibits' := h
  obtain rfl : firing = firing' := hf
  rfl

@[simp] theorem release_inhibits (downstream : List String) :
    (resolver.release downstream).2.inhibits = resolver.inhibits := by
  induction downstream generalizing resolver with
  | nil => rfl
  | cons inhibitedName downstream ih =>
    rw [release]
    split
    · exact ih resolver
    · split
      · exact ih resolver
      · exact ih _

@[simp] theorem release_firing (downstream : List String) :
    (resolver.release downstream).2.firing = resolver.firing := by
  induction downstream generalizing resolver with
  | nil => rfl
  | cons inhibitedName downstream ih =>
    rw [release]
    split
    · exact ih resolver
    · split
      · exact ih resolver
      · exact ih _

/-- A rule whose inhibitor fires is as good as one that is not downstream. -/
theorem released_cons_of_active {inhibitedName : String}
    (h : resolver.hasActiveInhibitorOf inhibitedName = true) (downstream : List String)
    (ruleName : String) :
    (ruleName ∈ inhibitedName :: downstream ∧ resolver.hasActiveInhibitorOf ruleName = false) ↔
      ruleName ∈ downstream ∧ resolver.hasActiveInhibitorOf ruleName = false := by
  by_cases hname : ruleName = inhibitedName
  · subst hname
    simp [h]
  · simp [hname]

/-- An incident is released when its rule is downstream and no inhibitor of it fires. -/
theorem lookup_release_pending (downstream : List String) (ruleName : String) :
    (resolver.release downstream).2.pending.lookup ruleName =
      if ruleName ∈ downstream ∧ resolver.hasActiveInhibitorOf ruleName = false then none
      else resolver.pending.lookup ruleName := by
  induction downstream generalizing resolver with
  | nil => simp [release]
  | cons inhibitedName downstream ih =>
    rw [release]
    split
    case isTrue hactive =>
      simp only [ih, released_cons_of_active resolver hactive]
    case isFalse hactive =>
      have hidle := Bool.eq_false_iff.mpr hactive
      cases hp : resolver.pending.lookup inhibitedName with
      | none =>
        simp only [ih]
        by_cases hname : ruleName = inhibitedName
        · subst hname
          simp only [hp, ite_self]
        · simp only [List.mem_cons, hname, false_or]
      | some incident =>
        simp only [ih, lookup_erase_ite]
        by_cases hname : ruleName = inhibitedName
        · subst hname
          simp [hidle]
        · simp only [List.mem_cons, hname, false_or, if_false]
          rfl

/-- Pending incidents are kept under the names of their rules. -/
def Named (resolver : InhibitionResolver) : Prop :=
  ∀ ruleName incident, resolver.pending.lookup ruleName = some incident →
    incident.name = ruleName

theorem Named.erase {resolver : InhibitionResolver} (h : resolver.Named) (ruleName : String)
    (firing : HashMap String Bool) :
    Named { resolver with firing, pending := resolver.pending.erase ruleName } := by
  intro other incident hp
  rw [lookup_erase_ite] at hp
  split_ifs at hp
  exact h other incident hp

/-- The emissions of a rule among those released. -/
theorem emissionsOf_release (h : resolver.Named) (downstream : List String)
    (ruleName : String) :
    emissionsOf ruleName (resolver.release downstream).1 =
      if ruleName ∈ downstream ∧ resolver.hasActiveInhibitorOf ruleName = false then
        (resolver.pending.lookup ruleName).toList.map Emission.firing
      else [] := by
  induction downstream generalizing resolver with
  | nil => simp [release, emissionsOf]
  | cons inhibitedName downstream ih =>
    rw [release]
    split
    case isTrue hactive =>
      simp only [ih _ h, released_cons_of_active resolver hactive]
    case isFalse hactive =>
      have hidle := Bool.eq_false_iff.mpr hactive
      cases hp : resolver.pending.lookup inhibitedName with
      | none =>
        simp only [ih _ h]
        by_cases hname : ruleName = inhibitedName
        · subst hname
          simp [hp]
        · simp only [List.mem_cons, hname, false_or]
      | some incident =>
        have hincident := h inhibitedName incident hp
        have hrest := ih _ (h.erase inhibitedName resolver.firing)
        simp only [lookup_erase_ite] at hrest
        rw [emissionsOf, List.filter_cons, ← emissionsOf, hrest]
        by_cases hname : ruleName = inhibitedName
        · subst hname
          simp [Emission.incident, hincident, hidle, hp]
        · have hother : ¬inhibitedName = ruleName := fun e => hname e.symm
          simp only [Emission.incident, hincident, hother, decide_false, Bool.false_eq_true,
            if_false, List.mem_cons, hname, false_or]
          rfl

end Lookup

section Rebuild

variable (resolver : InhibitionResolver)

/-- The flags that are carried are those of the rules there are. -/
theorem foldl_carryFlag (entries : List (String × Bool)) :
    entries.foldl carryFlag resolver =
      { resolver with
        firing := resolver.firing.insertAll (entries.filter fun e => resolver.known e.1) } := by
  induction entries generalizing resolver with
  | nil => rfl
  | cons entry entries ih =>
    rw [List.foldl_cons, carryFlag]
    cases hknown : resolver.known entry.1 with
    | false => simp only [List.filter_cons, hknown, Bool.false_eq_true, if_false, ih]
    | true =>
      -- A rule that is there already stays the same rule with another flag.
      have hsame : known { resolver with firing := resolver.firing.insert entry.1 entry.2 } =
          resolver.known := by
        ext name
        rw [known, lookup_insert_ite]
        split_ifs with hname
        · rw [hname, hknown]
          rfl
        · rfl
      simp only [List.filter_cons, hknown, if_true, ih, hsame, insertAll_cons]

/-- The incidents that are carried are those of rules that some rule inhibits. -/
theorem foldl_carryPending (entries : List (String × Incident)) :
    entries.foldl carryPending resolver =
      { resolver with
        pending := resolver.pending.insertAll (entries.filter fun e =>
          resolver.known e.1 && resolver.hasSurvivingInhibitorOf e.1) } := by
  induction entries generalizing resolver with
  | nil => rfl
  | cons entry entries ih =>
    have hknown : known { resolver with pending := resolver.pending.insert entry.1 entry.2 } =
        resolver.known := rfl
    have hsurviving : hasSurvivingInhibitorOf
        { resolver with pending := resolver.pending.insert entry.1 entry.2 } =
        resolver.hasSurvivingInhibitorOf := rfl
    rw [List.foldl_cons, carryPending]
    cases hk : resolver.known entry.1 <;> cases hs : resolver.hasSurvivingInhibitorOf entry.1 <;>
      simp [ih, hknown, hsurviving, hk, hs]

variable (flags : IterOrder String Bool) (incidents : IterOrder String Incident)
  (newRules : List Rule) (carried : Carryover) (ruleName : String)

theorem lookup_new_firing :
    (new newRules).firing.lookup ruleName =
      if ruleName ∈ newRules.map Rule.name then some false else none := by
  have hknown : ((new newRules).firing.lookup ruleName).isSome ↔
      ruleName ∈ newRules.map Rule.name := by
    rw [new, isSome_lookup_insertAll, Finmap.lookup_empty, List.map_map]
    exact or_iff_left Bool.false_ne_true
  cases hlookup : (new newRules).firing.lookup ruleName with
  | none =>
    rw [if_neg fun hmem => ?_]
    rw [← hknown, hlookup] at hmem
    exact Bool.false_ne_true hmem
  | some on =>
    rw [if_pos (hknown.mp (by rw [hlookup]; rfl))]
    rcases mem_of_lookup_insertAll hlookup with hin | hempty
    · obtain ⟨rule, -, heq⟩ := List.mem_map.mp hin
      cases heq
      rfl
    · rw [Finmap.lookup_empty] at hempty
      cases hempty

@[simp] theorem known_new :
    (new newRules).known ruleName = decide (ruleName ∈ newRules.map Rule.name) := by
  rw [known, lookup_new_firing]
  split_ifs with hmem
  · exact (decide_eq_true hmem).symm
  · exact (decide_eq_false hmem).symm

@[simp] theorem rebuildFrom_inhibits :
    (rebuildFrom flags incidents newRules carried).inhibits = (new newRules).inhibits := by
  rw [rebuildFrom, foldl_carryPending, foldl_carryFlag]

/-- A flag is carried for every rule of the new catalogue. -/
theorem lookup_rebuildFrom_firing :
    (rebuildFrom flags incidents newRules carried).firing.lookup ruleName =
      if ruleName ∈ newRules.map Rule.name then
        some ((carried.firing.lookup ruleName).getD false)
      else none := by
  rw [rebuildFrom, foldl_carryPending, foldl_carryFlag]
  simp only
  rw [IterOrder.lookup_insertAll_filter flags carried.firing _ (new newRules).known, known_new,
    lookup_new_firing]
  by_cases hmem : ruleName ∈ newRules.map Rule.name
  · simp only [hmem, decide_true, if_true]
    cases carried.firing.lookup ruleName <;> rfl
  · simp only [hmem, decide_false, Bool.false_eq_true, if_false]

/-- An incident is carried when some rule of the new catalogue inhibits its rule. -/
theorem lookup_rebuildFrom_pending :
    (rebuildFrom flags incidents newRules carried).pending.lookup ruleName =
      if ruleName ∈ newRules.map Rule.name ∧ (new newRules).hasSurvivingInhibitorOf ruleName then
        carried.pending.lookup ruleName
      else none := by
  set flagged := (flags.entries carried.firing).foldl carryFlag (new newRules) with hflagged
  have hempty : flagged.pending.lookup ruleName = none := by
    rw [hflagged, foldl_carryFlag]
    exact Finmap.lookup_empty ruleName
  have hsurviving : flagged.hasSurvivingInhibitorOf = (new newRules).hasSurvivingInhibitorOf := by
    rw [hflagged, foldl_carryFlag]
    rfl
  have hknown : flagged.known ruleName = decide (ruleName ∈ newRules.map Rule.name) := by
    have h := lookup_rebuildFrom_firing flags incidents newRules carried ruleName
    rw [rebuildFrom, foldl_carryPending, ← hflagged] at h
    simp only at h
    rw [known, h]
    split_ifs with hmem
    · exact (decide_eq_true hmem).symm
    · exact (decide_eq_false hmem).symm
  rw [rebuildFrom, ← hflagged, foldl_carryPending]
  simp only
  rw [IterOrder.lookup_insertAll_filter incidents carried.pending _
    (fun name => flagged.known name && flagged.hasSurvivingInhibitorOf name)]
  simp only [hknown, hsurviving, hempty, Option.or_none, Bool.and_eq_true, decide_eq_true_iff]

end Rebuild

end InhibitionResolver

end Kaleidoscope.Beacon
