import Kaleidoscope.Beacon.Inhibition

/-!
# What is delivered, and what waits

A rule that is firing has either had its `Firing` delivered or has it pending behind another
firing rule. This is kept by every observation, whatever the relation between the rules.
-/

namespace Kaleidoscope.Beacon

open HashMap

namespace InhibitionResolver

variable (resolver : InhibitionResolver) (ruleName : String)

@[simp] theorem observe_inhibits (emission : Option Emission) :
    (resolver.observe ruleName emission).2.inhibits = resolver.inhibits := by
  rcases emission with _ | incident | incident
  · rfl
  · rw [observe]
    split <;> rfl
  · exact release_inhibits _ _

/-- The flag of a rule is what it emitted last. -/
theorem observe_firing (e : Emission) :
    (resolver.observe ruleName (some e)).2.firing =
      resolver.firing.insert ruleName e.isFiring := by
  cases e with
  | firing incident =>
    rw [observe]
    split <;> rfl
  | resolved incident => exact release_firing _ _

theorem fires_observe (e : Emission) (other : String) :
    (resolver.observe ruleName (some e)).2.Fires other ↔
      if other = ruleName then e.isFiring = true else resolver.Fires other := by
  rw [Fires, observe_firing, lookup_insert_ite]
  split_ifs
  · exact Option.some_inj
  · rfl

/-- Suppression after an emission is a matter of the flags alone. -/
theorem hasActiveInhibitorOf_observe (e : Emission) (pending : HashMap String Incident) :
    (resolver.observe ruleName (some e)).2.hasActiveInhibitorOf =
      hasActiveInhibitorOf { resolver with
        firing := resolver.firing.insert ruleName e.isFiring, pending } :=
  hasActiveInhibitorOf_congr (observe_inhibits ..) (observe_firing ..)

/-- A `Firing` waits exactly when an inhibitor of its rule fires. -/
theorem lookup_pending_observe_firing (incident : Incident) (other : String) :
    let after := (resolver.observe ruleName (some (.firing incident))).2
    after.pending.lookup other =
      if other = ruleName ∧ after.hasActiveInhibitorOf other = true then some incident
      else resolver.pending.lookup other := by
  intro after
  let flagged : InhibitionResolver :=
    { resolver with firing := resolver.firing.insert ruleName true }
  have hafter : after.hasActiveInhibitorOf = flagged.hasActiveInhibitorOf :=
    resolver.hasActiveInhibitorOf_observe ruleName (.firing incident) _
  rw [hafter]
  simp only [after, observe]
  by_cases hactive : flagged.hasActiveInhibitorOf ruleName = true
  · rw [if_pos hactive, lookup_insert_ite]
    by_cases hother : other = ruleName
    · rw [if_pos hother, if_pos ⟨hother, hother ▸ hactive⟩]
    · rw [if_neg hother, if_neg fun h => hother h.1]
  · rw [if_neg hactive, if_neg]
    rintro ⟨rfl, h⟩
    exact hactive h

theorem emissionsOf_observe_firing {incident : Incident} (hname : incident.name = ruleName)
    (other : String) :
    let after := resolver.observe ruleName (some (.firing incident))
    emissionsOf other after.1 =
      if other = ruleName ∧ after.2.hasActiveInhibitorOf other = false then [.firing incident]
      else [] := by
  intro after
  have hout : after.1 =
      if after.2.hasActiveInhibitorOf ruleName = true then [] else [.firing incident] := by
    rw [resolver.hasActiveInhibitorOf_observe ruleName (.firing incident) resolver.pending]
    exact apply_ite Prod.fst _ _ _
  rw [hout]
  by_cases hother : other = ruleName
  · subst hother
    cases after.2.hasActiveInhibitorOf other <;> simp [emissionsOf, Emission.incident, hname]
  · have hne : ¬ruleName = other := fun h => hother h.symm
    rw [if_neg fun h : other = ruleName ∧ _ => hother h.1]
    split_ifs <;> simp [emissionsOf, Emission.incident, hname, hne]

/-- A `Resolved` clears what its rule had pending and releases what waited for it alone. -/
theorem lookup_pending_observe_resolved (incident : Incident) (other : String) :
    let after := (resolver.observe ruleName (some (.resolved incident))).2
    after.pending.lookup other =
      if other = ruleName ∨
        (resolver.Inhibits ruleName other ∧ after.hasActiveInhibitorOf other = false) then none
      else resolver.pending.lookup other := by
  intro after
  rw [resolver.hasActiveInhibitorOf_observe ruleName (.resolved incident)
    (resolver.pending.erase ruleName)]
  simp only [after, observe, Emission.isFiring, lookup_release_pending, lookup_erase_ite,
    Inhibits]
  by_cases hother : other = ruleName
  · simp only [hother, if_true, ite_self, true_or]
  · have hne : ruleName ≠ other := fun h => hother h.symm
    simp only [hother, hne, if_false, false_or, ne_eq, not_false_eq_true, true_and]

theorem emissionsOf_observe_resolved (h : resolver.Named) {incident : Incident}
    (hname : incident.name = ruleName) (other : String) :
    let after := resolver.observe ruleName (some (.resolved incident))
    emissionsOf other after.1 =
      if other = ruleName then
        if (resolver.pending.lookup ruleName).isSome then [] else [.resolved incident]
      else if resolver.Inhibits ruleName other ∧ after.2.hasActiveInhibitorOf other = false then
        (resolver.pending.lookup other).toList.map Emission.firing
      else [] := by
  intro after
  rw [resolver.hasActiveInhibitorOf_observe ruleName (.resolved incident)
    (resolver.pending.erase ruleName)]
  simp only [after, observe, Emission.isFiring, emissionsOf_append,
    emissionsOf_release _ (h.erase ruleName _), lookup_erase_ite, Inhibits]
  by_cases hother : other = ruleName
  · subst hother
    split <;> simp [emissionsOf, Emission.incident, hname]
  · have hne : ruleName ≠ other := fun h => hother h.symm
    have hown : emissionsOf other
        (if (resolver.pending.lookup ruleName).isSome then [] else [.resolved incident]) = [] := by
      split <;> simp [emissionsOf, Emission.incident, hname, hne]
    rw [hown, List.nil_append]
    simp only [hother, hne, if_false, ne_eq, not_false_eq_true, true_and]

end InhibitionResolver

/-- A call of `observe`: what a rule emits is about that rule. -/
structure Observation where
  ruleName : String
  emission : Option Emission
  named : ∀ e ∈ emission, e.incident.name = ruleName

namespace Observation

/-- A rule starts firing. -/
def fires (ruleName : String) : Observation :=
  ⟨ruleName, some (.firing ⟨ruleName, "", .info, .empty, 0, none⟩), fun e he => by
    obtain rfl := Option.some.inj he
    rfl⟩

/-- A rule stops firing. -/
def resolves (ruleName : String) : Observation :=
  ⟨ruleName, some (.resolved ⟨ruleName, "", .info, .empty, 0, some 0⟩), fun e he => by
    obtain rfl := Option.some.inj he
    rfl⟩

/-- Whether a rule is firing after an observation. -/
def flag (o : Observation) (ruleName : String) (on : Bool) : Bool :=
  if ruleName = o.ruleName then (o.emission.map Emission.isFiring).getD on else on

/-- Whether an observation changes the flag of its rule whenever it emits. -/
def Turns (o : Observation) (ruleName : String) (on : Bool) : Prop :=
  ruleName = o.ruleName → ∀ e ∈ o.emission, on = !e.isFiring

end Observation

namespace InhibitionResolver

/-- An observation. -/
def observation (resolver : InhibitionResolver) (o : Observation) :
    List Emission × InhibitionResolver :=
  resolver.observe o.ruleName o.emission

theorem Named.observation {resolver : InhibitionResolver} (h : resolver.Named)
    (o : Observation) : (resolver.observation o).2.Named := by
  intro other incident hp
  rw [InhibitionResolver.observation] at hp
  rcases he : o.emission with _ | waiting | resolved
  · rw [he] at hp
    exact h other incident hp
  · rw [he, lookup_pending_observe_firing] at hp
    split_ifs at hp with hother
    · obtain rfl := Option.some.inj hp
      rw [hother.1]
      exact o.named (.firing waiting) he
    · exact h other incident hp
  · rw [he, lookup_pending_observe_resolved] at hp
    split_ifs at hp
    exact h other incident hp

end InhibitionResolver

/-- What an observation may do for one rule: to its flag, to the incident it has pending, and
by delivering. -/
inductive Move : Bool → Option Incident → List Emission → Bool → Option Incident → Prop
  | keep (on : Bool) (pending : Option Incident) : Move on pending [] on pending
  | deliver (incident : Incident) : Move false none [.firing incident] true none
  | hold (incident : Incident) : Move false none [] true (some incident)
  | resolve (incident : Incident) : Move true none [.resolved incident] false none
  | clear (incident : Incident) : Move true (some incident) [] false none
  | release (incident : Incident) : Move true (some incident) [.firing incident] true none

/-- What was delivered for a rule fits its flag and what it has pending. -/
structure Booked (on : Bool) (pending : Option Incident) (delivered : List Emission)
    (ruleName : String) : Prop where
  alternates : AlternatesFor ruleName delivered
  lastFires_eq : lastFires ruleName delivered = (on && pending.isNone)
  on_of_pending : pending.isSome → on = true

/-- Every move keeps the books. -/
theorem Booked.move {on on' : Bool} {pending pending' : Option Incident}
    {delivered out : List Emission} {ruleName : String}
    (h : Booked on pending delivered ruleName)
    (hmove : Move on pending (emissionsOf ruleName out) on' pending') :
    Booked on' pending' (delivered ++ out) ruleName := by
  obtain ⟨halternates, hlast, hon⟩ := h
  -- A delivery is an emission that changes whether the last one fires.
  have hdeliver (e : Emission) (hout : [e] = emissionsOf ruleName out)
      (hturn : e.isFiring = !lastFires ruleName delivered) :
      Booked e.isFiring none (delivered ++ out) ruleName := by
    refine ⟨?_, ?_, fun h => by cases h⟩
    · rw [AlternatesFor, emissionsOf_append, ← hout]
      exact Bracketed.alternates_snoc.mpr ⟨halternates, hturn⟩
    · rw [lastFires, emissionsOf_append, ← hout, Bracketed.isOpen_snoc, Option.isNone_none,
        Bool.and_true]
  generalize hout : emissionsOf ruleName out = own at hmove
  cases hmove with
  | keep =>
    refine ⟨?_, ?_, hon⟩
    · rwa [AlternatesFor, emissionsOf_append, hout, List.append_nil]
    · rwa [lastFires, emissionsOf_append, hout, List.append_nil]
  | deliver incident => exact hdeliver (.firing incident) hout.symm (by rw [hlast]; rfl)
  | hold incident =>
    refine ⟨?_, ?_, fun _ => rfl⟩
    · rwa [AlternatesFor, emissionsOf_append, hout, List.append_nil]
    · rwa [lastFires, emissionsOf_append, hout, List.append_nil]
  | resolve incident => exact hdeliver (.resolved incident) hout.symm (by rw [hlast]; rfl)
  | clear incident =>
    refine ⟨?_, ?_, fun h => by cases h⟩
    · rwa [AlternatesFor, emissionsOf_append, hout, List.append_nil]
    · rwa [lastFires, emissionsOf_append, hout, List.append_nil]
  | release incident => exact hdeliver (.firing incident) hout.symm (by rw [hlast]; rfl)

namespace InhibitionResolver

variable {resolver : InhibitionResolver}

/-- An observation is one of the moves for every rule. -/
theorem observation_moves (h : resolver.Named) (o : Observation) {ruleName : String} {on : Bool}
    (hon : (resolver.pending.lookup ruleName).isSome → on = true) (hturns : o.Turns ruleName on) :
    Move on (resolver.pending.lookup ruleName)
      (emissionsOf ruleName (resolver.observation o).1) (o.flag ruleName on)
      ((resolver.observation o).2.pending.lookup ruleName) := by
  obtain ⟨name, emission, hnamed⟩ := o
  simp only [observation, Observation.flag, Observation.Turns] at hturns ⊢
  rcases emission with _ | incident | incident
  case none =>
    rw [Option.map_none, Option.getD_none, ite_self]
    exact .keep on _
  case some.firing =>
    have hname : incident.name = name := hnamed _ rfl
    rw [resolver.emissionsOf_observe_firing name hname,
      resolver.lookup_pending_observe_firing name]
    by_cases hrule : ruleName = name
    · obtain rfl : on = false := hturns hrule _ rfl
      have hidle : resolver.pending.lookup ruleName = none := by
        rw [← Option.not_isSome_iff_eq_none]
        exact fun h => Bool.false_ne_true (hon h)
      cases hactive : (resolver.observe name _).2.hasActiveInhibitorOf ruleName
      · simp only [hrule, and_self, if_true, and_false, Bool.false_eq_true, if_false]
        rw [hidle]
        exact .deliver incident
      · simp only [hrule, and_self, if_true, and_false, Bool.true_eq_false, if_false]
        rw [hidle]
        exact .hold incident
    · simp only [hrule, false_and, if_false]
      exact .keep on _
  case some.resolved =>
    have hname : incident.name = name := hnamed _ rfl
    rw [resolver.emissionsOf_observe_resolved name h hname,
      resolver.lookup_pending_observe_resolved name]
    by_cases hrule : ruleName = name
    · obtain rfl : on = true := hturns hrule _ rfl
      subst hrule
      simp only [if_true, true_or]
      cases resolver.pending.lookup ruleName with
      | none => exact .resolve incident
      | some waiting => exact .clear waiting
    · simp only [hrule, if_false, false_or]
      split_ifs
      · cases hp : resolver.pending.lookup ruleName with
        | none => exact .keep on none
        | some waiting =>
          obtain rfl : on = true := hon (by rw [hp]; rfl)
          exact .release waiting
      · exact .keep on _

/-- An observation makes at most its own rule pending, when that starts firing. -/
theorem pending_of_observation {o : Observation} {ruleName : String}
    (h : ((resolver.observation o).2.pending.lookup ruleName).isSome) :
    (resolver.pending.lookup ruleName).isSome ∨
      (ruleName = o.ruleName ∧ ∃ incident, o.emission = some (.firing incident)) := by
  rw [observation] at h
  rcases he : o.emission with _ | incident | incident
  · rw [he] at h
    exact .inl h
  · rw [he, lookup_pending_observe_firing] at h
    split_ifs at h with hrule
    · exact .inr ⟨hrule.1, incident, rfl⟩
    · exact .inl h
  · rw [he, lookup_pending_observe_resolved] at h
    split_ifs at h
    · exact absurd h Bool.false_ne_true
    · exact .inl h

/-- What an observation lets through is about its rule, or about a pending one that it
inhibits. -/
theorem mem_observation (h : resolver.Named) {o : Observation} {e : Emission}
    (he : e ∈ (resolver.observation o).1) :
    e.incident.name = o.ruleName ∨ (resolver.Inhibits o.ruleName e.incident.name ∧
      (resolver.pending.lookup e.incident.name).isSome) := by
  have hown : e ∈ emissionsOf e.incident.name (resolver.observation o).1 :=
    List.mem_filter.mpr ⟨he, decide_eq_true rfl⟩
  rw [observation] at hown
  rcases hemission : o.emission with _ | waiting | resolved
  · rw [hemission] at hown
    exact absurd (List.mem_filter.mp hown).1 List.not_mem_nil
  · have hname : waiting.name = o.ruleName := o.named (.firing waiting) hemission
    rw [hemission, resolver.emissionsOf_observe_firing o.ruleName hname] at hown
    split_ifs at hown with hrule
    · exact .inl hrule.1
    · exact absurd hown List.not_mem_nil
  · have hname : resolved.name = o.ruleName := o.named (.resolved resolved) hemission
    rw [hemission, resolver.emissionsOf_observe_resolved o.ruleName h hname] at hown
    by_cases hrule : e.incident.name = o.ruleName
    · exact .inl hrule
    · rw [if_neg hrule] at hown
      split_ifs at hown with hreleased
      · refine .inr ⟨hreleased.1, ?_⟩
        cases hp : resolver.pending.lookup e.incident.name with
        | none =>
          rw [hp] at hown
          exact absurd hown List.not_mem_nil
        | some incident => rfl
      · exact absurd hown List.not_mem_nil

/-- A flag that is set after an observation was set by it, or before. -/
theorem flag_of_fires (o : Observation) {ruleName : String} {on : Bool}
    (h : resolver.Fires ruleName → on = true)
    (hfires : (resolver.observation o).2.Fires ruleName) : o.flag ruleName on = true := by
  rw [observation] at hfires
  rw [Observation.flag]
  cases he : o.emission with
  | none =>
    rw [he] at hfires
    rw [Option.map_none, Option.getD_none, ite_self]
    exact h hfires
  | some e =>
    rw [he, fires_observe] at hfires
    split_ifs at hfires ⊢ with hname
    · exact hfires
    · exact h hfires

/-- What is pending after an observation waits for a rule that fires. -/
theorem inhibited_observation (o : Observation) {ruleName : String}
    (h : (resolver.pending.lookup ruleName).isSome →
      ∃ candidate, resolver.Inhibits candidate ruleName ∧ resolver.Fires candidate)
    (hp : ((resolver.observation o).2.pending.lookup ruleName).isSome) :
    ∃ candidate, (resolver.observation o).2.Inhibits candidate ruleName ∧
      (resolver.observation o).2.Fires candidate := by
  obtain ⟨name, emission, hnamed⟩ := o
  simp only [observation] at hp ⊢
  rw [inhibits_congr (observe_inhibits ..)]
  rcases emission with _ | incident | incident
  case none => exact h hp
  case some.firing =>
    rw [resolver.lookup_pending_observe_firing name] at hp
    split_ifs at hp with hrule
    · obtain ⟨candidate, hin, hfires⟩ := (hasActiveInhibitorOf_iff _ _).mp hrule.2
      exact ⟨candidate, by rwa [inhibits_congr (observe_inhibits ..)] at hin, hfires⟩
    · obtain ⟨candidate, hin, hfires⟩ := h hp
      refine ⟨candidate, hin, ?_⟩
      rw [fires_observe]
      split_ifs
      · rfl
      · exact hfires
  case some.resolved =>
    rw [resolver.lookup_pending_observe_resolved name] at hp
    split_ifs at hp with hgone
    · exact absurd hp Bool.false_ne_true
    obtain ⟨candidate, hin, hfires⟩ := h hp
    by_cases hcandidate : candidate = name
    · -- The resolved rule was an inhibitor: the incident stays for another one.
      subst hcandidate
      have hactive := Bool.of_not_eq_false fun hidle => hgone (.inr ⟨hin, hidle⟩)
      obtain ⟨other, hother, hfires'⟩ := (hasActiveInhibitorOf_iff _ _).mp hactive
      exact ⟨other, by rwa [inhibits_congr (observe_inhibits ..)] at hother, hfires'⟩
    · refine ⟨candidate, hin, ?_⟩
      rwa [fires_observe, if_neg hcandidate]

/-- A sequence of observations. -/
def observeAll (resolver : InhibitionResolver) (os : List Observation) :
    List Emission × InhibitionResolver :=
  os.foldl (fun now o => (now.1 ++ (now.2.observation o).1, (now.2.observation o).2))
    ([], resolver)

theorem observeAll_snoc (resolver : InhibitionResolver) (os : List Observation)
    (o : Observation) :
    resolver.observeAll (os ++ [o]) =
      ((resolver.observeAll os).1 ++ ((resolver.observeAll os).2.observation o).1,
        ((resolver.observeAll os).2.observation o).2) := by
  rw [observeAll, List.foldl_append]
  rfl

@[simp] theorem observeAll_inhibits (resolver : InhibitionResolver) (os : List Observation) :
    (resolver.observeAll os).2.inhibits = resolver.inhibits := by
  induction os using List.reverseRecOn with
  | nil => rfl
  | append_singleton os o ih =>
    rw [observeAll_snoc]
    exact (observe_inhibits ..).trans ih

theorem Named.observeAll (h : resolver.Named) (os : List Observation) :
    (resolver.observeAll os).2.Named := by
  induction os using List.reverseRecOn with
  | nil => exact h
  | append_singleton os o ih =>
    rw [observeAll_snoc]
    exact ih.observation o

end InhibitionResolver

namespace Observation

/-- What the rules emit in a sequence of observations. -/
def emitted (os : List Observation) : List Emission := os.filterMap Observation.emission

theorem emitted_snoc (os : List Observation) (o : Observation) :
    emitted (os ++ [o]) = emitted os ++ o.emission.toList := by
  rw [emitted, List.filterMap_append]
  cases h : o.emission <;> simp [h, emitted]

/-- The own emissions of a rule in an observation. -/
theorem emissionsOf_emission (o : Observation) (ruleName : String) :
    emissionsOf ruleName o.emission.toList =
      if ruleName = o.ruleName then o.emission.toList else [] := by
  cases he : o.emission with
  | none => simp [emissionsOf]
  | some e =>
    have hname := o.named e he
    by_cases hrule : ruleName = o.ruleName
    · simp [emissionsOf, hname, hrule]
    · have hne : ¬o.ruleName = ruleName := fun h => hrule h.symm
      simp [emissionsOf, hname, hrule, hne]

/-- The flag of a rule is whether it last emitted a `Firing`. -/
theorem lastFires_snoc (os : List Observation) (o : Observation) (ruleName : String) :
    lastFires ruleName (emitted (os ++ [o])) =
      o.flag ruleName (lastFires ruleName (emitted os)) := by
  rw [lastFires, emitted_snoc, emissionsOf_append, emissionsOf_emission, flag]
  split_ifs
  · cases o.emission with
    | none => simp [lastFires]
    | some e => simp
  · rw [List.append_nil, lastFires]

/-- The own emissions of a rule alternate when each one changes its flag. -/
theorem alternates_snoc (os : List Observation) (o : Observation) (ruleName : String) :
    AlternatesFor ruleName (emitted (os ++ [o])) ↔
      AlternatesFor ruleName (emitted os) ∧
        o.Turns ruleName (lastFires ruleName (emitted os)) := by
  rw [AlternatesFor, emitted_snoc, emissionsOf_append, emissionsOf_emission, Turns]
  by_cases hrule : ruleName = o.ruleName
  · rw [if_pos hrule]
    cases he : o.emission with
    | none => simp [AlternatesFor]
    | some e =>
      rw [Option.toList_some, Bracketed.alternates_snoc]
      refine and_congr_right fun _ => ⟨fun h _ e' he' => ?_, fun h => ?_⟩
      · obtain rfl := Option.some.inj he'
        rw [h, Bool.not_not, lastFires]
      · rw [← lastFires, h hrule e rfl, Bool.not_not]
  · simp [hrule, AlternatesFor]

end Observation

namespace InhibitionResolver

variable (rules : List Rule) (os : List Observation) (ruleName : String)

theorem named_new : (new rules).Named := by
  intro ruleName incident hp
  rw [new, Finmap.lookup_empty] at hp
  cases hp

theorem not_fires_new : ¬(new rules).Fires ruleName := by
  intro hfires
  rcases mem_of_lookup_insertAll hfires with hmem | hempty
  · obtain ⟨rule, -, heq⟩ := List.mem_map.mp hmem
    exact absurd (congrArg Prod.snd heq) Bool.false_ne_true
  · rw [Finmap.lookup_empty] at hempty
    cases hempty

/-- A rule of the relation is one of the rules it is made from. -/
theorem inhibits_new {candidate targetName : String}
    (h : (new rules).Inhibits candidate targetName) :
    ∃ rule ∈ rules, rule.name = candidate ∧ targetName ∈ rule.inhibits := by
  obtain ⟨-, hmem⟩ := h
  cases hl : (new rules).inhibits.lookup candidate with
  | none =>
    rw [hl] at hmem
    exact absurd hmem List.not_mem_nil
  | some names =>
    rw [hl] at hmem
    rcases mem_of_lookup_insertAll hl with hin | hempty
    · obtain ⟨rule, hrule, heq⟩ := List.mem_map.mp hin
      cases heq
      exact ⟨rule, hrule, rfl, hmem⟩
    · rw [Finmap.lookup_empty] at hempty
      cases hempty

/-- In a catalogue, the relation is what the rules say. -/
theorem inhibits_catalogue (catalogue : Catalogue) {candidate targetName : String} :
    (new catalogue.rules).Inhibits candidate targetName ↔
      catalogue.Inhibits candidate targetName := by
  constructor
  · intro h
    exact ⟨h.1, inhibits_new _ h⟩
  · rintro ⟨hne, rule, hrule, rfl, hmem⟩
    have hlookup : (new catalogue.rules).inhibits.lookup rule.name = some rule.inhibits := by
      apply lookup_insertAll_of_mem
      · rw [List.map_map]
        exact catalogue.nodup
      · exact List.mem_map.mpr ⟨rule, hrule, rfl⟩
    refine ⟨hne, ?_⟩
    rwa [hlookup, Option.getD_some]

/-- The flag of a rule says what it last emitted. -/
theorem fires_observeAll :
    ((new rules).observeAll os).2.Fires ruleName ↔
      lastFires ruleName (Observation.emitted os) = true := by
  induction os using List.reverseRecOn with
  | nil => exact iff_of_false (not_fires_new rules ruleName) Bool.false_ne_true
  | append_singleton os o ih =>
    rw [observeAll_snoc, Observation.lastFires_snoc, Observation.flag, observation]
    cases he : o.emission with
    | none => rwa [Option.map_none, Option.getD_none, ite_self]
    | some e =>
      rw [fires_observe]
      split_ifs
      · rfl
      · exact ih

/-- What is pending waits for a rule that fires. -/
theorem inhibited_observeAll
    (hp : (((new rules).observeAll os).2.pending.lookup ruleName).isSome) :
    ∃ candidate, ((new rules).observeAll os).2.Inhibits candidate ruleName ∧
      ((new rules).observeAll os).2.Fires candidate := by
  induction os using List.reverseRecOn with
  | nil => exact absurd hp Bool.false_ne_true
  | append_singleton os o ih =>
    rw [observeAll_snoc] at hp ⊢
    exact inhibited_observation o ih hp

/-- What is delivered for a rule whose own emissions alternate fits its flag and what it has
pending. -/
theorem booked_observeAll (h : AlternatesFor ruleName (Observation.emitted os)) :
    Booked (lastFires ruleName (Observation.emitted os))
      (((new rules).observeAll os).2.pending.lookup ruleName)
      ((new rules).observeAll os).1 ruleName := by
  induction os using List.reverseRecOn with
  | nil =>
    refine ⟨Bracketed.alternates_nil _, rfl, ?_⟩
    exact fun hp => absurd hp Bool.false_ne_true
  | append_singleton os o ih =>
    obtain ⟨hos, hturns⟩ := (Observation.alternates_snoc os o ruleName).mp h
    have hbooked := ih hos
    rw [observeAll_snoc, Observation.lastFires_snoc]
    exact hbooked.move
      (observation_moves ((named_new rules).observeAll os) o hbooked.on_of_pending hturns)

end InhibitionResolver

end Kaleidoscope.Beacon
