import Kaleidoscope.Beacon.Suppression

/-!
# Suppression across a reload

A reload keeps what is pending for every rule that the new catalogue still inhibits, and
drops the rest. It asks which inhibitors there are, not which are firing.
-/

namespace Kaleidoscope.Beacon

open HashMap InhibitionResolver Observation

section Rebuilt

variable (flags : IterOrder String Bool) (incidents : IterOrder String Incident)

/-- The flags after a reload are those of the surviving rules. -/
theorem fires_rebuildFrom (catalogue : Catalogue) (resolver : InhibitionResolver)
    (ruleName : String) :
    (rebuildFrom flags incidents catalogue.rules resolver.carryover).Fires ruleName ↔
      ruleName ∈ catalogue.names ∧ resolver.Fires ruleName := by
  rw [Fires, lookup_rebuildFrom_firing, ← Catalogue.names]
  split_ifs with hmem
  · rw [Option.some_inj, and_iff_right hmem, Fires, carryover]
    cases resolver.firing.lookup ruleName <;> simp
  · simp [hmem]

/-- What is pending after a reload was pending before, and is inhibited in the new graph. -/
theorem pending_rebuildFrom (catalogue : Catalogue) (resolver : InhibitionResolver)
    (ruleName : String) (incident : Incident) :
    (rebuildFrom flags incidents catalogue.rules resolver.carryover).pending.lookup ruleName =
        some incident ↔
      resolver.pending.lookup ruleName = some incident ∧
        ruleName ∈ catalogue.names ∧
        ∃ candidate, catalogue.Inhibits candidate ruleName := by
  have hsurviving : (new catalogue.rules).hasSurvivingInhibitorOf ruleName = true ↔
      ∃ candidate, catalogue.Inhibits candidate ruleName := by
    simp only [hasSurvivingInhibitorOf_iff, inhibits_catalogue]
  rw [lookup_rebuildFrom_pending]
  split_ifs with hkept
  · exact (and_iff_left (hkept.imp_right hsurviving.mp)).symm
  · refine iff_of_false (by simp) fun hc => hkept (hc.2.imp_right hsurviving.mpr)

theorem inhibits_rebuildFrom (catalogue : Catalogue) (resolver : InhibitionResolver)
    (candidate targetName : String) :
    (rebuildFrom flags incidents catalogue.rules resolver.carryover).Inhibits
        candidate targetName ↔ catalogue.Inhibits candidate targetName := by
  rw [inhibits_congr (rebuildFrom_inhibits ..), inhibits_catalogue]

theorem named_rebuildFrom (catalogue : Catalogue) {resolver : InhibitionResolver}
    (h : resolver.Named) :
    (rebuildFrom flags incidents catalogue.rules resolver.carryover).Named :=
  fun ruleName incident hp => h ruleName incident
    ((pending_rebuildFrom flags incidents catalogue resolver ruleName incident).mp hp).1

end Rebuilt

/-- The observation that lets an incident go: the `Resolved` of an inhibitor, when no other
one is firing. -/
def Frees (resolver : InhibitionResolver) (o : Observation) (ruleName : String) : Prop :=
  (∃ incident, o.emission = some (.resolved incident)) ∧
    resolver.Inhibits o.ruleName ruleName ∧
    ¬∃ candidate, resolver.Inhibits candidate ruleName ∧
      (resolver.observation o).2.Fires candidate

/-- What is pending is delivered by the observation that frees it. -/
theorem delivered_of_frees {resolver : InhibitionResolver} (h : resolver.Named)
    {ruleName : String} {incident : Incident}
    (hp : resolver.pending.lookup ruleName = some incident) {o : Observation}
    (hfrees : Frees resolver o ruleName) :
    emissionsOf ruleName (resolver.observation o).1 = [.firing incident] ∧
      (resolver.observation o).2.pending.lookup ruleName = none := by
  obtain ⟨⟨resolved, he⟩, hin, hidle⟩ := hfrees
  have hname : resolved.name = o.ruleName := o.named (.resolved resolved) he
  have hother : ruleName ≠ o.ruleName := hin.1.symm
  rw [observation, he] at hidle ⊢
  have hinactive : (resolver.observe o.ruleName (some (.resolved resolved))).2.hasActiveInhibitorOf
      ruleName = false := by
    rw [← Bool.not_eq_true, hasActiveInhibitorOf_iff, inhibits_congr (observe_inhibits ..)]
    exact hidle
  constructor
  · rw [resolver.emissionsOf_observe_resolved o.ruleName h hname, if_neg hother,
      if_pos ⟨hin, hinactive⟩, hp]
    rfl
  · rw [resolver.lookup_pending_observe_resolved, if_pos (.inr ⟨hin, hinactive⟩)]

/-- What is pending stays so at every other observation of another rule. -/
theorem held_of_not_frees {resolver : InhibitionResolver} (h : resolver.Named)
    {ruleName : String} {incident : Incident}
    (hp : resolver.pending.lookup ruleName = some incident) {o : Observation}
    (hother : o.ruleName ≠ ruleName) (hfrees : ¬Frees resolver o ruleName) :
    emissionsOf ruleName (resolver.observation o).1 = [] ∧
      (resolver.observation o).2.pending.lookup ruleName = some incident := by
  have hother : ruleName ≠ o.ruleName := hother.symm
  rw [observation]
  rcases he : o.emission with _ | waiting | resolved
  · exact ⟨rfl, hp⟩
  · have hname : waiting.name = o.ruleName := o.named (.firing waiting) he
    rw [resolver.emissionsOf_observe_firing o.ruleName hname,
      resolver.lookup_pending_observe_firing, if_neg fun hc => hother hc.1,
      if_neg fun hc => hother hc.1]
    exact ⟨rfl, hp⟩
  · have hname : resolved.name = o.ruleName := o.named (.resolved resolved) he
    have hkept : ¬(resolver.Inhibits o.ruleName ruleName ∧
        (resolver.observe o.ruleName (some (.resolved resolved))).2.hasActiveInhibitorOf
          ruleName = false) := by
      rintro ⟨hin, hidle⟩
      refine hfrees ⟨⟨resolved, he⟩, hin, ?_⟩
      rw [← Bool.not_eq_true, hasActiveInhibitorOf_iff,
        inhibits_congr (observe_inhibits ..)] at hidle
      rwa [observation, he]
    rw [resolver.emissionsOf_observe_resolved o.ruleName h hname, if_neg hother, if_neg hkept,
      resolver.lookup_pending_observe_resolved,
      if_neg fun hc => hc.elim hother hkept]
    exact ⟨rfl, hp⟩

/-- What a reload does to suppression: an incident stays pending exactly when its rule survives
and some rule of the new graph inhibits it, and every flag of a surviving rule is kept. From
then on it is delivered by the first `Resolved` of an inhibitor that leaves no inhibitor
firing, and held until then. -/
theorem rebuildFrom_carries (flags : IterOrder String Bool)
    (incidents : IterOrder String Incident) (catalogue newCatalogue : Catalogue)
    (os : List Observation) (ruleName : String) :
    let before := ((new catalogue.rules).observeAll os).2
    let after := rebuildFrom flags incidents newCatalogue.rules before.carryover
    (∀ incident, after.pending.lookup ruleName = some incident ↔
      before.pending.lookup ruleName = some incident ∧
        ruleName ∈ newCatalogue.names ∧
        ∃ candidate, newCatalogue.Inhibits candidate ruleName) ∧
      (after.Fires ruleName ↔
        ruleName ∈ newCatalogue.names ∧ before.Fires ruleName) ∧
      ∀ (os' : List Observation) (incident : Incident) (o : Observation),
        let now := (after.observeAll os').2
        now.pending.lookup ruleName = some incident → o.ruleName ≠ ruleName →
          (Frees now o ruleName → emissionsOf ruleName (now.observation o).1 = [.firing incident] ∧
            (now.observation o).2.pending.lookup ruleName = none) ∧
          (¬Frees now o ruleName → emissionsOf ruleName (now.observation o).1 = [] ∧
            (now.observation o).2.pending.lookup ruleName = some incident) := by
  intro before after
  refine ⟨pending_rebuildFrom flags incidents newCatalogue before ruleName,
    fires_rebuildFrom flags incidents newCatalogue before ruleName, ?_⟩
  intro os' incident o now hp hother
  have hnamed : now.Named :=
    (named_rebuildFrom flags incidents newCatalogue
      ((named_new catalogue.rules).observeAll os)).observeAll os'
  exact ⟨delivered_of_frees hnamed hp, held_of_not_frees hnamed hp hother⟩

/-- After the node rule is gone, the disk alert waits for a rule that is silent, or is lost when
nothing inhibits it any more. -/
theorem orphaned_after_reload :
    ¬(∀ (flags : IterOrder String Bool) (incidents : IterOrder String Incident)
          (catalogue newCatalogue : Catalogue) (os : List Observation) (ruleName : String),
        let before := ((new catalogue.rules).observeAll os).2
        let after := rebuildFrom flags incidents newCatalogue.rules before.carryover
        (after.pending.lookup ruleName).isSome →
          ∃ candidate, newCatalogue.Inhibits candidate ruleName ∧ after.Fires candidate) ∧
      ¬(∀ (flags : IterOrder String Bool) (incidents : IterOrder String Incident)
          (catalogue newCatalogue : Catalogue) (os : List Observation) (ruleName : String)
          (incident : Incident) (o : Observation),
        let before := ((new catalogue.rules).observeAll os).2
        let after := rebuildFrom flags incidents newCatalogue.rules before.carryover
        before.pending.lookup ruleName = some incident →
          ruleName ∈ newCatalogue.names →
          (¬∃ candidate, newCatalogue.Inhibits candidate ruleName ∧ after.Fires candidate) →
            .firing incident ∈ (after.observation o).1) := by
  let flags : IterOrder String Bool := .unspecified String Bool
  let incidents : IterOrder String Incident := .unspecified String Incident
  let catalogue : Catalogue := ⟨[.bare "node" [] ["disk"], .bare "disk" [] []], by decide⟩
  let os := [fires "node", fires "disk"]
  let incident : Incident := ⟨"disk", "", .info, .empty, 0, none⟩
  have hpending :
      ((new catalogue.rules).observeAll os).2.pending.lookup "disk" = some incident := by
    decide +kernel
  constructor
  · intro h
    let newCatalogue : Catalogue := ⟨[.bare "rack" [] ["disk"], .bare "disk" [] []], by decide⟩
    have hafter := (pending_rebuildFrom flags incidents newCatalogue _ "disk" incident).mpr
      ⟨hpending, by decide, "rack", by decide, _, List.mem_cons_self, rfl, by decide⟩
    obtain ⟨candidate, hin, hfires⟩ := h flags incidents catalogue newCatalogue os "disk"
      (by rw [hafter]; rfl)
    have hsilent : ∀ name ∈ newCatalogue.names, name ≠ "disk" →
        ¬((new catalogue.rules).observeAll os).2.Fires name := by
      decide +kernel
    have hbefore := (fires_rebuildFrom flags incidents newCatalogue _ candidate).mp hfires
    exact hsilent candidate hbefore.1 hin.1 hbefore.2
  · intro h
    let newCatalogue : Catalogue := ⟨[.bare "disk" [] []], by decide⟩
    have huninhibited (candidate : String) : ¬newCatalogue.Inhibits candidate "disk" := by
      rintro ⟨-, rule, hrule, -, hmem⟩
      obtain rfl := List.mem_singleton.mp hrule
      exact List.not_mem_nil hmem
    have hdelivered := h flags incidents catalogue newCatalogue os "disk" incident
      ⟨"disk", none, by simp⟩ hpending (by decide)
      fun ⟨candidate, hin, _⟩ => huninhibited candidate hin
    exact List.not_mem_nil hdelivered

end Kaleidoscope.Beacon
