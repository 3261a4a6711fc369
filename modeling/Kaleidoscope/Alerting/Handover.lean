import Kaleidoscope.Alerting.Crash
import Kaleidoscope.Beacon.Daemon

/-!
# Changes of a rule across a reload

Two generations evaluate a rule side by side, each with its own resolver. What they let through for
the rule is one well-bracketed series as long as the copies that a reload takes agree with one
another, and the old generation has nothing more to say once they are taken.
-/

namespace Kaleidoscope.Beacon

open HashMap InhibitionResolver

/-- A generation that keeps the books of a rule. -/
structure Process.Live (p : Process) (ruleName : String) (outside : Outside) : Prop where
  fits : p.Fits ruleName
  booked : Booked (p.tasks ruleName).told (p.resolver.pending.lookup ruleName) outside.emissions
    ruleName
  accounts : p.Accounts ruleName outside

section Live

variable {p : Process} {ruleName : String} {outside : Outside} {rule : Rule} {step : TaskStep}
  {next : Process × Outside}

theorem Outside.emissions_of_delivered {outside outside' : Outside} {rule : Rule}
    {out : List Emission}
    (h : outside'.delivered = outside.delivered ++ out.map (Delivery.mk rule.sinks)) :
    outside'.emissions = outside.emissions ++ out := by
  rw [Outside.emissions, h, List.map_append, List.map_map]
  exact congrArg _ (List.map_id _)

/-- Steps of its own loops keep a generation's books. -/
theorem Process.Live.advance (h : p.Live ruleName outside) (hrule : rule ∈ p.catalogue.rules)
    (hstep : Advance p outside rule step next) : next.1.Live ruleName next.2 := by
  have hsound := h.fits.sound rule hrule
  refine ⟨h.fits.advance hrule hstep, ?_, hstep.accounts hsound h.accounts⟩
  rcases hstep.observed hsound with hquiet | ⟨o, htells⟩
  · rw [hquiet.resolver, hquiet.told, Outside.emissions, hquiet.delivered]
    exact h.booked
  · rw [htells.resolver, htells.told, Outside.emissions_of_delivered htells.delivered]
    exact h.booked.move
      (observation_moves h.fits.named o h.booked.on_of_pending (htells.turns ruleName))

/-- What has happened for a rule is the same. -/
structure Outside.Same (ruleName : String) (outside outside' : Outside) : Prop where
  changes : emissionsOf ruleName outside'.changes = emissionsOf ruleName outside.changes
  told : emissionsOf ruleName outside'.told = emissionsOf ruleName outside.told
  emissions : emissionsOf ruleName outside'.emissions = emissionsOf ruleName outside.emissions

/-- Where nothing happens for the rule, the books of another generation are kept. -/
theorem Process.Live.same {outside' : Outside} (h : p.Live ruleName outside)
    (hsame : outside.Same ruleName outside') : p.Live ruleName outside' := by
  obtain ⟨hfits, ⟨halternates, hlast, hon⟩, haccounts⟩ := h
  refine ⟨hfits, ⟨?_, ?_, hon⟩, ?_⟩
  · rwa [AlternatesFor, hsame.emissions]
  · rwa [lastFires, hsame.emissions]
  · rwa [Process.Accounts, hsame.changes, hsame.told]

/-- A step lets nothing through for a rule when its task neither makes nor tells a change of it,
and the task of another rule does not let its incident go. -/
theorem Advance.same (hstep : Advance p outside rule step next) (hfits : p.Fits ruleName)
    (hrule : rule ∈ p.catalogue.rules)
    (hquiet : ruleName = rule.name → (p.tasks ruleName).untold = none ∧
      ∀ persists, step = .put persists → (p.tasks ruleName).unmade = none)
    (hkeeps : step = .observe → (p.tasks rule.name).aborted = false →
      ¬p.LetsGo ruleName rule.name) :
    outside.Same ruleName next.2 := by
  obtain ⟨hchanges, htold, -⟩ := hstep.silent (hfits.sound rule hrule) hquiet
  refine ⟨hchanges, htold, ?_⟩
  rcases hstep.observed (hfits.sound rule hrule) with hsilent | ⟨o, htells⟩
  · rw [Outside.emissions, hsilent.delivered, Outside.emissions]
  · rw [Outside.emissions_of_delivered htells.delivered, emissionsOf_append]
    refine (congrArg _ ?_).trans (List.append_nil _)
    by_cases hname : ruleName = rule.name
    · have huntold : o.emission = none := by
        have := (hquiet hname).1
        rwa [hname, Task.untold, htells.phase] at this
      rw [observation, huntold]
      rfl
    · cases hpending : p.resolver.pending.lookup ruleName with
      | none =>
        -- What an observation lets through is about its own rule or a pending one.
        refine List.filter_eq_nil_iff.mpr fun e he hnamed => ?_
        have hnamed : e.incident.name = ruleName := of_decide_eq_true hnamed
        rcases mem_observation hfits.named he with hown | ⟨-, hheld⟩
        · exact hname (hnamed.symm.trans (hown.trans htells.name))
        · rw [hnamed, hpending] at hheld
          cases hheld
      | some incident =>
        refine (held_of_not_frees hfits.named hpending ?_ fun hfrees => ?_).1
        · rw [htells.name]
          exact Ne.symm hname
        · exact hkeeps htells.step_eq htells.live
            (htells.letsGo hfits (by rw [hpending]; rfl) hfrees)

/-- What was let through for a rule reaches its sinks, or is held. -/
theorem Advance.owed (hstep : Advance p outside rule step next) (hfits : p.Fits ruleName)
    (hrule : rule ∈ p.catalogue.rules) (others : Handover → Prop)
    (h : ∀ delivery ∈ outside.delivered, delivery.emission.incident.name = ruleName →
      ∀ sink ∈ delivery.sinks, (sink, delivery.emission) ∈ outside.handed ∨
        p.Holds ruleName (sink, delivery.emission) ∨ others (sink, delivery.emission)) :
    ∀ delivery ∈ next.2.delivered, delivery.emission.incident.name = ruleName →
      ∀ sink ∈ delivery.sinks, (sink, delivery.emission) ∈ next.2.handed ∨
        next.1.Holds ruleName (sink, delivery.emission) ∨ others (sink, delivery.emission) := by
  intro delivery hmem hnamed sink hsink
  rcases hstep.delivered hfits hrule hmem with hold | hnew
  · rcases h delivery hold hnamed sink hsink with hhanded | hholds | hothers
    · exact .inl (hstep.handed hhanded)
    · exact (hstep.holds hholds).imp_right .inl
    · exact .inr (.inr hothers)
  · exact .inr (.inl (hnew hnamed sink hsink))

end Live

/-- The copies of the old generation are taken. -/
def Progress.copied : Progress → Bool
  | .carried .. => true
  | .rebuilt .. => true
  | .spawned .. => true
  | _ => false

/-- What a reload has loaded, before the copies of the old generation are taken. -/
def Progress.seeded? : Progress → Option (Catalogue × Rules)
  | .seeded catalogue seed => some (catalogue, seed)
  | _ => none

/-- The new generation, once its loops run. -/
def Progress.next? : Progress → Option Process
  | .spawned next _ => some next
  | _ => none

/-- The state that the task of a rule is spawned with. -/
def spawnedState (catalogue : Catalogue) (seed : Rules) (ruleName : String) : RuleState :=
  ((spawnGeneration catalogue.rules seed).lookup ruleName).getD .inactive

/-- A generation that is told out about a rule, and whose carryover agrees with the seed: the seed
has the rule firing if its task has, and each rule that inhibits it in the new catalogue if its
flag is set; and one of these flags is set if the rule has an incident pending. -/
def Process.Agrees (p : Process) (ruleName : String) (catalogue : Catalogue) (seed : Rules) :
    Prop :=
  (p.tasks ruleName).untold = none ∧
    (spawnedState catalogue seed ruleName).isFiring = (p.tasks ruleName).state.isFiring ∧
    (∀ rule ∈ catalogue.rules, catalogue.Inhibits rule.name ruleName →
      p.resolver.Fires rule.name → (spawnedState catalogue seed rule.name).isFiring = true) ∧
    ((p.resolver.pending.lookup ruleName).isSome →
      ∃ rule ∈ catalogue.rules, catalogue.Inhibits rule.name ruleName ∧
        p.resolver.Fires rule.name)

instance (p : Process) (ruleName : String) (catalogue : Catalogue) (seed : Rules) :
    Decidable (p.Agrees ruleName catalogue seed) :=
  inferInstanceAs (Decidable (_ ∧ _ ∧ _ ∧ _))

namespace Daemon

variable (ruleName : String) (d : Daemon)

/-- The rule is in every catalogue that a reload puts in place. -/
def Survives : DaemonEvent → Prop
  | .loadRules parsed => ∀ outcome ∈ (Beacon.loadRules parsed).toOption,
      refuses d.process.catalogue outcome = false → ruleName ∈ outcome.names
  | _ => True

/-- The old generation is done with the rule once the copies are taken, and these agree. From the
carryover on no old task makes a change of the rule, none lets its pending incident go, and none
is aborted with an incident of the rule in hand. -/
def Clear : DaemonEvent → Prop
  | .carryover => ∀ copy ∈ d.progress.seeded?, d.process.Agrees ruleName copy.1 copy.2
  | .step name (.put _) => d.progress.copied = true → name = ruleName →
      (d.process.tasks name).unmade = none
  | .stepRetired generation name (.put _) => ∀ p ∈ d.retired[generation]?, name = ruleName →
      (p.tasks name).unmade = none
  | .step name .observe => d.progress.copied = true → (d.process.tasks name).aborted = false →
      ¬d.process.LetsGo ruleName name
  | .abort name => ∀ handover ∈ (d.process.tasks name).todo,
      handover.2.incident.name ≠ ruleName
  | _ => True

instance : (event : DaemonEvent) → Decidable (d.Survives ruleName event)
  | .loadRules parsed => inferInstanceAs (Decidable (∀ outcome ∈ (Beacon.loadRules parsed).toOption,
      refuses d.process.catalogue outcome = false → ruleName ∈ outcome.names))
  | .step .. => isTrue trivial
  | .stepNext .. => isTrue trivial
  | .stepRetired .. => isTrue trivial
  | .loadAll _ => isTrue trivial
  | .carryover => isTrue trivial
  | .rebuildFrom => isTrue trivial
  | .spawn => isTrue trivial
  | .swap => isTrue trivial
  | .abort _ => isTrue trivial
  | .finish => isTrue trivial

instance : (event : DaemonEvent) → Decidable (d.Clear ruleName event)
  | .carryover => inferInstanceAs (Decidable
      (∀ copy ∈ d.progress.seeded?, d.process.Agrees ruleName copy.1 copy.2))
  | .step name (.put _) => inferInstanceAs (Decidable
      (d.progress.copied = true → name = ruleName → (d.process.tasks name).unmade = none))
  | .stepRetired generation name (.put _) => inferInstanceAs (Decidable
      (∀ p ∈ d.retired[generation]?, name = ruleName → (p.tasks name).unmade = none))
  | .step name .observe => inferInstanceAs (Decidable
      (d.progress.copied = true → (d.process.tasks name).aborted = false →
        ¬d.process.LetsGo ruleName name))
  | .abort name => inferInstanceAs (Decidable
      (∀ handover ∈ (d.process.tasks name).todo, handover.2.incident.name ≠ ruleName))
  | .step _ (.answer ..) => isTrue trivial
  | .step _ .transition => isTrue trivial
  | .step _ .emit => isTrue trivial
  | .stepRetired _ _ (.answer ..) => isTrue trivial
  | .stepRetired _ _ .transition => isTrue trivial
  | .stepRetired _ _ .observe => isTrue trivial
  | .stepRetired _ _ .emit => isTrue trivial
  | .stepNext .. => isTrue trivial
  | .loadRules _ => isTrue trivial
  | .loadAll _ => isTrue trivial
  | .rebuildFrom => isTrue trivial
  | .spawn => isTrue trivial
  | .swap => isTrue trivial
  | .finish => isTrue trivial

/-- Every change of the rule is handed over by exactly one of the generations. -/
structure HandedOver : Prop where
  /-- No change is let through by both: firing and resolved alternate. -/
  alternates : AlternatesFor ruleName d.outside.emissions
  /-- No change is left untold by the generation that made it. -/
  accounted : d.progress = .idle → d.process.AtRest ruleName →
    emissionsOf ruleName d.outside.changes = emissionsOf ruleName d.outside.told
  /-- A rule that fires was announced, unless an inhibitor of it fires. -/
  announced : d.progress = .idle → d.process.AtRest ruleName →
    (d.process.tasks ruleName).state.isFiring = true →
    (∀ candidate, d.process.catalogue.Inhibits candidate ruleName →
      (d.process.tasks candidate).state.isFiring = false) →
    lastFires ruleName d.outside.emissions = true
  /-- A rule that does not fire was resolved, if it was announced. -/
  resolved : d.progress = .idle → d.process.AtRest ruleName →
    (d.process.tasks ruleName).state.isFiring = false →
    lastFires ruleName d.outside.emissions = false
  /-- What is let through reaches the sinks that it is for. -/
  handed : d.progress = .idle → d.process.AtRest ruleName →
    ∀ delivery ∈ d.outside.delivered, delivery.emission.incident.name = ruleName →
      ∀ sink ∈ delivery.sinks, (sink, delivery.emission) ∈ d.outside.handed

end Daemon

/-- What is stored for a rule is what its sinks were told last, and nothing is left of it. -/
structure Outside.Settled (catalogue : Catalogue) (ruleName : String) (outside : Outside) :
    Prop where
  alternates : AlternatesFor ruleName outside.emissions
  accounted : emissionsOf ruleName outside.changes = emissionsOf ruleName outside.told
  lastFires_eq : lastFires ruleName outside.emissions =
    (spawnedState catalogue outside.stored ruleName).isFiring
  handed : ∀ delivery ∈ outside.delivered, delivery.emission.incident.name = ruleName →
    ∀ sink ∈ delivery.sinks, (sink, delivery.emission) ∈ outside.handed

/-- Nothing is stored and nothing has happened. -/
theorem settled_empty (catalogue : Catalogue) (ruleName : String) :
    Outside.empty.Settled catalogue ruleName where
  alternates := Bracketed.alternates_nil _
  accounted := rfl
  lastFires_eq := by
    have hinactive : spawnedState catalogue Outside.empty.stored ruleName = .inactive := by
      rw [spawnedState, lookup_spawnGeneration]
      split_ifs <;> rfl
    rw [hinactive]
    rfl
  handed := nofun

section Run

variable (flags : IterOrder String Bool) (incidents : IterOrder String Incident)

/-- The generation that is to go on: the new one, once the copies are taken. -/
def Progress.successor : Progress → Option Process
  | .carried catalogue seed copy =>
    some (.spawn catalogue seed (rebuildFrom flags incidents catalogue.rules copy))
  | .rebuilt catalogue seed resolver => some (.spawn catalogue seed resolver)
  | .spawned next _ => some next
  | _ => none

/-- What every step keeps for a rule. -/
structure Daemon.Kept (ruleName : String) (d : Daemon) : Prop where
  fits : d.process.Fits ruleName
  live : ((d.progress.successor flags incidents).getD d.process).Live ruleName d.outside
  quiet : d.progress.copied = true → (d.process.tasks ruleName).untold = none
  owed : ∀ delivery ∈ d.outside.delivered, delivery.emission.incident.name = ruleName →
    ∀ sink ∈ delivery.sinks, (sink, delivery.emission) ∈ d.outside.handed ∨
      d.process.Holds ruleName (sink, delivery.emission) ∨
        ∃ next ∈ d.progress.next?, next.Holds ruleName (sink, delivery.emission)
  cleared : ∀ rule ∈ d.process.catalogue.rules, (d.process.tasks rule.name).aborted = true →
    ∀ handover ∈ (d.process.tasks rule.name).todo, handover.2.incident.name ≠ ruleName
  fresh : ∀ next ∈ d.progress.next?, ∀ name, (next.tasks name).aborted = false
  retired : ∀ p ∈ d.retired, p.Stopped ∧ p.Fits ruleName ∧ (p.tasks ruleName).untold = none

theorem Progress.successor_of_not_copied {progress : Progress} (h : progress.copied = false) :
    progress.successor flags incidents = none := by
  cases progress <;> first | rfl | cases h

theorem Progress.successor_of_copied {progress : Progress} (h : progress.copied = true) :
    ∃ next, progress.successor flags incidents = some next := by
  cases progress <;> first | exact ⟨_, rfl⟩ | cases h

variable {flags incidents} {ruleName : String} {d : Daemon}

/-- The generation that is spawned from copies that agree keeps the books. -/
theorem Process.Live.spawn {p : Process} {outside : Outside} (h : p.Live ruleName outside)
    {catalogue : Catalogue} {seed : Rules} (hagrees : p.Agrees ruleName catalogue seed) :
    (Process.spawn catalogue seed
      (rebuildFrom flags incidents catalogue.rules p.resolver.carryover)).Live ruleName
        outside := by
  obtain ⟨hquiet, hstate, hinhibitors, hpending⟩ := hagrees
  have hfires := fires_rebuildFrom flags incidents catalogue p.resolver
  have hkept := pending_rebuildFrom flags incidents catalogue p.resolver ruleName
  have hinhibits := inhibits_rebuildFrom flags incidents catalogue p.resolver
  have htold : (p.tasks ruleName).told = (spawnedState catalogue seed ruleName).isFiring := by
    rw [Task.told_of_untold hquiet, hstate]
  refine ⟨⟨fun _ _ => trivial, named_rebuildFrom flags incidents catalogue h.fits.named,
    hinhibits, ?_, ?_⟩, ?_, ?_⟩
  · rintro _ ⟨hne, rule, hrule, rfl, hin⟩ hflag
    exact hinhibitors rule hrule ⟨hne, rule, hrule, rfl, hin⟩ ((hfires rule.name).mp hflag).2
  · intro hp
    obtain ⟨incident, hp⟩ := Option.isSome_iff_exists.mp hp
    obtain ⟨rule, hrule, hin, hflag⟩ := hpending (by rw [((hkept incident).mp hp).1]; rfl)
    exact ⟨rule.name, (hinhibits _ _).mpr hin,
      (hfires _).mpr ⟨List.mem_map_of_mem hrule, hflag⟩⟩
  · -- What is pending is kept: its rule fires, so it is in the new catalogue.
    have hsame : (rebuildFrom flags incidents catalogue.rules
        p.resolver.carryover).pending.lookup ruleName = p.resolver.pending.lookup ruleName := by
      cases hp : p.resolver.pending.lookup ruleName with
      | none =>
        refine Option.eq_none_iff_forall_ne_some.mpr fun incident hc => ?_
        exact absurd (hp.symm.trans ((hkept incident).mp hc).1) (by simp)
      | some incident =>
        have hsome : (p.resolver.pending.lookup ruleName).isSome := by rw [hp]; rfl
        obtain ⟨rule, hrule, hin, -⟩ := hpending hsome
        refine (hkept incident).mpr ⟨hp, ?_, rule.name, hin⟩
        by_contra hgone
        have hon := htold.symm.trans (h.booked.on_of_pending hsome)
        rw [spawnedState, lookup_spawnGeneration, if_neg hgone] at hon
        cases hon
    have hbooked := h.booked
    rw [htold, ← hsame] at hbooked
    exact hbooked
  · have haccounts := h.accounts
    rw [Process.Accounts, hquiet] at haccounts
    exact haccounts

namespace Daemon.Kept

theorem handedOver (h : d.Kept flags incidents ruleName) : d.HandedOver ruleName := by
  have hlive (hidle : d.progress = .idle) : d.process.Live ruleName d.outside := by
    have := h.live
    rwa [hidle] at this
  refine ⟨h.live.booked.alternates, ?_, ?_, ?_, ?_⟩
  · intro hidle hrest
    have haccounts := (hlive hidle).accounts
    rwa [Process.Accounts, Task.untold, hrest.own, Option.toList_none, List.append_nil]
      at haccounts
  · intro hidle hrest hfiring hsilent
    have hclear : d.process.resolver.pending.lookup ruleName = none := by
      rw [← Option.not_isSome_iff_eq_none]
      intro hp
      obtain ⟨candidate, hin, hfires⟩ := h.fits.inhibited hp
      have hin := (h.fits.inhibits_iff _ _).mp hin
      have htold := h.fits.told_of_fires candidate hin hfires
      rw [Task.told_of_idle (hrest.inhibitors candidate hin), hsilent candidate hin] at htold
      cases htold
    rw [(hlive hidle).booked.lastFires_eq, hclear, Task.told_of_idle hrest.own, hfiring]
    rfl
  · intro hidle hrest hsilent
    rw [(hlive hidle).booked.lastFires_eq, Task.told_of_idle hrest.own, hsilent, Bool.false_and]
  · intro hidle hrest delivery hmem hnamed sink hsink
    have howed := h.owed delivery hmem hnamed sink hsink
    rw [hidle] at howed
    rcases howed with hhanded | hholds | ⟨next, hnext, -⟩
    · exact hhanded
    · exact absurd hholds (hrest.not_holds _)
    · cases hnext

/-- A step of a reload that leaves the generation that is to go on. -/
theorem progress (h : d.Kept flags incidents ruleName) {progress : Progress}
    (hlive : ((progress.successor flags incidents).getD d.process).Live ruleName d.outside)
    (hquiet : progress.copied = true → (d.process.tasks ruleName).untold = none)
    (hnext : ∀ next ∈ d.progress.next?, next ∈ progress.next?)
    (hfresh : ∀ next ∈ progress.next?, ∀ name, (next.tasks name).aborted = false) :
    Daemon.Kept flags incidents ruleName { d with progress := progress } := by
  refine ⟨h.fits, hlive, hquiet, ?_, h.cleared, hfresh, h.retired⟩
  intro delivery hmem hnamed sink hsink
  refine (h.owed delivery hmem hnamed sink hsink).imp_right (Or.imp_right ?_)
  rintro ⟨next, hin, hholds⟩
  exact ⟨next, hnext next hin, hholds⟩

section Advance

variable {rule : Rule} {step : TaskStep} {next : Process × Outside}

/-- A step of a loop of the live generation. -/
theorem advance (h : d.Kept flags incidents ruleName) (hrule : rule ∈ d.process.catalogue.rules)
    (hstep : Advance d.process d.outside rule step next)
    (hput : ∀ persists, step = .put persists → d.progress.copied = true → rule.name = ruleName →
      (d.process.tasks rule.name).unmade = none)
    (hkeeps : step = .observe → d.progress.copied = true →
      (d.process.tasks rule.name).aborted = false → ¬d.process.LetsGo ruleName rule.name) :
    Daemon.Kept flags incidents ruleName { d with process := next.1, outside := next.2 } := by
  have hsound := h.fits.sound rule hrule
  have hquiet (hcopied : d.progress.copied = true) (hname : ruleName = rule.name) :
      (d.process.tasks ruleName).untold = none ∧
        ∀ persists, step = .put persists → (d.process.tasks ruleName).unmade = none := by
    refine ⟨h.quiet hcopied, fun persists hstep => ?_⟩
    rw [hname]
    exact hput persists hstep hcopied hname.symm
  refine ⟨h.fits.advance hrule hstep, ?_, fun hcopied => ?_, ?_, ?_, h.fresh, h.retired⟩
  · have hlive := h.live
    cases hcopied : d.progress.copied with
    | false =>
      simp only [Progress.successor_of_not_copied flags incidents hcopied, Option.getD_none]
        at hlive ⊢
      exact hlive.advance hrule hstep
    | true =>
      obtain ⟨successor, hsuccessor⟩ := Progress.successor_of_copied flags incidents hcopied
      simp only [hsuccessor, Option.getD_some] at hlive ⊢
      exact hlive.same (hstep.same h.fits hrule (hquiet hcopied) fun hobserve =>
        hkeeps hobserve hcopied)
  · exact (hstep.silent hsound (hquiet hcopied)).2.2 (h.quiet hcopied)
  · exact hstep.owed h.fits hrule
      (fun handover => ∃ next ∈ d.progress.next?, next.Holds ruleName handover) h.owed
  · intro other hother haborted handover hmem
    rw [hstep.catalogue] at hother
    rw [hstep.aborted] at haborted
    exact h.cleared other hother haborted handover (hstep.todo_of_aborted haborted hmem)

/-- A step of a loop of the new generation. -/
theorem advanceNext (h : d.Kept flags incidents ruleName) {p : Process} {swapped : Bool}
    (hprogress : d.progress = .spawned p swapped) (hrule : rule ∈ p.catalogue.rules)
    (hstep : Advance p d.outside rule step next) :
    Daemon.Kept flags incidents ruleName
      { d with progress := .spawned next.1 swapped, outside := next.2 } := by
  have hlive : p.Live ruleName d.outside := by
    have := h.live
    rwa [hprogress] at this
  refine ⟨h.fits, hlive.advance hrule hstep, fun _ => h.quiet (by rw [hprogress]; rfl), ?_,
    h.cleared, ?_, h.retired⟩
  · intro delivery hmem hnamed sink hsink
    have howed := hstep.owed hlive.fits hrule (d.process.Holds ruleName) ?_ delivery hmem hnamed
      sink hsink
    · refine howed.imp_right (Or.symm ∘ Or.imp_left fun hholds => ⟨_, rfl, hholds⟩)
    · intro delivery hmem hnamed sink hsink
      refine (h.owed delivery hmem hnamed sink hsink).imp_right (Or.symm ∘ Or.imp_right ?_)
      rintro ⟨_, hin, hholds⟩
      rw [hprogress] at hin
      obtain rfl := Option.some.inj hin
      exact hholds
  · rintro after hafter name
    obtain rfl := Option.some.inj hafter
    rw [hstep.aborted]
    exact h.fresh p (by rw [hprogress]; rfl) name

/-- A step of an aborted task: at most it makes its transition and puts a state. -/
theorem advanceRetired (h : d.Kept flags incidents ruleName) {p : Process} {generation : Nat}
    (hretired : d.retired[generation]? = some p) (hrule : rule ∈ p.catalogue.rules)
    (hstep : Advance p d.outside rule step next)
    (hput : ∀ persists, step = .put persists → rule.name = ruleName →
      (p.tasks rule.name).unmade = none) :
    Daemon.Kept flags incidents ruleName
      { d with retired := d.retired.set generation next.1, outside := next.2 } := by
  obtain ⟨hstopped, hfits, huntold⟩ := h.retired p (List.mem_of_getElem? hretired)
  have hsound := hfits.sound rule hrule
  have haborted := hstopped rule hrule
  have hquiet (hname : ruleName = rule.name) : (p.tasks ruleName).untold = none ∧
      ∀ persists, step = .put persists → (p.tasks ruleName).unmade = none := by
    refine ⟨huntold, fun persists hstep => ?_⟩
    rw [hname]
    exact hput persists hstep hname.symm
  have hsame := hstep.same hfits hrule hquiet fun _ hlive => by
    rw [haborted] at hlive
    cases hlive
  have hdelivered : next.2.delivered = d.outside.delivered := by
    rcases hstep.observed hsound with hsilent | ⟨o, htells⟩
    · exact hsilent.delivered
    · rw [htells.live] at haborted
      cases haborted
  refine ⟨h.fits, h.live.same hsame, h.quiet, ?_, h.cleared, h.fresh, ?_⟩
  · intro delivery hmem hnamed sink hsink
    rw [hdelivered] at hmem
    exact (h.owed delivery hmem hnamed sink hsink).imp_left hstep.handed
  · intro other hother
    rcases List.mem_or_eq_of_mem_set hother with hother | rfl
    · exact h.retired other hother
    · refine ⟨fun candidate hcandidate => ?_, hfits.advance hrule hstep,
        (hstep.silent hsound hquiet).2.2 huntold⟩
      rw [hstep.aborted]
      rw [hstep.catalogue] at hcandidate
      exact hstopped candidate hcandidate

end Advance

/-- A task of the old generation is aborted, without an incident of the rule in hand. -/
theorem abort (h : d.Kept flags incidents ruleName) {next : Process} {swapped : Bool}
    (hprogress : d.progress = .spawned next swapped) {name : String}
    (hclear : ∀ handover ∈ (d.process.tasks name).todo, handover.2.incident.name ≠ ruleName) :
    Daemon.Kept flags incidents ruleName { d with process := d.process.abort name } := by
  have hlive := h.live
  have hquiet := h.quiet
  rw [hprogress] at hlive hquiet
  refine ⟨h.fits.abort name, ?_, fun _ => ?_, ?_, ?_, h.fresh, h.retired⟩
  · rw [hprogress]
    exact hlive
  · rw [Process.tasks_abort]
    exact hquiet rfl
  · intro delivery hmem hnamed sink hsink
    refine (h.owed delivery hmem hnamed sink hsink).imp_right (Or.imp_left ?_)
    rintro ⟨other, hother, hserves, hholds⟩
    refine ⟨other, hother, hserves, ?_⟩
    rw [Process.tasks_abort]
    exact hholds
  · intro rule hrule haborted handover hmem
    rw [Process.tasks_abort] at haborted hmem
    rcases Bool.or_eq_true _ _ ▸ haborted with hbefore | hname
    · exact h.cleared rule hrule hbefore handover hmem
    · rw [eq_of_beq hname] at hmem
      exact hclear handover hmem

/-- When every old task is aborted, the new generation goes on alone. -/
theorem finish (h : d.Kept flags incidents ruleName) {next : Process} {swapped : Bool}
    (hprogress : d.progress = .spawned next swapped) (hstopped : d.process.Stopped) :
    Daemon.Kept flags incidents ruleName
      { d with process := next, progress := .idle, retired := d.process :: d.retired } := by
  have hlive := h.live
  have hquiet := h.quiet
  rw [hprogress] at hlive hquiet
  refine ⟨hlive.fits, hlive, nofun, ?_, ?_, nofun, ?_⟩
  · intro delivery hmem hnamed sink hsink
    rcases h.owed delivery hmem hnamed sink hsink with hhanded | hold | ⟨_, hin, hholds⟩
    · exact .inl hhanded
    · -- No old task was aborted with an incident of the rule.
      obtain ⟨other, hother, -, hin⟩ := hold
      exact absurd hnamed (h.cleared other hother (hstopped other hother) _ hin)
    · rw [hprogress] at hin
      obtain rfl := Option.some.inj hin
      exact .inr (.inl hholds)
  · intro rule _ haborted
    rw [h.fresh next (by rw [hprogress]; rfl)] at haborted
    cases haborted
  · intro p hp
    rcases List.mem_cons.mp hp with rfl | hp
    · exact ⟨hstopped, h.fits, hquiet rfl⟩
    · exact h.retired p hp

/-- The copies agree, and the new generation keeps the books from here on. -/
theorem carryover (h : d.Kept flags incidents ruleName) (hclear : d.Clear ruleName .carryover) :
    (d.step flags incidents .carryover).Kept flags incidents ruleName := by
  rw [Daemon.step]
  cases hprogress : d.progress with
  | seeded catalogue seed =>
    have hagrees := hclear (catalogue, seed) (by rw [hprogress]; rfl)
    have hlive := h.live
    rw [hprogress] at hlive
    refine h.progress (hlive.spawn hagrees) (fun _ => hagrees.1) ?_ nofun
    · rw [hprogress]
      exact nofun
  | _ => exact h

/-- A step of a loop of the current generation. -/
theorem stepCurrent (h : d.Kept flags incidents ruleName) {name : String} {step : TaskStep}
    (hclear : d.Clear ruleName (.step name step)) :
    (d.step flags incidents (.step name step)).Kept flags incidents ruleName := by
  rw [Daemon.step]
  rcases stepOf_cases d.process d.outside name step with hnone | ⟨rule, hrule, hstep⟩
  · rw [hnone]
    exact h
  · have hmem := Catalogue.mem_of_rule? hrule
    obtain rfl := Catalogue.name_of_rule? hrule
    refine h.advance hmem hstep ?_ ?_
    · rintro persists rfl
      exact hclear
    · rintro rfl
      exact hclear

/-- A step of a loop of the next generation. -/
theorem stepNext (h : d.Kept flags incidents ruleName) (name : String) (step : TaskStep) :
    (d.step flags incidents (.stepNext name step)).Kept flags incidents ruleName := by
  rw [Daemon.step]
  cases hprogress : d.progress with
  | spawned next swapped =>
    rcases stepOf_cases next d.outside name step with hnone | ⟨rule, hrule, hstep⟩
    · simp only [hnone, ← hprogress]
      exact h
    · exact h.advanceNext hprogress (Catalogue.mem_of_rule? hrule) hstep
  | _ => exact h

/-- A step of a loop of a generation that was replaced. -/
theorem stepRetired (h : d.Kept flags incidents ruleName) {generation : Nat} {name : String}
    {step : TaskStep} (hclear : d.Clear ruleName (.stepRetired generation name step)) :
    (d.step flags incidents (.stepRetired generation name step)).Kept flags incidents
      ruleName := by
  rw [Daemon.step]
  cases hretired : d.retired[generation]? with
  | none => exact h
  | some p =>
    rcases stepOf_cases p d.outside name step with hnone | ⟨rule, hrule, hstep⟩
    · obtain ⟨hlt, rfl⟩ := List.getElem?_eq_some_iff.mp hretired
      simp only [hnone, List.set_getElem_self]
      exact h
    · obtain rfl := Catalogue.name_of_rule? hrule
      refine h.advanceRetired hretired (Catalogue.mem_of_rule? hrule) hstep ?_
      rintro persists rfl
      exact hclear p hretired

/-- A reload begins, or what it would load is refused. -/
theorem loadRules (h : d.Kept flags incidents ruleName) (parsed : Parsed) :
    (d.step flags incidents (.loadRules parsed)).Kept flags incidents ruleName := by
  have hlive := h.live
  rw [Daemon.step]
  cases hprogress : d.progress with
  | idle =>
    cases Beacon.loadRules parsed with
    | error => exact h
    | ok outcome =>
      dsimp only
      split_ifs
      · exact h
      · rw [hprogress] at hlive
        exact h.progress hlive nofun (by rw [hprogress]; exact nofun) nofun
  | _ => exact h

/-- Every step keeps what there is to keep. -/
theorem step (h : d.Kept flags incidents ruleName) {event : DaemonEvent}
    (hclear : d.Clear ruleName event) :
    (d.step flags incidents event).Kept flags incidents ruleName := by
  have hlive := h.live
  have hquiet := h.quiet
  have hfresh := h.fresh
  cases event with
  | step name step => exact h.stepCurrent hclear
  | stepNext name step => exact h.stepNext name step
  | stepRetired generation name step => exact h.stepRetired hclear
  | loadRules parsed => exact h.loadRules parsed
  | loadAll recovers =>
    rw [Daemon.step]
    cases hprogress : d.progress with
    | loaded catalogue =>
      rw [hprogress] at hlive
      cases recovers with
      | false => exact h.progress hlive nofun (by rw [hprogress]; exact nofun) nofun
      | true => exact h.progress hlive nofun (by rw [hprogress]; exact nofun) nofun
    | _ => exact h
  | carryover => exact h.carryover hclear
  | rebuildFrom =>
    rw [Daemon.step]
    cases hprogress : d.progress with
    | carried catalogue seed copy =>
      rw [hprogress] at hlive hquiet
      exact h.progress hlive hquiet (by rw [hprogress]; exact nofun) nofun
    | _ => exact h
  | spawn =>
    rw [Daemon.step]
    cases hprogress : d.progress with
    | rebuilt catalogue seed resolver =>
      rw [hprogress] at hlive hquiet
      refine h.progress hlive hquiet (by rw [hprogress]; exact nofun) fun next hnext name => ?_
      obtain rfl := Option.some.inj hnext
      rfl
    | _ => exact h
  | swap =>
    rw [Daemon.step]
    cases hprogress : d.progress with
    | spawned next swapped =>
      rw [hprogress] at hlive hquiet hfresh
      exact h.progress hlive hquiet (by rw [hprogress]; exact fun _ => id) hfresh
    | _ => exact h
  | abort name =>
    rw [Daemon.step]
    cases hprogress : d.progress with
    | spawned next swapped =>
      cases swapped with
      | false => exact h
      | true =>
        have haborted := h.abort hprogress hclear
        rwa [hprogress] at haborted
    | _ => exact h
  | finish =>
    rw [Daemon.step]
    cases hprogress : d.progress with
    | spawned next swapped =>
      cases swapped with
      | false => exact h
      | true =>
        dsimp only
        split_ifs with hstopped
        · exact h.finish hprogress hstopped
        · exact h
    | _ => exact h

/-- A daemon that is started on what is settled. -/
theorem start {catalogue : Catalogue} {outside : Outside}
    (h : outside.Settled catalogue ruleName) :
    (Daemon.start catalogue outside).Kept flags incidents ruleName := by
  refine ⟨Process.fits_spawn ruleName, ⟨Process.fits_spawn ruleName, ⟨h.alternates, ?_, nofun⟩, ?_⟩,
    nofun, fun delivery hmem hnamed sink hsink => .inl (h.handed delivery hmem hnamed sink hsink),
    nofun, nofun, nofun⟩
  · exact h.lastFires_eq.trans (Bool.and_true _).symm
  · exact h.accounted.trans (List.append_nil _).symm

end Daemon.Kept

/-- As long as no copy is stale and the old generation is done with the rule once the copies are
taken, every change of the rule is handed over once: through every order of the steps of all loops
and of any number of reloads. -/
theorem handedOver_run (flags : IterOrder String Bool) (incidents : IterOrder String Incident)
    (catalogue : Catalogue) (outside : Outside) (ruleName : String)
    (hsettled : outside.Settled catalogue ruleName) (events : List DaemonEvent)
    (hclear : Run.AllSteps (Daemon.step flags incidents) (fun d => d.Clear ruleName)
      (.start catalogue outside) events) :
    (Run.run (Daemon.step flags incidents) (.start catalogue outside) events).HandedOver
      ruleName :=
  Daemon.Kept.handedOver (hclear.invariant (fun _ _ h hclear => h.step hclear)
    (Daemon.Kept.start hsettled))

end Run

/-- A turn of a loop whose query is active, up to what it has to hand over. -/
def activeSteps (step : TaskStep → DaemonEvent) (now : Int) : List DaemonEvent :=
  [step (.answer .active now), step .transition, step (.put true), step .observe]

/-- A reload of a catalogue, up to the swap. -/
def reloadSteps (catalogue : Catalogue) : List DaemonEvent :=
  [.loadRules (.ok [("rules.toml", .ok catalogue.rules)]), .loadAll true, .carryover, .rebuildFrom,
    .spawn, .swap]

/-- The disk alert is handed over, and then the catalogue is reloaded. -/
theorem handedOver_run_disk :
    let sink : SinkConfig := ⟨"webhook", some "https://ops.acme/alerts", none, none, none⟩
    let catalogue : Catalogue := ⟨[.bare "disk" [sink] []], by decide⟩
    (Run.run (Daemon.step (.ascending _ _) (.ascending _ _)) (.start catalogue .empty)
      (activeSteps (.step "disk") 0 ++ activeSteps (.step "disk") 1 ++ [.step "disk" .emit] ++
        reloadSteps catalogue ++ [.abort "disk", .finish] ++
        activeSteps (.step "disk") 2)).HandedOver "disk" :=
  handedOver_run (.ascending _ _) (.ascending _ _) _ .empty "disk" (settled_empty _ _) _
    (by decide +kernel)

/-- Both generations take the disk alert from pending to firing, and both hand it over. -/
theorem disk_handed_over_twice :
    ¬∀ (flags : IterOrder String Bool) (incidents : IterOrder String Incident)
        (catalogue : Catalogue) (outside : Outside), ∀ ruleName ∈ catalogue.names,
      outside.Settled catalogue ruleName → ∀ events : List DaemonEvent,
        Run.AllSteps (Daemon.step flags incidents) (fun d => d.Survives ruleName)
          (.start catalogue outside) events →
        (Run.run (Daemon.step flags incidents) (.start catalogue outside) events).HandedOver
          ruleName := by
  intro h
  let sink : SinkConfig := ⟨"webhook", some "https://ops.acme/alerts", none, none, none⟩
  let catalogue : Catalogue := ⟨[.bare "disk" [sink] []], by decide⟩
  have hhanded := h (.ascending _ _) (.ascending _ _) catalogue .empty "disk" (by decide)
    (settled_empty _ _)
    (activeSteps (.step "disk") 0 ++ reloadSteps catalogue ++ activeSteps (.step "disk") 1 ++
      activeSteps (.stepNext "disk") 1)
    (by decide +kernel)
  exact absurd hhanded.alternates (by decide +kernel)

end Kaleidoscope.Beacon
