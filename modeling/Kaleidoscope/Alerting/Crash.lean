import Kaleidoscope.Alerting.Reload
import Kaleidoscope.Beacon.Task

/-!
# Crashes within a turn

A state is put before its incident is handed over, and what the resolver holds is not put at all.
A rule that recovers as firing is announced if nothing of its incident was outstanding when the
process ended.
-/

namespace Kaleidoscope.Beacon

open HashMap InhibitionResolver

/-- A server, and what outlasts its process. -/
structure Machine where
  process : Process
  outside : Outside

/-- What may happen: a loop takes a step, or the process ends, at any point, and another one
recovers. -/
inductive MachineEvent where
  | step (ruleName : String) (step : TaskStep)
  | restart

/-- `load_all` and `spawn_generation`. -/
def Process.recover (catalogue : Catalogue) (outside : Outside) : Process :=
  .spawn catalogue outside.stored (new catalogue.rules)

/-- A server whose store is empty. -/
def Machine.initial (catalogue : Catalogue) : Machine :=
  ⟨.recover catalogue .empty, .empty⟩

/-- A step of the server. -/
def Machine.step (m : Machine) : MachineEvent → Machine
  | .step ruleName step =>
    match m.process.catalogue.rule? ruleName with
    | none => m
    | some rule =>
      let next := m.process.advance m.outside rule step
      ⟨next.1, next.2⟩
  | .restart => ⟨.recover m.process.catalogue m.outside, m.outside⟩

/-- Every put is durable. -/
def Durable (_ : Machine) : MachineEvent → Prop
  | .step _ (.put persists) => persists = true
  | _ => True

instance (m : Machine) : (event : MachineEvent) → Decidable (Durable m event)
  | .step _ (.put persists) => inferInstanceAs (Decidable (persists = true))
  | .step _ (.answer ..) => isTrue trivial
  | .step _ .transition => isTrue trivial
  | .step _ .observe => isTrue trivial
  | .step _ .emit => isTrue trivial
  | .restart => isTrue trivial

/-- Since when a rule is firing. -/
def RuleState.firingSince : RuleState → Option Int
  | .firing since => some since
  | _ => none

namespace Machine

variable (rule : Rule) (m : Machine)

/-- Whenever the rule and those that inhibit it are between two turns, none of those fires and the
rule is firing, its incident has been handed to all of its sinks. -/
def Announced : Prop :=
  ∀ since ∈ (m.process.tasks rule.name).state.firingSince, m.process.AtRest rule.name →
    (∀ candidate, m.process.catalogue.Inhibits candidate rule.name →
      (m.process.tasks candidate).state.isFiring = false) →
    ∀ sink ∈ rule.sinks, (sink, .firing (.firing rule since)) ∈ m.outside.handed

/-- The incident of a rule is on its way: the resolver holds it, or is to be told, or some task
has still to hand it over. -/
def Outstanding (since : Int) : Prop :=
  m.process.resolver.pending.lookup rule.name = some (.firing rule since) ∨
    (m.process.tasks rule.name).untold = some (.firing (.firing rule since)) ∨
    ∃ other ∈ m.process.catalogue.rules, ∃ sink ∈ rule.sinks,
      (sink, .firing (.firing rule since)) ∈ (m.process.tasks other.name).todo

instance (since : Int) : Decidable (m.Outstanding rule since) :=
  inferInstanceAs (Decidable (_ ∨ _ ∨ _))

/-- Nothing of the incident of a firing rule is outstanding when the process ends, and a task that
lets it go has all the sinks of the rule. -/
def Spared : MachineEvent → Prop
  | .step ruleName .observe => ∀ other ∈ m.process.catalogue.rule? ruleName,
      m.process.LetsGo rule.name other.name → ∀ sink ∈ rule.sinks, sink ∈ other.sinks
  | .step .. => True
  | .restart => ∀ since ∈ (m.process.tasks rule.name).state.firingSince, ¬m.Outstanding rule since

instance : (event : MachineEvent) → Decidable (m.Spared rule event)
  | .step ruleName .observe => inferInstanceAs (Decidable
      (∀ other ∈ m.process.catalogue.rule? ruleName,
        m.process.LetsGo rule.name other.name → ∀ sink ∈ rule.sinks, sink ∈ other.sinks))
  | .step _ (.answer ..) => isTrue trivial
  | .step _ .transition => isTrue trivial
  | .step _ (.put _) => isTrue trivial
  | .step _ .emit => isTrue trivial
  | .restart => inferInstanceAs (Decidable
      (∀ since ∈ (m.process.tasks rule.name).state.firingSince, ¬m.Outstanding rule since))

end Machine

/-- A rule comes to fire by a transition that says so. -/
theorem emission_of_firing {rule : Rule} {before : RuleState} {outcome : QueryOutcome} {now : Int}
    {since : Int} {emission : Option Emission}
    (h : evaluateOnce rule before outcome now = (.firing since, emission)) :
    (before = .firing since ∧ emission = none) ∨
      emission = some (.firing (.firing rule since)) := by
  cases before <;> cases outcome <;> simp only [evaluateOnce, transition] at h
  case pending.active =>
    split_ifs at h <;> cases h
    exact .inr rfl
  case firing.active =>
    cases h
    exact .inl ⟨rfl, rfl⟩
  all_goals cases h

/-- A `Firing` is held by the resolver or let through. -/
theorem InhibitionResolver.held_or_through (resolver : InhibitionResolver) (ruleName : String)
    (incident : Incident) (hname : incident.name = ruleName) :
    (resolver.observe ruleName (some (.firing incident))).2.pending.lookup ruleName =
        some incident ∨
      .firing incident ∈ (resolver.observe ruleName (some (.firing incident))).1 := by
  have hpending := resolver.lookup_pending_observe_firing ruleName incident ruleName
  have hout := resolver.emissionsOf_observe_firing ruleName hname ruleName
  simp only at hpending hout
  cases hactive : (resolver.observe ruleName
      (some (.firing incident))).2.hasActiveInhibitorOf ruleName with
  | true => exact .inl (hpending.trans (if_pos ⟨trivial, hactive⟩))
  | false =>
    rw [if_pos ⟨trivial, hactive⟩] at hout
    have hmem : Emission.firing incident ∈ emissionsOf ruleName
        (resolver.observe ruleName (some (.firing incident))).1 :=
      hout ▸ List.mem_singleton_self _
    exact .inr (List.mem_filter.mp hmem).1

/-- The task whose observation frees an incident is one that lets it go. -/
theorem Tells.letsGo {p : Process} {ruleName : String} {outside : Outside} {rule : Rule}
    {step : TaskStep} {next : Process × Outside} {o : Observation}
    (h : Tells p outside rule step next o) (hfits : p.Fits ruleName)
    (hpending : (p.resolver.pending.lookup ruleName).isSome)
    (hfrees : Frees p.resolver o ruleName) : p.LetsGo ruleName rule.name := by
  obtain ⟨⟨resolved, hresolved⟩, hin, hidle⟩ := hfrees
  rw [h.name] at hin
  refine ⟨⟨.resolved resolved, ?_, rfl⟩, hpending, (hfits.inhibits_iff _ _).mp hin, ?_⟩
  · rw [Task.untold, h.phase, hresolved]
    rfl
  · intro candidate _ hinhibits hne hfires
    refine hidle ⟨candidate.name, (hfits.inhibits_iff _ _).mpr hinhibits, ?_⟩
    rwa [observation, hresolved, fires_observe, h.name, if_neg hne]

section Owed

variable (rule : Rule) (p : Process) (outside : Outside)

/-- Each sink of a rule has been handed its incident, or some task that may hold it still has to. -/
def Covered (since : Int) : Prop :=
  ∀ sink ∈ rule.sinks, (sink, .firing (.firing rule since)) ∈ outside.handed ∨
    p.Holds rule.name (sink, .firing (.firing rule since))

/-- The incident of a firing rule is with the resolver, or on its way to it, or beyond it. -/
def Owed : Prop :=
  ∀ since ∈ (p.tasks rule.name).state.firingSince,
    p.resolver.pending.lookup rule.name = some (.firing rule since) ∨
      (p.tasks rule.name).untold = some (.firing (.firing rule since)) ∨
      Covered rule p outside since

variable {rule p outside} {actor : Rule} {step : TaskStep} {next : Process × Outside}

theorem Covered.advance {since : Int} (h : Covered rule p outside since)
    (hstep : Advance p outside actor step next) : Covered rule next.1 next.2 since := by
  intro sink hsink
  rcases h sink hsink with hhanded | hholds
  · exact .inl (hstep.handed hhanded)
  · exact hstep.holds hholds

/-- What the rule's own steps do to its incident. -/
theorem Owed.advance_own (h : Owed rule p outside) (hmem : rule ∈ p.catalogue.rules)
    (hsound : (p.tasks rule.name).Sound rule) (hstep : Advance p outside rule step next) :
    Owed rule next.1 next.2 := by
  intro since hsince
  have hcovered {since : Int} (hc : Covered rule p outside since) := hc.advance hstep
  -- Unless the task has something to tell, its incident is pending or covered.
  have hold (hstate : since ∈ (p.tasks rule.name).state.firingSince)
      (huntold : (p.tasks rule.name).untold = none) :
      p.resolver.pending.lookup rule.name = some (.firing rule since) ∨
        Covered rule p outside since := by
    refine (h since hstate).imp_right fun hrest => hrest.resolve_left fun hsome => ?_
    rw [huntold] at hsome
    cases hsome
  cases hstep with
  | stay => exact h since hsince
  | answer hidle =>
    simp only [Process.tasks_setTask_self] at hsince
    exact (hold hsince (by rw [Task.untold, hidle])).imp_right fun hc => .inr (hcovered hc)
  | transition hphase =>
    simp only [Process.tasks_setTask_self] at hsince
    exact (hold hsince (by rw [Task.untold, hphase])).imp_right fun hc => .inr (hcovered hc)
  | emit hphase =>
    simp only [Process.tasks_setTask_self] at hsince
    exact (hold hsince (by rw [Task.untold, hphase])).imp_right fun hc => .inr (hcovered hc)
  | @put persists state emission hphase =>
    simp only [Process.tasks_setTask_self] at hsince
    obtain rfl : state = .firing since := by
      cases state <;> simp_all [RuleState.firingSince]
    rw [Task.Sound, hphase] at hsound
    obtain ⟨outcome, now, heval⟩ := hsound
    rcases emission_of_firing heval with ⟨hbefore, -⟩ | rfl
    · have hstate : since ∈ (p.tasks rule.name).state.firingSince := by rw [hbefore]; rfl
      exact (hold hstate (by rw [Task.untold, hphase])).imp_right fun hc => .inr (hcovered hc)
    · exact .inr (.inl (by simp only [Process.tasks_setTask_self, Task.untold]))
  | @observe emission hphase =>
    simp only [Process.tasks_setTask_self] at hsince
    have hstate : (p.tasks rule.name).state = .firing since := by
      cases hs : (p.tasks rule.name).state <;> simp_all [RuleState.firingSince]
    rw [Task.Sound, hphase] at hsound
    obtain ⟨before, outcome, now, heval⟩ := hsound
    rw [hstate] at heval
    rcases emission_of_firing heval with ⟨-, rfl⟩ | rfl
    · exact (hold (by rw [hstate]; rfl) (by rw [Task.untold, hphase])).imp_right
        fun hc => .inr (hcovered hc)
    · rcases p.resolver.held_or_through rule.name (.firing rule since) rfl with hheld | hthrough
      · exact .inl hheld
      · refine .inr (.inr fun sink hsink => .inr ⟨rule, hmem, .inl rfl, ?_⟩)
        simp only [Process.tasks_setTask_self, Task.todo, mem_handovers]
        exact ⟨hsink, hthrough⟩

/-- What the steps of another rule do to the incident: a task that lets it go has the sinks. -/
theorem Owed.advance_other (h : Owed rule p outside) (hfits : p.Fits rule.name)
    (hactor : actor ∈ p.catalogue.rules) (hother : actor.name ≠ rule.name)
    (hstep : Advance p outside actor step next)
    (hgo : p.LetsGo rule.name actor.name → step = .observe →
      ∀ sink ∈ rule.sinks, sink ∈ actor.sinks) :
    Owed rule next.1 next.2 := by
  have htask := hstep.tasks_of_ne hother.symm
  intro since hsince
  rw [htask] at hsince
  rw [htask]
  rcases h since hsince with hpending | huntold | hcovered
  · rcases hstep.observed (hfits.sound actor hactor) with hquiet | ⟨o, htells⟩
    · exact .inl (hquiet.resolver ▸ hpending)
    · by_cases hfrees : Frees p.resolver o rule.name
      · -- The incident goes to the sinks of the rule whose turn it is.
        have hgoes := htells.letsGo hfits (by rw [hpending]; rfl) hfrees
        have hout := (delivered_of_frees hfits.named hpending hfrees).1
        have hthrough : Emission.firing (.firing rule since) ∈
            emissionsOf rule.name (p.resolver.observation o).1 :=
          hout ▸ List.mem_singleton_self _
        refine .inr (.inr fun sink hsink => .inr ⟨actor, ?_, .inr ?_, ?_⟩)
        · rwa [hstep.catalogue]
        · rw [hstep.catalogue]
          exact hgoes.2.2.1
        · rw [htells.todo, mem_handovers]
          exact ⟨hgo hgoes htells.step_eq sink hsink, (List.mem_filter.mp hthrough).1⟩
      · have hheld := held_of_not_frees hfits.named hpending (htells.name ▸ hother) hfrees
        exact .inl (htells.resolver ▸ hheld.2)
  · exact .inr (.inl huntold)
  · exact .inr (.inr (hcovered.advance hstep))

end Owed

namespace Machine

/-- What every step keeps for a rule. -/
structure Watched (rule : Rule) (m : Machine) : Prop where
  mem : rule ∈ m.process.catalogue.rules
  fits : m.process.Fits rule.name
  stored : m.outside.storedState rule.name = (m.process.tasks rule.name).state
  owed : Owed rule m.process m.outside

variable {rule : Rule} {m : Machine}

/-- At rest, without a firing inhibitor, nothing of the incident is outstanding. -/
theorem Watched.announced (h : m.Watched rule) : m.Announced rule := by
  intro since hsince hrest hsilent sink hsink
  rcases h.owed since hsince with hpending | huntold | hcovered
  · obtain ⟨candidate, hin, hfires⟩ := h.fits.inhibited (by rw [hpending]; rfl)
    have hin := (h.fits.inhibits_iff _ _).mp hin
    have htold := h.fits.told_of_fires candidate hin hfires
    rw [Task.told_of_idle (hrest.inhibitors candidate hin), hsilent candidate hin] at htold
    cases htold
  · rw [Task.untold, hrest.own] at huntold
    cases huntold
  · exact (hcovered sink hsink).resolve_right (hrest.not_holds _)

/-- Durable puts keep the store with the states of the loops. -/
theorem stored_advance {p : Process} {outside : Outside} {actor : Rule} {step : TaskStep}
    {next : Process × Outside} (hstep : Advance p outside actor step next)
    (hdurable : ∀ persists, step = .put persists → persists = true) {ruleName : String}
    (h : outside.storedState ruleName = (p.tasks ruleName).state) :
    next.2.storedState ruleName = (next.1.tasks ruleName).state := by
  by_cases hname : ruleName = actor.name
  · subst hname
    cases hstep with
    | stay => exact h
    | @put persists state =>
      obtain rfl := hdurable persists rfl
      simp only [Process.tasks_setTask_self, Outside.storedState, applyRecord]
      by_cases hsame : (p.tasks actor.name).state = state
      · rw [if_neg fun hc => hc.1 hsame, ← Outside.storedState, h, hsame]
      · rw [if_pos ⟨hsame, trivial⟩, lookup_insert_ite, if_pos rfl, Option.getD_some]
    | _ => simpa [Outside.storedState] using h
  · rw [hstep.tasks_of_ne hname, ← h]
    cases hstep with
    | put =>
      simp only [Outside.storedState]
      split_ifs
      · rw [applyRecord, lookup_insert_ite, if_neg hname]
      · rfl
    | _ => rfl

/-- A step of a loop keeps a rule watched. -/
theorem Watched.advance (h : m.Watched rule) {actor : Rule}
    (hactor : actor ∈ m.process.catalogue.rules) {step : TaskStep} {next : Process × Outside}
    (hstep : Advance m.process m.outside actor step next)
    (hdurable : ∀ persists, step = .put persists → persists = true)
    (hgo : m.process.LetsGo rule.name actor.name → step = .observe →
      ∀ sink ∈ rule.sinks, sink ∈ actor.sinks) :
    Watched rule ⟨next.1, next.2⟩ where
  mem := by
    rw [hstep.catalogue]
    exact h.mem
  fits := h.fits.advance hactor hstep
  stored := stored_advance hstep hdurable h.stored
  owed := by
    by_cases hname : actor.name = rule.name
    · obtain rfl := List.inj_on_of_nodup_map m.process.catalogue.nodup hactor h.mem hname
      exact h.owed.advance_own h.mem (h.fits.sound actor h.mem) hstep
    · exact h.owed.advance_other h.fits hactor hname hstep hgo

/-- A restart keeps a rule watched when nothing of its incident is outstanding. -/
theorem Watched.restart (h : m.Watched rule) (hspared : m.Spared rule .restart) :
    Watched rule ⟨.recover m.process.catalogue m.outside, m.outside⟩ := by
  have hstate : ((Process.recover m.process.catalogue m.outside).tasks rule.name).state =
      (m.process.tasks rule.name).state := by
    rw [Process.recover, Process.state_spawn (List.mem_map_of_mem h.mem), ← h.stored]
    rfl
  refine ⟨h.mem, Process.fits_spawn rule.name, by rw [hstate]; exact h.stored, ?_⟩
  intro since hsince
  rw [hstate] at hsince
  have hnone := hspared since hsince
  rcases h.owed since hsince with hpending | huntold | hcovered
  · exact absurd (.inl hpending) hnone
  · exact absurd (.inr (.inl huntold)) hnone
  · refine .inr (.inr fun sink hsink => .inl ?_)
    refine (hcovered sink hsink).resolve_right ?_
    rintro ⟨other, hother, -, htodo⟩
    exact hnone (.inr (.inr ⟨other, hother, sink, hsink, htodo⟩))

theorem Watched.step (h : m.Watched rule) {event : MachineEvent} (hdurable : Durable m event)
    (hspared : m.Spared rule event) : (m.step event).Watched rule := by
  cases event with
  | restart => exact h.restart hspared
  | step ruleName step =>
    rw [Machine.step]
    cases hactor : m.process.catalogue.rule? ruleName with
    | none => exact h
    | some actor =>
      refine h.advance (Catalogue.mem_of_rule? hactor) (advance_cases ..) ?_ ?_
      · rintro persists rfl
        exact hdurable
      · rintro hgoes rfl
        exact hspared actor hactor hgoes

theorem watched_initial {catalogue : Catalogue} (hrule : rule ∈ catalogue.rules) :
    (initial catalogue).Watched rule := by
  have hstate : ((initial catalogue).process.tasks rule.name).state = .inactive := by
    rw [initial, Process.recover, Process.state_spawn (List.mem_map_of_mem hrule)]
    rfl
  refine ⟨hrule, Process.fits_spawn rule.name, by rw [hstate]; rfl, ?_⟩
  intro since hsince
  rw [hstate] at hsince
  cases hsince

end Machine

/-- While nothing of the incident of a rule is outstanding whenever the process ends, and the tasks
that let its incident go have its sinks, the rule is announced: through every order of the steps
of all loops, with restarts at any point. -/
theorem announced_run (catalogue : Catalogue) {rule : Rule} (hrule : rule ∈ catalogue.rules)
    (events : List MachineEvent)
    (hdurable : Run.AllSteps Machine.step Durable (.initial catalogue) events)
    (hspared : Run.AllSteps Machine.step (Machine.Spared rule) (.initial catalogue) events) :
    (Run.run Machine.step (.initial catalogue) events).Announced rule :=
  Machine.Watched.announced ((hdurable.and hspared).invariant
    (fun _ _ h hboth => h.step hboth.1 hboth.2) (Machine.watched_initial hrule))

/-- A turn of a loop whose query is active, up to what it has to hand over. -/
def activeTurn (ruleName : String) (now : Int) : List MachineEvent :=
  [.step ruleName (.answer .active now), .step ruleName .transition,
    .step ruleName (.put true), .step ruleName .observe]

/-- The disk alert is handed over, and then the process ends. -/
theorem announced_run_handed :
    let sink : SinkConfig := ⟨"webhook", some "https://ops.acme/alerts", none, none, none⟩
    let disk : Rule := .bare "disk" [sink] []
    (Run.run Machine.step (.initial ⟨[disk], by decide⟩)
      (activeTurn "disk" 0 ++ activeTurn "disk" 1 ++ [.step "disk" .emit, .restart])).Announced
        disk :=
  announced_run ⟨[_], by decide⟩ List.mem_cons_self _ (by decide +kernel) (by decide +kernel)

/-- The process ends after the put of the firing state: the disk alert is never announced. -/
theorem unannounced_disk :
    ¬∀ (catalogue : Catalogue), ∀ rule ∈ catalogue.rules, ∀ events : List MachineEvent,
      Run.AllSteps Machine.step Durable (.initial catalogue) events →
        (Run.run Machine.step (.initial catalogue) events).Announced rule := by
  intro h
  let sink : SinkConfig := ⟨"webhook", some "https://ops.acme/alerts", none, none, none⟩
  let disk : Rule := .bare "disk" [sink] []
  let catalogue : Catalogue := ⟨[disk], by decide⟩
  let events : List MachineEvent :=
    activeTurn "disk" 0 ++ (activeTurn "disk" 1).take 3 ++ [.restart]
  have hannounced := h catalogue disk List.mem_cons_self events (by decide +kernel)
  have hfires : 1 ∈ ((Run.run Machine.step (.initial catalogue) events).process.tasks
      "disk").state.firingSince := by decide +kernel
  have hlost : (Run.run Machine.step (.initial catalogue) events).outside.handed = [] := by
    decide +kernel
  have halone (candidate : String) : ¬(Run.run Machine.step (.initial catalogue)
      events).process.catalogue.Inhibits candidate "disk" := by
    rintro ⟨-, rule, hrule, -, hinhibits⟩
    have hrules : (Run.run Machine.step (.initial catalogue) events).process.catalogue.rules =
        [disk] := by decide +kernel
    rw [hrules] at hrule
    obtain rfl := List.mem_singleton.mp hrule
    exact absurd hinhibits List.not_mem_nil
  have hhanded := hannounced 1 hfires
    ⟨by decide +kernel, fun candidate hin => absurd hin (halone candidate)⟩
    (fun candidate hin => absurd hin (halone candidate)) sink List.mem_cons_self
  rw [hlost] at hhanded
  exact List.not_mem_nil hhanded

end Kaleidoscope.Beacon
