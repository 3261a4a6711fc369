import Kaleidoscope.Beacon.Task

/-!
# A reload, step by step

While a reload takes its steps the loops of the old generation take theirs, and from the spawn on
so do those of the new one, each with the resolver of its generation. Only the store and the sinks
are shared.
-/

namespace Kaleidoscope.Beacon

open HashMap InhibitionResolver

/-- How far a reload is. -/
inductive Progress where
  | idle
  /-- `load_rules` gave a catalogue that is not refused. -/
  | loaded (catalogue : Catalogue)
  /-- `load_all` gave the states to seed with. -/
  | seeded (catalogue : Catalogue) (seed : Rules)
  /-- `carryover` gave the flags and the pending incidents of the old resolver. -/
  | carried (catalogue : Catalogue) (seed : Rules) (carried : Carryover)
  /-- `rebuild_from` gave the new resolver. -/
  | rebuilt (catalogue : Catalogue) (seed : Rules) (resolver : InhibitionResolver)
  /-- `spawn_generation` was called; afterwards the handles are swapped. -/
  | spawned (next : Process) (swapped : Bool)

/-- The daemon: the generation that is live, and the one that a reload puts in its place. -/
structure Daemon where
  process : Process
  progress : Progress
  /-- Generations whose tasks were aborted. -/
  retired : List Process
  outside : Outside

/-- What may happen, in any order. -/
inductive DaemonEvent where
  /-- A loop of the live generation, the old one while a reload goes on, takes a step. -/
  | step (ruleName : String) (step : TaskStep)
  /-- A loop of the new generation takes a step. -/
  | stepNext (ruleName : String) (step : TaskStep)
  /-- An aborted task, that did not come to an await yet, takes a step. -/
  | stepRetired (generation : Nat) (ruleName : String) (step : TaskStep)
  | loadRules (parsed : Parsed)
  | loadAll (recovers : Bool)
  | carryover
  | rebuildFrom
  | spawn
  | swap
  | abort (ruleName : String)
  /-- All old handles are aborted. -/
  | finish

/-- A step of the loop of a rule, where the process has the rule. -/
def Process.stepOf (p : Process) (outside : Outside) (ruleName : String) (step : TaskStep) :
    Process × Outside :=
  match p.catalogue.rule? ruleName with
  | none => (p, outside)
  | some rule => p.advance outside rule step

/-- The task of a rule is aborted. -/
def Process.abort (p : Process) (ruleName : String) : Process :=
  p.setTask ruleName { p.tasks ruleName with aborted := true }

/-- Every task is aborted. -/
def Process.Stopped (p : Process) : Prop :=
  ∀ rule ∈ p.catalogue.rules, (p.tasks rule.name).aborted = true

instance (p : Process) : Decidable p.Stopped :=
  inferInstanceAs (Decidable (∀ rule ∈ p.catalogue.rules, _))

section Step

variable (flags : IterOrder String Bool) (incidents : IterOrder String Incident)

/-- A step of the daemon. -/
def Daemon.step (d : Daemon) : DaemonEvent → Daemon
  | .step ruleName step =>
    let next := d.process.stepOf d.outside ruleName step
    { d with process := next.1, outside := next.2 }
  | .stepNext ruleName step =>
    match d.progress with
    | .spawned next swapped =>
      let after := next.stepOf d.outside ruleName step
      { d with progress := .spawned after.1 swapped, outside := after.2 }
    | _ => d
  | .stepRetired generation ruleName step =>
    match d.retired[generation]? with
    | some p =>
      let after := p.stepOf d.outside ruleName step
      { d with retired := d.retired.set generation after.1, outside := after.2 }
    | none => d
  | .loadRules parsed =>
    match d.progress, loadRules parsed with
    | .idle, .ok outcome =>
      if refuses d.process.catalogue outcome then d
      else { d with progress := .loaded outcome.toCatalogue }
    | _, _ => d
  | .loadAll recovers =>
    match d.progress with
    | .loaded catalogue =>
      { d with progress := if recovers then .seeded catalogue d.outside.stored else .idle }
    | _ => d
  | .carryover =>
    match d.progress with
    | .seeded catalogue seed =>
      { d with progress := .carried catalogue seed d.process.resolver.carryover }
    | _ => d
  | .rebuildFrom =>
    match d.progress with
    | .carried catalogue seed carried =>
      { d with progress :=
          .rebuilt catalogue seed (rebuildFrom flags incidents catalogue.rules carried) }
    | _ => d
  | .spawn =>
    match d.progress with
    | .rebuilt catalogue seed resolver =>
      { d with progress := .spawned (.spawn catalogue seed resolver) false }
    | _ => d
  | .swap =>
    match d.progress with
    | .spawned next _ => { d with progress := .spawned next true }
    | _ => d
  | .abort ruleName =>
    match d.progress with
    | .spawned _ true => { d with process := d.process.abort ruleName }
    | _ => d
  | .finish =>
    match d.progress with
    | .spawned next true =>
      if d.process.Stopped then
        { d with process := next, progress := .idle, retired := d.process :: d.retired }
      else d
    | _ => d

end Step

/-- A daemon as it is started, on what is stored. -/
def Daemon.start (catalogue : Catalogue) (outside : Outside) : Daemon where
  process := .spawn catalogue outside.stored (new catalogue.rules)
  progress := .idle
  retired := []
  outside := outside

theorem Process.tasks_abort (p : Process) (ruleName other : String) :
    (p.abort ruleName).tasks other =
      { p.tasks other with aborted := (p.tasks other).aborted || other == ruleName } := by
  by_cases hname : other = ruleName
  · subst hname
    simp [Process.abort]
  · rw [Process.abort, Process.tasks_setTask_of_ne _ _ _ hname, beq_eq_false_iff_ne.mpr hname,
      Bool.or_false]

/-- To abort a task tells the resolver nothing. -/
theorem Process.Fits.abort {p : Process} {ruleName : String} (h : p.Fits ruleName)
    (name : String) : (p.abort name).Fits ruleName := by
  refine ⟨fun rule hrule => ?_, h.named, h.inhibits_iff, fun candidate hin hfires => ?_,
    h.inhibited⟩
  · rw [Process.tasks_abort]
    exact h.sound rule hrule
  · rw [Process.tasks_abort]
    exact h.told_of_fires candidate hin hfires

/-- A step of a loop, or none. -/
theorem stepOf_cases (p : Process) (outside : Outside) (ruleName : String) (step : TaskStep) :
    p.stepOf outside ruleName step = (p, outside) ∨
      ∃ rule, p.catalogue.rule? ruleName = some rule ∧
        Advance p outside rule step (p.stepOf outside ruleName step) := by
  rw [Process.stepOf]
  cases hrule : p.catalogue.rule? ruleName with
  | none => exact .inl rfl
  | some rule => exact .inr ⟨rule, rfl, advance_cases ..⟩

end Kaleidoscope.Beacon
