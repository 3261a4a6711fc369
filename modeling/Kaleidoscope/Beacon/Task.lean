import Kaleidoscope.Beacon.Server

/-!
# The loop of a rule, step by step

A turn of a loop is not one step: the query is answered, the transition made, the state put, the
resolver told, and the incidents are handed to the sinks one by one. Between any two of these
another loop may take a step, or the process may end.
-/

namespace Kaleidoscope.Beacon

open HashMap InhibitionResolver

/-- An incident for a sink. -/
abbrev Handover := SinkConfig × Emission

/-- The order in which a loop hands its incidents to its sinks. -/
def handovers (sinks : List SinkConfig) (toEmit : List Emission) : List Handover :=
  toEmit.flatMap fun ev => sinks.map fun sink => (sink, ev)

@[simp] theorem mem_handovers {sinks : List SinkConfig} {toEmit : List Emission}
    {handover : Handover} :
    handover ∈ handovers sinks toEmit ↔ handover.1 ∈ sinks ∧ handover.2 ∈ toEmit := by
  obtain ⟨sink, ev⟩ := handover
  simp only [handovers, List.mem_flatMap, List.mem_map, Prod.mk.injEq]
  constructor
  · rintro ⟨_, hev, _, hsink, rfl, rfl⟩
    exact ⟨hsink, hev⟩
  · exact fun h => ⟨ev, h.2, sink, h.1, rfl, rfl⟩

/-- How far a loop is in its turn. -/
inductive Phase where
  /-- The query is answered. -/
  | answered (outcome : QueryOutcome) (now : Int)
  /-- The transition is made, the state not yet put. -/
  | decided (next : RuleState) (emission : Option Emission)
  /-- The state is put and taken over, the resolver not yet told. -/
  | persisted (emission : Option Emission)
  /-- The incidents that are still to be handed over; without any, the loop waits for its tick. -/
  | emitting (todo : List Handover)
  deriving DecidableEq

/-- The task that runs the loop of a rule. -/
structure Task where
  state : RuleState
  phase : Phase
  /-- An aborted task ends at its next await: it neither begins a turn nor takes the lock of the
  resolver nor calls a sink. -/
  aborted : Bool

/-- A task as it is spawned. -/
def Task.seeded (state : RuleState) : Task := ⟨state, .emitting [], false⟩

/-- What a task has still to hand over. -/
def Task.todo (task : Task) : List Handover :=
  match task.phase with
  | .emitting todo => todo
  | _ => []

/-- The change that a task has decided and not made yet. -/
def Task.unmade (task : Task) : Option Emission :=
  match task.phase with
  | .decided _ emission => emission
  | _ => none

/-- The change that a task has made and not told the resolver yet. -/
def Task.untold (task : Task) : Option Emission :=
  match task.phase with
  | .persisted emission => emission
  | _ => none

/-- A task between two turns. -/
def Task.Idle (task : Task) : Prop := task.phase = .emitting []

instance (task : Task) : Decidable task.Idle := inferInstanceAs (Decidable (_ = _))

/-- The tasks of a generation, and the resolver that they share. -/
structure Process where
  catalogue : Catalogue
  tasks : String → Task
  resolver : InhibitionResolver

/-- What outlasts a generation: the store and the sinks, and what has happened so far. -/
structure Outside where
  stored : Rules
  /-- The changes that tasks have made. -/
  changes : List Emission
  /-- Those that they have told their resolver. -/
  told : List Emission
  /-- What the resolvers let through. -/
  delivered : List Delivery
  /-- What the sinks were called with. -/
  handed : List Handover

/-- An empty store, and nothing has happened yet. -/
def Outside.empty : Outside := ⟨∅, [], [], [], []⟩

/-- The state that is persisted for a rule. -/
def Outside.storedState (outside : Outside) (ruleName : String) : RuleState :=
  (outside.stored.lookup ruleName).getD .inactive

/-- What was let through. -/
def Outside.emissions (outside : Outside) : List Emission :=
  outside.delivered.map Delivery.emission

/-- A task in another place. -/
def Process.setTask (p : Process) (ruleName : String) (task : Task) : Process :=
  { p with tasks := Function.update p.tasks ruleName task }

/-- A step of a loop. -/
inductive TaskStep where
  | answer (outcome : QueryOutcome) (now : Int)
  | transition
  | put (persists : Bool)
  | observe
  | emit

/-- A step of `run_rule`, where the task of the rule has come to it. -/
def Process.advance (p : Process) (outside : Outside) (rule : Rule) (step : TaskStep) :
    Process × Outside :=
  let task := p.tasks rule.name
  match step, task.phase with
  | .answer outcome now, .emitting [] =>
    if task.aborted then (p, outside)
    else (p.setTask rule.name { task with phase := .answered outcome now }, outside)
  | .transition, .answered outcome now =>
    let evaluated := evaluateOnce rule task.state outcome now
    (p.setTask rule.name { task with phase := .decided evaluated.1 evaluated.2 }, outside)
  | .put persists, .decided next emission =>
    (p.setTask rule.name { task with state := next, phase := .persisted emission },
      { outside with
        stored :=
          if task.state ≠ next ∧ persists then applyRecord outside.stored (.put rule.name next)
          else outside.stored
        changes := outside.changes ++ emission.toList })
  | .observe, .persisted emission =>
    if task.aborted then (p, outside)
    else
      let toEmit := p.resolver.observe rule.name emission
      ({ p.setTask rule.name
          { task with phase := .emitting (handovers rule.sinks toEmit.1) } with
          resolver := toEmit.2 },
        { outside with
          told := outside.told ++ emission.toList
          delivered := outside.delivered ++ toEmit.1.map (Delivery.mk rule.sinks) })
  | .emit, .emitting (handover :: todo) =>
    if task.aborted then (p, outside)
    else
      (p.setTask rule.name { task with phase := .emitting todo },
        { outside with handed := outside.handed ++ [handover] })
  | _, _ => (p, outside)

/-- `spawn_generation`: tasks with the states that they are seeded with. -/
def Process.spawn (catalogue : Catalogue) (seed : Rules) (resolver : InhibitionResolver) :
    Process where
  catalogue := catalogue
  tasks ruleName :=
    .seeded (((spawnGeneration catalogue.rules seed).lookup ruleName).getD .inactive)
  resolver := resolver

/-- What a step of a loop does. -/
inductive Advance (p : Process) (outside : Outside) (rule : Rule) :
    TaskStep → Process × Outside → Prop
  | stay (step : TaskStep) : Advance p outside rule step (p, outside)
  | answer {outcome : QueryOutcome} {now : Int} (hidle : (p.tasks rule.name).Idle) :
    Advance p outside rule (.answer outcome now)
      (p.setTask rule.name { p.tasks rule.name with phase := .answered outcome now }, outside)
  | transition {outcome : QueryOutcome} {now : Int}
    (hphase : (p.tasks rule.name).phase = .answered outcome now) :
    Advance p outside rule .transition
      (p.setTask rule.name { p.tasks rule.name with
        phase := .decided (evaluateOnce rule (p.tasks rule.name).state outcome now).1
          (evaluateOnce rule (p.tasks rule.name).state outcome now).2 }, outside)
  | put {persists : Bool} {next : RuleState} {emission : Option Emission}
    (hphase : (p.tasks rule.name).phase = .decided next emission) :
    Advance p outside rule (.put persists)
      (p.setTask rule.name { p.tasks rule.name with state := next, phase := .persisted emission },
        { outside with
          stored :=
            if (p.tasks rule.name).state ≠ next ∧ persists then
              applyRecord outside.stored (.put rule.name next)
            else outside.stored
          changes := outside.changes ++ emission.toList })
  | observe {emission : Option Emission}
    (hphase : (p.tasks rule.name).phase = .persisted emission)
    (hlive : (p.tasks rule.name).aborted = false) :
    Advance p outside rule .observe
      ({ p.setTask rule.name { p.tasks rule.name with
          phase := .emitting (handovers rule.sinks (p.resolver.observe rule.name emission).1) } with
          resolver := (p.resolver.observe rule.name emission).2 },
        { outside with
          told := outside.told ++ emission.toList
          delivered := outside.delivered ++
            (p.resolver.observe rule.name emission).1.map (Delivery.mk rule.sinks) })
  | emit {handover : Handover} {todo : List Handover}
    (hphase : (p.tasks rule.name).phase = .emitting (handover :: todo))
    (hlive : (p.tasks rule.name).aborted = false) :
    Advance p outside rule .emit
      (p.setTask rule.name { p.tasks rule.name with phase := .emitting todo },
        { outside with handed := outside.handed ++ [handover] })

theorem advance_cases (p : Process) (outside : Outside) (rule : Rule) (step : TaskStep) :
    Advance p outside rule step (p.advance outside rule step) := by
  unfold Process.advance
  dsimp only
  split
  next outcome now hphase =>
    split
    · exact .stay _
    · exact .answer hphase
  next outcome now hphase => exact .transition hphase
  next persists next emission hphase => exact .put hphase
  next emission hphase =>
    split
    · exact .stay _
    · exact .observe hphase (Bool.eq_false_iff.mpr ‹_›)
  next handover todo hphase =>
    split
    · exact .stay _
    · exact .emit hphase (Bool.eq_false_iff.mpr ‹_›)
  next => exact .stay _

section Task

variable {rule : Rule} {task : Task}

/-- A task in the middle of a turn holds what a transition gave. -/
def Task.Sound (rule : Rule) (task : Task) : Prop :=
  match task.phase with
  | .decided next emission => ∃ outcome now,
      evaluateOnce rule task.state outcome now = (next, emission)
  | .persisted emission => ∃ before outcome now,
      evaluateOnce rule before outcome now = (task.state, emission)
  | _ => True

/-- Whether the resolver was last told that the rule fires. -/
def Task.told (task : Task) : Bool :=
  match task.phase with
  | .persisted (some e) => !e.isFiring
  | _ => task.state.isFiring

theorem Task.todo_eq {todo : List Handover} (h : task.phase = .emitting todo) :
    task.todo = todo := by
  rw [Task.todo, h]

theorem Task.todo_eq_nil (h : ∀ todo, task.phase ≠ .emitting todo) : task.todo = [] := by
  unfold Task.todo
  split
  next todo hphase => exact absurd hphase (h todo)
  next => rfl

theorem Task.told_of_idle (h : task.Idle) : task.told = task.state.isFiring := by
  rw [Task.told, h]

theorem Task.told_of_untold (h : task.untold = none) : task.told = task.state.isFiring := by
  unfold Task.told
  split
  next e hphase =>
    rw [Task.untold, hphase] at h
    cases h
  next => rfl

/-- An emission that the resolver is not told yet is about the rule, and about its state. -/
theorem Task.Sound.emission (h : task.Sound rule) {e : Emission}
    (hphase : task.phase = .persisted (some e)) :
    e.incident.name = rule.name ∧ task.state.isFiring = e.isFiring := by
  rw [Task.Sound, hphase] at h
  obtain ⟨before, outcome, now, heval⟩ := h
  have hemits := transition_emits (congrArg Prod.snd heval)
  rw [evaluateOnce] at heval
  rw [heval] at hemits
  exact ⟨hemits.1, hemits.2.1⟩

/-- A change that a task makes is about its rule. -/
theorem Task.Sound.change (h : task.Sound rule) {next : RuleState} {e : Emission}
    (hphase : task.phase = .decided next (some e)) : e.incident.name = rule.name := by
  rw [Task.Sound, hphase] at h
  obtain ⟨outcome, now, heval⟩ := h
  exact (transition_emits (congrArg Prod.snd heval)).1

/-- Putting a state tells the resolver nothing. -/
theorem Task.Sound.told_put (h : task.Sound rule) {next : RuleState} {emission : Option Emission}
    (hphase : task.phase = .decided next emission) :
    Task.told { task with state := next, phase := .persisted emission } = task.told := by
  have hbefore : task.told = task.state.isFiring := by rw [Task.told, hphase]
  rw [Task.Sound, hphase] at h
  obtain ⟨outcome, now, heval⟩ := h
  rw [evaluateOnce] at heval
  rw [hbefore]
  cases emission with
  | none =>
    have := transition_silent (congrArg Prod.snd heval)
    rwa [heval] at this
  | some e => exact (transition_emits (congrArg Prod.snd heval)).2.2.symm

end Task

section Process

variable (p : Process) (ruleName : String) (task : Task)

@[simp] theorem Process.catalogue_setTask : (p.setTask ruleName task).catalogue = p.catalogue := rfl

@[simp] theorem Process.resolver_setTask : (p.setTask ruleName task).resolver = p.resolver := rfl

@[simp] theorem Process.tasks_setTask_self : (p.setTask ruleName task).tasks ruleName = task :=
  Function.update_self ..

theorem Process.tasks_setTask_of_ne {other : String} (h : other ≠ ruleName) :
    (p.setTask ruleName task).tasks other = p.tasks other :=
  Function.update_of_ne h ..

end Process

/-- A step that the resolver does not notice. -/
structure Unnoticed (p : Process) (outside : Outside) (next : Process × Outside) : Prop where
  resolver : next.1.resolver = p.resolver
  delivered : next.2.delivered = outside.delivered
  told : ∀ name, (next.1.tasks name).told = (p.tasks name).told

/-- A step in which a task tells the resolver what it holds. -/
structure Tells (p : Process) (outside : Outside) (rule : Rule) (step : TaskStep)
    (next : Process × Outside) (o : Observation) : Prop where
  step_eq : step = .observe
  name : o.ruleName = rule.name
  live : (p.tasks rule.name).aborted = false
  phase : (p.tasks rule.name).phase = .persisted o.emission
  resolver : next.1.resolver = (p.resolver.observation o).2
  delivered : next.2.delivered =
    outside.delivered ++ (p.resolver.observation o).1.map (Delivery.mk rule.sinks)
  todo : (next.1.tasks rule.name).todo = handovers rule.sinks (p.resolver.observation o).1
  turns : ∀ name, o.Turns name (p.tasks name).told
  told : ∀ name, (next.1.tasks name).told = o.flag name (p.tasks name).told

namespace Advance

variable {p : Process} {outside : Outside} {rule : Rule} {step : TaskStep}
  {next : Process × Outside}

@[simp] theorem catalogue (h : Advance p outside rule step next) :
    next.1.catalogue = p.catalogue := by
  cases h <;> rfl

/-- A step of a loop changes its own task only. -/
theorem tasks_of_ne (h : Advance p outside rule step next) {name : String}
    (hname : name ≠ rule.name) : next.1.tasks name = p.tasks name := by
  cases h with
  | stay => rfl
  | _ => exact Process.tasks_setTask_of_ne _ _ _ hname

theorem aborted (h : Advance p outside rule step next) (name : String) :
    (next.1.tasks name).aborted = (p.tasks name).aborted := by
  by_cases hname : name = rule.name
  · subst hname
    cases h with
    | stay => rfl
    | _ => simp
  · rw [h.tasks_of_ne hname]

/-- What has been handed over stays so. -/
theorem handed (h : Advance p outside rule step next) {handover : Handover}
    (hmem : handover ∈ outside.handed) : handover ∈ next.2.handed := by
  cases h with
  | emit => exact List.mem_append_left _ hmem
  | _ => exact hmem

/-- What a task has to hand over, it hands over or keeps. -/
theorem todo (h : Advance p outside rule step next) {name : String} {handover : Handover}
    (hmem : handover ∈ (p.tasks name).todo) :
    handover ∈ next.2.handed ∨ handover ∈ (next.1.tasks name).todo := by
  by_cases hname : name = rule.name
  · subst hname
    have hnone {phase : Phase} (hphase : (p.tasks rule.name).phase = phase)
        (hother : ∀ todo, phase ≠ .emitting todo) : False := by
      rw [Task.todo_eq_nil fun todo h => hother todo (hphase.symm.trans h)] at hmem
      exact List.not_mem_nil hmem
    cases h with
    | stay => exact .inr hmem
    | answer hidle =>
      rw [Task.todo_eq hidle] at hmem
      exact absurd hmem List.not_mem_nil
    | transition hphase => exact (hnone hphase nofun).elim
    | put hphase => exact (hnone hphase nofun).elim
    | observe hphase => exact (hnone hphase nofun).elim
    | emit hphase =>
      rw [Task.todo_eq hphase] at hmem
      rcases List.mem_cons.mp hmem with rfl | hmem
      · exact .inl (List.mem_append_right _ (List.mem_singleton_self _))
      · exact .inr (by simpa [Task.todo] using hmem)
  · rw [h.tasks_of_ne hname]
    exact .inr hmem

/-- An aborted task has nothing more to hand over. -/
theorem todo_of_aborted (h : Advance p outside rule step next) {name : String}
    (haborted : (p.tasks name).aborted = true) {handover : Handover}
    (hmem : handover ∈ (next.1.tasks name).todo) : handover ∈ (p.tasks name).todo := by
  by_cases hname : name = rule.name
  · subst hname
    cases h with
    | stay => exact hmem
    | observe _ hlive | emit _ hlive => exact absurd haborted (Bool.eq_false_iff.mp hlive)
    | _ => simp [Task.todo] at hmem
  · rwa [h.tasks_of_ne hname] at hmem

/-- The tasks of a catalogue stay sound. -/
theorem sound (h : Advance p outside rule step next) (hrule : rule ∈ p.catalogue.rules)
    (hsound : ∀ other ∈ p.catalogue.rules, (p.tasks other.name).Sound other) :
    ∀ other ∈ next.1.catalogue.rules, (next.1.tasks other.name).Sound other := by
  intro other hother
  rw [h.catalogue] at hother
  by_cases hname : other.name = rule.name
  · obtain rfl := List.inj_on_of_nodup_map p.catalogue.nodup hother hrule hname
    have hown := hsound other hother
    cases h with
    | stay => exact hown
    | answer => simp [Task.Sound]
    | transition => simp [Task.Sound]
    | put hphase =>
      rw [Task.Sound, hphase] at hown
      obtain ⟨outcome, now, heval⟩ := hown
      simp only [Process.tasks_setTask_self, Task.Sound]
      exact ⟨_, outcome, now, heval⟩
    | observe => simp [Task.Sound]
    | emit => simp [Task.Sound]
  · rw [h.tasks_of_ne hname]
    exact hsound other hother

/-- For the resolver a step is nothing or an observation, which turns the flag of its rule. -/
theorem observed (h : Advance p outside rule step next)
    (hsound : (p.tasks rule.name).Sound rule) :
    Unnoticed p outside next ∨ ∃ o, Tells p outside rule step next o := by
  -- Before and after its turn a task has told the resolver its state.
  have hquiet {task : Task} (htold : (p.tasks rule.name).told = task.told) (name : String) :
      ((p.setTask rule.name task).tasks name).told = (p.tasks name).told := by
    by_cases hname : name = rule.name
    · rw [hname, Process.tasks_setTask_self, htold]
    · rw [Process.tasks_setTask_of_ne _ _ _ hname]
  cases h with
  | stay => exact .inl ⟨rfl, rfl, fun _ => rfl⟩
  | answer hidle => exact .inl ⟨rfl, rfl, hquiet (Task.told_of_idle hidle)⟩
  | transition hphase =>
    exact .inl ⟨rfl, rfl, hquiet (by simp only [Task.told, hphase])⟩
  | put hphase => exact .inl ⟨rfl, rfl, hquiet (hsound.told_put hphase).symm⟩
  | emit hphase => exact .inl ⟨rfl, rfl, hquiet (by simp only [Task.told, hphase])⟩
  | @observe emission hphase hlive =>
    let o : Observation := ⟨rule.name, emission, fun e he =>
      (hsound.emission (hphase.trans (congrArg Phase.persisted he))).1⟩
    refine .inr ⟨o, rfl, rfl, hlive, hphase, rfl, rfl, ?_, ?_, fun name => ?_⟩
    · simp only [Process.tasks_setTask_self]
      rfl
    · rintro name rfl e he
      obtain rfl : emission = some e := he
      simp only [o, Task.told, hphase]
    · rw [Observation.flag]
      by_cases hname : name = rule.name
      · subst hname
        rw [if_pos rfl]
        simp only [Process.tasks_setTask_self, Task.told, hphase, o]
        cases emission with
        | none => rfl
        | some e => exact (hsound.emission hphase).2
      · rw [if_neg hname]
        exact congrArg Task.told (Process.tasks_setTask_of_ne _ _ _ hname)

end Advance

/-- The resolver of a process fits its catalogue and what its tasks have told it. -/
structure Process.Fits (p : Process) (ruleName : String) : Prop where
  sound : ∀ rule ∈ p.catalogue.rules, (p.tasks rule.name).Sound rule
  named : p.resolver.Named
  inhibits_iff : ∀ candidate targetName, p.resolver.Inhibits candidate targetName ↔
    p.catalogue.Inhibits candidate targetName
  told_of_fires : ∀ candidate, p.catalogue.Inhibits candidate ruleName →
    p.resolver.Fires candidate → (p.tasks candidate).told = true
  inhibited : (p.resolver.pending.lookup ruleName).isSome →
    ∃ candidate, p.resolver.Inhibits candidate ruleName ∧ p.resolver.Fires candidate

/-- Every step of a loop keeps the resolver fitting. -/
theorem Process.Fits.advance {p : Process} {ruleName : String} (h : p.Fits ruleName)
    {outside : Outside} {rule : Rule} {step : TaskStep} {next : Process × Outside}
    (hrule : rule ∈ p.catalogue.rules) (hstep : Advance p outside rule step next) :
    next.1.Fits ruleName := by
  have hsound := hstep.sound hrule h.sound
  rcases hstep.observed (h.sound rule hrule) with hquiet | ⟨o, htells⟩
  · refine ⟨hsound, hquiet.resolver ▸ h.named, ?_, ?_, hquiet.resolver ▸ h.inhibited⟩
    · rw [hquiet.resolver, hstep.catalogue]
      exact h.inhibits_iff
    · intro candidate hin hfires
      rw [hquiet.told]
      exact h.told_of_fires candidate (hstep.catalogue ▸ hin) (hquiet.resolver ▸ hfires)
  · refine ⟨hsound, htells.resolver ▸ h.named.observation o, ?_, ?_, ?_⟩
    · intro candidate targetName
      rw [htells.resolver, hstep.catalogue, observation, inhibits_congr (observe_inhibits ..)]
      exact h.inhibits_iff candidate targetName
    · intro candidate hin hfires
      rw [htells.told]
      exact flag_of_fires o (h.told_of_fires candidate (hstep.catalogue ▸ hin))
        (htells.resolver ▸ hfires)
    · rw [htells.resolver]
      exact inhibited_observation o h.inhibited

section Accounts

variable {p : Process} {ruleName : String} {outside : Outside} {rule : Rule} {step : TaskStep}
  {next : Process × Outside}

/-- Every change of a rule has been told the resolver, or its task is about to. -/
def Process.Accounts (p : Process) (ruleName : String) (outside : Outside) : Prop :=
  emissionsOf ruleName outside.changes =
    emissionsOf ruleName outside.told ++ (p.tasks ruleName).untold.toList

theorem emissionsOf_toList {emission : Option Emission} {name : String}
    (hnamed : ∀ e ∈ emission, e.incident.name = name) (ruleName : String) :
    emissionsOf ruleName emission.toList = if ruleName = name then emission.toList else [] :=
  Observation.emissionsOf_emission ⟨name, emission, hnamed⟩ ruleName

/-- What a put makes and an observation tells is about the rule of the task. -/
theorem emissionsOf_put (hsound : (p.tasks rule.name).Sound rule) {state : RuleState}
    {emission : Option Emission} (hphase : (p.tasks rule.name).phase = .decided state emission)
    (name : String) :
    emissionsOf name emission.toList = if name = rule.name then emission.toList else [] := by
  refine emissionsOf_toList (fun e he => ?_) name
  obtain rfl : emission = some e := he
  exact hsound.change hphase

theorem emissionsOf_observe (hsound : (p.tasks rule.name).Sound rule)
    {emission : Option Emission} (hphase : (p.tasks rule.name).phase = .persisted emission)
    (name : String) :
    emissionsOf name emission.toList = if name = rule.name then emission.toList else [] := by
  refine emissionsOf_toList (fun e he => ?_) name
  obtain rfl : emission = some e := he
  exact (hsound.emission hphase).1

/-- Every change is told by the task that made it. -/
theorem Advance.accounts (hstep : Advance p outside rule step next)
    (hsound : (p.tasks rule.name).Sound rule) (h : p.Accounts ruleName outside) :
    next.1.Accounts ruleName next.2 := by
  by_cases hname : ruleName = rule.name
  · subst hname
    cases hstep with
    | stay => exact h
    | answer hidle =>
      rw [Process.Accounts, Task.untold, hidle] at h
      simpa [Process.Accounts, Task.untold] using h
    | transition hphase =>
      rw [Process.Accounts, Task.untold, hphase] at h
      simpa [Process.Accounts, Task.untold] using h
    | put hphase =>
      have hput := emissionsOf_put hsound hphase rule.name
      rw [Process.Accounts, Task.untold, hphase] at h
      simp_all [Process.Accounts, Task.untold, emissionsOf_append]
    | observe hphase =>
      have hobserve := emissionsOf_observe hsound hphase rule.name
      rw [Process.Accounts, Task.untold, hphase] at h
      simp_all [Process.Accounts, Task.untold, emissionsOf_append]
    | emit hphase =>
      rw [Process.Accounts, Task.untold, hphase] at h
      simpa [Process.Accounts, Task.untold] using h
  · rw [Process.Accounts, hstep.tasks_of_ne hname]
    cases hstep with
    | put hphase =>
      simp only [emissionsOf_append, emissionsOf_put hsound hphase, if_neg hname, List.append_nil]
      exact h
    | observe hphase =>
      simp only [emissionsOf_append, emissionsOf_observe hsound hphase, if_neg hname,
        List.append_nil]
      exact h
    | _ => exact h

/-- A task that neither makes nor tells a change of a rule leaves its accounts. -/
theorem Advance.silent (hstep : Advance p outside rule step next)
    (hsound : (p.tasks rule.name).Sound rule)
    (hquiet : ruleName = rule.name → (p.tasks ruleName).untold = none ∧
      ∀ persists, step = .put persists → (p.tasks ruleName).unmade = none) :
    emissionsOf ruleName next.2.changes = emissionsOf ruleName outside.changes ∧
      emissionsOf ruleName next.2.told = emissionsOf ruleName outside.told ∧
      ((p.tasks ruleName).untold = none → (next.1.tasks ruleName).untold = none) := by
  by_cases hname : ruleName = rule.name
  · subst hname
    obtain ⟨huntold, hunmade⟩ := hquiet rfl
    cases hstep with
    | stay => exact ⟨rfl, rfl, id⟩
    | answer => exact ⟨rfl, rfl, fun _ => by simp [Task.untold]⟩
    | transition => exact ⟨rfl, rfl, fun _ => by simp [Task.untold]⟩
    | @put persists state emission hphase =>
      have hnone : emission = none := by simpa [Task.unmade, hphase] using hunmade persists rfl
      subst hnone
      exact ⟨by simp, rfl, fun _ => by simp [Task.untold]⟩
    | @observe emission hphase =>
      have hnone : emission = none := by simpa [Task.untold, hphase] using huntold
      subst hnone
      exact ⟨rfl, by simp, fun _ => by simp [Task.untold]⟩
    | emit => exact ⟨rfl, rfl, fun _ => by simp [Task.untold]⟩
  · rw [hstep.tasks_of_ne hname]
    cases hstep with
    | put hphase =>
      simp only [emissionsOf_append, emissionsOf_put hsound hphase, if_neg hname, List.append_nil]
      exact ⟨trivial, trivial, id⟩
    | observe hphase =>
      simp only [emissionsOf_append, emissionsOf_observe hsound hphase, if_neg hname,
        List.append_nil]
      exact ⟨trivial, trivial, id⟩
    | _ => exact ⟨rfl, rfl, id⟩

end Accounts

section Holds

variable (p : Process) (ruleName : String)

/-- A task that may let incidents of a rule through, its own or that of a rule that inhibits it,
has still to hand this one over. -/
def Process.Holds (handover : Handover) : Prop :=
  ∃ other ∈ p.catalogue.rules,
    (other.name = ruleName ∨ p.catalogue.Inhibits other.name ruleName) ∧
      handover ∈ (p.tasks other.name).todo

/-- The `Resolved` that a task is to tell the resolver lets a pending incident of the rule go: no
other rule that inhibits it fires. -/
def Process.LetsGo (other : String) : Prop :=
  (∃ e ∈ (p.tasks other).untold, e.isFiring = false) ∧
    (p.resolver.pending.lookup ruleName).isSome ∧
    p.catalogue.Inhibits other ruleName ∧
    ∀ candidate ∈ p.catalogue.rules, p.catalogue.Inhibits candidate.name ruleName →
      candidate.name ≠ other → ¬p.resolver.Fires candidate.name

instance (other : String) : Decidable (p.LetsGo ruleName other) :=
  inferInstanceAs (Decidable (_ ∧ _ ∧ _ ∧ _))

/-- A rule and those that inhibit it are between two turns. -/
structure Process.AtRest : Prop where
  own : (p.tasks ruleName).Idle
  inhibitors : ∀ candidate, p.catalogue.Inhibits candidate ruleName → (p.tasks candidate).Idle

variable {p ruleName}

theorem Process.AtRest.not_holds (h : p.AtRest ruleName) (handover : Handover) :
    ¬p.Holds ruleName handover := by
  rintro ⟨other, -, hserves, hmem⟩
  have hidle : (p.tasks other.name).Idle := by
    rcases hserves with hname | hin
    · rw [hname]
      exact h.own
    · exact h.inhibitors other.name hin
  rw [Task.todo_eq hidle] at hmem
  exact List.not_mem_nil hmem

variable {outside : Outside} {rule : Rule} {step : TaskStep} {next : Process × Outside}

/-- What is held is handed over or kept. -/
theorem Advance.holds (hstep : Advance p outside rule step next) {handover : Handover}
    (h : p.Holds ruleName handover) :
    handover ∈ next.2.handed ∨ next.1.Holds ruleName handover := by
  obtain ⟨other, hother, hserves, hmem⟩ := h
  refine (hstep.todo hmem).imp_right fun hmem => ⟨other, ?_, ?_, hmem⟩
  · rwa [hstep.catalogue]
  · rwa [hstep.catalogue]

/-- What a step lets through for a rule is held for every sink that it is for. -/
theorem Advance.delivered (hstep : Advance p outside rule step next) (hfits : p.Fits ruleName)
    (hrule : rule ∈ p.catalogue.rules) {delivery : Delivery}
    (hmem : delivery ∈ next.2.delivered) :
    delivery ∈ outside.delivered ∨ (delivery.emission.incident.name = ruleName →
      ∀ sink ∈ delivery.sinks, next.1.Holds ruleName (sink, delivery.emission)) := by
  rcases hstep.observed (hfits.sound rule hrule) with hquiet | ⟨o, htells⟩
  · exact .inl (hquiet.delivered ▸ hmem)
  · rw [htells.delivered] at hmem
    refine (List.mem_append.mp hmem).imp_right fun hnew hnamed sink hsink => ?_
    obtain ⟨e, he, rfl⟩ := List.mem_map.mp hnew
    refine ⟨rule, by rwa [hstep.catalogue], ?_, ?_⟩
    · rw [hstep.catalogue, ← hfits.inhibits_iff, ← htells.name, ← hnamed]
      exact (mem_observation hfits.named he).imp Eq.symm And.left
    · rw [htells.todo, mem_handovers]
      exact ⟨hsink, he⟩

end Holds

/-- A generation without flags or pending incidents fits. -/
theorem Process.fits_spawn {catalogue : Catalogue} {seed : Rules} (ruleName : String) :
    (Process.spawn catalogue seed (new catalogue.rules)).Fits ruleName where
  sound _ _ := trivial
  named := named_new _
  inhibits_iff _ _ := inhibits_catalogue _
  told_of_fires _ _ hfires := absurd hfires (not_fires_new _ _)
  inhibited hp := absurd hp Bool.false_ne_true

theorem Process.state_spawn {catalogue : Catalogue} {ruleName : String}
    (h : ruleName ∈ catalogue.names) (seed : Rules) (resolver : InhibitionResolver) :
    ((Process.spawn catalogue seed resolver).tasks ruleName).state =
      (seed.lookup ruleName).getD .inactive := by
  simp only [Process.spawn, Task.seeded, lookup_spawnGeneration, if_pos h, Option.getD_some]

end Kaleidoscope.Beacon
