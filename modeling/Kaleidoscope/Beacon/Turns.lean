import Kaleidoscope.Beacon.Daemon

/-!
# Turns and their steps

A turn that no other loop interrupts does step by step what the server does at once.
-/

namespace Kaleidoscope.Beacon

open Run

/-- A step of one of the loops of a process. -/
def loopStep (w : Process × Outside) (event : String × TaskStep) : Process × Outside :=
  w.1.stepOf w.2 event.1 event.2

/-- The steps of a turn in which the given number of incidents is handed over. -/
def Turn.steps (turn : Turn) (incidents : Nat) : List (String × TaskStep) :=
  (turn.ruleName, .answer turn.outcome turn.now) :: (turn.ruleName, .transition) ::
    (turn.ruleName, .put turn.persists) :: (turn.ruleName, .observe) ::
      List.replicate incidents (turn.ruleName, .emit)

/-- Between two turns, the loops of a process are those of a generation of the server. -/
structure Loops (generation : Generation) (server : Server) (w : Process × Outside) : Prop where
  catalogue : w.1.catalogue = generation.catalogue
  resolver : w.1.resolver = generation.resolver
  tasks : ∀ name, w.1.tasks name = .seeded (generation.state name)
  stored : w.2.stored = server.stored
  delivered : w.2.delivered = server.delivered

/-- So the process is the one that the server runs. -/
def Resembles (server : Server) (w : Process × Outside) : Prop :=
  ∃ generation, server.running = some generation ∧ Loops generation server w

variable {p : Process} {outside : Outside} {rule : Rule}

theorem Process.setTask_setTask (ruleName : String) (task task' : Task) :
    (p.setTask ruleName task).setTask ruleName task' = p.setTask ruleName task' := by
  simp [Process.setTask]

theorem Process.setTask_self {ruleName : String} {task : Task} (h : p.tasks ruleName = task) :
    p.setTask ruleName task = p := by
  rw [← h, Process.setTask, Function.update_eq_self]

theorem loopStep_of_rule (hrule : p.catalogue.rule? rule.name = some rule) (step : TaskStep) :
    loopStep (p, outside) (rule.name, step) = p.advance outside rule step := by
  rw [loopStep, Process.stepOf, hrule]

/-- A loop hands its incidents over one by one. -/
theorem run_emits (hrule : p.catalogue.rule? rule.name = some rule) {state : RuleState}
    {todo : List Handover} (htask : p.tasks rule.name = ⟨state, .emitting todo, false⟩) :
    run loopStep (p, outside) (List.replicate todo.length (rule.name, .emit)) =
      (p.setTask rule.name (.seeded state),
        { outside with handed := outside.handed ++ todo }) := by
  induction todo generalizing p outside with
  | nil =>
    have hself : p.setTask rule.name (.seeded state) = p := Process.setTask_self htask
    rw [List.append_nil, hself]
    rfl
  | cons handover todo ih =>
    have hstep : p.advance outside rule .emit =
        (p.setTask rule.name ⟨state, .emitting todo, false⟩,
          { outside with handed := outside.handed ++ [handover] }) := by
      simp [Process.advance, htask]
    rw [List.length_cons, List.replicate_succ, run_cons, loopStep_of_rule hrule, hstep,
      ih (by simpa using hrule) (by simp), Process.setTask_setTask, List.append_assoc]
    rfl

/-- The steps of a turn, one after the other. -/
theorem run_steps (hrule : p.catalogue.rule? rule.name = some rule) {state : RuleState}
    (htask : p.tasks rule.name = .seeded state) {turn : Turn} (hname : turn.ruleName = rule.name)
    {next : RuleState} {emission : Option Emission}
    (heval : evaluateOnce rule state turn.outcome turn.now = (next, emission))
    {toEmit : List Emission} {resolver : InhibitionResolver}
    (hobserve : p.resolver.observe rule.name emission = (toEmit, resolver)) :
    run loopStep (p, outside) (turn.steps (handovers rule.sinks toEmit).length) =
      ({ p.setTask rule.name (.seeded next) with resolver },
        { stored :=
            if state ≠ next ∧ turn.persists then applyRecord outside.stored (.put rule.name next)
            else outside.stored
          changes := outside.changes ++ emission.toList
          told := outside.told ++ emission.toList
          delivered := outside.delivered ++ toEmit.map (Delivery.mk rule.sinks)
          handed := outside.handed ++ handovers rule.sinks toEmit }) := by
  have hanswer : p.advance outside rule (.answer turn.outcome turn.now) =
      (p.setTask rule.name ⟨state, .answered turn.outcome turn.now, false⟩, outside) := by
    simp [Process.advance, htask, Task.seeded]
  let answered := p.setTask rule.name ⟨state, .answered turn.outcome turn.now, false⟩
  have htransition : answered.advance outside rule .transition =
      (p.setTask rule.name ⟨state, .decided next emission, false⟩, outside) := by
    simp [answered, Process.advance, heval, Process.setTask_setTask]
  let decided := p.setTask rule.name ⟨state, .decided next emission, false⟩
  let put : Outside :=
    { outside with
      stored :=
        if state ≠ next ∧ turn.persists then applyRecord outside.stored (.put rule.name next)
        else outside.stored
      changes := outside.changes ++ emission.toList }
  have hput : decided.advance outside rule (.put turn.persists) =
      (p.setTask rule.name ⟨next, .persisted emission, false⟩, put) := by
    simp [decided, put, Process.advance, Process.setTask_setTask]
  let persisted := p.setTask rule.name ⟨next, .persisted emission, false⟩
  have hobserved : persisted.advance put rule .observe =
      ({ p.setTask rule.name ⟨next, .emitting (handovers rule.sinks toEmit), false⟩ with resolver },
        { put with
          told := put.told ++ emission.toList
          delivered := put.delivered ++ toEmit.map (Delivery.mk rule.sinks) }) := by
    simp [persisted, Process.advance, hobserve, Process.setTask_setTask]
  let observed : Process :=
    { p.setTask rule.name ⟨next, .emitting (handovers rule.sinks toEmit), false⟩ with resolver }
  have htodo : observed.tasks rule.name =
      ⟨next, .emitting (handovers rule.sinks toEmit), false⟩ := Function.update_self ..
  rw [Turn.steps, hname, run_cons, loopStep_of_rule hrule, hanswer, run_cons,
    loopStep_of_rule (p := answered) hrule, htransition, run_cons,
    loopStep_of_rule (p := decided) hrule, hput, run_cons,
    loopStep_of_rule (p := persisted) hrule, hobserved, run_emits (p := observed) hrule htodo]
  simp [observed, put, Process.setTask]

/-- A process that resembles the server still does after a turn of it, step by step. -/
theorem Resembles.tick {server : Server} {w : Process × Outside} (h : Resembles server w)
    (turn : Turn) :
    ∃ incidents, Resembles (tick server turn) (run loopStep w (turn.steps incidents)) := by
  obtain ⟨generation, hrunning, hloops⟩ := h
  obtain ⟨p, outside⟩ := w
  have hcatalogue : p.catalogue = generation.catalogue := hloops.catalogue
  cases hrule : generation.catalogue.rule? turn.ruleName with
  | none =>
    have hstep (step : TaskStep) :
        loopStep (p, outside) (turn.ruleName, step) = (p, outside) := by
      rw [loopStep, Process.stepOf, hcatalogue, hrule]
    have hserver : Beacon.tick server turn = server := by
      simp only [Beacon.tick, hrunning, hrule]
    have hrun : run loopStep (p, outside) (turn.steps 0) = (p, outside) := by
      simp only [Turn.steps, List.replicate_zero, run_cons, run_nil, hstep]
    refine ⟨0, generation, ?_, ?_⟩
    · rw [hserver, hrunning]
    · rwa [hserver, hrun]
  | some rule =>
    have hname : turn.ruleName = rule.name := (Catalogue.name_of_rule? hrule).symm
    rw [hname] at hrule
    cases heval : evaluateOnce rule (generation.state rule.name) turn.outcome turn.now with
    | mk next emission =>
      cases hobserve : generation.resolver.observe rule.name emission with
      | mk toEmit resolver =>
        have hserver : Beacon.tick server turn =
            { running := some
                { catalogue := generation.catalogue
                  states := generation.states.insert rule.name next
                  resolver := resolver }
              stored :=
                if generation.state rule.name ≠ next ∧ turn.persists then
                  applyRecord server.stored (.put rule.name next)
                else server.stored
              delivered := server.delivered ++ toEmit.map (Delivery.mk rule.sinks) } := by
          simp only [Beacon.tick, hrunning, hname, hrule, runRule, heval, hobserve]
        have hrun : run loopStep (p, outside)
            (turn.steps (handovers rule.sinks toEmit).length) = _ :=
          run_steps (hcatalogue ▸ hrule) (hloops.tasks rule.name) hname heval
            (hloops.resolver ▸ hobserve)
        refine ⟨(handovers rule.sinks toEmit).length, _, congrArg Server.running hserver, ?_⟩
        rw [hserver, hrun]
        refine ⟨hloops.catalogue, rfl, fun name => ?_, ?_, ?_⟩
        · by_cases hother : name = rule.name
          · subst hother
            simp [Generation.state]
          · have hstate : (generation.states.insert rule.name next).lookup name =
                generation.states.lookup name := Finmap.lookup_insert_of_ne _ hother
            refine (Process.tasks_setTask_of_ne _ _ _ hother).trans ((hloops.tasks name).trans ?_)
            rw [Generation.state, Generation.state, hstate]
        · exact congrArg (fun stored => if generation.state rule.name ≠ next ∧ turn.persists then
            applyRecord stored (.put rule.name next) else stored) hloops.stored
        · exact congrArg (· ++ toEmit.map (Delivery.mk rule.sinks)) hloops.delivered

/-- A server goes through its turns as the process does through their steps. -/
theorem Resembles.run {server : Server} {w : Process × Outside} (h : Resembles server w)
    (turns : List Turn) :
    ∃ incidents : List Nat, incidents.length = turns.length ∧
      Resembles (Run.run Beacon.tick server turns)
        (Run.run loopStep w (List.zipWith Turn.steps turns incidents).flatten) := by
  induction turns generalizing server w with
  | nil => exact ⟨[], rfl, h⟩
  | cons turn turns ih =>
    obtain ⟨count, hturn⟩ := h.tick turn
    obtain ⟨incidents, hlength, hrun⟩ := ih hturn
    refine ⟨count :: incidents, congrArg Nat.succ hlength, ?_⟩
    rwa [List.zipWith_cons_cons, List.flatten_cons, run_append]

/-- A server that starts resembles the process that it spawns. -/
theorem resembles_start {server : Server} {parsed : Parsed} {outcome : LoadOutcome}
    (hload : loadRules parsed = .ok outcome) (hany : outcome.hasAnyRules = true)
    {outside : Outside} (hstored : outside.stored = server.stored)
    (hdelivered : outside.delivered = server.delivered) :
    Resembles (start server parsed)
      (.spawn outcome.toCatalogue server.stored (.new outcome.rules), outside) := by
  refine ⟨⟨outcome.toCatalogue, spawnGeneration outcome.rules server.stored, .new outcome.rules⟩,
    ?_, rfl, rfl, fun name => rfl, ?_, ?_⟩
  · simp only [start, hload, hany, if_true]
  · simpa only [start, hload, hany, if_true] using hstored
  · simpa only [start, hload, hany, if_true] using hdelivered

end Kaleidoscope.Beacon
