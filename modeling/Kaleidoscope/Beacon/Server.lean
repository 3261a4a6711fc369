import Kaleidoscope.Beacon.Suppression
import Kaleidoscope.Library.Run

/-!
# The alerting server

One loop evaluates each rule; they share a resolver and persist the states of their rules. A
reload replaces catalogue, loops and resolver at once, and a restart leaves only what was
persisted.
-/

namespace Kaleidoscope.Beacon

open HashMap InhibitionResolver

/-- An emission on its way to the sinks of the loop that holds it. -/
structure Delivery where
  sinks : List SinkConfig
  emission : Emission
  deriving DecidableEq

/-- The loops that are live, and what they share. -/
structure Generation where
  catalogue : Catalogue
  /-- The state each loop holds. -/
  states : Rules
  resolver : InhibitionResolver

/-- The step of `spawn_generation` for a rule: its loop takes its state from the seed. -/
def spawnRule (now : Rules × Rules) (rule : Rule) : Rules × Rules :=
  (now.1.insert rule.name ((now.2.lookup rule.name).getD .inactive), now.2.erase rule.name)

/-- The state the loop of a rule holds. -/
def Generation.state (generation : Generation) (ruleName : String) : RuleState :=
  (generation.states.lookup ruleName).getD .inactive

/-- `spawn_generation`: the state each loop starts with. -/
def spawnGeneration (rules : List Rule) (seed : Rules) : Rules :=
  (rules.foldl spawnRule (∅, seed)).1

/-- A server, with what it has persisted and delivered so far. -/
structure Server where
  /-- The process, while it is up. -/
  running : Option Generation
  stored : Rules
  delivered : List Delivery

/-- `evaluate_once`. -/
def evaluateOnce (rule : Rule) (state : RuleState) (outcome : QueryOutcome) (now : Int) :
    RuleState × Option Emission :=
  transition state outcome rule now

/-- A turn of the loop of a rule: what the query gave, when, and whether a new state can be
persisted. -/
structure Turn where
  ruleName : String
  outcome : QueryOutcome
  now : Int
  persists : Bool

/-- One turn of the loop of `run_rule`. -/
def runRule (generation : Generation) (server : Server) (rule : Rule) (turn : Turn) : Server :=
  let state := generation.state rule.name
  let next := evaluateOnce rule state turn.outcome turn.now
  let toEmit := generation.resolver.observe rule.name next.2
  { running := some
      { catalogue := generation.catalogue
        states := generation.states.insert rule.name next.1
        resolver := toEmit.2 }
    -- A state that cannot be persisted is kept in memory alone.
    stored :=
      if state ≠ next.1 ∧ turn.persists then applyRecord server.stored (.put rule.name next.1)
      else server.stored
    delivered := server.delivered ++ toEmit.1.map (Delivery.mk rule.sinks) }

/-- The loop of a rule takes its turn, where there is one. -/
def tick (server : Server) (turn : Turn) : Server :=
  match server.running with
  | none => server
  | some generation =>
    match generation.catalogue.rule? turn.ruleName with
    | none => server
    | some rule => runRule generation server rule turn

/-- `main`, until the loops are live. -/
def start (server : Server) (parsed : Parsed) : Server :=
  match loadRules parsed with
  | .error _ => { server with running := none }
  | .ok outcome =>
    if outcome.hasAnyRules then
      let generation : Generation :=
        { catalogue := outcome.toCatalogue
          states := spawnGeneration outcome.rules server.stored
          resolver := new outcome.rules }
      { server with running := some generation }
    else { server with running := none }

/-- The names that a catalogue adds to those that are live. -/
def addedCount (live outcome : Catalogue) : Nat :=
  (outcome.names.toFinset \ live.names.toFinset).card

/-- Why a reload keeps the catalogue that is live: there would be no rules, or the edit was
broken and added none. -/
def refuses (live : Catalogue) (outcome : LoadOutcome) : Bool :=
  !outcome.hasAnyRules || (outcome.hasDiagnostics && addedCount live outcome.toCatalogue == 0)

section Reload

variable (flags : IterOrder String Bool) (incidents : IterOrder String Incident)

/-- `reload`. -/
def reload (generation : Generation) (server : Server) (parsed : Parsed) : Server :=
  match loadRules parsed with
  | .error _ => server
  | .ok outcome =>
    if refuses generation.catalogue outcome then server
    else
      let next : Generation :=
        { catalogue := outcome.toCatalogue
          states := spawnGeneration outcome.rules server.stored
          resolver := rebuildFrom flags incidents outcome.rules generation.resolver.carryover }
      { server with running := some next }

/-- What may happen to a server. -/
inductive Event where
  | tick (turn : Turn)
  /-- `SIGHUP`. -/
  | reload (parsed : Parsed)
  /-- The process is started, in the place of the one that was up. -/
  | start (parsed : Parsed)

/-- A step of a server. -/
def step (server : Server) : Event → Server
  | .tick turn => tick server turn
  | .reload parsed =>
    match server.running with
    | none => server
    | some generation => reload flags incidents generation server parsed
  | .start parsed => start server parsed

end Reload

/-- A start leaves the process down, or with the loops of a catalogue. -/
theorem start_cases (server : Server) (parsed : Parsed) :
    start server parsed = { server with running := none } ∨
      ∃ outcome : LoadOutcome, start server parsed = ⟨some ⟨outcome.toCatalogue,
        spawnGeneration outcome.rules server.stored, new outcome.rules⟩,
        server.stored, server.delivered⟩ := by
  rw [start]
  cases loadRules parsed with
  | error error => exact .inl rfl
  | ok outcome =>
    cases hrules : outcome.hasAnyRules with
    | false => exact .inl (by simp [hrules])
    | true => exact .inr ⟨outcome, by simp [hrules]⟩

/-- A reload is refused, or replaces the generation. -/
theorem reload_cases (flags : IterOrder String Bool) (incidents : IterOrder String Incident)
    (generation : Generation) (server : Server) (parsed : Parsed) :
    reload flags incidents generation server parsed = server ∨
      ∃ outcome, loadRules parsed = .ok outcome ∧
        refuses generation.catalogue outcome = false ∧
        reload flags incidents generation server parsed = ⟨some ⟨outcome.toCatalogue,
          spawnGeneration outcome.rules server.stored,
          rebuildFrom flags incidents outcome.rules generation.resolver.carryover⟩,
          server.stored, server.delivered⟩ := by
  rw [reload]
  cases loadRules parsed with
  | error error => exact .inl rfl
  | ok outcome =>
    cases hrefused : refuses generation.catalogue outcome with
    | true => exact .inl (by simp [hrefused])
    | false => exact .inr ⟨outcome, rfl, hrefused, by simp [hrefused]⟩

/-- What has been delivered for the rules. -/
def Server.emissions (server : Server) : List Emission :=
  server.delivered.map Delivery.emission

/-- A server that was never started. -/
def Server.initial : Server := ⟨none, ∅, []⟩

/-- Every rule of a catalogue is seeded with the state that is persisted for it. -/
theorem lookup_spawnGeneration (catalogue : Catalogue) (seed : Rules) (ruleName : String) :
    (spawnGeneration catalogue.rules seed).lookup ruleName =
      if ruleName ∈ catalogue.names then some ((seed.lookup ruleName).getD .inactive)
      else none := by
  obtain ⟨rules, hnodup⟩ := catalogue
  -- The loop inserts the state of a rule once, and no later rule has its name.
  have hloop (states : Rules) : (rules.foldl spawnRule (states, seed)).1.lookup ruleName =
      if ruleName ∈ rules.map Rule.name then some ((seed.lookup ruleName).getD .inactive)
      else states.lookup ruleName := by
    induction rules generalizing states seed with
    | nil => rfl
    | cons rule rules ih =>
      rw [List.map_cons, List.nodup_cons] at hnodup
      rw [List.foldl_cons, spawnRule, ih _ hnodup.2, lookup_insert_ite, lookup_erase_ite,
        List.map_cons]
      by_cases hname : ruleName = rule.name
      · subst hname
        rw [if_neg hnodup.1, if_pos rfl, if_pos List.mem_cons_self]
      · simp only [hname, if_false, List.mem_cons, false_or]
  exact hloop ∅

/-- What a loop emits is about its rule. -/
def tickObservation (rule : Rule) (state : RuleState) (turn : Turn) : Observation where
  ruleName := rule.name
  emission := (evaluateOnce rule state turn.outcome turn.now).2
  named _ he := (transition_emits he).1

section Turn

variable (generation : Generation) (server : Server) (rule : Rule) (turn : Turn)

/-- The loops after a turn of one of them. -/
def Generation.after : Generation where
  catalogue := generation.catalogue
  states := generation.states.insert rule.name
    (evaluateOnce rule (generation.state rule.name) turn.outcome turn.now).1
  resolver := (generation.resolver.observation
    (tickObservation rule (generation.state rule.name) turn)).2

theorem running_runRule :
    (runRule generation server rule turn).running = some (generation.after rule turn) :=
  rfl

/-- A turn changes the state of its own loop. -/
theorem state_after (name : String) :
    (generation.after rule turn).state name =
      if name = rule.name then
        (evaluateOnce rule (generation.state rule.name) turn.outcome turn.now).1
      else generation.state name := by
  rw [Generation.state, Generation.after, lookup_insert_ite]
  split_ifs <;> rfl

/-- A rule of the live catalogue takes its turn. -/
theorem tick_eq_runRule {generation : Generation} {server : Server} {rule : Rule} {turn : Turn}
    (hrunning : server.running = some generation) (hmem : rule ∈ generation.catalogue.rules)
    (hname : turn.ruleName = rule.name) :
    tick server turn = runRule generation server rule turn := by
  rw [tick, hrunning]
  simp only [hname, Catalogue.rule?_name hmem]

/-- What a turn delivers is what the resolver lets through, to the sinks of the rule whose turn
it is. -/
theorem delivered_runRule :
    (runRule generation server rule turn).delivered = server.delivered ++
      (generation.resolver.observation
        (tickObservation rule (generation.state rule.name) turn)).1.map (Delivery.mk rule.sinks) :=
  rfl

theorem emissions_runRule :
    (runRule generation server rule turn).emissions =
      server.emissions ++ (generation.resolver.observation
        (tickObservation rule (generation.state rule.name) turn)).1 := by
  rw [Server.emissions, delivered_runRule, List.map_append, List.map_map]
  exact congrArg _ (List.map_id _)

/-- A turn changes whether its rule is firing exactly as it emits. -/
theorem isFiring_after (name : String) :
    ((generation.after rule turn).state name).isFiring =
      (tickObservation rule (generation.state rule.name) turn).flag name
        (generation.state name).isFiring := by
  rw [state_after, Observation.flag, tickObservation]
  by_cases hname : name = rule.name
  · subst hname
    rw [if_pos rfl, if_pos rfl]
    simp only
    cases he : (evaluateOnce rule (generation.state rule.name) turn.outcome turn.now).2 with
    | none => exact transition_silent he
    | some e => exact (transition_emits he).2.1
  · rw [if_neg hname, if_neg hname]

end Turn

end Kaleidoscope.Beacon
