import Kaleidoscope.Beacon.Server

/-!
# Rules that come back

The store keeps the state of every rule that it ever saw. A removed rule is not seeded, but a
rule that comes back is, with what was persisted for it when it left.
-/

namespace Kaleidoscope.Beacon

open HashMap InhibitionResolver

/-- A server, with the names of the catalogue that was live last, and for each rule what was
persisted for it when it left the catalogue. -/
structure Watched where
  server : Server
  live : List String
  left : String → Option RuleState

/-- A server that was never started. -/
def Watched.initial : Watched := ⟨.initial, [], fun _ => none⟩

/-- The catalogue of a generation replaces the one that was live. -/
def Watched.replace (w : Watched) (server : Server) (generation : Generation) : Watched where
  server := server
  live := generation.catalogue.names
  left name := if name ∈ w.live then w.server.stored.lookup name else w.left name

/-- The catalogue that a start or a reload reads. -/
def Event.reads (server : Server) : Event → Option Catalogue
  | .tick _ => none
  | .start parsed => (loadRules parsed).toOption.map (·.toCatalogue)
  | .reload parsed =>
    if server.running.isSome then (loadRules parsed).toOption.map (·.toCatalogue) else none

/-- No rule comes back that was pending or firing when it left. -/
def ReturnsInactive (w : Watched) (event : Event) : Prop :=
  ∀ catalogue ∈ event.reads w.server, ∀ name ∈ catalogue.names, name ∉ w.live →
    (w.left name).getD .inactive = .inactive

section Watch

variable (flags : IterOrder String Bool) (incidents : IterOrder String Incident)

/-- A step, and what it makes live. -/
def watch (w : Watched) (event : Event) : Watched :=
  let server := step flags incidents w.server event
  match event, server.running with
  | .tick _, _ => { w with server }
  | _, none => { w with server }
  | _, some generation => w.replace server generation

/-- Every rule that a step adds to what was live starts out inactive. -/
def AddedInactive (w : Watched) (event : Event) : Prop :=
  ∀ generation ∈ (step flags incidents w.server event).running,
    ∀ name ∈ generation.catalogue.names, name ∉ w.live → generation.state name = .inactive

instance (w : Watched) (event : Event) : Decidable (AddedInactive flags incidents w event) := by
  unfold AddedInactive
  infer_instance

end Watch

/-- The names are those that are live, and the store has not changed for any other. -/
structure Watched.Tracks (w : Watched) : Prop where
  names : ∀ generation ∈ w.server.running, generation.catalogue.names = w.live
  stored : ∀ name ∉ w.live, w.server.stored.lookup name = w.left name

theorem tracks_initial : Watched.initial.Tracks where
  names _ h := nomatch h
  stored _ _ := Finmap.lookup_empty _

namespace Watched.Tracks

variable {w : Watched}

/-- A new generation keeps track, where the store stays as it is. -/
theorem replace (h : w.Tracks) {server : Server} {generation : Generation}
    (hrunning : server.running = some generation) (hstored : server.stored = w.server.stored) :
    (w.replace server generation).Tracks where
  names other hother := by
    obtain rfl := Option.some.inj (hrunning.symm.trans hother)
    rfl
  stored name _ := by
    simp only [Watched.replace, hstored]
    split_ifs with hlive
    · rfl
    · exact h.stored name hlive

/-- A turn keeps the catalogue, and persists a state of a live rule at most. -/
theorem tick (h : w.Tracks) (turn : Turn) :
    ({ w with server := Beacon.tick w.server turn } : Watched).Tracks := by
  rw [Beacon.tick]
  cases hrunning : w.server.running with
  | none => exact h
  | some generation =>
    cases hrule : generation.catalogue.rule? turn.ruleName with
    | none => simpa only [hrule] using h
    | some rule =>
      have hnames := h.names generation hrunning
      simp only [hrule]
      refine ⟨?_, fun name hname => ?_⟩
      · rintro next hnext
        obtain rfl := Option.some.inj ((running_runRule ..).symm.trans hnext)
        exact hnames
      · have hother : name ≠ rule.name := by
          rintro rfl
          refine hname ?_
          simp only [← hnames]
          exact List.mem_map_of_mem (Catalogue.mem_of_rule? hrule)
        rw [← h.stored name hname]
        simp only [runRule, applyRecord]
        split_ifs
        · exact Finmap.lookup_insert_of_ne _ hother
        · rfl

/-- No step loses track. -/
theorem watch (h : w.Tracks) (flags : IterOrder String Bool)
    (incidents : IterOrder String Incident) (event : Event) :
    (Beacon.watch flags incidents w event).Tracks := by
  cases event with
  | tick turn => exact h.tick turn
  | start parsed =>
    rcases start_cases w.server parsed with hdown | ⟨outcome, hup⟩
    · simp only [Beacon.watch, step, hdown]
      exact ⟨fun _ hg => (nomatch hg), h.stored⟩
    · simp only [Beacon.watch, step, hup]
      exact h.replace rfl rfl
  | reload parsed =>
    cases hrunning : w.server.running with
    | none =>
      simp only [Beacon.watch, step, hrunning]
      exact h
    | some generation =>
      rcases reload_cases flags incidents generation w.server parsed with
        hkept | ⟨outcome, -, -, hreplaced⟩
      · simp only [Beacon.watch, step, hrunning, hkept]
        exact h.replace hrunning rfl
      · simp only [Beacon.watch, step, hrunning, hreplaced]
        exact h.replace rfl rfl

/-- The loop of an added rule starts with what was persisted when the rule left. -/
theorem seeded (h : w.Tracks) (catalogue : Catalogue) (resolver : InhibitionResolver) :
    (∀ name ∈ catalogue.names, name ∉ w.live → Generation.state ⟨catalogue,
        spawnGeneration catalogue.rules w.server.stored, resolver⟩ name = .inactive) ↔
      ∀ name ∈ catalogue.names, name ∉ w.live → (w.left name).getD .inactive = .inactive := by
  refine forall₃_congr fun name hname hlive => ?_
  rw [Generation.state, lookup_spawnGeneration, if_pos hname, h.stored name hlive]
  rfl

/-- A refused catalogue adds no name. -/
theorem mem_live_of_refuses (h : w.Tracks) {generation : Generation}
    (hrunning : w.server.running = some generation) {outcome : LoadOutcome}
    (hrefused : refuses generation.catalogue outcome = true) :
    ∀ name ∈ outcome.names, name ∈ w.live := by
  intro name hname
  rw [refuses, Bool.or_eq_true, Bool.and_eq_true, beq_iff_eq] at hrefused
  rcases hrefused with hnone | ⟨-, hadded⟩
  · have hempty : outcome.rules = [] := by simpa [LoadOutcome.hasAnyRules] using hnone
    rw [Catalogue.names, hempty] at hname
    exact absurd hname List.not_mem_nil
  · rw [addedCount, Finset.card_eq_zero, Finset.sdiff_eq_empty_iff_subset] at hadded
    rw [← h.names generation hrunning]
    exact List.mem_toFinset.mp (hadded (List.mem_toFinset.mpr hname))

/-- A step starts the rules that it adds in their inactive state when none of them comes back
otherwise. -/
theorem addedInactive_iff (h : w.Tracks) (flags : IterOrder String Bool)
    (incidents : IterOrder String Incident) (event : Event) :
    AddedInactive flags incidents w event ↔ ReturnsInactive w event := by
  rw [AddedInactive, ReturnsInactive]
  cases event with
  | tick turn =>
    refine iff_of_true (fun generation hg name hname hlive => ?_)
      fun _ hc => absurd hc (Option.not_mem_none _)
    exact absurd (((h.tick turn).names generation hg) ▸ hname) hlive
  | start parsed =>
    simp only [step, Event.reads, start]
    cases hload : loadRules parsed with
    | error error => simp [Except.toOption]
    | ok outcome =>
      cases hrules : outcome.hasAnyRules with
      | false =>
        have hempty : outcome.names = [] := by
          simpa [LoadOutcome.hasAnyRules, Catalogue.names] using hrules
        simp [Except.toOption, hrules, hempty]
      | true =>
        simp only [hrules, if_true, Except.toOption, Option.map_some, Option.mem_some_iff,
          forall_eq']
        exact h.seeded _ _
  | reload parsed =>
    simp only [step, Event.reads]
    cases hrunning : w.server.running with
    | none => simp [hrunning]
    | some generation =>
      simp only [Option.isSome_some, if_true, reload]
      cases hload : loadRules parsed with
      | error error =>
        simp only [Except.toOption, Option.map_none, hrunning, Option.mem_some_iff, forall_eq']
        refine iff_of_true (fun name hname hlive => ?_)
          fun _ hc => absurd hc (Option.not_mem_none _)
        exact absurd (h.names generation hrunning ▸ hname) hlive
      | ok outcome =>
        cases hrefused : refuses generation.catalogue outcome with
        | true =>
          simp only [Except.toOption, Option.map_some, Option.mem_some_iff, forall_eq', hrefused,
            if_true, hrunning]
          refine iff_of_true (fun name hname hlive => ?_) fun name hname hlive => ?_
          · exact absurd (h.names generation hrunning ▸ hname) hlive
          · exact absurd (h.mem_live_of_refuses hrunning hrefused name hname) hlive
        | false =>
          simp only [Except.toOption, Option.map_some, Option.mem_some_iff, forall_eq', hrefused,
            Bool.false_eq_true, if_false]
          exact h.seeded _ _

end Watched.Tracks

/-- Through every order of starts, reloads and turns, each rule that was not live starts out
inactive when no rule comes back that was persisted as pending or firing when it left, and only
then. -/
theorem addedInactive_run_iff (flags : IterOrder String Bool)
    (incidents : IterOrder String Incident) (events : List Event) :
    Run.AllSteps (watch flags incidents) (AddedInactive flags incidents) .initial events ↔
      Run.AllSteps (watch flags incidents) ReturnsInactive .initial events := by
  have hall : Run.AllSteps (watch flags incidents) (fun _ _ => True) .initial events :=
    Run.allSteps_of_forall (fun _ _ => trivial) _ _
  have agree (w : Watched) (event : Event) (h : w.Tracks) (_ : True) :
      (AddedInactive flags incidents w event ↔ ReturnsInactive w event) ∧
        (AddedInactive flags incidents w event → (watch flags incidents w event).Tracks) :=
    ⟨h.addedInactive_iff flags incidents event, fun _ => h.watch flags incidents event⟩
  exact hall.iff_of agree tracks_initial

/-- The cpu alert fires, is removed, and comes back firing. -/
theorem resurrected_cpu :
    ¬∀ (flags : IterOrder String Bool) (incidents : IterOrder String Incident)
      (events : List Event),
      Run.AllSteps (watch flags incidents) (AddedInactive flags incidents) .initial events := by
  intro h
  let cpu : Rule := .bare "cpu" [] []
  let mem : Rule := .bare "mem" [] []
  let events : List Event := [.start (.ok [("cpu.toml", .ok [cpu])]),
    .tick ⟨"cpu", .active, 0, true⟩, .tick ⟨"cpu", .active, 1, true⟩,
    .reload (.ok [("mem.toml", .ok [mem])]),
    .reload (.ok [("cpu.toml", .ok [cpu]), ("mem.toml", .ok [mem])])]
  exact absurd (h (.unspecified _ _) (.unspecified _ _) events) (by decide +kernel)

end Kaleidoscope.Beacon
