import Kaleidoscope.Alerting.Reload
import Kaleidoscope.Beacon.Server

/-!
# Alerts through reloads and restarts

A restart keeps the states of the rules and nothing of the resolver; a reload keeps the
resolver under another relation. What has been delivered fits the states as long as neither
loses an incident that is pending.
-/

namespace Kaleidoscope.Beacon

open HashMap InhibitionResolver

namespace Server

/-- The state that is persisted for a rule. -/
def storedState (server : Server) (ruleName : String) : RuleState :=
  (server.stored.lookup ruleName).getD .inactive

/-- The state a rule is in, or would be started in. -/
def state (server : Server) (ruleName : String) : RuleState :=
  match server.running with
  | some generation => generation.state ruleName
  | none => server.storedState ruleName

/-- The incident a rule has pending. -/
def pending (server : Server) (ruleName : String) : Option Incident :=
  server.running.bind fun generation => generation.resolver.pending.lookup ruleName

/-- Delivery is well-bracketed for a rule: `Firing` and `Resolved` alternate, and while the rule
is firing and no inhibitor of it is, the last delivery says so. -/
def WellBracketed (ruleName : String) (server : Server) : Prop :=
  AlternatesFor ruleName server.emissions ∧
    ∀ generation ∈ server.running, (generation.state ruleName).isFiring →
      (¬∃ candidate, generation.catalogue.Inhibits candidate ruleName ∧
        (generation.state candidate).isFiring) →
      lastFires ruleName server.emissions = true

end Server

/-- What is persisted for a rule says whether it is firing, as its loop does. -/
def Persisted (generation : Generation) (server : Server) (ruleName : String) : Prop :=
  (server.storedState ruleName).isFiring = (generation.state ruleName).isFiring

instance (generation : Generation) (server : Server) (ruleName : String) :
    Decidable (Persisted generation server ruleName) :=
  inferInstanceAs (Decidable (_ = _))

section Run

variable (flags : IterOrder String Bool) (incidents : IterOrder String Incident)

/-- The rule is in every catalogue that goes live. -/
def Stays (ruleName : String) (server : Server) (event : Event) : Prop :=
  ∀ generation ∈ (step flags incidents server event).running,
    ruleName ∈ generation.catalogue.names

/-- Nothing pending is lost for the rule. A restart finds nothing pending for it; a reload that
is accepted finds nothing pending for it, or an inhibitor that fires in the new graph; and what
they take over from the store is what the loops hold. -/
def Undisturbed (ruleName : String) (server : Server) : Event → Prop
  | .tick .. => True
  | .reload parsed => ∀ generation ∈ server.running, ∀ outcome ∈ (loadRules parsed).toOption,
      refuses generation.catalogue outcome = false →
        Persisted generation server ruleName ∧
        (∀ candidate ∈ generation.resolver.firing.keys,
          generation.resolver.Fires candidate → Persisted generation server candidate) ∧
        ((generation.resolver.pending.lookup ruleName).isSome →
          ∃ candidate ∈ outcome.names, outcome.Inhibits candidate ruleName ∧
            generation.resolver.Fires candidate)
  | .start _ => ∀ generation ∈ server.running, Persisted generation server ruleName ∧
      generation.resolver.pending.lookup ruleName = none

instance (ruleName : String) (server : Server) (event : Event) :
    Decidable (Stays flags incidents ruleName server event) :=
  inferInstanceAs (Decidable (∀ generation ∈ (step flags incidents server event).running,
    ruleName ∈ generation.catalogue.names))

instance (ruleName : String) (server : Server) :
    (event : Event) → Decidable (Undisturbed ruleName server event)
  | .tick .. => isTrue trivial
  | .reload parsed => inferInstanceAs (Decidable (∀ generation ∈ server.running,
      ∀ outcome ∈ (loadRules parsed).toOption, _))
  | .start _ => inferInstanceAs (Decidable (∀ generation ∈ server.running, _ ∧ _))

/-- The resolver of a generation fits its catalogue and its loops. -/
structure Fits (ruleName : String) (generation : Generation) : Prop where
  named : generation.resolver.Named
  inhibits_iff : ∀ candidate targetName, generation.resolver.Inhibits candidate targetName ↔
    generation.catalogue.Inhibits candidate targetName
  /-- A rule whose flag is set is firing. -/
  firing_of_fires : ∀ candidate, generation.resolver.Fires candidate →
    (generation.state candidate).isFiring
  inhibited : (generation.resolver.pending.lookup ruleName).isSome →
    ∃ candidate, generation.resolver.Inhibits candidate ruleName ∧
      generation.resolver.Fires candidate

/-- What has been delivered for a rule fits its state and what it has pending. -/
structure Consistent (ruleName : String) (server : Server) : Prop where
  booked : Booked (server.state ruleName).isFiring (server.pending ruleName) server.emissions
    ruleName
  fits : ∀ generation ∈ server.running, Fits ruleName generation

variable {ruleName : String} {server : Server}

/-- Where the books are kept, delivery is well-bracketed. -/
theorem Consistent.wellBracketed (h : Consistent ruleName server) :
    server.WellBracketed ruleName := by
  refine ⟨h.booked.alternates, ?_⟩
  intro generation hrunning hfiring hidle
  have hrunning : server.running = some generation := hrunning
  have hfits := h.fits generation hrunning
  have hlast := h.booked.lastFires_eq
  rw [Server.state, Server.pending, hrunning] at hlast
  have hclear : generation.resolver.pending.lookup ruleName = none := by
    rw [← Option.not_isSome_iff_eq_none]
    intro hp
    obtain ⟨candidate, hin, hfires⟩ := hfits.inhibited hp
    exact hidle ⟨candidate, (hfits.inhibits_iff _ _).mp hin, hfits.firing_of_fires _ hfires⟩
  simp only [Option.bind_some, hfiring, hclear, Option.isNone_none, Bool.and_self] at hlast
  exact hlast

theorem consistent_initial : Consistent ruleName Server.initial where
  booked := ⟨Bracketed.alternates_nil _, rfl, fun h => absurd h Bool.false_ne_true⟩
  fits _ h := by cases h

/-- A loop of the catalogue starts with the state that is persisted. -/
theorem state_spawnGeneration {catalogue : Catalogue} {seed : Rules} {name : String}
    (h : name ∈ catalogue.names) (resolver : InhibitionResolver) :
    Generation.state ⟨catalogue, spawnGeneration catalogue.rules seed, resolver⟩ name =
      (seed.lookup name).getD .inactive := by
  rw [Generation.state, lookup_spawnGeneration, if_pos h]
  rfl

/-- What a restart takes over. -/
theorem Consistent.booked_stored (h : Consistent ruleName server) {parsed : Parsed}
    (hcond : Undisturbed ruleName server (.start parsed)) :
    Booked (server.storedState ruleName).isFiring none server.emissions ruleName := by
  have hbooked := h.booked
  rw [Server.state, Server.pending] at hbooked
  cases hrunning : server.running with
  | none => rwa [hrunning] at hbooked
  | some generation =>
    obtain ⟨hpersisted, hclear⟩ := hcond generation hrunning
    rw [Persisted] at hpersisted
    rw [hrunning] at hbooked
    simp only [Option.bind_some, hclear] at hbooked
    rwa [hpersisted]

/-- A restart keeps the books. -/
theorem Consistent.start (h : Consistent ruleName server) {parsed : Parsed}
    (hcond : Undisturbed ruleName server (.start parsed))
    (hstays : ∀ generation ∈ (start server parsed).running,
      ruleName ∈ generation.catalogue.names) :
    Consistent ruleName (start server parsed) := by
  have hbooked := h.booked_stored hcond
  rcases start_cases server parsed with hdown | ⟨outcome, hup⟩
  · rw [hdown]
    exact ⟨hbooked, fun _ h => by cases h⟩
  · rw [hup] at hstays ⊢
    refine ⟨?_, ?_⟩
    · rw [Server.state]
      simp only
      rw [state_spawnGeneration (hstays _ rfl)]
      exact hbooked
    · rintro generation hg
      obtain rfl := Option.some.inj hg
      refine ⟨named_new _, fun _ _ => inhibits_catalogue _,
        fun _ hfires => absurd hfires (not_fires_new _ _), fun hp => ?_⟩
      exact absurd hp Bool.false_ne_true

/-- A reload keeps the books. -/
theorem Consistent.reload {generation : Generation} (hrunning : server.running = some generation)
    (h : Consistent ruleName server) {parsed : Parsed}
    (hcond : Undisturbed ruleName server (.reload parsed))
    (hstays : ∀ next ∈ (reload flags incidents generation server parsed).running,
      ruleName ∈ next.catalogue.names) :
    Consistent ruleName (reload flags incidents generation server parsed) := by
  rcases reload_cases flags incidents generation server parsed with
    hrefused | ⟨outcome, hload, haccepted, hnext⟩
  · rwa [hrefused]
  rw [hnext] at hstays ⊢
  have hmem : ruleName ∈ outcome.names := hstays _ rfl
  obtain ⟨hown, hflagged, hheld⟩ := hcond generation hrunning outcome (by rw [hload]; rfl) haccepted
  have hfits := h.fits generation hrunning
  have hbooked := h.booked
  rw [Server.state, Server.pending, hrunning] at hbooked
  set next := rebuildFrom flags incidents outcome.rules generation.resolver.carryover
  have hstate (candidate : String) (hin : candidate ∈ outcome.names)
      (hagrees : candidate = ruleName ∨ generation.resolver.Fires candidate) :
      (Generation.state ⟨outcome.toCatalogue, spawnGeneration outcome.rules server.stored, next⟩
        candidate).isFiring = (generation.state candidate).isFiring := by
    rw [state_spawnGeneration hin]
    rcases hagrees with rfl | hfires
    · exact hown
    · exact hflagged candidate hfires.mem_keys hfires
  have hinhibits := inhibits_rebuildFrom flags incidents outcome.toCatalogue generation.resolver
  have hfires := fires_rebuildFrom flags incidents outcome.toCatalogue generation.resolver
  have hpending : next.pending.lookup ruleName = generation.resolver.pending.lookup ruleName := by
    apply Option.ext
    intro incident
    refine (pending_rebuildFrom flags incidents outcome.toCatalogue _ ruleName incident).trans
      (and_iff_left_of_imp fun hp => ?_)
    obtain ⟨candidate, -, hin, -⟩ := hheld (by rw [hp]; rfl)
    exact ⟨hmem, candidate, hin⟩
  refine ⟨?_, ?_⟩
  · rw [Server.state, Server.pending]
    simp only [Option.bind_some]
    rw [hstate ruleName hmem (.inl rfl), hpending]
    exact hbooked
  · rintro generation' hg
    obtain rfl := Option.some.inj hg
    refine ⟨named_rebuildFrom flags incidents outcome.toCatalogue hfits.named, hinhibits, ?_, ?_⟩
    · intro candidate hc
      obtain ⟨hsurvives, hc⟩ := (hfires candidate).mp hc
      rw [hstate candidate hsurvives (.inr hc)]
      exact hfits.firing_of_fires candidate hc
    · simp only
      rw [hpending]
      intro hp
      obtain ⟨candidate, hsurvives, hin, hc⟩ := hheld hp
      exact ⟨candidate, (hinhibits candidate ruleName).mpr hin,
        (hfires candidate).mpr ⟨hsurvives, hc⟩⟩

/-- A turn of a loop keeps the books. -/
theorem Consistent.tick {generation : Generation} (hrunning : server.running = some generation)
    (h : Consistent ruleName server) (rule : Rule) (turn : Turn) :
    Consistent ruleName (runRule generation server rule turn) := by
  have hfits := h.fits generation hrunning
  have hbooked := h.booked
  rw [Server.state, Server.pending, hrunning] at hbooked
  let o := tickObservation rule (generation.state rule.name) turn
  have hturns (name : String) : o.Turns name (generation.state name).isFiring := by
    rintro rfl e he
    exact (transition_emits he).2.2
  have hmove := observation_moves hfits.named o hbooked.on_of_pending (hturns ruleName)
  refine ⟨?_, ?_⟩
  · rw [emissions_runRule]
    have hnext := hbooked.move hmove
    rw [← isFiring_after] at hnext
    exact hnext
  · rintro next hg
    obtain rfl := Option.some.inj ((running_runRule generation server rule turn).symm.trans hg)
    refine ⟨hfits.named.observation o, ?_, ?_, inhibited_observation o hfits.inhibited⟩
    · intro candidate targetName
      refine Iff.trans (iff_of_eq ?_) (hfits.inhibits_iff candidate targetName)
      exact congrFun (congrFun (inhibits_congr (observe_inhibits ..)) candidate) targetName
    · intro candidate hfires
      rw [isFiring_after]
      exact flag_of_fires o (hfits.firing_of_fires candidate) hfires

/-- Every step that loses nothing pending keeps the books. -/
theorem Consistent.step (h : Consistent ruleName server) {event : Event}
    (hstays : Stays flags incidents ruleName server event)
    (hcond : Undisturbed ruleName server event) :
    Consistent ruleName (step flags incidents server event) := by
  cases event with
  | tick turn =>
    rw [Beacon.step, Beacon.tick]
    cases hrunning : server.running with
    | none => exact h
    | some generation =>
      cases hrule : generation.catalogue.rule? turn.ruleName with
      | none => simpa only [hrule] using h
      | some rule =>
        simp only [hrule]
        exact h.tick hrunning rule turn
  | reload parsed =>
    rw [Stays, Beacon.step] at hstays
    rw [Beacon.step]
    cases hrunning : server.running with
    | none => exact h
    | some generation =>
      rw [hrunning] at hstays
      exact h.reload flags incidents hrunning hcond hstays
  | start parsed => exact h.start hcond hstays

end Run

/-- While a rule stays in the catalogue and nothing pending is lost for it, its deliveries are
well-bracketed, through every order of turns, reloads and restarts. -/
theorem wellBracketed_run (flags : IterOrder String Bool) (incidents : IterOrder String Incident)
    (ruleName : String) (events : List Event)
    (hstays : Run.AllSteps (step flags incidents) (Stays flags incidents ruleName) .initial events)
    (hcond : Run.AllSteps (step flags incidents) (Undisturbed ruleName) .initial events) :
    (Run.run (step flags incidents) .initial events).WellBracketed ruleName :=
  Consistent.wellBracketed ((hstays.and hcond).invariant
    (fun _ _ h hboth => h.step flags incidents hboth.1 hboth.2) (consistent_initial))

/-- The disk alert is held across a reload, behind the node alert. -/
theorem wellBracketed_run_reload :
    let parsed : Parsed :=
      .ok [("disk.toml", .ok [.bare "node" [] ["disk"], .bare "disk" [] []])]
    let events : List Event := [.start parsed, .tick ⟨"node", .active, 0, true⟩,
      .tick ⟨"node", .active, 1, true⟩, .tick ⟨"disk", .active, 1, true⟩,
      .tick ⟨"disk", .active, 2, true⟩, .reload parsed]
    (Run.run (step (.unspecified String Bool) (.unspecified String Incident)) .initial
      events).WellBracketed "disk" :=
  wellBracketed_run _ _ "disk" _ (by decide +kernel) (by decide +kernel)

/-- The disk alert is held behind the node alert; after a restart the condition goes away, and
its `Resolved` is delivered though its `Firing` never was. -/
theorem resolved_unannounced :
    ¬∀ (flags : IterOrder String Bool) (incidents : IterOrder String Incident)
      (ruleName : String) (events : List Event),
      Run.AllSteps (step flags incidents) (Stays flags incidents ruleName) .initial events →
        (Run.run (step flags incidents) .initial events).WellBracketed ruleName := by
  intro h
  let parsed : Parsed := .ok [("disk.toml", .ok [.bare "node" [] ["disk"], .bare "disk" [] []])]
  let events : List Event := [.start parsed, .tick ⟨"node", .active, 0, true⟩,
    .tick ⟨"node", .active, 1, true⟩, .tick ⟨"disk", .active, 1, true⟩,
    .tick ⟨"disk", .active, 2, true⟩, .start parsed, .tick ⟨"disk", .inactive, 3, true⟩]
  have halternates := (h (.unspecified String Bool) (.unspecified String Incident) "disk" events
    (by decide +kernel)).1
  have hdelivered : emissionsOf "disk" (Run.run (step (.unspecified String Bool)
      (.unspecified String Incident)) .initial events).emissions =
      [.resolved (.resolved (.bare "disk" [] []) 2 3)] := by
    decide +kernel
  rw [AlternatesFor, hdelivered] at halternates
  exact absurd (halternates 0 Nat.one_pos) (by decide)

end Kaleidoscope.Beacon
