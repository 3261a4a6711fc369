import Kaleidoscope.Alerting.Reload
import Kaleidoscope.Beacon.Server

/-!
# Which sinks an incident reaches

A loop sends what the resolver lets through to the sinks of its own rule. Among it are the
incidents of the rules that waited for this one.
-/

namespace Kaleidoscope.Beacon

open HashMap InhibitionResolver Observation

/-- How the resolver of a catalogue comes to be: at the start of the process, or at a reload,
from the one before it. -/
inductive Built : Catalogue → InhibitionResolver → Prop
  | new (catalogue : Catalogue) : Built catalogue (new catalogue.rules)
  | rebuild (flags : IterOrder String Bool) (incidents : IterOrder String Incident)
      (catalogue old : Catalogue) (resolver : InhibitionResolver) (os : List Observation) :
      Built old resolver →
        Built catalogue
          (rebuildFrom flags incidents catalogue.rules (resolver.observeAll os).2.carryover)

/-- An incident reaches the sinks of the rule it names. -/
def Routed (catalogue : Catalogue) (delivery : Delivery) : Prop :=
  ∃ rule, catalogue.rule? delivery.emission.incident.name = some rule ∧
    delivery.sinks.Perm rule.sinks

/-- A resolver works on the relation of a catalogue, for rules of that catalogue. -/
structure Serves (catalogue : Catalogue) (resolver : InhibitionResolver) : Prop where
  named : resolver.Named
  inhibits_iff : ∀ candidate targetName, resolver.Inhibits candidate targetName ↔
    catalogue.Inhibits candidate targetName
  mem_of_pending : ∀ ruleName, (resolver.pending.lookup ruleName).isSome →
    ruleName ∈ catalogue.names

theorem Built.named {catalogue : Catalogue} {resolver : InhibitionResolver}
    (h : Built catalogue resolver) : resolver.Named := by
  induction h with
  | new catalogue => exact named_new _
  | rebuild flags incidents catalogue old resolver os _ ih =>
    exact named_rebuildFrom flags incidents catalogue (ih.observeAll os)

theorem Built.serves {catalogue : Catalogue} {resolver : InhibitionResolver}
    (h : Built catalogue resolver) : Serves catalogue resolver := by
  refine ⟨h.named, ?_, ?_⟩
  · cases h with
    | new => exact fun _ _ => inhibits_catalogue _
    | rebuild flags incidents _ old resolver os _ =>
      exact inhibits_rebuildFrom flags incidents catalogue _
  · intro ruleName hp
    cases h with
    | new => exact absurd hp Bool.false_ne_true
    | rebuild flags incidents _ old resolver os _ =>
      obtain ⟨incident, hlookup⟩ := Option.isSome_iff_exists.mp hp
      exact ((pending_rebuildFrom flags incidents catalogue _ ruleName incident).mp
        hlookup).2.1

/-- An observation of a rule of the catalogue makes no other rule pending. -/
theorem Serves.observation {catalogue : Catalogue} {resolver : InhibitionResolver}
    (h : Serves catalogue resolver) {o : Observation} (ho : o.ruleName ∈ catalogue.names) :
    Serves catalogue (resolver.observation o).2 := by
  refine ⟨h.named.observation o, ?_, ?_⟩
  · intro candidate targetName
    rw [InhibitionResolver.observation, inhibits_congr (observe_inhibits ..)]
    exact h.inhibits_iff candidate targetName
  · intro ruleName hp
    rcases pending_of_observation hp with hp | ⟨rfl, -⟩
    · exact h.mem_of_pending ruleName hp
    · exact ho

section Turns

variable {catalogue : Catalogue}

/-- A server whose loops evaluate a catalogue, and what it has delivered. -/
def Delivers (catalogue : Catalogue) (server : Server) : Prop :=
  (∃ generation, server.running = some generation ∧ generation.catalogue = catalogue ∧
    Serves catalogue generation.resolver) ∧
    ∀ delivery ∈ server.delivered, Routed catalogue delivery

/-- Where each rule shares its sinks with those it inhibits, every turn delivers to the sinks of
the rule an incident names. -/
theorem Delivers.tick
    (hshared : ∀ rule ∈ catalogue.rules, ∀ other ∈ catalogue.rules,
      catalogue.Inhibits rule.name other.name → rule.sinks.Perm other.sinks)
    {server : Server} (h : Delivers catalogue server) (turn : Turn) :
    Delivers catalogue (tick server turn) := by
  obtain ⟨⟨generation, hrunning, rfl, hserves⟩, hrouted⟩ := h
  rw [Beacon.tick, hrunning]
  cases hrule : generation.catalogue.rule? turn.ruleName with
  | none =>
    simp only [hrule]
    exact ⟨⟨generation, hrunning, rfl, hserves⟩, hrouted⟩
  | some rule =>
    simp only [hrule]
    have hmem := Catalogue.mem_of_rule? hrule
    let o := tickObservation rule (generation.state rule.name) turn
    have ho : o.ruleName ∈ generation.catalogue.names := List.mem_map_of_mem hmem
    refine ⟨⟨_, rfl, rfl, hserves.observation ho⟩, ?_⟩
    intro delivery hdelivery
    rw [delivered_runRule, List.mem_append] at hdelivery
    rcases hdelivery with hbefore | hnow
    · exact hrouted delivery hbefore
    obtain ⟨e, he, rfl⟩ := List.mem_map.mp hnow
    rcases mem_observation hserves.named he with hown | ⟨hin, hp⟩
    · refine ⟨rule, ?_, .refl _⟩
      exact hown ▸ Catalogue.rule?_name hmem
    · obtain ⟨other, hother, hname⟩ := List.mem_map.mp (hserves.mem_of_pending _ hp)
      refine ⟨other, hname ▸ Catalogue.rule?_name hother, hshared rule hmem other hother ?_⟩
      rw [hname]
      exact (hserves.inhibits_iff _ _).mp hin

/-- An incident that waited for a rule alone is let through when that rule resolves. -/
theorem released_of_resolved {rule other : Rule} (hin : catalogue.Inhibits rule.name other.name)
    (o₁ o₂ o₃ : Observation) {i₁ i₂ i₃ : Incident}
    (h₁ : o₁.ruleName = rule.name ∧ o₁.emission = some (.firing i₁))
    (h₂ : o₂.ruleName = other.name ∧ o₂.emission = some (.firing i₂))
    (h₃ : o₃.ruleName = rule.name ∧ o₃.emission = some (.resolved i₃)) :
    .firing i₂ ∈
      (((((new catalogue.rules).observation o₁).2.observation o₂).2).observation o₃).1 := by
  set first := ((new catalogue.rules).observation o₁).2 with hfirst
  set second := (first.observation o₂).2 with hsecond
  have hrelation : second.Inhibits = catalogue.Inhibits := by
    rw [hsecond, hfirst, observation, inhibits_congr (observe_inhibits ..), observation,
      inhibits_congr (observe_inhibits ..)]
    ext candidate targetName
    exact inhibits_catalogue catalogue
  have hfires (name : String) :
      second.Fires name ↔ name = other.name ∨ name = rule.name := by
    rw [hsecond, observation, h₂.1, h₂.2, fires_observe, hfirst, observation, h₁.1, h₁.2,
      fires_observe]
    simp only [Emission.isFiring, not_fires_new]
    split_ifs with hother hrule
    · simp [hother]
    · simp [hrule]
    · simp [hother, hrule]
  have hpending : second.pending.lookup other.name = some i₂ := by
    have hactive : second.hasActiveInhibitorOf other.name = true := by
      rw [hasActiveInhibitorOf_iff, hrelation]
      exact ⟨rule.name, hin, (hfires rule.name).mpr (.inr rfl)⟩
    rw [hsecond, observation, h₂.1, h₂.2] at hactive ⊢
    rw [lookup_pending_observe_firing, if_pos ⟨rfl, hactive⟩]
  have hfrees : Frees second o₃ other.name := by
    refine ⟨⟨i₃, h₃.2⟩, by rwa [h₃.1, hrelation], ?_⟩
    rintro ⟨candidate, hc, hcandidate⟩
    rw [hrelation] at hc
    rw [observation, h₃.1, h₃.2, fires_observe] at hcandidate
    split_ifs at hcandidate with hrule
    · exact Bool.false_ne_true hcandidate
    · exact ((hfires candidate).mp hcandidate).elim hc.1 hrule
  have hnamed : second.Named := ((named_new catalogue.rules).observation o₁).observation o₂
  have hemits := (delivered_of_frees hnamed hpending hfrees).1
  exact (List.mem_filter.mp (hemits ▸ List.mem_singleton_self _ :
    .firing i₂ ∈ emissionsOf other.name (second.observation o₃).1)).1

/-- The loop of a rule delivers the incident of another one that it inhibits. -/
theorem delivered_elsewhere {rule other : Rule} (hrule : rule ∈ catalogue.rules)
    (hother : other ∈ catalogue.rules) (hin : catalogue.Inhibits rule.name other.name) :
    ∃ (states : Rules) (turns : List Turn),
      ∃ delivery ∈ (Run.run tick ⟨some ⟨catalogue, states, new catalogue.rules⟩, ∅, []⟩
        turns).delivered,
        delivery.sinks = rule.sinks ∧ delivery.emission.incident.name = other.name := by
  -- Both have been active for long enough: they fire, and the inhibitor resolves.
  let late : Int := (max rule.forDuration other.forDuration : Nat)
  let states : Rules :=
    ((∅ : Rules).insert rule.name (.pending 0)).insert other.name (.pending 0)
  let fire : Turn := ⟨rule.name, .active, late, true⟩
  let fireOther : Turn := ⟨other.name, .active, late, true⟩
  let resolve : Turn := ⟨rule.name, .inactive, late, true⟩
  have hfire {r : Rule} (h : r.forDuration ≤ max rule.forDuration other.forDuration) :
      evaluateOnce r (.pending 0) .active late =
        (.firing late, some (.firing (.firing r late))) := by
    have hlong : r.forDuration ≤ durationSince late 0 := by
      rw [durationSince]
      omega
    rw [evaluateOnce, transition, if_pos hlong]
  have hne : ¬other.name = rule.name := fun h => hin.1 h.symm
  let g₀ : Generation := ⟨catalogue, states, new catalogue.rules⟩
  let s₀ : Server := ⟨some g₀, ∅, []⟩
  let s₁ := runRule g₀ s₀ rule fire
  let g₁ := g₀.after rule fire
  let s₂ := runRule g₁ s₁ other fireOther
  let g₂ := g₁.after other fireOther
  have hstate₀ : g₀.state rule.name = .pending 0 := by
    simp [g₀, states, Generation.state, hin.1]
  have hstate₁ : g₁.state other.name = .pending 0 := by
    rw [state_after, if_neg hne]
    simp [g₀, states, Generation.state]
  have hstate₂ : g₂.state rule.name = .firing late := by
    rw [state_after, if_neg hin.1, state_after, if_pos rfl, hstate₀, hfire (le_max_left _ _)]
  have hreleased := released_of_resolved hin (tickObservation rule (g₀.state rule.name) fire)
    (tickObservation other (g₁.state other.name) fireOther)
    (tickObservation rule (g₂.state rule.name) resolve)
    ⟨rfl, by rw [hstate₀]; exact congrArg Prod.snd (hfire (le_max_left _ _))⟩
    ⟨rfl, by rw [hstate₁]; exact congrArg Prod.snd (hfire (le_max_right _ _))⟩
    ⟨rfl, by rw [hstate₂]; rfl⟩
  have hrun : Run.run tick s₀ [fire, fireOther, resolve] = runRule g₂ s₂ rule resolve := by
    have h₁ : tick s₀ fire = s₁ := tick_eq_runRule rfl hrule rfl
    have h₂ : tick s₁ fireOther = s₂ := tick_eq_runRule (running_runRule ..) hother rfl
    have h₃ : tick s₂ resolve = runRule g₂ s₂ rule resolve :=
      tick_eq_runRule (running_runRule ..) hrule rfl
    rw [Run.run_cons, h₁, Run.run_cons, h₂, Run.run_cons, h₃, Run.run_nil]
  refine ⟨states, [fire, fireOther, resolve], ⟨rule.sinks, .firing (.firing other late)⟩, ?_,
    rfl, rfl⟩
  rw [hrun, delivered_runRule]
  exact List.mem_append_right _ (List.mem_map_of_mem hreleased)

end Turns

/-- Every incident reaches exactly the sinks of the rule it names, in every order of turns, when
each rule shares its sinks with the rules it inhibits, and only then. -/
theorem routed_iff (catalogue : Catalogue) :
    (∀ resolver, Built catalogue resolver → ∀ (states stored : Rules) (turns : List Turn),
      ∀ delivery ∈ (Run.run tick ⟨some ⟨catalogue, states, resolver⟩, stored, []⟩
        turns).delivered, Routed catalogue delivery) ↔
      ∀ rule ∈ catalogue.rules, ∀ other ∈ catalogue.rules,
        catalogue.Inhibits rule.name other.name → rule.sinks.Perm other.sinks := by
  constructor
  · intro hrouted rule hrule other hother hin
    obtain ⟨states, turns, delivery, hdelivery, hsinks, hname⟩ :=
      delivered_elsewhere hrule hother hin
    obtain ⟨named, hnamed, hperm⟩ := hrouted _ (.new catalogue) states ∅ turns delivery hdelivery
    rw [hname, Catalogue.rule?_name hother] at hnamed
    rwa [hsinks, ← Option.some.inj hnamed] at hperm
  · intro hshared resolver hbuilt states stored turns
    have hstart : Delivers catalogue ⟨some ⟨catalogue, states, resolver⟩, stored, []⟩ :=
      ⟨⟨_, rfl, rfl, hbuilt.serves⟩, fun _ h => absurd h List.not_mem_nil⟩
    have hall : Run.AllSteps tick (fun _ _ => True)
        ⟨some ⟨catalogue, states, resolver⟩, stored, []⟩ turns :=
      Run.allSteps_of_forall (fun _ _ => trivial) _ turns
    exact (hall.invariant (fun _ turn h _ => h.tick hshared turn) hstart).2

/-- When the node alert resolves, the disk alert that waited for it goes to the sinks of the
node team. -/
theorem misrouted_disk :
    ¬∀ (catalogue : Catalogue) (resolver : InhibitionResolver), Built catalogue resolver →
      ∀ (states stored : Rules) (turns : List Turn),
        ∀ delivery ∈ (Run.run tick ⟨some ⟨catalogue, states, resolver⟩, stored, []⟩
          turns).delivered, Routed catalogue delivery := by
  intro h
  let team (channel : String) : SinkConfig :=
    ⟨"mattermost", some "https://ops.acme/alerts", some channel, none, none⟩
  let node : Rule := .bare "node" [team "node"] ["disk"]
  let disk : Rule := .bare "disk" [team "disk"] []
  let catalogue : Catalogue := ⟨[node, disk], by decide⟩
  let turns : List Turn := [⟨"node", .active, 0, true⟩, ⟨"node", .active, 1, true⟩,
    ⟨"disk", .active, 0, true⟩, ⟨"disk", .active, 1, true⟩, ⟨"node", .inactive, 2, true⟩]
  have hdelivered : ⟨[team "node"], .firing (.firing disk 1)⟩ ∈
      (Run.run tick ⟨some ⟨catalogue, ∅, new catalogue.rules⟩, ∅, []⟩ turns).delivered := by
    decide +kernel
  obtain ⟨rule, hrule, hperm⟩ := h catalogue _ (.new catalogue) ∅ ∅ turns _ hdelivered
  have hdisk : catalogue.rule? "disk" = some disk := by decide +kernel
  obtain rfl := Option.some.inj (hdisk.symm.trans hrule)
  exact absurd (List.perm_singleton.mp hperm) (by decide)

end Kaleidoscope.Beacon
