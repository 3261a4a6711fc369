import Kaleidoscope.Beacon.StateStore
import Kaleidoscope.Library.BTreeMap
import Kaleidoscope.Library.Bracketed

/-!
# Rules and their state machine

A rule is inactive, pending while its condition has not held long enough, or firing. Only
the moves into and out of firing emit an incident.
-/

namespace Kaleidoscope.Beacon

/-- Severity of an alert. -/
inductive Severity where
  | info
  | warning
  | critical
  deriving DecidableEq, Repr

/-- Operator-authored sink configuration. -/
structure SinkConfig where
  kind : String
  url : Option String
  channel : Option String
  topic : Option String
  authTokenEnv : Option String
  deriving DecidableEq, Repr

/-- A single alert rule; durations are nanoseconds. -/
structure Rule where
  /-- Stable identifier. -/
  name : String
  query : String
  /-- How long the condition must hold before the rule fires. -/
  forDuration : Nat
  interval : Nat
  severity : Severity
  labels : BTreeMap String
  /-- Where the incidents of the rule are emitted. -/
  sinks : List SinkConfig
  /-- Names of rules whose firing is suppressed while this rule is firing. -/
  inhibits : List String
  deriving DecidableEq

/-- A rule of which only the relations matter. -/
def Rule.bare (name : String) (sinks : List SinkConfig) (inhibits : List String) : Rule :=
  ⟨name, "", 0, 0, .info, .empty, sinks, inhibits⟩

/-- Operator-visible firing record. -/
structure Incident where
  name : String
  query : String
  severity : Severity
  labels : BTreeMap String
  startedAt : Int
  /-- Present when the incident is resolved. -/
  resolvedAt : Option Int
  deriving DecidableEq

/-- The incident of a rule whose condition has held since a time. -/
def Incident.firing (rule : Rule) (startedAt : Int) : Incident :=
  ⟨rule.name, rule.query, rule.severity, rule.labels, startedAt, none⟩

/-- The incident of a rule whose condition went away. -/
def Incident.resolved (rule : Rule) (startedAt resolvedAt : Int) : Incident :=
  ⟨rule.name, rule.query, rule.severity, rule.labels, startedAt, some resolvedAt⟩

/-- What the backend said for the query of a rule. -/
inductive QueryOutcome where
  | active
  | inactive
  deriving DecidableEq, Repr

/-- What a transition may emit. -/
inductive Emission where
  | firing (incident : Incident)
  | resolved (incident : Incident)
  deriving DecidableEq

/-- The incident of an emission. -/
def Emission.incident : Emission → Incident
  | .firing incident => incident
  | .resolved incident => incident

/-- Whether an emission announces that a rule fires. -/
def Emission.isFiring : Emission → Bool
  | .firing _ => true
  | .resolved _ => false

/-- Whether a rule is firing in a state. -/
def RuleState.isFiring : RuleState → Bool
  | .firing _ => true
  | _ => false

/-- `duration_since(..).unwrap_or_default()`. -/
def durationSince (now since : Int) : Nat := (now - since).toNat

/-- `transition`. -/
def transition (state : RuleState) (outcome : QueryOutcome) (rule : Rule) (now : Int) :
    RuleState × Option Emission :=
  match state, outcome with
  | .inactive, .inactive => (.inactive, none)
  | .inactive, .active => (.pending now, none)
  | .pending _, .inactive => (.inactive, none)
  | .pending since, .active =>
    if rule.forDuration ≤ durationSince now since then
      (.firing now, some (.firing (.firing rule now)))
    else (.pending since, none)
  | .firing since, .active => (.firing since, none)
  | .firing since, .inactive => (.inactive, some (.resolved (.resolved rule since now)))

/-- An emission changes whether the rule is firing, and says so in the name of the rule. -/
theorem transition_emits {state : RuleState} {outcome : QueryOutcome} {rule : Rule} {now : Int}
    {e : Emission} (h : (transition state outcome rule now).2 = some e) :
    e.incident.name = rule.name ∧ (transition state outcome rule now).1.isFiring = e.isFiring ∧
      state.isFiring = !e.isFiring := by
  cases state <;> cases outcome <;> simp only [transition] at h ⊢
  case pending.active since =>
    split_ifs at h ⊢
    obtain rfl := Option.some.inj h
    exact ⟨rfl, rfl, rfl⟩
  case firing.inactive since =>
    obtain rfl := Option.some.inj h
    exact ⟨rfl, rfl, rfl⟩
  all_goals cases h

/-- Without an emission the rule is firing as before. -/
theorem transition_silent {state : RuleState} {outcome : QueryOutcome} {rule : Rule} {now : Int}
    (h : (transition state outcome rule now).2 = none) :
    (transition state outcome rule now).1.isFiring = state.isFiring := by
  cases state <;> cases outcome <;> simp only [transition] at h ⊢
  case pending.active since =>
    split_ifs at h ⊢
    rfl
  case firing.inactive since => cases h
  all_goals rfl

/-- The emissions of a rule in a stream. -/
def emissionsOf (ruleName : String) (es : List Emission) : List Emission :=
  es.filter fun e => e.incident.name = ruleName

theorem emissionsOf_append (ruleName : String) (es es' : List Emission) :
    emissionsOf ruleName (es ++ es') = emissionsOf ruleName es ++ emissionsOf ruleName es' :=
  List.filter_append ..

/-- The emissions of a rule fire and resolve in turn, firing first. -/
def AlternatesFor (ruleName : String) (es : List Emission) : Prop :=
  Bracketed.Alternates Emission.isFiring (emissionsOf ruleName es)

instance (ruleName : String) (es : List Emission) : Decidable (AlternatesFor ruleName es) :=
  inferInstanceAs (Decidable (Bracketed.Alternates _ _))

/-- A rule without emissions alternates. -/
theorem alternatesFor_all {es : List Emission}
    (h : ∀ ruleName ∈ es.map fun e => e.incident.name, AlternatesFor ruleName es)
    (ruleName : String) : AlternatesFor ruleName es := by
  by_cases hmem : ruleName ∈ es.map fun e => e.incident.name
  · exact h ruleName hmem
  · have hnone : emissionsOf ruleName es = [] := by
      rw [emissionsOf, List.filter_eq_nil_iff]
      intro e he heq
      exact hmem (List.mem_map.mpr ⟨e, he, of_decide_eq_true heq⟩)
    rw [AlternatesFor, hnone]
    exact Bracketed.alternates_nil _

/-- Whether the last emission of a rule in a stream is that it fires. -/
def lastFires (ruleName : String) (es : List Emission) : Bool :=
  Bracketed.isOpen Emission.isFiring (emissionsOf ruleName es)

end Kaleidoscope.Beacon
