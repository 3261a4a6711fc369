import Kaleidoscope.Loom.Apply

/-!
# Planning a change of the catalogue

The plan compares the rules that the two directories declare, by name.
-/

namespace Kaleidoscope.Loom

open Utf8 Beacon

/-- One field that differs. -/
structure FieldChange where
  field : String
  before : String
  after : String

/-- The fields in which two rules of one name differ. -/
structure RuleChange where
  name : String
  fields : List FieldChange

/-- What `plan` reports. -/
structure PlanOutcome where
  added : List String
  removed : List String
  changed : List RuleChange
  diagnosticsFrom : List LoaderDiagnostic
  diagnosticsTo : List LoaderDiagnostic
  fatal : Option String

/-- `severity_label`. -/
def severityLabel : Severity → String
  | .info => "info"
  | .warning => "warning"
  | .critical => "critical"

/-- `format_labels`. -/
def formatLabels (labels : BTreeMap String) : String :=
  if labels.entries = [] then "\x7b\x7d"
  else
    "\x7b" ++ ", ".intercalate (labels.entries.map fun e => s!"{e.1}={e.2}") ++ "\x7d"

/-- `format_inhibits`. -/
def formatInhibits (inhibits : List String) : String :=
  if inhibits = [] then "[]" else "[" ++ ", ".intercalate inhibits ++ "]"

/-- A field is reported if it differs. -/
def fieldChange {α : Type} [DecidableEq α] (field : String) (text : α → String)
    (before after : α) : List FieldChange :=
  if before = after then [] else [⟨field, text before, text after⟩]

-- `{:?}` of a duration.
variable (debug : Nat → String)

/-- `diff_rules`. -/
def diffRules (name : String) (before after : Rule) : RuleChange where
  name := name
  fields :=
    fieldChange "query" id before.query after.query ++
      fieldChange "for_duration" debug before.forDuration after.forDuration ++
      fieldChange "interval" debug before.interval after.interval ++
      fieldChange "severity" severityLabel before.severity after.severity ++
      fieldChange "labels" formatLabels before.labels after.labels ++
      fieldChange "sinks" (fun sinks => s!"({sinks.length} sinks)") before.sinks after.sinks ++
      fieldChange "inhibits" formatInhibits before.inhibits after.inhibits

/-- The names in ascending order. -/
def sorted (names : List String) : List String := names.insertionSort (· ≤ ·)

/-- The rules of one name in both catalogues, if they differ. -/
def changedRule (source dest : Catalogue) (name : String) : Option RuleChange :=
  match source.rule? name, dest.rule? name with
  | some after, some before =>
    if after = before then none else some (diffRules debug name before after)
  | _, _ => none

/-- `plan`, of what the two directories load to. -/
def plan (source dest : Except LoaderError LoadOutcome) : PlanOutcome :=
  match source, dest with
  | .ok source, .ok dest =>
    { added := sorted (source.names.filter fun name => name ∉ dest.names)
      removed := sorted (dest.names.filter fun name => name ∉ source.names)
      changed := (sorted source.names).filterMap (changedRule debug source.toCatalogue
        dest.toCatalogue)
      diagnosticsFrom := source.diagnostics
      diagnosticsTo := dest.diagnostics
      fatal := none }
  | .error a, .error b =>
    ⟨[], [], [], [], [], some s!"from: {displayError a}; to: {displayError b}"⟩
  | .error a, .ok dest =>
    ⟨[], [], [], [], dest.diagnostics, some s!"from: {displayError a}"⟩
  | .ok source, .error b =>
    ⟨[], [], [], source.diagnostics, [], some s!"to: {displayError b}"⟩

/-- The plan reports no rule. -/
def PlanOutcome.NoChange (outcome : PlanOutcome) : Prop :=
  outcome.added = [] ∧ outcome.removed = [] ∧ outcome.changed = []

theorem mem_sorted {names : List String} {name : String} : name ∈ sorted names ↔ name ∈ names :=
  List.mem_insertionSort _

theorem sorted_nil : sorted [] = [] := rfl

variable {debug}

/-- A rule that both catalogues have is reported exactly if it differs. -/
theorem changedRule_eq_none_iff {source dest : Catalogue} {after before : Rule}
    (hafter : after ∈ source.rules) (hbefore : before ∈ dest.rules)
    (hname : before.name = after.name) :
    changedRule debug source dest after.name = none ↔ before = after := by
  have hsource : source.rule? after.name = some after := Catalogue.rule?_name hafter
  have hdest : dest.rule? after.name = some before := by
    rw [← hname]
    exact Catalogue.rule?_name hbefore
  simp only [changedRule, hsource, hdest]
  split_ifs with heq
  · exact iff_of_true rfl heq.symm
  · exact iff_of_false (fun h => nomatch h) fun h => heq h.symm

/-- Between catalogues with the same names the plan reports nothing exactly if they have the
same rules. -/
theorem noChange_plan_iff {source dest : LoadOutcome}
    (hnames : dest.rules.map Rule.name = source.rules.map Rule.name) :
    (plan debug (.ok source) (.ok dest)).NoChange ↔ dest.rules = source.rules := by
  have hsame : dest.names = source.names := hnames
  have hlength : dest.rules.length = source.rules.length := by
    simpa only [List.length_map] using congrArg List.length hnames
  have hnone : (source.names.filter fun name => name ∉ source.names) = [] := by simp
  simp only [plan, PlanOutcome.NoChange, hsame, hnone, sorted_nil, true_and,
    List.filterMap_eq_nil_iff, mem_sorted]
  have hname (i : Nat) (hs : i < source.rules.length) (hd : i < dest.rules.length) :
      dest.rules[i].name = source.rules[i].name := by
    have := List.getElem_of_eq hnames (by simpa using hd)
    simpa only [List.getElem_map] using this
  constructor
  · intro h
    refine List.ext_getElem hlength fun i hd hs => ?_
    have hmem : source.rules[i].name ∈ source.names :=
      List.mem_map_of_mem (List.getElem_mem hs)
    exact (changedRule_eq_none_iff (List.getElem_mem hs) (List.getElem_mem hd)
      (hname i hs hd)).mp (h _ hmem)
  · intro h name hmem
    obtain ⟨rule, hrule, rfl⟩ := List.mem_map.mp hmem
    exact (changedRule_eq_none_iff hrule (h ▸ hrule) rfl).mpr rfl

end Kaleidoscope.Loom
