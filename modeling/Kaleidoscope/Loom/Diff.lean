import Kaleidoscope.Library.Duration
import Kaleidoscope.Library.Separated
import Kaleidoscope.Loom.Plan

/-!
# What a plan shows

A plan has a line for every field that differs. Sinks are shown by their number, labels and
inhibits as texts between commas, so their lines may have the same text before and after.
-/

namespace Kaleidoscope.Loom

open Beacon

/-! ## Texts of fields -/

/-- The fields that the diff covers. -/
inductive RuleField where
  | query
  | forDuration
  | interval
  | severity
  | labels
  | sinks
  | inhibits
  deriving DecidableEq, Repr

/-- The name of a field in a diff. -/
def RuleField.name : RuleField → String
  | query => "query"
  | forDuration => "for_duration"
  | interval => "interval"
  | severity => "severity"
  | labels => "labels"
  | sinks => "sinks"
  | inhibits => "inhibits"

/-- Two rules differ in a field. -/
def RuleField.Differs (before after : Rule) : RuleField → Prop
  | query => before.query ≠ after.query
  | forDuration => before.forDuration ≠ after.forDuration
  | interval => before.interval ≠ after.interval
  | severity => before.severity ≠ after.severity
  | labels => before.labels ≠ after.labels
  | sinks => before.sinks ≠ after.sinks
  | inhibits => before.inhibits ≠ after.inhibits

/-- The text of a field. -/
def RuleField.text (rule : Rule) : RuleField → String
  | query => rule.query
  | forDuration => Duration.debug rule.forDuration
  | interval => Duration.debug rule.interval
  | severity => severityLabel rule.severity
  | labels => formatLabels rule.labels
  | sinks => s!"({rule.sinks.length} sinks)"
  | inhibits => formatInhibits rule.inhibits

/-- Texts, cut at every comma that a space follows. -/
def pieces (texts : List String) : List (List Char) :=
  texts.flatMap fun text => Separated.cut ',' ' ' text.toList

/-- The pieces of labels, each written with an equals sign. -/
def labelPieces (labels : BTreeMap String) : List (List Char) :=
  pieces (labels.entries.map fun e => s!"{e.1}={e.2}")

/-- The pieces of names; no name is as good as one empty name. -/
def inhibitPieces (inhibits : List String) : List (List Char) :=
  pieces (if inhibits = [] then [""] else inhibits)

/-- The values of a field have different texts if they are different. -/
def RuleField.TellsApart (before after : Rule) : RuleField → Prop
  | labels => labelPieces before.labels ≠ labelPieces after.labels
  | sinks => before.sinks.length ≠ after.sinks.length
  | inhibits => inhibitPieces before.inhibits ≠ inhibitPieces after.inhibits
  | _ => True

theorem intercalate_eq_iff {texts texts' : List String} (h : texts ≠ []) (h' : texts' ≠ []) :
    ", ".intercalate texts = ", ".intercalate texts' ↔ pieces texts = pieces texts' := by
  rw [← String.toList_inj, String.toList_intercalate, String.toList_intercalate]
  refine (Separated.intercalate_eq_iff (by decide) ?_ ?_).trans ?_
  · simpa using h
  · simpa using h'
  · rw [List.flatMap_map, List.flatMap_map]
    rfl

theorem pieces_ne_nil {texts : List String} (h : texts ≠ []) : pieces texts ≠ [] := by
  obtain ⟨text, texts, rfl⟩ := List.exists_cons_of_ne_nil h
  rw [pieces, List.flatMap_cons]
  exact List.append_ne_nil_of_left_ne_nil (Separated.cut_ne_nil _) _

theorem bracket_inj {l r s t : String} : l ++ s ++ r = l ++ t ++ r ↔ s = t := by
  rw [← String.toList_inj, ← String.toList_inj]
  simp

/-- The text of inhibits tells their pieces. -/
theorem formatInhibits_eq_iff {a b : List String} :
    formatInhibits a = formatInhibits b ↔ inhibitPieces a = inhibitPieces b := by
  have hformat (names : List String) : formatInhibits names =
      "[" ++ ", ".intercalate (if names = [] then [""] else names) ++ "]" := by
    rw [formatInhibits]
    split_ifs <;> rfl
  have hne (names : List String) : (if names = [] then [""] else names) ≠ [] := by
    split_ifs with h
    · exact List.cons_ne_nil _ _
    · exact h
  rw [hformat, hformat, bracket_inj]
  exact intercalate_eq_iff (hne a) (hne b)

/-- A text with an equals sign in it is not empty. -/
theorem formatLabels_ne_braces {labels : BTreeMap String} (h : labels.entries ≠ []) :
    formatLabels labels ≠ "\x7b\x7d" := by
  obtain ⟨e, entries, hentries⟩ := List.exists_cons_of_ne_nil h
  have hbraces : "\x7b\x7d" = "\x7b" ++ "" ++ "\x7d" := rfl
  rw [formatLabels, if_neg h, hbraces, Ne, bracket_inj]
  intro heq
  have hmem : '=' ∈ (", ".intercalate (labels.entries.map fun e => s!"{e.1}={e.2}")).toList := by
    rw [hentries, String.toList_intercalate]
    cases entries <;> simp [toString]
  rw [heq] at hmem
  exact List.not_mem_nil hmem

/-- The text of labels tells their pieces. -/
theorem formatLabels_eq_iff {a b : BTreeMap String} :
    formatLabels a = formatLabels b ↔ labelPieces a = labelPieces b := by
  by_cases ha : a.entries = []
  · by_cases hb : b.entries = []
    · rw [formatLabels, formatLabels, if_pos ha, if_pos hb, labelPieces, labelPieces, ha, hb]
      exact iff_of_true rfl rfl
    · refine iff_of_false ?_ ?_
      · rw [formatLabels, if_pos ha]
        exact (formatLabels_ne_braces hb).symm
      · rw [labelPieces, ha]
        exact (pieces_ne_nil (by simpa using hb)).symm
  · by_cases hb : b.entries = []
    · refine iff_of_false ?_ ?_
      · rw [formatLabels.eq_1 b, if_pos hb]
        exact formatLabels_ne_braces ha
      · rw [labelPieces, labelPieces, hb]
        exact pieces_ne_nil (by simpa using ha)
    · rw [formatLabels, formatLabels, if_neg ha, if_neg hb, bracket_inj]
      exact intercalate_eq_iff (by simpa using ha) (by simpa using hb)

theorem severityLabel_injective : Function.Injective severityLabel := by
  intro a b h
  cases a <;> cases b <;> first | rfl | exact absurd h (by decide)

theorem sinksText_eq_iff {m n : Nat} : s!"({m} sinks)" = s!"({n} sinks)" ↔ m = n := by
  have htext (n : Nat) : s!"({n} sinks)" = "(" ++ Nat.repr n ++ " sinks)" := rfl
  rw [htext, htext, bracket_inj]
  constructor
  · intro h
    have hdigits : Nat.toDigits 10 m = Nat.toDigits 10 n := String.ofList_injective h
    rw [← Nat.ofDigitChars_ten_toDigits (n := m), hdigits, Nat.ofDigitChars_ten_toDigits]
  · rintro rfl
    rfl

/-- The texts of different values are different exactly if the values are told apart. -/
theorem text_ne_iff {before after : Rule} {field : RuleField} (h : field.Differs before after) :
    field.text before ≠ field.text after ↔ field.TellsApart before after := by
  cases field with
  | query => exact iff_of_true h trivial
  | forDuration => exact iff_of_true (fun heq => h (Duration.debug_injective heq)) trivial
  | interval => exact iff_of_true (fun heq => h (Duration.debug_injective heq)) trivial
  | severity => exact iff_of_true (fun heq => h (severityLabel_injective heq)) trivial
  | labels => exact formatLabels_eq_iff.not
  | sinks => exact sinksText_eq_iff.not
  | inhibits => exact formatInhibits_eq_iff.not

/-! ## Lines -/

/-- The fields in the order of the diff. -/
def RuleField.all : List RuleField :=
  [query, forDuration, interval, severity, labels, sinks, inhibits]

instance (before after : Rule) (field : RuleField) : Decidable (field.Differs before after) :=
  match field with
  | .query => inferInstanceAs (Decidable (before.query ≠ after.query))
  | .forDuration => inferInstanceAs (Decidable (before.forDuration ≠ after.forDuration))
  | .interval => inferInstanceAs (Decidable (before.interval ≠ after.interval))
  | .severity => inferInstanceAs (Decidable (before.severity ≠ after.severity))
  | .labels => inferInstanceAs (Decidable (before.labels ≠ after.labels))
  | .sinks => inferInstanceAs (Decidable (before.sinks ≠ after.sinks))
  | .inhibits => inferInstanceAs (Decidable (before.inhibits ≠ after.inhibits))

/-- The line of a field. -/
def RuleField.line (before after : Rule) (field : RuleField) : FieldChange :=
  ⟨field.name, field.text before, field.text after⟩

/-- A field is reported by its line if it differs. -/
theorem append_fieldChange {α : Type} [DecidableEq α] {before after : Rule}
    {fields : List RuleField} {lines : List FieldChange}
    (h : lines = (fields.filter (·.Differs before after)).map (RuleField.line before after))
    (field : RuleField) (text : α → String) (value : Rule → α)
    (hdiffers : field.Differs before after ↔ value before ≠ value after)
    (htext : ∀ rule, field.text rule = text (value rule)) :
    lines ++ fieldChange field.name text (value before) (value after) =
      ((fields ++ [field]).filter (·.Differs before after)).map (RuleField.line before after) := by
  rw [List.filter_append, List.map_append, h]
  by_cases heq : value before = value after
  · have hnot : ¬field.Differs before after := fun hd => hdiffers.mp hd heq
    simp [fieldChange, heq, hnot]
  · have hd : field.Differs before after := hdiffers.mpr heq
    simp [fieldChange, heq, hd, RuleField.line, htext]

theorem fields_diffRules (name : String) (before after : Rule) :
    (diffRules Duration.debug name before after).fields =
      (RuleField.all.filter (·.Differs before after)).map (RuleField.line before after) := by
  have hnil : [] = (([] : List RuleField).filter (·.Differs before after)).map
    (RuleField.line before after) := rfl
  have hquery := append_fieldChange hnil .query id Rule.query Iff.rfl fun _ => rfl
  have hfor := append_fieldChange hquery .forDuration Duration.debug Rule.forDuration Iff.rfl
    fun _ => rfl
  have hinterval := append_fieldChange hfor .interval Duration.debug Rule.interval Iff.rfl
    fun _ => rfl
  have hseverity := append_fieldChange hinterval .severity severityLabel Rule.severity Iff.rfl
    fun _ => rfl
  have hlabels := append_fieldChange hseverity .labels formatLabels Rule.labels Iff.rfl
    fun _ => rfl
  have hsinks := append_fieldChange hlabels .sinks
    (fun sinks : List SinkConfig => s!"({sinks.length} sinks)") Rule.sinks Iff.rfl fun _ => rfl
  exact append_fieldChange hsinks .inhibits formatInhibits Rule.inhibits Iff.rfl fun _ => rfl

/-- A field that differs has one line. -/
theorem filter_fields_of_differs (name : String) {before after : Rule} {field : RuleField}
    (h : field.Differs before after) :
    (diffRules Duration.debug name before after).fields.filter
        (fun line => line.field = field.name) = [field.line before after] := by
  have hfield : RuleField.all.filter (fun g => g.name = field.name) = [field] := by
    cases field <;> decide
  have hcomp : ((fun line : FieldChange => decide (line.field = field.name)) ∘
      RuleField.line before after) = fun g => decide (g.name = field.name) := rfl
  rw [fields_diffRules, List.filter_map, hcomp, List.filter_comm, hfield]
  simp [h]

/-- A line is about a field that differs. -/
theorem exists_differs_of_mem {name : String} {before after : Rule} {line : FieldChange}
    (h : line ∈ (diffRules Duration.debug name before after).fields) :
    ∃ field : RuleField, field.Differs before after ∧ line = field.line before after := by
  rw [fields_diffRules] at h
  obtain ⟨field, hfield, rfl⟩ := List.mem_map.mp h
  exact ⟨field, of_decide_eq_true (List.mem_filter.mp hfield).2, rfl⟩

/-! ## Plans -/

/-- The plan shows what applying it changes: the names that only one catalogue has, the names
whose rules differ, and one line for every field of them that differs. The texts of a line are
different exactly if the field tells the two rules apart. -/
structure PlanOutcome.Shows (tells : RuleField → Rule → Rule → Prop) (source dest : Catalogue)
    (outcome : PlanOutcome) : Prop where
  added_ascending : outcome.added.Pairwise (· < ·)
  mem_added (name : String) : name ∈ outcome.added ↔ name ∈ source.names ∧ name ∉ dest.names
  removed_ascending : outcome.removed.Pairwise (· < ·)
  mem_removed (name : String) : name ∈ outcome.removed ↔ name ∈ dest.names ∧ name ∉ source.names
  changed_ascending : (outcome.changed.map RuleChange.name).Pairwise (· < ·)
  mem_changed (name : String) : name ∈ outcome.changed.map RuleChange.name ↔
    ∃ before ∈ dest.rules, ∃ after ∈ source.rules,
      before.name = name ∧ after.name = name ∧ before ≠ after
  line {before after : Rule} {change : RuleChange} : change ∈ outcome.changed →
    before ∈ dest.rules → after ∈ source.rules → before.name = change.name →
    after.name = change.name → ∀ field : RuleField, field.Differs before after →
    ∃ l, change.fields.filter (fun line => line.field = field.name) = [l] ∧
      (l.before ≠ l.after ↔ tells field before after)
  differs_of_line {before after : Rule} {change : RuleChange} {l : FieldChange} :
    change ∈ outcome.changed → before ∈ dest.rules → after ∈ source.rules →
    before.name = change.name → after.name = change.name → l ∈ change.fields →
    ∃ field : RuleField, field.Differs before after ∧ l.field = field.name

theorem sorted_pairwise {names : List String} (h : names.Nodup) :
    (sorted names).Pairwise (· < ·) := by
  have hnodup : (sorted names).Nodup := (List.perm_insertionSort _ names).nodup_iff.mpr h
  have hle : (sorted names).Pairwise (· ≤ ·) := List.pairwise_insertionSort _ names
  exact (hle.and hnodup).imp fun h => lt_of_le_of_ne h.1 h.2

theorem changedRule_eq_some_iff {source dest : Catalogue} {name : String} {change : RuleChange}
    {debug : Nat → String} : changedRule debug source dest name = some change ↔
      ∃ before ∈ dest.rules, ∃ after ∈ source.rules, before.name = name ∧ after.name = name ∧
        before ≠ after ∧ change = diffRules debug name before after := by
  constructor
  · intro h
    rw [changedRule] at h
    split at h
    case h_1 after before hafter hbefore =>
      split_ifs at h with heq
      exact ⟨before, Catalogue.mem_of_rule? hbefore, after, Catalogue.mem_of_rule? hafter,
        Catalogue.name_of_rule? hbefore, Catalogue.name_of_rule? hafter, Ne.symm heq,
        (Option.some.inj h).symm⟩
    case h_2 => cases h
  · rintro ⟨before, hbefore, after, hafter, hname, rfl, hne, rfl⟩
    have hdest : dest.rule? after.name = some before := hname ▸ Catalogue.rule?_name hbefore
    simp only [changedRule, Catalogue.rule?_name hafter, hdest]
    exact if_neg hne.symm

theorem name_of_changedRule {source dest : Catalogue} {name : String} {change : RuleChange}
    {debug : Nat → String} (h : changedRule debug source dest name = some change) :
    change.name = name := by
  obtain ⟨before, _, after, _, _, _, _, rfl⟩ := changedRule_eq_some_iff.mp h
  rfl

/-- What a change reports is the difference of the two rules of its name. -/
theorem eq_diffRules {source dest : Catalogue} {name : String} {change : RuleChange}
    {debug : Nat → String} {before after : Rule}
    (h : changedRule debug source dest name = some change) (hbefore : before ∈ dest.rules)
    (hafter : after ∈ source.rules) (hb : before.name = change.name)
    (ha : after.name = change.name) : change = diffRules debug name before after := by
  obtain ⟨before', hbefore', after', hafter', hb', ha', _, rfl⟩ := changedRule_eq_some_iff.mp h
  have hbeq : before' = before :=
    List.inj_on_of_nodup_map dest.nodup hbefore' hbefore (hb'.trans hb.symm)
  have haeq : after' = after :=
    List.inj_on_of_nodup_map source.nodup hafter' hafter (ha'.trans ha.symm)
  rw [hbeq, haeq]

/-- A plan shows every name and every field that differs; the texts of a field are different
exactly if they tell its values apart. -/
theorem plan_shows (source dest : LoadOutcome) :
    (plan Duration.debug (.ok source) (.ok dest)).Shows
      (fun field before after => field.TellsApart before after)
      source.toCatalogue dest.toCatalogue where
  added_ascending := sorted_pairwise (source.nodup.filter _)
  mem_added name := by simp [plan, mem_sorted]
  removed_ascending := sorted_pairwise (dest.nodup.filter _)
  mem_removed name := by simp [plan, mem_sorted]
  changed_ascending := by
    rw [List.pairwise_map]
    refine (sorted_pairwise source.nodup).filterMap _ ?_
    intro a b hab change hchange change' hchange'
    rw [name_of_changedRule hchange, name_of_changedRule hchange']
    exact hab
  mem_changed name := by
    constructor
    · intro h
      obtain ⟨change, hchange, rfl⟩ := List.mem_map.mp h
      obtain ⟨name, _, hname⟩ := List.mem_filterMap.mp hchange
      rw [name_of_changedRule hname]
      obtain ⟨before, hbefore, after, hafter, hb, ha, hne, _⟩ := changedRule_eq_some_iff.mp hname
      exact ⟨before, hbefore, after, hafter, hb, ha, hne⟩
    · rintro ⟨before, hbefore, after, hafter, hb, ha, hne⟩
      have hmem : name ∈ sorted source.names :=
        mem_sorted.mpr (ha ▸ List.mem_map_of_mem hafter)
      have hchange : changedRule Duration.debug source.toCatalogue dest.toCatalogue name =
          some (diffRules Duration.debug name before after) :=
        changedRule_eq_some_iff.mpr ⟨before, hbefore, after, hafter, hb, ha, hne, rfl⟩
      exact List.mem_map.mpr ⟨_, List.mem_filterMap.mpr ⟨name, hmem, hchange⟩, rfl⟩
  line hchange hbefore hafter hb ha field hdiffers := by
    obtain ⟨name, _, hname⟩ := List.mem_filterMap.mp hchange
    rw [eq_diffRules hname hbefore hafter hb ha]
    exact ⟨_, filter_fields_of_differs name hdiffers, text_ne_iff hdiffers⟩
  differs_of_line hchange hbefore hafter hb ha hl := by
    obtain ⟨name, _, hname⟩ := List.mem_filterMap.mp hchange
    rw [eq_diffRules hname hbefore hafter hb ha] at hl
    obtain ⟨field, hdiffers, rfl⟩ := exists_differs_of_mem hl
    exact ⟨field, hdiffers, rfl⟩

/-- A catalogue of one rule, which emits to one URL. -/
def oneSink (url : String) : LoadOutcome where
  rules := [⟨"disk_full", "disk_used > 90", 60000000000, 30000000000, .critical,
    ⟨[], List.Pairwise.nil⟩, [⟨"webhook", some url, none, none, none⟩], []⟩]
  nodup := List.nodup_singleton _
  diagnostics := []

/-- A rule that moves from one sink to another one is reported as going from one sink to one
sink. -/
theorem same_number_of_sinks :
    ¬(plan Duration.debug (.ok (oneSink "https://new")) (.ok (oneSink "https://old"))).Shows
      (fun _ _ _ => True) (oneSink "https://new").toCatalogue
      (oneSink "https://old").toCatalogue := by
  intro h
  obtain ⟨l, hlines, hl⟩ := h.line (List.mem_singleton.mpr rfl) (List.mem_singleton.mpr rfl)
    (List.mem_singleton.mpr rfl) rfl rfl .sinks (by decide)
  obtain rfl : ⟨"sinks", "(1 sinks)", "(1 sinks)"⟩ = l := List.singleton_inj.mp hlines
  exact hl.mpr trivial rfl

end Kaleidoscope.Loom
