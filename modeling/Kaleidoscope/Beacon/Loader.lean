import Kaleidoscope.Beacon.StateMachine
import Kaleidoscope.Library.HashMap

/-!
# The rule loader

The files of a directory are merged into one catalogue. A broken file is reported and
skipped; of rules that share a name none is kept.
-/

namespace Kaleidoscope.Beacon

open HashMap

/-- One per failed file, and one per name that collides. -/
structure LoaderDiagnostic where
  file : String
  message : String
  suggestion : Option String
  deriving DecidableEq

/-- Operator-readable summary. -/
def LoaderDiagnostic.display (diagnostic : LoaderDiagnostic) : String :=
  match diagnostic.suggestion with
  | some suggestion =>
    s!"{diagnostic.file}: {diagnostic.message}\n    did you mean \"{suggestion}\"?"
  | none => s!"{diagnostic.file}: {diagnostic.message}"

/-- Hard failure. -/
inductive LoaderError where
  | directoryNotReadable (path message : String)
  deriving DecidableEq, Repr

/-- A rule catalogue: every rule has a name of its own. -/
structure Catalogue where
  rules : List Rule
  nodup : (rules.map Rule.name).Nodup

namespace Catalogue

/-- The names of the rules. -/
def names (catalogue : Catalogue) : List String := catalogue.rules.map Rule.name

/-- One rule of a catalogue inhibits another one. -/
def Inhibits (catalogue : Catalogue) (candidate targetName : String) : Prop :=
  candidate ≠ targetName ∧
    ∃ rule ∈ catalogue.rules, rule.name = candidate ∧ targetName ∈ rule.inhibits

instance (catalogue : Catalogue) (candidate targetName : String) :
    Decidable (catalogue.Inhibits candidate targetName) :=
  inferInstanceAs (Decidable (_ ∧ ∃ rule ∈ catalogue.rules, _))

/-- The rule of a name. -/
def rule? (catalogue : Catalogue) (ruleName : String) : Option Rule :=
  catalogue.rules.find? fun rule => rule.name = ruleName

theorem name_of_rule? {catalogue : Catalogue} {ruleName : String} {rule : Rule}
    (h : catalogue.rule? ruleName = some rule) : rule.name = ruleName := by
  have := List.find?_some h
  exact of_decide_eq_true this

theorem mem_of_rule? {catalogue : Catalogue} {ruleName : String} {rule : Rule}
    (h : catalogue.rule? ruleName = some rule) : rule ∈ catalogue.rules :=
  List.mem_of_find?_eq_some h

/-- A rule is the one of its name. -/
theorem rule?_name {catalogue : Catalogue} {rule : Rule} (h : rule ∈ catalogue.rules) :
    catalogue.rule? rule.name = some rule := by
  cases hfind : catalogue.rule? rule.name with
  | none => exact absurd (List.find?_eq_none.mp hfind rule h) (by simp)
  | some other =>
    rw [List.inj_on_of_nodup_map catalogue.nodup (mem_of_rule? hfind) h (name_of_rule? hfind)]

end Catalogue

/-- Result of attempting to load one rule directory. -/
structure LoadOutcome extends Catalogue where
  diagnostics : List LoaderDiagnostic

namespace LoadOutcome

/-- At least one rule loaded. -/
def hasAnyRules (outcome : LoadOutcome) : Bool := !outcome.rules.isEmpty

/-- Some file failed to parse, or some name collided. -/
def hasDiagnostics (outcome : LoadOutcome) : Bool := !outcome.diagnostics.isEmpty

end LoadOutcome

/-- What parsing the files of a directory gave, in the order of their paths. -/
abbrev Parsed := Except LoaderError (List (String × Except LoaderDiagnostic (List Rule)))

/-- What has been merged so far, and the file each name first came from. -/
structure Merged where
  rules : List Rule
  diagnostics : List LoaderDiagnostic
  origin : HashMap String String

namespace Merged

/-- The file a name first came from is kept. -/
def recordOrigin (path : String) (origin : HashMap String String) (rule : Rule) :
    HashMap String String :=
  origin.upsert rule.name path id

/-- The loop of `load_rules` over the parsed files. -/
def file (merged : Merged) (file : String × Except LoaderDiagnostic (List Rule)) : Merged :=
  match file.2 with
  | .ok rules => { merged with
      rules := merged.rules ++ rules
      origin := rules.foldl (recordOrigin file.1) merged.origin }
  | .error diagnostic => { merged with diagnostics := merged.diagnostics ++ [diagnostic] }

/-- The names that more than one rule has, in ascending order. -/
def duplicates (merged : Merged) : List String :=
  let names := merged.rules.map Rule.name
  (names.filter fun name => 1 < names.count name).dedup.insertionSort (· ≤ ·)

/-- The diagnostic for a name that collides. -/
def collision (origin : HashMap String String) (name : String) : LoaderDiagnostic where
  file := (origin.lookup name).getD ""
  message := s!"duplicate rule name \"{name}\": the merged catalogue holds more than one " ++
    s!"rule named \"{name}\" (a synthesised SLO rule and a hand-authored rule, or two " ++
    "SLOs, collide); rename one so neither is silently shadowed"
  suggestion := none

/-- The rules of a name that collides are reported and dropped. -/
def drop (merged : Merged) (name : String) : Merged :=
  { merged with
    diagnostics := merged.diagnostics ++ [collision merged.origin name]
    rules := merged.rules.filter fun rule => rule.name ≠ name }

/-- `detect_duplicate_names`. -/
def detectDuplicateNames (merged : Merged) : Merged := merged.duplicates.foldl drop merged

theorem foldl_drop_rules (merged : Merged) (names : List String) :
    (names.foldl drop merged).rules = merged.rules.filter fun rule => rule.name ∉ names := by
  induction names generalizing merged with
  | nil => simp
  | cons name names ih =>
    rw [List.foldl_cons, ih, drop, List.filter_filter]
    apply List.filter_congr
    intro rule _
    simp [Bool.and_comm]

/-- Each name that collides adds its diagnostic. -/
theorem foldl_drop_diagnostics (merged : Merged) (names : List String) :
    (names.foldl drop merged).diagnostics =
      merged.diagnostics ++ names.map (collision merged.origin) := by
  induction names generalizing merged with
  | nil => simp
  | cons name names ih =>
    rw [List.foldl_cons, ih, drop, List.append_assoc]
    rfl

theorem mem_duplicates {merged : Merged} {name : String} :
    name ∈ merged.duplicates ↔ 1 < (merged.rules.map Rule.name).count name := by
  rw [duplicates, List.mem_insertionSort, List.mem_dedup, List.mem_filter, decide_eq_true_iff]
  constructor
  · exact fun h => h.2
  · exact fun h => ⟨List.count_pos_iff.mp (by omega), h⟩

/-- No two of the rules that are left share a name. -/
theorem nodup_detectDuplicateNames (merged : Merged) :
    (merged.detectDuplicateNames.rules.map Rule.name).Nodup := by
  rw [detectDuplicateNames, foldl_drop_rules, List.nodup_iff_count_le_one]
  intro name
  by_cases hmany : name ∈ merged.duplicates
  · rw [List.count_eq_zero.mpr]
    · exact Nat.zero_le 1
    · intro hmem
      obtain ⟨rule, hrule, rfl⟩ := List.mem_map.mp hmem
      exact of_decide_eq_true (List.mem_filter.mp hrule).2 hmany
  · refine le_trans (List.Sublist.count_le name (List.filter_sublist.map Rule.name)) ?_
    rw [mem_duplicates] at hmany
    omega

end Merged

/-- `load_rules`, after the files have been read and parsed. -/
def loadRules (parsed : Parsed) : Except LoaderError LoadOutcome :=
  match parsed with
  | .error error => .error error
  | .ok files =>
    let merged := (files.foldl Merged.file ⟨[], [], ∅⟩).detectDuplicateNames
    .ok ⟨⟨merged.rules, Merged.nodup_detectDuplicateNames _⟩, merged.diagnostics⟩

/-- A file that holds a catalogue is loaded as that catalogue. -/
theorem loadRules_catalogue (path : String) (catalogue : Catalogue) :
    loadRules (.ok [(path, .ok catalogue.rules)]) = .ok ⟨catalogue, []⟩ := by
  let merged := Merged.file ⟨[], [], ∅⟩ (path, .ok catalogue.rules)
  have hnone : merged.duplicates = [] := by
    rw [List.eq_nil_iff_forall_not_mem]
    intro name hname
    rw [Merged.mem_duplicates] at hname
    have := List.nodup_iff_count_le_one.mp catalogue.nodup name
    exact absurd hname (not_lt.mpr this)
  have hmerged : merged.detectDuplicateNames = merged := by
    rw [Merged.detectDuplicateNames, hnone, List.foldl_nil]
  have hrules : merged.detectDuplicateNames.rules = catalogue.rules := by
    rw [hmerged]
    rfl
  have hdiagnostics : merged.detectDuplicateNames.diagnostics = [] := by
    rw [hmerged]
    rfl
  obtain ⟨rules, hnodup⟩ := catalogue
  simp only [loadRules, List.foldl_cons, List.foldl_nil, Except.ok.injEq, LoadOutcome.mk.injEq,
    Catalogue.mk.injEq]
  exact ⟨hrules, hdiagnostics⟩

end Kaleidoscope.Beacon
