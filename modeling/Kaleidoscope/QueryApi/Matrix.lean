import Kaleidoscope.Library.Buckets
import Kaleidoscope.Pulse.Metric

/-!
# Rows to matrix series

The rows of a query are grouped by their merged labels. Within a group they keep the order in
which the store returns them, so a group ascends when those of its rows do.
-/

namespace Kaleidoscope.QueryApi

open HashMap Pulse

/-- A label set. -/
abbrev Labels := BTreeMap String

/-- One matrix series. -/
structure PromMatrixEntry where
  metric : Labels
  values : List (Nat × String)

/-- A row of the store. -/
abbrev Row := Metric × MetricPoint

/-- `merge_labels`: a point attribute wins over a resource attribute, and the name over both. -/
def mergeLabels (metric : Metric) (point : MetricPoint) : Labels :=
  let labels := BTreeMap.insertAll .empty metric.resourceAttributes
  let labels := labels.insertAll point.attributes
  labels.insert "__name__" metric.name.name

/-- `nanos_to_seconds`. -/
def nanosToSeconds (timeUnixNano : Nat) : Nat := timeUnixNano / 1000000000

/-- `format_value`, over the decimal rendering of finite values. -/
def formatValue (display : UInt64 → String) : F64 → String
  | .nan => "NaN"
  | .posInf => "+Inf"
  | .negInf => "-Inf"
  | .finite bits => display bits

/-- The label-matcher operators. -/
inductive MatchOp where
  | equal
  | notEqual
  | matches
  | notMatches
  deriving DecidableEq, Repr

/-- Whether the value of a matcher is a pattern. -/
def MatchOp.isRegex : MatchOp → Bool
  | .matches => true
  | .notMatches => true
  | _ => false

/-- One label matcher. -/
structure LabelMatcher where
  name : String
  op : MatchOp
  value : String
  deriving DecidableEq, Repr

/-- A parsed selector. -/
structure Selector where
  name : MetricName
  matchers : List LabelMatcher
  deriving DecidableEq, Repr

/-- A regex engine: the test that a pattern compiles to. -/
abbrev Compile := String → Option (String → Bool)

/-- One matcher with its compiled form. -/
structure CompiledMatcher where
  name : String
  op : MatchOp
  value : String
  regex : Option (String → Bool)
  /-- A regex matcher carries its compiled pattern. -/
  compiled : op.isRegex = regex.isSome

/-- The filter of a query. -/
structure MatcherFilter where
  matchers : List CompiledMatcher

/-- `compile_anchored`. -/
def compileAnchored (compile : Compile) (pattern : String) : Option (String → Bool) :=
  compile ("^(?:" ++ pattern ++ ")$")

/-- One turn of the loop of `build_filter`. -/
def compileMatcher (compile : Compile) (matcher : LabelMatcher) :
    Except String CompiledMatcher :=
  if h : matcher.op.isRegex then
    match compileAnchored compile matcher.value with
    | some regex => .ok ⟨matcher.name, matcher.op, matcher.value, some regex, h⟩
    | none => .error "invalid regex matcher"
  else .ok ⟨matcher.name, matcher.op, matcher.value, none, by simpa using h⟩

/-- `build_filter`. -/
def buildFilter (compile : Compile) (matchers : List LabelMatcher) :
    Except String MatcherFilter :=
  (matchers.mapM (compileMatcher compile)).map fun compiled => ⟨compiled⟩

/-- `regex_matches`. -/
def CompiledMatcher.regexMatches (matcher : CompiledMatcher) (h : matcher.op.isRegex = true)
    (actual : String) : Bool :=
  matcher.regex.get (matcher.compiled ▸ h) actual

/-- `matches`: an absent label counts as the empty string. -/
def CompiledMatcher.isMatch (matcher : CompiledMatcher) (labels : Labels) : Bool :=
  let actual := (labels.get matcher.name).getD ""
  match h : matcher.op with
  | .equal => actual == matcher.value
  | .notEqual => actual != matcher.value
  | .matches => matcher.regexMatches (h ▸ rfl) actual
  | .notMatches => !matcher.regexMatches (h ▸ rfl) actual

/-- `keep_row`. -/
def keepRow (metric : Metric) (point : MetricPoint) (filter : MatcherFilter) : Bool :=
  let labels := mergeLabels metric point
  filter.matchers.all (·.isMatch labels)

/-- The series a row belongs to, and the second in which it was observed. -/
def Row.labels (row : Row) : Labels := mergeLabels row.1 row.2

def Row.seconds (row : Row) : Nat := nanosToSeconds row.2.timeUnixNano

/-- What a row adds to its series. -/
def Row.sample (display : UInt64 → String) (row : Row) : Nat × String :=
  (row.seconds, formatValue display row.2.value)

/-- The rows grouped by their labels. -/
def grouped (display : UInt64 → String) (rows : List Row) :
    HashMap Labels (List (Nat × String)) :=
  pushAll ∅ (rows.map fun row => (row.labels, row.sample display))

/-- The order in which label sets are emitted, entry by entry. -/
def labelOrder (labels : Labels) : List (String ×ₗ String) := labels.entries.map toLex

/-- `to_matrix`. -/
def toMatrix (display : UInt64 → String) (rows : List Row) : List PromMatrixEntry :=
  let groups := grouped display rows
  let labelSets := (rows.map Row.labels).dedup.mergeSort fun a b => labelOrder a ≤ labelOrder b
  labelSets.map fun labels => ⟨labels, groups.bucket labels⟩

/-- The samples of a series are in the order of time. -/
def PromMatrixEntry.Ascends (entry : PromMatrixEntry) : Prop :=
  entry.values.Pairwise fun a b => a.1 ≤ b.1

section Order

variable (display : UInt64 → String) (rows : List Row)

/-- A series has the samples of the rows with its labels, in their order. -/
theorem bucket_grouped (labels : Labels) :
    (grouped display rows).bucket labels =
      (rows.filter fun row => row.labels = labels).map (Row.sample display) := by
  rw [grouped, bucket_pushAll, bucket_empty, List.nil_append, valuesAt, List.filterMap_map]
  induction rows with
  | nil => rfl
  | cons row rows ih =>
    rw [List.filterMap_cons, List.filter_cons, ih, Function.comp_apply]
    by_cases h : row.labels = labels <;> simp [h]

/-- There is one series for each label set that some row has. -/
theorem mem_toMatrix {entry : PromMatrixEntry} :
    entry ∈ toMatrix display rows ↔
      (∃ row ∈ rows, row.labels = entry.metric) ∧
        entry.values = (grouped display rows).bucket entry.metric := by
  simp only [toMatrix, List.mem_map, List.mem_mergeSort, List.mem_dedup]
  constructor
  · rintro ⟨_, ⟨row, hrow, rfl⟩, rfl⟩
    exact ⟨⟨row, hrow, rfl⟩, rfl⟩
  · rintro ⟨⟨row, hrow, hlabels⟩, hvalues⟩
    refine ⟨entry.metric, ⟨row, hrow, hlabels⟩, ?_⟩
    rw [← hvalues]

/-- The series ascend when rows of the same labels come in the order of their seconds. -/
theorem toMatrix_ascends_iff :
    (∀ entry ∈ toMatrix display rows, entry.Ascends) ↔
      rows.Pairwise fun a b => a.labels = b.labels → a.seconds ≤ b.seconds := by
  have hgroup (labels : Labels) :
      ((grouped display rows).bucket labels).Pairwise (fun a b => a.1 ≤ b.1) ↔
        rows.Pairwise fun a b => a.labels = labels → b.labels = labels →
          a.seconds ≤ b.seconds := by
    rw [bucket_grouped, List.pairwise_map, List.pairwise_filter]
    simp only [decide_eq_true_eq]
    rfl
  constructor
  · intro h
    rw [List.pairwise_iff_getElem]
    intro i j hi hj hij hlabels
    have hentry : ⟨rows[j].labels, (grouped display rows).bucket rows[j].labels⟩ ∈
        toMatrix display rows :=
      (mem_toMatrix display rows).mpr ⟨⟨rows[j], List.getElem_mem hj, rfl⟩, rfl⟩
    have hpairs := (hgroup rows[j].labels).mp (h _ hentry)
    exact List.pairwise_iff_getElem.mp hpairs i j hi hj hij hlabels rfl
  · intro h entry hentry
    rw [PromMatrixEntry.Ascends, ((mem_toMatrix display rows).mp hentry).2, hgroup]
    exact h.imp fun hle ha hb => hle (ha.trans hb.symm)

end Order

end Kaleidoscope.QueryApi
