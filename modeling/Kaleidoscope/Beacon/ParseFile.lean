import Kaleidoscope.Beacon.Loader
import Kaleidoscope.Beacon.Slo
import Kaleidoscope.Library.Traverse
import Kaleidoscope.Library.Utf8

/-!
# Parsing one rule file

A file declares rules, and objectives that stand for rules. The first declaration that is not
valid fails the whole file. The path of the file shows in the rules of its objectives.
-/

namespace Kaleidoscope.Beacon

open Utf8

/-- One sink of a file. -/
structure RawSink where
  kind : String
  url : Option String
  channel : Option String
  topic : Option String
  authTokenEnv : Option String

/-- One rule of a file. -/
structure RawRule where
  name : String
  query : String
  forDuration : Option String
  interval : Option String
  severity : Severity
  labels : BTreeMap String
  sinks : List RawSink
  inhibits : List String

/-- One objective of a file. -/
structure RawSlo where
  service : String
  goodEventsQuery : String
  totalEventsQuery : String
  targetAvailability : UInt64
  errorBudgetPeriod : Option String
  sinks : List RawSink

/-- What the text of a file decodes to. -/
structure FileShape where
  rules : List RawRule
  slo : List RawSlo

/-- The libraries the parser rests on. -/
structure Formats where
  /-- `toml::from_str`. -/
  toml : Text → Except String FileShape
  /-- `humantime::parse_duration`, in nanoseconds. -/
  humantime : String → Except String Nat
  /-- `{}` of a double. -/
  display : UInt64 → String
  /-- `{:.10}` of `(1.0 - target) * threshold`. -/
  fixed10 : UInt64 → UInt64 → String

/-- `default_for_duration`. -/
def defaultForDuration : String := "1m"

/-- `default_interval`. -/
def defaultInterval : String := "30s"

/-- `default_error_budget_period`. -/
def defaultErrorBudgetPeriod : String := "30d"

/-- `SUPPORTED_BUDGET_PERIOD`. -/
def supportedBudgetPeriod : Nat := 30 * 24 * 3600 * 1000000000

/-- The sink kinds that are supported. -/
def supported : List String := ["webhook", "mattermost", "zulip", "oncall"]

/-- One entry of `convert_sinks`. -/
def convertSink (owner : String) (sink : RawSink) : Except String SinkConfig :=
  if sink.kind ∉ supported then
    .error (s!"unsupported sink kind \"{sink.kind}\" (slice 04 supports: " ++
      ", ".intercalate supported ++ ")")
  else if sink.url.isNone then
    .error s!"sink kind \"{sink.kind}\" requires \"url\" ({owner})"
  else if sink.kind = "zulip" ∧ sink.topic.isNone then
    .error s!"sink kind \"zulip\" requires \"topic\" ({owner})"
  else .ok ⟨sink.kind, sink.url, sink.channel, sink.topic, sink.authTokenEnv⟩

/-- `convert_sinks`. -/
def convertSinks (rawSinks : List RawSink) (owner : String) : Except String (List SinkConfig) :=
  rawSinks.mapM (convertSink owner)

/-- `target > 0.0 && target < 1.0` of a double. -/
def properFraction (target : UInt64) : Bool :=
  0 < target.toNat && target.toNat < 0x3FF0000000000000

section Suggestion

/-- What follows the first occurrence of a text. -/
def afterNeedle (needle : Text) : Text → Option Text
  | [] => if needle = [] then some [] else none
  | c :: cs =>
    if needle.isPrefixOf (c :: cs) then some ((c :: cs).drop needle.length)
    else afterNeedle needle cs

/-- `BLESSED_FIELDS`. -/
def blessedFields : List String :=
  ["name", "query", "for_duration", "interval", "severity", "labels", "sinks", "kind", "url",
    "inhibits", "channel", "topic", "auth_token_env", "service", "good_events_query",
    "total_events_query", "target_availability", "error_budget_period"]

/-- A row of the table of edit distances, from the row above and the entry to its left. -/
def fillRow (c : Char) : Text → List Nat → Nat → List Nat
  | d :: b, diagonal :: above :: prev, left =>
    let cost := if c = d then 0 else 1
    let entry := min (min (above + 1) (left + 1)) (diagonal + cost)
    entry :: fillRow c b (above :: prev) entry
  | _, _, _ => []

/-- `levenshtein`. -/
def levenshtein (a b : Text) : Nat :=
  if a = [] then b.length
  else if b = [] then a.length
  else
    let last := a.foldl (fun prev c =>
      let first := prev.headD 0 + 1
      first :: fillRow c b prev first) (List.range (b.length + 1))
    last.getLastD 0

/-- `nearest_blessed_match`. -/
def nearestBlessedMatch (bad : Text) : Option String :=
  let best := blessedFields.foldl (fun best candidate =>
    let distance := levenshtein bad candidate.toList
    if 3 < distance then best
    else
      match best with
      | none => some (candidate, distance)
      | some (_, d) => if distance < d then some (candidate, distance) else best) none
  best.map Prod.fst

/-- The character around the name of a field in the messages of the decoder. -/
def backtick : Char := Char.ofNat 96

/-- `sniff_unknown_field_suggestion`. -/
def sniffUnknownFieldSuggestion (message : String) : Option String := do
  let after ← afterNeedle ("unknown field ".toList ++ [backtick]) message.toList
  if backtick ∈ after then nearestBlessedMatch (after.takeWhile (· ≠ backtick)) else none

end Suggestion

namespace Formats

variable (formats : Formats)

/-- `parse_duration`. -/
def parseDuration (raw field : String) : Except String Nat :=
  (formats.humantime raw).mapError fun err =>
    s!"invalid {field} value \"{raw}\": {err} (expected e.g. \"30s\", \"5m\", \"1h\")"

/-- `into_rule`. -/
def intoRule (raw : RawRule) : Except String Rule := do
  let forDuration ←
    formats.parseDuration (raw.forDuration.getD defaultForDuration) "for_duration"
  let interval ← formats.parseDuration (raw.interval.getD defaultInterval) "interval"
  let sinks ← convertSinks raw.sinks s!"rule \"{raw.name}\""
  return ⟨raw.name, raw.query, forDuration, interval, raw.severity, raw.labels, sinks,
    raw.inhibits⟩

/-- `into_slo`. -/
def intoSlo (sourcePath : String) (raw : RawSlo) : Except String Slo := do
  if !properFraction raw.targetAvailability then
    throw (s!"invalid target_availability {formats.display raw.targetAvailability} (must be " ++
      s!"strictly greater than 0 and strictly less than 1) in SLO \"{raw.service}\"")
  let period := raw.errorBudgetPeriod.getD defaultErrorBudgetPeriod
  let budget ← formats.parseDuration period "error_budget_period"
  if budget ≠ supportedBudgetPeriod then
    throw (s!"unsupported error_budget_period \"{period}\" (only \"30d\" is supported at v0) " ++
      s!"in SLO \"{raw.service}\"")
  let sinks ← convertSinks raw.sinks s!"SLO \"{raw.service}\""
  return ⟨raw.service, raw.goodEventsQuery, raw.totalEventsQuery, raw.targetAvailability, budget,
    sinks, some sourcePath⟩

/-- What a path reads as. -/
def lossy (path : Bytes) : String := String.ofList (fromUtf8Lossy path)

/-- The rules that a decoded file declares: its own, then those of its objectives. -/
def declared (sourcePath : String) (parsed : FileShape) : Except String (List Rule) := do
  let rules ← parsed.rules.mapM formats.intoRule
  let slos ← parsed.slo.mapM (formats.intoSlo sourcePath)
  return rules ++ slos.flatMap (synthesiseSlo formats.fixed10)

/-- `parse_file`, of the bytes of the file. -/
def parseFile (path content : Bytes) : Except LoaderDiagnostic (List Rule) :=
  match fromUtf8 content with
  | none => .error ⟨lossy path, "read failed: stream did not contain valid UTF-8", none⟩
  | some text =>
    match formats.toml text with
    | .error raw => .error ⟨lossy path, raw, sniffUnknownFieldSuggestion raw⟩
    | .ok parsed =>
      (formats.declared (lossy path) parsed).mapError fun message => ⟨lossy path, message, none⟩

/-- A file that declares an objective. -/
def HasSlo (content : Bytes) : Prop :=
  ∃ text parsed, fromUtf8 content = some text ∧ formats.toml text = .ok parsed ∧ parsed.slo ≠ []

variable {formats}

/-- The path of an objective does not decide whether it is valid. -/
theorem intoSlo_readFrom (raw : RawSlo) (source source' : String) :
    formats.intoSlo source' raw = (formats.intoSlo source raw).map (·.readFrom source') := by
  simp only [intoSlo]
  split_ifs
  · rfl
  · cases formats.parseDuration (raw.errorBudgetPeriod.getD defaultErrorBudgetPeriod)
      "error_budget_period" with
    | error e => rfl
    | ok budget =>
      simp only [bind, Except.bind]
      split_ifs
      · rfl
      · cases convertSinks raw.sinks s!"SLO \"{raw.service}\"" <;> rfl

/-- Objectives that are read from another file are the same but for their source. -/
theorem mapM_intoSlo_readFrom (raws : List RawSlo) (source source' : String) :
    raws.mapM (formats.intoSlo source') =
      (raws.mapM (formats.intoSlo source)).map fun slos => slos.map (·.readFrom source') := by
  induction raws with
  | nil => rfl
  | cons raw raws ih =>
    rw [List.mapM_cons, List.mapM_cons, intoSlo_readFrom raw source source', ih]
    cases formats.intoSlo source raw with
    | error e => rfl
    | ok slo => cases raws.mapM (formats.intoSlo source) <;> rfl

/-- What it takes for a file to parse. -/
theorem parseFile_eq_ok_iff {path content : Bytes} {rules : List Rule} :
    formats.parseFile path content = .ok rules ↔
      ∃ text parsed hand slos, fromUtf8 content = some text ∧ formats.toml text = .ok parsed ∧
        parsed.rules.mapM formats.intoRule = .ok hand ∧
          parsed.slo.mapM (formats.intoSlo (lossy path)) = .ok slos ∧
            hand ++ slos.flatMap (synthesiseSlo formats.fixed10) = rules := by
  constructor
  · intro h
    cases htext : fromUtf8 content with
    | none =>
      rw [parseFile, htext] at h
      cases h
    | some text =>
      cases htoml : formats.toml text with
      | error raw =>
        simp only [parseFile, htext, htoml] at h
        cases h
      | ok parsed =>
        simp only [parseFile, htext, htoml, declared, bind, Except.bind] at h
        cases hhand : parsed.rules.mapM formats.intoRule with
        | error e =>
          rw [hhand] at h
          cases h
        | ok hand =>
          cases hslos : parsed.slo.mapM (formats.intoSlo (lossy path)) with
          | error e =>
            simp only [hhand, hslos] at h
            cases h
          | ok slos =>
            simp only [hhand, hslos] at h
            exact ⟨text, parsed, hand, slos, rfl, htoml, hhand, hslos, Except.ok.inj h⟩
  · rintro ⟨text, parsed, hand, slos, htext, htoml, hhand, hslos, rfl⟩
    simp only [parseFile, htext, htoml, declared, bind, Except.bind, hhand, hslos]
    rfl

/-- The file of an objective does not show in the names of its rules. -/
theorem names_flatMap_synthesiseSlo (slos : List Slo) (source source' : String) :
    ((slos.map (·.readFrom source')).flatMap (synthesiseSlo formats.fixed10)).map Rule.name =
      ((slos.map (·.readFrom source)).flatMap (synthesiseSlo formats.fixed10)).map Rule.name := by
  simp only [List.flatMap_map, List.map_flatMap]
  rfl

/-- Rules of objectives tell the files of the objectives apart. -/
theorem flatMap_synthesiseSlo_eq_iff (slos : List Slo) {source source' : String} :
    (slos.map (·.readFrom source')).flatMap (synthesiseSlo formats.fixed10) =
        (slos.map (·.readFrom source)).flatMap (synthesiseSlo formats.fixed10) ↔
      (slos ≠ [] → source' = source) := by
  cases slos with
  | nil => simp
  | cons slo slos =>
    refine ⟨fun h _ => ?_, fun h => by rw [h (List.cons_ne_nil _ _)]⟩
    rw [List.map_cons, List.map_cons, List.flatMap_cons, List.flatMap_cons] at h
    exact (synthesiseSlo_readFrom_eq_iff _ slo).mp (List.append_inj_left h rfl)

/-- A file that moves declares rules of the same names, and the same rules unless it declares an
objective and reads as another path. -/
theorem parseFile_moved {path path' content : Bytes} {rules : List Rule}
    (h : formats.parseFile path content = .ok rules) :
    ∃ rules', formats.parseFile path' content = .ok rules' ∧
      rules'.map Rule.name = rules.map Rule.name ∧
      (rules' = rules ↔ (formats.HasSlo content → lossy path' = lossy path)) := by
  obtain ⟨text, parsed, hand, slos, htext, htoml, hhand, hslos, rfl⟩ := parseFile_eq_ok_iff.mp h
  have hsame : slos = slos.map (·.readFrom (lossy path)) := by
    have hagain : parsed.slo.mapM (formats.intoSlo (lossy path)) = _ :=
      mapM_intoSlo_readFrom parsed.slo (lossy path) (lossy path)
    rw [hslos] at hagain
    exact Except.ok.inj hagain
  have hmoved : parsed.slo.mapM (formats.intoSlo (lossy path')) =
      .ok (slos.map (·.readFrom (lossy path'))) := by
    rw [mapM_intoSlo_readFrom parsed.slo (lossy path), hslos]
    rfl
  have hslo : formats.HasSlo content ↔ slos ≠ [] := by
    rw [← List.length_pos_iff, ← (Traverse.forall₂_of_mapM_ok hslos).length_eq, List.length_pos_iff]
    constructor
    · rintro ⟨text', parsed', htext', htoml', hne⟩
      obtain rfl := Option.some.inj (htext.symm.trans htext')
      obtain rfl := Except.ok.inj (htoml.symm.trans htoml')
      exact hne
    · exact fun hne => ⟨text, parsed, htext, htoml, hne⟩
  refine ⟨_, parseFile_eq_ok_iff.mpr ⟨text, parsed, hand, _, htext, htoml, hhand, hmoved, rfl⟩,
    ?_, ?_⟩
  · rw [List.map_append, List.map_append, names_flatMap_synthesiseSlo slos (lossy path), ← hsame]
  · rw [List.append_cancel_left_eq, hslo, ← flatMap_synthesiseSlo_eq_iff slos, ← hsame]

end Formats

end Kaleidoscope.Beacon
