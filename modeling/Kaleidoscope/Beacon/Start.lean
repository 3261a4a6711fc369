import Kaleidoscope.Alerting.Collision
import Kaleidoscope.Beacon.ParseFile

/-!
# The start of a loop

The loop of a rule builds its sinks and its ticker before it takes its first turn. What the loader
accepts has sinks that can be built. An interval of no time is accepted as well, and no ticker has
one.
-/

namespace Kaleidoscope.Beacon

open Traverse Utf8

/-- The sink adapters. -/
inductive SinkAdapter where
  | webhook (url : String)
  | mattermost (url : String) (channel : Option String)
  | zulip (url topic : String)
  | oncall (url : String) (bearerToken : Option String)
  deriving DecidableEq, Repr

/-- A timer of `tokio`, which has to tick in some time. -/
structure Ticker where
  period : Nat
  pos : 0 < period
  deriving DecidableEq, Repr

/-- `tokio::time::interval`, which panics on a period of no time. -/
def Ticker.interval (period : Nat) : Option Ticker :=
  if h : 0 < period then some ⟨period, h⟩ else none

/-- How far a loop gets before its first turn. -/
inductive Started where
  | disabled (err : String)
  | panicked
  | looping (sinks : List SinkAdapter) (ticker : Ticker)
  deriving DecidableEq, Repr

section Adapters

-- The variables of the environment.
variable (env : String → Option String)

/-- `adapter_from_config`, where the HTTP clients can be built. -/
def adapterFromConfig (ruleName : String) (cfg : SinkConfig) : Except String SinkAdapter :=
  match cfg.url with
  | none => .error s!"sink for rule \"{ruleName}\" missing url"
  | some url =>
    match cfg.kind with
    | "webhook" => .ok (.webhook url)
    | "mattermost" => .ok (.mattermost url cfg.channel)
    | "zulip" =>
      match cfg.topic with
      | none => .error s!"zulip sink for rule \"{ruleName}\" missing \"topic\""
      | some topic => .ok (.zulip url topic)
    | "oncall" => .ok (.oncall url (cfg.authTokenEnv.bind env))
    | other => .error (s!"unsupported sink kind \"{other}\" for rule \"{ruleName}\" " ++
        "(slice 04 supports: webhook, mattermost, zulip, oncall)")

/-- `build_sinks`. -/
def buildSinks (rule : Rule) : Except String (List SinkAdapter) :=
  rule.sinks.mapM (adapterFromConfig env rule.name)

/-- `run_rule`, up to its loop. -/
def startRule (rule : Rule) : Started :=
  match buildSinks env rule with
  | .error err => .disabled err
  | .ok sinks =>
    match Ticker.interval rule.interval with
    | none => .panicked
    | some ticker => .looping sinks ticker

/-- A rule whose loop takes its turns. -/
def Rule.Loops (rule : Rule) : Prop := ∃ sinks ticker, startRule env rule = .looping sinks ticker

/-- A sink that can be built. -/
structure SinkConfig.Complete (sink : SinkConfig) : Prop where
  kind_mem : sink.kind ∈ supported
  url_isSome : sink.url.isSome
  topic_isSome : sink.kind = "zulip" → sink.topic.isSome

/-- Exactly the complete sinks have an adapter. -/
theorem exists_adapterFromConfig_iff (ruleName : String) (sink : SinkConfig) :
    (∃ adapter, adapterFromConfig env ruleName sink = .ok adapter) ↔ sink.Complete := by
  obtain ⟨kind, url, channel, topic, authTokenEnv⟩ := sink
  constructor
  · rintro ⟨adapter, h⟩
    rw [adapterFromConfig] at h
    cases url with
    | none => cases h
    | some url =>
      dsimp only at h
      split at h
      · exact ⟨by simp [supported], rfl, by simp⟩
      · exact ⟨by simp [supported], rfl, by simp⟩
      · cases topic with
        | none => cases h
        | some topic => exact ⟨by simp [supported], rfl, fun _ => rfl⟩
      · exact ⟨by simp [supported], rfl, by simp⟩
      · cases h
  · rintro ⟨hkind, hurl, htopic⟩
    obtain ⟨url, rfl⟩ := Option.isSome_iff_exists.mp hurl
    simp only [supported, List.mem_cons, List.not_mem_nil, or_false] at hkind
    rcases hkind with rfl | rfl | rfl | rfl
    · exact ⟨_, rfl⟩
    · exact ⟨_, rfl⟩
    · obtain ⟨topic, rfl⟩ := Option.isSome_iff_exists.mp (htopic rfl)
      exact ⟨_, rfl⟩
    · exact ⟨_, rfl⟩

theorem exists_buildSinks_iff (rule : Rule) :
    (∃ sinks, buildSinks env rule = .ok sinks) ↔ ∀ sink ∈ rule.sinks, sink.Complete := by
  simp only [buildSinks, exists_mapM_ok_iff, exists_adapterFromConfig_iff]

/-- What a loop needs to take its turns. -/
theorem loops_iff (rule : Rule) :
    rule.Loops env ↔ (∀ sink ∈ rule.sinks, sink.Complete) ∧ 0 < rule.interval := by
  rw [← exists_buildSinks_iff env, Rule.Loops, startRule]
  cases buildSinks env rule with
  | error err => simp
  | ok sinks => by_cases hpos : 0 < rule.interval <;> simp [Ticker.interval, hpos]

end Adapters

section Accepted

variable (formats : Formats)

/-- A file of a rule directory, and what reading it gives. -/
structure RuleFile where
  path : Bytes
  content : Except String Bytes

namespace RuleFile

variable (file : RuleFile)

/-- `parse_file`. -/
def parse : Except LoaderDiagnostic (List Rule) :=
  match file.content with
  | .error err => .error ⟨Formats.lossy file.path, s!"read failed: {err}", none⟩
  | .ok content => formats.parseFile file.path content

/-- A rule is written in a file that is accepted. -/
def Enters (raw : RawRule) : Prop :=
  ∃ content text shape rules, file.content = .ok content ∧ fromUtf8 content = some text ∧
    formats.toml text = .ok shape ∧ raw ∈ shape.rules ∧ file.parse formats = .ok rules

end RuleFile

/-- The files of a directory, parsed. -/
def parseFiles (files : List RuleFile) : List (String × Except LoaderDiagnostic (List Rule)) :=
  files.map fun file => (Formats.lossy file.path, file.parse formats)

/-- An interval that reads as no time. -/
def RawRule.Timeless (raw : RawRule) : Prop :=
  formats.humantime (raw.interval.getD defaultInterval) = .ok 0

variable {formats}

/-- The loader accepts complete sinks only. -/
theorem complete_of_convertSink {owner : String} {raw : RawSink} {sink : SinkConfig}
    (h : convertSink owner raw = .ok sink) : sink.Complete := by
  rw [convertSink] at h
  split_ifs at h with hkind hurl htopic
  obtain rfl := Except.ok.inj h
  refine ⟨hkind, ?_, fun hzulip => ?_⟩
  · simpa [Option.isSome_iff_ne_none] using hurl
  · simpa [Option.isSome_iff_ne_none] using not_and.mp htopic hzulip

theorem complete_of_convertSinks {owner : String} {raws : List RawSink} {sinks : List SinkConfig}
    (h : convertSinks raws owner = .ok sinks) : ∀ sink ∈ sinks, sink.Complete := by
  intro sink hsink
  obtain ⟨raw, -, hraw⟩ := (mem_iff_of_mapM_ok h).mp hsink
  exact complete_of_convertSink hraw

theorem humantime_of_parseDuration {raw field : String} {nanos : Nat}
    (h : formats.parseDuration raw field = .ok nanos) : formats.humantime raw = .ok nanos := by
  rw [Formats.parseDuration] at h
  cases hraw : formats.humantime raw with
  | error err =>
    rw [hraw] at h
    cases h
  | ok duration =>
    rw [hraw] at h
    exact h

/-- What a written rule becomes. -/
theorem of_intoRule {raw : RawRule} {rule : Rule} (h : formats.intoRule raw = .ok rule) :
    rule.name = raw.name ∧
      formats.humantime (raw.interval.getD defaultInterval) = .ok rule.interval ∧
        ∀ sink ∈ rule.sinks, sink.Complete := by
  obtain ⟨forDuration, -, h⟩ := bind_eq_ok_iff.mp h
  obtain ⟨interval, hinterval, h⟩ := bind_eq_ok_iff.mp h
  obtain ⟨sinks, hsinks, h⟩ := bind_eq_ok_iff.mp h
  obtain rfl := Except.ok.inj h
  exact ⟨rfl, humantime_of_parseDuration hinterval, complete_of_convertSinks hsinks⟩

theorem complete_of_intoSlo {source : String} {raw : RawSlo} {slo : Slo}
    (h : formats.intoSlo source raw = .ok slo) : ∀ sink ∈ slo.sinks, sink.Complete := by
  rw [Formats.intoSlo] at h
  dsimp only at h
  split_ifs at h
  · cases h
  obtain ⟨budget, -, h⟩ := bind_eq_ok_iff.mp h
  split_ifs at h
  · cases h
  obtain ⟨sinks, hsinks, h⟩ := bind_eq_ok_iff.mp h
  obtain rfl := Except.ok.inj h
  exact complete_of_convertSinks hsinks

/-- The rules of an objective have its sinks and an interval of thirty seconds. -/
theorem of_mem_synthesiseSlo {slo : Slo} {rule : Rule}
    (h : rule ∈ synthesiseSlo formats.fixed10 slo) :
    rule.sinks = slo.sinks ∧ rule.interval = 30 * 1000000000 := by
  obtain ⟨row, -, rfl⟩ := List.mem_map.mp h
  exact ⟨rfl, rfl⟩

/-- A rule of an accepted file is written in it, or stands for an objective. -/
theorem RuleFile.of_mem_parse {file : RuleFile} {rules : List Rule} {rule : Rule}
    (h : file.parse formats = .ok rules) (hrule : rule ∈ rules) :
    (∃ raw, file.Enters formats raw ∧ formats.intoRule raw = .ok rule) ∨
      (∀ sink ∈ rule.sinks, sink.Complete) ∧ 0 < rule.interval := by
  have hparse := h
  rw [parse] at h
  cases hcontent : file.content with
  | error err =>
    rw [hcontent] at h
    cases h
  | ok content =>
    rw [hcontent] at h
    obtain ⟨text, shape, hand, slos, htext, htoml, hhand, hslos, rfl⟩ :=
      Formats.parseFile_eq_ok_iff.mp h
    rcases List.mem_append.mp hrule with hmem | hmem
    · obtain ⟨raw, hraw, hinto⟩ := (mem_iff_of_mapM_ok hhand).mp hmem
      exact .inl ⟨raw, ⟨content, text, shape, _, hcontent, htext, htoml, hraw, hparse⟩, hinto⟩
    · obtain ⟨slo, hslo, hsynthesised⟩ := List.mem_flatMap.mp hmem
      obtain ⟨raw, -, hinto⟩ := (mem_iff_of_mapM_ok hslos).mp hslo
      obtain ⟨hsinks, hinterval⟩ := of_mem_synthesiseSlo hsynthesised
      rw [hsinks, hinterval]
      exact .inr ⟨complete_of_intoSlo hinto, by decide⟩

/-- Every written rule of an accepted file is one of its rules. -/
theorem RuleFile.Enters.exists_mem {file : RuleFile} {raw : RawRule}
    (h : file.Enters formats raw) :
    ∃ rules rule, file.parse formats = .ok rules ∧ rule ∈ rules ∧
      formats.intoRule raw = .ok rule := by
  obtain ⟨content, text, shape, rules, hcontent, htext, htoml, hraw, hparse⟩ := h
  have hfile := hparse
  rw [RuleFile.parse, hcontent] at hfile
  obtain ⟨text', shape', hand, slos, htext', htoml', hhand, -, rfl⟩ :=
    Formats.parseFile_eq_ok_iff.mp hfile
  obtain rfl := Option.some.inj (htext.symm.trans htext')
  obtain rfl := Except.ok.inj (htoml.symm.trans htoml')
  obtain ⟨rule, hrule⟩ := exists_mapM_ok_iff.mp ⟨hand, hhand⟩ raw hraw
  exact ⟨_, rule, hparse,
    List.mem_append_left _ ((mem_iff_of_mapM_ok hhand).mpr ⟨raw, hraw, hrule⟩), hrule⟩

theorem mem_foldl_file {files : List (String × Except LoaderDiagnostic (List Rule))}
    {merged : Merged} {rule : Rule} :
    rule ∈ (files.foldl Merged.file merged).rules ↔
      rule ∈ merged.rules ∨ ∃ file ∈ files, ∃ rules, file.2 = .ok rules ∧ rule ∈ rules := by
  induction files generalizing merged with
  | nil => simp
  | cons file files ih =>
    rw [List.foldl_cons, ih]
    obtain ⟨path, diagnostic | rules⟩ := file
    · simp [Merged.file]
    · simp [Merged.file, or_assoc]

/-- A rule is loaded if an accepted file declares it and no other rule has its name. -/
theorem mem_rules_of_loadRules {files : List RuleFile} {outcome : LoadOutcome}
    (h : loadRules (.ok (parseFiles formats files)) = .ok outcome) {rule : Rule} :
    rule ∈ outcome.rules ↔
      (∃ file ∈ files, ∃ rules, file.parse formats = .ok rules ∧ rule ∈ rules) ∧
        (merge (parseFiles formats files)).DeclaredOnce rule.name := by
  obtain rfl := Except.ok.inj h
  have hmerged : rule ∈ (merge (parseFiles formats files)).rules ↔
      ∃ file ∈ files, ∃ rules, file.parse formats = .ok rules ∧ rule ∈ rules := by
    simp [merge, mem_foldl_file, parseFiles]
  rw [← hmerged]
  change rule ∈ (merge (parseFiles formats files)).detectDuplicateNames.rules ↔ _
  rw [Merged.detectDuplicateNames, Merged.foldl_drop_rules, List.mem_filter, decide_eq_true_iff,
    Merged.mem_duplicates, Merged.DeclaredOnce]
  refine and_congr_right fun hmem => ?_
  have hpos := List.count_pos_iff.mpr (List.mem_map_of_mem (f := Rule.name) hmem)
  omega

/-- Every rule that is loaded takes its turns exactly if none is loaded that is written with an
interval of no time. -/
theorem all_loop_iff (env : String → Option String) {files : List RuleFile} {outcome : LoadOutcome}
    (h : loadRules (.ok (parseFiles formats files)) = .ok outcome) :
    (∀ rule ∈ outcome.rules, rule.Loops env) ↔
      ∀ file ∈ files, ∀ raw, file.Enters formats raw → raw.Timeless formats →
        ¬(merge (parseFiles formats files)).DeclaredOnce raw.name := by
  constructor
  · intro hloops file hfile raw henters htimeless honce
    obtain ⟨rules, rule, hparse, hrule, hinto⟩ := henters.exists_mem
    obtain ⟨hname, hinterval, -⟩ := of_intoRule hinto
    have hloaded : rule ∈ outcome.rules := (mem_rules_of_loadRules h).mpr
      ⟨⟨file, hfile, rules, hparse, hrule⟩, hname.symm ▸ honce⟩
    have hpos := ((loops_iff env rule).mp (hloops rule hloaded)).2
    rw [RawRule.Timeless, hinterval] at htimeless
    exact hpos.ne' (Except.ok.inj htimeless)
  · intro hnone rule hrule
    obtain ⟨⟨file, hfile, rules, hparse, hmem⟩, honce⟩ := (mem_rules_of_loadRules h).mp hrule
    rw [loops_iff]
    rcases RuleFile.of_mem_parse hparse hmem with ⟨raw, henters, hinto⟩ | hsynthesised
    · obtain ⟨hname, hinterval, hsinks⟩ := of_intoRule hinto
      refine ⟨hsinks, Nat.pos_of_ne_zero fun hzero => ?_⟩
      rw [hname] at honce
      rw [hzero] at hinterval
      exact hnone file hfile raw henters hinterval honce
    · exact hsynthesised

end Accepted

section DiskRule

/-- A file of one rule that is evaluated in intervals. -/
def diskText (interval : String) : Text :=
  ("[[rules]]\nname = \"disk\"\nquery = \"disk_free < 1\"\n" ++
    s!"interval = \"{interval}\"\nseverity = \"critical\"\n").toList

/-- What the text decodes to. -/
def diskRaw (interval : String) : RawRule :=
  ⟨"disk", "disk_free < 1", none, some interval, .critical, .empty, [], []⟩

/-- The rule that is loaded. -/
def diskRule (nanos : Nat) : Rule :=
  ⟨"disk", "disk_free < 1", 60 * 1000000000, nanos, .critical, .empty, [], []⟩

/-- A decoder of the text and its durations. -/
def diskFormats : Formats where
  toml text :=
    if text = diskText "0s" then .ok ⟨[diskRaw "0s"], []⟩
    else if text = diskText "30s" then .ok ⟨[diskRaw "30s"], []⟩
    else .error "expected a table"
  humantime raw :=
    if raw = "0s" then .ok 0
    else if raw = "30s" then .ok (30 * 1000000000)
    else if raw = "1m" then .ok (60 * 1000000000)
    else .error "expected number at 0"
  display _ := "0"
  fixed10 _ _ := "0.0000000000"

/-- The file `disk.toml`. -/
def diskFile (interval : String) : RuleFile where
  path := asBytes "disk.toml".toList
  content := .ok (asBytes (diskText interval))

theorem diskText_injective : Function.Injective diskText := by
  intro interval interval' h
  exact String.toList_inj.mp (by simpa [diskText, toString] using h)

theorem toml_zero : diskFormats.toml (diskText "0s") = .ok ⟨[diskRaw "0s"], []⟩ := by
  simp only [diskFormats, if_true]

theorem toml_thirty : diskFormats.toml (diskText "30s") = .ok ⟨[diskRaw "30s"], []⟩ := by
  have hne : diskText "30s" ≠ diskText "0s" := diskText_injective.ne (by decide)
  simp only [diskFormats, if_neg hne, if_true]

/-- A file of one rule. -/
theorem RuleFile.parse_singleton {formats : Formats} {file : RuleFile} {text : Text}
    {raw : RawRule} {rule : Rule} (hcontent : file.content = .ok (asBytes text))
    (htoml : formats.toml text = .ok ⟨[raw], []⟩) (hinto : formats.intoRule raw = .ok rule) :
    file.parse formats = .ok [rule] := by
  rw [parse, hcontent]
  refine Formats.parseFile_eq_ok_iff.mpr
    ⟨_, _, [rule], [], fromUtf8_asBytes _, htoml, ?_, rfl, rfl⟩
  rw [List.mapM_cons, hinto]
  rfl

theorem load_diskFile {interval : String} {nanos : Nat}
    (htoml : diskFormats.toml (diskText interval) = .ok ⟨[diskRaw interval], []⟩)
    (hinterval : diskFormats.humantime interval = .ok nanos) :
    loadRules (.ok (parseFiles diskFormats [diskFile interval])) =
      .ok ⟨⟨[diskRule nanos], List.nodup_singleton _⟩, []⟩ := by
  have hinto : diskFormats.intoRule (diskRaw interval) = .ok (diskRule nanos) := by
    simp only [Formats.intoRule, Formats.parseDuration, diskRaw, Option.getD_some, hinterval]
    rfl
  have hparse : (diskFile interval).parse diskFormats = .ok [diskRule nanos] :=
    RuleFile.parse_singleton rfl htoml hinto
  rw [parseFiles, List.map_singleton, hparse]
  exact loadRules_catalogue _ ⟨[diskRule nanos], List.nodup_singleton _⟩

/-- A rule is loaded, and its loop panics before its first turn. -/
theorem timeless_rule_panics :
    ¬∀ (formats : Formats) (env : String → Option String) (files : List RuleFile)
      (outcome : LoadOutcome), loadRules (.ok (parseFiles formats files)) = .ok outcome →
        ∀ rule ∈ outcome.rules, rule.Loops env := by
  intro h
  have hloops := h diskFormats (fun _ => none) [diskFile "0s"] _ (load_diskFile toml_zero rfl) _
    (List.mem_singleton_self _)
  exact absurd ((loops_iff _ _).mp hloops).2 (by decide)

/-- A rule of every thirty seconds takes its turns. -/
theorem half_minute_rule_loops :
    (diskRule (30 * 1000000000)).Loops (fun _ => none) ∧
      ∀ file ∈ [diskFile "30s"], ∀ raw, file.Enters diskFormats raw → raw.Timeless diskFormats →
        ¬(merge (parseFiles diskFormats [diskFile "30s"])).DeclaredOnce raw.name := by
  have hloops : (diskRule (30 * 1000000000)).Loops (fun _ => none) :=
    (loops_iff _ _).mpr ⟨fun _ h => absurd h List.not_mem_nil, by decide⟩
  refine ⟨hloops, (all_loop_iff (fun _ => none) (load_diskFile toml_thirty rfl)).mp
    fun rule hrule => ?_⟩
  rw [List.mem_singleton.mp hrule]
  exact hloops

end DiskRule

end Kaleidoscope.Beacon
