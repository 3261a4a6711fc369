import Kaleidoscope.Beacon.StateMachine

/-!
# Rules from service level objectives

One objective declares four alert rules, one for each pair of burn-rate windows. Doubles are
their bits; the text of a product of doubles is an input.
-/

namespace Kaleidoscope.Beacon

/-- Operator-authored objective; the availability is a double, the period nanoseconds. -/
structure Slo where
  service : String
  sliGoodEvents : String
  sliTotalEvents : String
  targetAvailability : UInt64
  errorBudgetPeriod : Nat
  sinks : List SinkConfig
  sourcePath : Option String

/-- One pair of windows with its burn-rate threshold. -/
structure MwmbrRow where
  severity : Severity
  pageOrTicket : String
  threshold : UInt64
  longWindow : String
  shortWindow : String

/-- `MWMBR_TABLE`, with the thresholds 14.4, 6, 3 and 1. -/
def mwmbrTable : List MwmbrRow :=
  [⟨.critical, "page", 0x402CCCCCCCCCCCCD, "1h", "5m"⟩,
    ⟨.critical, "page", 0x4018000000000000, "6h", "30m"⟩,
    ⟨.warning, "ticket", 0x4008000000000000, "1d", "2h"⟩,
    ⟨.warning, "ticket", 0x3FF0000000000000, "3d", "6h"⟩]

/-- `trim_end_matches`. -/
def trimEndMatches (c : Char) (s : List Char) : List Char :=
  (s.reverse.dropWhile (· == c)).reverse

/-- `format_threshold`, after the formatting to ten digits. -/
def formatThreshold (raw : String) : String :=
  let trimmed := trimEndMatches '.' (trimEndMatches '0' raw.toList)
  if trimmed = [] then "0" else String.ofList trimmed

/-- One half of the query of a row. -/
def burnRate (good total window limit : String) : String :=
  s!"((sum(rate({total}[{window}])) - sum(rate({good}[{window}]))) / " ++
    s!"sum(rate({total}[{window}])) > {limit})"

/-- `build_query`. -/
def buildQuery (good total limit longWindow shortWindow : String) : String :=
  burnRate good total longWindow limit ++ " and " ++ burnRate good total shortWindow limit

section Synthesis

-- `{:.10}` of `(1.0 - target) * threshold`.
variable (fixed10 : UInt64 → UInt64 → String)

/-- `synthesise_row`. -/
def synthesiseRow (slo : Slo) (row : MwmbrRow) : Rule :=
  let limit := formatThreshold (fixed10 slo.targetAvailability row.threshold)
  let labels := (BTreeMap.empty.insert "slo_service" slo.service).insert "slo_window"
    s!"{row.longWindow}/{row.shortWindow}"
  { name := s!"{slo.service}_slo_{row.pageOrTicket}_{row.longWindow}_{row.shortWindow}"
    query := buildQuery slo.sliGoodEvents slo.sliTotalEvents limit row.longWindow row.shortWindow
    forDuration := 0
    interval := 30 * 1000000000
    severity := row.severity
    labels :=
      match slo.sourcePath with
      | some source => labels.insert "slo_source" source
      | none => labels
    sinks := slo.sinks
    inhibits := [] }

/-- `synthesise_slo`. -/
def synthesiseSlo (slo : Slo) : List Rule := mwmbrTable.map (synthesiseRow fixed10 slo)

/-- The same objective, read from another file. -/
def Slo.readFrom (slo : Slo) (source : String) : Slo := { slo with sourcePath := some source }

/-- The file shows in a label of each rule. -/
theorem synthesiseSlo_readFrom_eq_iff (slo : Slo) {source source' : String} :
    synthesiseSlo fixed10 (slo.readFrom source) = synthesiseSlo fixed10 (slo.readFrom source') ↔
      source = source' := by
  refine ⟨fun h => ?_, fun h => by rw [h]⟩
  have hget :
      (synthesiseSlo fixed10 (slo.readFrom source)).map (fun r => r.labels.get "slo_source") =
        (synthesiseSlo fixed10 (slo.readFrom source')).map fun r => r.labels.get "slo_source" := by
    rw [h]
  simpa only [synthesiseSlo, mwmbrTable, List.map_cons, synthesiseRow, Slo.readFrom,
    BTreeMap.get_insert, List.cons.injEq, Option.some.injEq, and_self] using (List.cons.inj hget).1

end Synthesis

end Kaleidoscope.Beacon
