import Kaleidoscope.Library.ReadDouble
import Kaleidoscope.Prism.Explorer
import Kaleidoscope.QueryApi.Filtering

/-!
# Samples on a chart

The value of a sample is printed by the server, read back by the browser and drawn. A value that
reads as no number is drawn as a gap. The server writes an infinite value as Prometheus does, which
is not as the browser reads one.
-/

namespace Kaleidoscope.Prism

open Binary64 Pulse QueryApi Utf8

/-- A number of its sign that is too large. -/
def infinite (negative : Bool) : F64 := if negative then .negInf else .posInf

/-- `parseFloat`, after the sign. -/
def parseUnsigned (negative : Bool) (t : Text) : F64 :=
  if "Infinity".toList.isPrefixOf t then infinite negative
  else
    match decimalLiteral t with
    | none => .nan
    | some q => ((ofMagnitude negative q).map F64.finite).getD (infinite negative)

/-- `parseFloat`. -/
def parseFloat (s : String) : F64 :=
  match s.toList.dropWhile isSpace with
  | '+' :: t => parseUnsigned false t
  | '-' :: t => parseUnsigned true t
  | t => parseUnsigned false t

/-- `parseValue`. -/
def parseValue (raw : String) : F64 := if raw = "NaN" then .nan else parseFloat raw

/-- `Series`. -/
structure Series where
  labels : Labels
  points : List (Nat × F64)

/-- `parseSeries`. -/
def parseSeries (result : List PromMatrixEntry) : List Series :=
  result.map fun entry =>
    ⟨entry.metric, entry.values.map fun v => (v.1 * 1000, parseValue v.2)⟩

/-- A line of the chart. -/
structure ChartSeries where
  type : String
  name : String
  data : List (Nat × F64)
  smooth : Bool
  connectNulls : Bool
  sampling : String
  symbol : String

section Chart

-- The order of `localeCompare`.
variable (localeLE : String → String → Bool)

/-- `seriesName`. -/
def seriesName (labels : Labels) : String :=
  let others := (labels.entries.filter fun (k, _) => k ≠ "__name__").mergeSort
    fun (a, _) (b, _) => localeLE a b
  let rest := ", ".intercalate (others.map fun (k, v) => s!"{k}=\"{v}\"")
  match labels.get "__name__" with
  | none => if 0 < rest.length then "\x7b" ++ rest ++ "\x7d" else ""
  | some named => if 0 < rest.length then named ++ "\x7b" ++ rest ++ "\x7d" else named

/-- `buildSeries`. -/
def buildSeries (series : List Series) : List ChartSeries :=
  series.map fun s =>
    { type := "line"
      name := seriesName localeLE s.labels
      data := s.points.map fun (ts, value) => (ts, value)
      smooth := false
      connectNulls := false
      sampling := "none"
      symbol := "none" }

/-- The points that are drawn for the rows of an answer. -/
def drawn (rows : List Row) : List (List (Nat × F64)) :=
  (buildSeries localeLE (parseSeries (toMatrix display rows))).map ChartSeries.data

/-- The points that are stored, series by series, in milliseconds. -/
def stored (rows : List Row) : List (List (Nat × F64)) :=
  (labelSets rows).map fun labels =>
    (rows.filter fun row => row.labels = labels).map fun row =>
      (row.seconds * 1000, row.2.value)

end Chart

/-- A chart leaves a gap at a value that is no number. -/
def IsGap (value : F64) : Prop := value = .nan

/-- An infinite value. -/
def IsInfinite (value : F64) : Prop := value = .posInf ∨ value = .negInf

/-- A value that is a double: what is kept as bits of a finite one is finite. -/
def IsDouble (value : F64) : Prop := ∀ bits, value = .finite bits → Binary64.IsFinite bits

/-- A literal is read with its sign. -/
theorem parseFloat_signed {c : Char} (hc : c.isDigit = true) (negative : Bool) (t : Text) :
    parseFloat (.ofList ((if negative then ['-'] else []) ++ c :: t)) =
      parseUnsigned negative (c :: t) := by
  have hspace : isSpace c = false := by
    have := Decimal.isDigit_iff.mp hc
    simp [isSpace]
    omega
  have hsign (s : Char) (hs : s.isDigit = false) : c ≠ s := by
    rintro rfl
    exact Bool.false_ne_true (hs.symm.trans hc)
  cases negative with
  | true =>
    have hdash : isSpace '-' = false := by decide
    simp only [parseFloat, String.toList_ofList, if_true, List.singleton_append,
      List.dropWhile_cons, hdash]
    rfl
  | false =>
    simp only [parseFloat, String.toList_ofList, Bool.false_eq_true, if_false, List.nil_append,
      List.dropWhile_cons, hspace]
    split
    · next h => exact absurd (List.cons.inj h).1 (hsign '+' (by decide))
    · next h => exact absurd (List.cons.inj h).1 (hsign '-' (by decide))
    · rfl

/-- What starts with a digit is not infinite. -/
theorem parseUnsigned_digit {c : Char} (hc : c.isDigit = true) (negative : Bool) {t : Text} {q : ℚ}
    (hq : decimalLiteral (c :: t) = some q) :
    parseUnsigned negative (c :: t) =
      ((ofMagnitude negative q).map F64.finite).getD (infinite negative) := by
  have hbegins : "Infinity".toList.isPrefixOf (c :: t) = false := by
    have hne : 'I' ≠ c := by
      rintro rfl
      exact absurd hc (by decide)
    simp [List.isPrefixOf, hne]
  rw [parseUnsigned, hbegins, if_neg Bool.false_ne_true, hq]

/-- A finite double is read as it was. -/
theorem parseValue_display {bits : UInt64} (h : Binary64.IsFinite bits) :
    parseValue (display bits) = .finite bits := by
  obtain ⟨c, t, q, htext, hdigit, hliteral, hnearest⟩ := exists_display h
  have hparse : parseFloat (display bits) = .finite bits := by
    rw [← String.ofList_toList (s := display bits), htext, parseFloat_signed hdigit,
      parseUnsigned_digit hdigit _ hliteral, ofMagnitude_of_nearest h hnearest]
    rfl
  rw [parseValue, if_neg, hparse]
  intro hnan
  rw [hnan] at hparse
  have hread : parseFloat "NaN" = .nan := by decide
  rw [hread] at hparse
  cases hparse

/-- An infinite value is read as no number. -/
theorem parseValue_of_isInfinite {v : F64} (h : IsInfinite v) :
    parseValue (formatValue display v) = .nan := by
  have hpos : parseValue "+Inf" = .nan := by decide
  have hneg : parseValue "-Inf" = .nan := by decide
  rcases h with rfl | rfl
  · exact hpos
  · exact hneg

/-- What the browser reads of a value is the value, unless that is infinite. -/
theorem parseValue_formatValue_iff {v : F64} (hv : IsDouble v) :
    parseValue (formatValue display v) = v ↔ ¬IsInfinite v := by
  constructor
  · intro h hinfinite
    rw [parseValue_of_isInfinite hinfinite] at h
    rcases hinfinite with rfl | rfl <;> cases h
  · intro h
    cases v with
    | finite bits => exact parseValue_display (hv bits rfl)
    | nan => rfl
    | posInf => exact absurd (.inl rfl) h
    | negInf => exact absurd (.inr rfl) h

section Chart

variable (localeLE : String → String → Bool)

/-- The chart draws what is read, in its order. -/
theorem drawn_eq (rows : List Row) :
    drawn localeLE rows = (labelSets rows).map fun labels =>
      (rows.filter fun row => row.labels = labels).map fun row =>
        (row.seconds * 1000, parseValue (formatValue display row.2.value)) := by
  simp only [drawn, buildSeries, parseSeries, toMatrix_eq, List.map_map]
  refine List.map_congr_left fun labels _ => ?_
  simp only [Function.comp_apply, List.map_map]
  exact List.map_congr_left fun row _ => rfl

/-- The rows of an answer are on the chart as they are stored. -/
structure DrawsStored (rows : List Row) : Prop where
  value_eq : ∀ row ∈ rows, parseValue (formatValue display row.2.value) = row.2.value
  drawn_eq : drawn localeLE rows = stored rows
  eq_nan_of_isGap : ∀ row ∈ rows,
    IsGap (parseValue (formatValue display row.2.value)) → row.2.value = .nan

/-- The rows of an answer are on the chart as they are stored exactly if no value is infinite. -/
theorem drawsStored_iff {rows : List Row} (hrows : ∀ row ∈ rows, IsDouble row.2.value) :
    DrawsStored localeLE rows ↔ ∀ row ∈ rows, ¬IsInfinite row.2.value := by
  constructor
  · intro h row hrow
    exact (parseValue_formatValue_iff (hrows row hrow)).mp (h.value_eq row hrow)
  · intro hfinite
    have hread (row : Row) (hrow : row ∈ rows) :
        parseValue (formatValue display row.2.value) = row.2.value :=
      (parseValue_formatValue_iff (hrows row hrow)).mpr (hfinite row hrow)
    refine ⟨hread, ?_, fun row hrow hgap => ?_⟩
    · rw [drawn_eq, stored]
      refine List.map_congr_left fun labels _ => List.map_congr_left fun row hrow => ?_
      rw [hread row (List.mem_of_mem_filter hrow)]
    · rwa [hread row hrow] at hgap

/-- A row of one sample at three seconds. -/
def sampleRow (value : F64) : Row :=
  let point : MetricPoint := ⟨3000000000, 0, .empty, value⟩
  (⟨⟨"latency_max"⟩, "", "s", .gauge, [point], .empty⟩, point)

/-- A half and a value that is no number are drawn as they are stored. -/
theorem half_and_nan_drawn :
    DrawsStored (fun a b => a ≤ b) [sampleRow (.finite 0x3FE0000000000000), sampleRow .nan] := by
  refine (drawsStored_iff _ fun row hrow => ?_).mpr fun row hrow => ?_
  · simp only [List.mem_cons, List.not_mem_nil, or_false] at hrow
    rcases hrow with rfl | rfl
    · rintro bits ⟨⟩
      decide
    · rintro bits ⟨⟩
  · simp only [List.mem_cons, List.not_mem_nil, or_false] at hrow
    rcases hrow with rfl | rfl <;> rintro (h | h) <;> cases h

/-- An infinite latency is drawn as a gap. -/
theorem infinite_value_missing :
    ¬∀ (localeLE : String → String → Bool) (rows : List Row),
      (∀ row ∈ rows, IsDouble row.2.value) → DrawsStored localeLE rows := by
  intro h
  have hdraws := h (fun a b => a ≤ b) [sampleRow .posInf] fun row hrow bits hbits => by
    rw [List.mem_singleton.mp hrow] at hbits
    cases hbits
  have hnan := hdraws.eq_nan_of_isGap _ (List.mem_singleton_self _)
    (parseValue_of_isInfinite (.inl rfl))
  cases hnan

end Chart

end Kaleidoscope.Prism
