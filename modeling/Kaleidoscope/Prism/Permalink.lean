import Std.Data.String.ToNat
import Kaleidoscope.Library.UrlEncoded
import Kaleidoscope.Prism.QueryPanel

/-!
# Permalinks

The codec between the state of the query panel and the query string of its address. A bound of an
absolute range that is read from an address is meant to be a strict timestamp; the reader takes
whatever `Date` takes.
-/

namespace Kaleidoscope.Prism

open Utf8

/-- The times that a `Date` can have, in milliseconds. -/
def ValidTime (ms : Int) : Prop := -8640000000000000 ≤ ms ∧ ms ≤ 8640000000000000

instance : DecidablePred ValidTime := fun ms =>
  inferInstanceAs (Decidable (-8640000000000000 ≤ ms ∧ ms ≤ 8640000000000000))

/-- `Date` on texts. What it reads beside the ISO date-time format is up to the implementation. -/
structure Dates where
  /-- `new Date(text).getTime()`; none for `NaN`. -/
  parse : String → Option Int
  /-- The instant that a text denotes in the ISO date-time format. -/
  iso : String → Option Int
  toISOString : Int → String
  parse_of_iso : ∀ {text ms}, iso text = some ms → parse text = some ms
  iso_toISOString : ∀ {ms}, ValidTime ms → iso (toISOString ms) = some ms
  iso_now : iso "now" = none
  valid_of_parse : ∀ {text ms}, parse text = some ms → ValidTime ms

/-- The text of a `RelativeOffset`. -/
def RelativeOffset.text : RelativeOffset → String
  | .last5m => "-5m"
  | .last15m => "-15m"
  | .last1h => "-1h"
  | .last6h => "-6h"
  | .last24h => "-24h"

/-- `RELATIVE_OFFSETS`. -/
def relativeOffsets : List RelativeOffset := [.last5m, .last15m, .last1h, .last6h, .last24h]

/-- `isRelativeOffset`, with the offset. -/
def relativeOffset? (s : String) : Option RelativeOffset := relativeOffsets.find? (·.text = s)

/-- The text of a `RefreshInterval`. -/
def RefreshInterval.text : RefreshInterval → String
  | .off => "off"
  | .every5s => "5s"
  | .every10s => "10s"
  | .every30s => "30s"
  | .every1m => "1m"

/-- `REFRESH_INTERVALS`. -/
def refreshIntervals : List RefreshInterval := [.off, .every5s, .every10s, .every30s, .every1m]

/-- `isRefreshInterval`, with the interval. -/
def refreshInterval? (s : String) : Option RefreshInterval := refreshIntervals.find? (·.text = s)

/-- `UrlField`. -/
inductive UrlField where
  | q
  | fromBound
  | toBound
  | refresh
  deriving DecidableEq, Repr

/-- The name of a field, which is that of its parameter. -/
def UrlField.name : UrlField → String
  | .q => "q"
  | .fromBound => "from"
  | .toBound => "to"
  | .refresh => "refresh"

/-- `FIELD_ORDER`. -/
def fieldOrder : List UrlField := [.q, .fromBound, .toBound, .refresh]

/-- `UrlParseError['kind']`. -/
inductive UrlErrorKind where
  | field (field : UrlField)
  | rangeInverted
  deriving DecidableEq, Repr

/-- `UrlParseError`. -/
structure UrlParseError where
  kind : UrlErrorKind
  fields : List UrlField
  message : String
  deriving DecidableEq, Repr

/-- The parameters of an address, each as `URLSearchParams.get` gives it. -/
structure RawParams where
  q : Option String
  fromRaw : Option String
  toRaw : Option String
  refreshRaw : Option String
  deriving DecidableEq, Repr

/-- `URLSearchParams.get` of the parameters that `decode` asks for. -/
def rawParams (params : List (Text × Text)) : RawParams :=
  let get (field : UrlField) := (UrlEncoded.get params field.name.toList).map String.ofList
  ⟨get .q, get .fromBound, get .toBound, get .refresh⟩

/-- The parameters of a search string. The leading question mark is taken off here, and
`URLSearchParams` would take off another one. -/
def searchParams (search : String) : RawParams :=
  let text := search.toList
  rawParams (UrlEncoded.parse (if text.head? = some '?' then text.drop 1 else text))

variable (dates : Dates)

/-- The parameters that `encode` sets, in order. -/
def encodeParams (state : UrlState) : List (UrlField × String) :=
  (.q, state.q) ::
    match state.range with
    | .relative offset =>
      (.fromBound, offset.text) :: (.toBound, "now") ::
        if state.refresh = .off then [] else [(.refresh, state.refresh.text)]
    -- the double lock: no refresh for an absolute range
    | .absolute fromMs toMs =>
      [(.fromBound, dates.toISOString fromMs), (.toBound, dates.toISOString toMs)]

/-- `encode`. -/
def encode (state : UrlState) : String :=
  String.ofList (UrlEncoded.serialize
    ((encodeParams dates state).map fun param => (param.1.name.toList, param.2.toList)))

/-- `parseAbsoluteDate`: only `NaN` is refused. -/
def parseAbsoluteDate (raw : String) : Option Int := dates.parse raw

/-- What `decode` makes of the two bounds. -/
structure DecodedRange where
  range : Option TimeRange
  invalid : List UrlField
  rangeInverted : Bool
  deriving DecidableEq, Repr

/-- The relative range of the bounds, if they have the form of one. -/
def decodeRelative : Option String → Option String → Option RelativeOffset
  | none, none => some .last15m
  | some fromRaw, toRaw =>
    if toRaw = none ∨ toRaw = some "now" then relativeOffset? fromRaw else none
  | none, some _ => none

/-- The absolute range of two bounds. -/
def decodeAbsolute (fromRaw toRaw : String) : DecodedRange :=
  match parseAbsoluteDate dates fromRaw, parseAbsoluteDate dates toRaw with
  | some fromMs, some toMs =>
    if toMs < fromMs then ⟨none, [.fromBound], true⟩ else ⟨some (.absolute fromMs toMs), [], false⟩
  | fromDate, toDate =>
    ⟨none, (if fromDate = none then [.fromBound] else []) ++
      (if toDate = none then [.toBound] else []), false⟩

/-- The part of `decode` about the bounds. -/
def decodeRange (fromRaw toRaw : Option String) : DecodedRange :=
  match decodeRelative fromRaw toRaw with
  | some offset => ⟨some (.relative offset), [], false⟩
  | none =>
    match fromRaw, toRaw with
    | some fromRaw, some toRaw => decodeAbsolute dates fromRaw toRaw
    -- a range of one bound is no range
    | _, _ => ⟨none, [.fromBound], false⟩

/-- The part of `decode` about the refresh: the interval, or none if it is invalid. -/
def decodeRefresh : Option String → Option RefreshInterval
  | none => some .off
  | some refreshRaw => refreshInterval? refreshRaw

/-- The error of `decode`. -/
def decodeError (raw : RawParams) (rangeInverted : Bool) (invalid : List UrlField) :
    UrlParseError :=
  let fields := fieldOrder.filter (· ∈ invalid)
  let fromRaw := raw.fromRaw.getD ""
  let toRaw := raw.toRaw.getD ""
  let names := ", ".intercalate (fields.map UrlField.name)
  { kind := if rangeInverted then .rangeInverted else .field (fields.head?.getD .fromBound)
    fields
    message :=
      if rangeInverted then s!"from {fromRaw} is after to {toRaw}"
      else s!"invalid URL parameters: {names}" }

/-- The refresh that a range keeps: an absolute one has none. -/
def TimeRange.refreshOf (range : TimeRange) (refresh : RefreshInterval) : RefreshInterval :=
  match range with
  | .relative _ => refresh
  | .absolute _ _ => .off

/-- `decode` of the parameters. -/
def decodeParams (raw : RawParams) : Except UrlParseError UrlState :=
  let refresh := decodeRefresh raw.refreshRaw
  let decoded := decodeRange dates raw.fromRaw raw.toRaw
  let invalid := (if refresh = none then [.refresh] else []) ++ decoded.invalid
  match invalid, decoded.range with
  | [], some range => .ok ⟨raw.q.getD "", range, range.refreshOf (refresh.getD .off)⟩
  | _, _ => .error (decodeError raw decoded.rangeInverted invalid)

/-- `decode`. -/
def decode (search : String) : Except UrlParseError UrlState :=
  decodeParams dates (searchParams search)

/-- A search in a list of all values for the one of a text. -/
theorem find?_text {α : Type} {text : α → String} (hinj : Function.Injective text) {all : List α}
    (hall : ∀ a, a ∈ all) {s : String} {a : α} :
    all.find? (text · = s) = some a ↔ s = text a := by
  constructor
  · intro h
    have ha := List.find?_some h
    exact (of_decide_eq_true ha).symm
  · rintro rfl
    cases hfind : all.find? (text · = text a) with
    | none => exact absurd (decide_eq_true rfl) (List.find?_eq_none.mp hfind a (hall a))
    | some b =>
      have hb := List.find?_some hfind
      rw [hinj (of_decide_eq_true hb)]

theorem relativeOffset?_eq_some_iff {s : String} {offset : RelativeOffset} :
    relativeOffset? s = some offset ↔ s = offset.text := by
  refine find?_text ?_ fun offset => by cases offset <;> decide
  intro offset offset' h
  cases offset <;> cases offset' <;> first | rfl | exact absurd h (by decide)

theorem refreshInterval?_eq_some_iff {s : String} {refresh : RefreshInterval} :
    refreshInterval? s = some refresh ↔ s = refresh.text := by
  refine find?_text ?_ fun refresh => by cases refresh <;> decide
  intro refresh refresh' h
  cases refresh <;> cases refresh' <;> first | rfl | exact absurd h (by decide)

/-- A state that a permalink is made of: the dates are dates, the first not after the second. -/
def UrlState.Valid (state : UrlState) : Prop :=
  ∀ fromMs toMs, state.range = .absolute fromMs toMs →
    ValidTime fromMs ∧ ValidTime toMs ∧ fromMs ≤ toMs

/-- A state with the refresh that its range keeps. -/
def UrlState.locked (state : UrlState) : UrlState :=
  { state with refresh := state.range.refreshOf state.refresh }

/-- The parameters that are written. -/
def writtenParams (state : UrlState) : RawParams where
  q := some state.q
  fromRaw :=
    match state.range with
    | .relative offset => some offset.text
    | .absolute fromMs _ => some (dates.toISOString fromMs)
  toRaw :=
    match state.range with
    | .relative _ => some "now"
    | .absolute _ toMs => some (dates.toISOString toMs)
  refreshRaw :=
    match state.range with
    | .relative _ => if state.refresh = .off then none else some state.refresh.text
    | .absolute _ _ => none

theorem rawParams_encodeParams (state : UrlState) :
    rawParams ((encodeParams dates state).map fun param =>
      (param.1.name.toList, param.2.toList)) = writtenParams dates state := by
  obtain ⟨q, range, refresh⟩ := state
  cases range with
  | relative offset =>
    by_cases hoff : refresh = .off
    · simp [rawParams, encodeParams, writtenParams, UrlEncoded.get, UrlField.name, hoff]
    · simp [rawParams, encodeParams, writtenParams, UrlEncoded.get, UrlField.name, hoff]
  | absolute fromMs toMs =>
    simp [rawParams, encodeParams, writtenParams, UrlEncoded.get, UrlField.name]

/-- What is written is read back, parameter by parameter. -/
theorem searchParams_encode (state : UrlState) :
    searchParams (encode dates state) = writtenParams dates state := by
  have hne : (encodeParams dates state).map (fun param =>
      (param.1.name.toList, param.2.toList)) ≠ [] := by simp [encodeParams]
  rw [searchParams, encode, String.toList_ofList]
  simp only [if_neg (UrlEncoded.head?_serialize _)]
  rw [UrlEncoded.parse_serialize hne, rawParams_encodeParams]

theorem toISOString_ne_now {ms : Int} (h : ValidTime ms) : dates.toISOString ms ≠ "now" := by
  intro hnow
  have hiso := dates.iso_toISOString h
  rw [hnow, dates.iso_now] at hiso
  exact nomatch hiso

theorem parse_toISOString {ms : Int} (h : ValidTime ms) :
    dates.parse (dates.toISOString ms) = some ms :=
  dates.parse_of_iso (dates.iso_toISOString h)

/-- The range of the bounds that are written. -/
theorem decodeRange_written {state : UrlState} (h : state.Valid) :
    decodeRange dates (writtenParams dates state).fromRaw (writtenParams dates state).toRaw =
      ⟨some state.range, [], false⟩ := by
  obtain ⟨q, range, refresh⟩ := state
  cases range with
  | relative offset =>
    have hoffset : relativeOffset? offset.text = some offset :=
      relativeOffset?_eq_some_iff.mpr rfl
    simp [writtenParams, decodeRange, decodeRelative, hoffset]
  | absolute fromMs toMs =>
    obtain ⟨hfrom, hto, hle⟩ := h fromMs toMs rfl
    have hnow := toISOString_ne_now dates hto
    simp [writtenParams, decodeRange, decodeRelative, decodeAbsolute, parseAbsoluteDate, hnow,
      parse_toISOString dates hfrom, parse_toISOString dates hto, not_lt.mpr hle]

/-- The refresh that is written: off for an absolute range. -/
theorem decodeRefresh_written (state : UrlState) :
    decodeRefresh (writtenParams dates state).refreshRaw = some state.locked.refresh := by
  obtain ⟨q, range, refresh⟩ := state
  cases range with
  | relative offset =>
    by_cases hoff : refresh = .off
    · simp [writtenParams, decodeRefresh, UrlState.locked, TimeRange.refreshOf, hoff]
    · simpa [writtenParams, decodeRefresh, UrlState.locked, TimeRange.refreshOf, hoff] using
        refreshInterval?_eq_some_iff.mpr rfl
  | absolute fromMs toMs => rfl

/-- A permalink is read as the state it was made of, without a refresh for an absolute range. -/
theorem decode_encode {state : UrlState} (h : state.Valid) :
    decode dates (encode dates state) = .ok state.locked := by
  rw [decode, searchParams_encode, decodeParams]
  simp only [decodeRange_written dates h, decodeRefresh_written]
  obtain ⟨q, range, refresh⟩ := state
  cases range <;> rfl

/-- A strict timestamp of an instant. -/
def IsTimestamp (raw : String) (ms : Int) : Prop :=
  dates.parse raw = some ms ∧ dates.iso raw = some ms

/-- A strict timestamp. -/
def Strict (raw : String) : Prop := ∃ ms, IsTimestamp dates raw ms

variable {dates}

theorem Strict.isTimestamp {raw : String} {ms : Int} (h : Strict dates raw)
    (hparse : dates.parse raw = some ms) : IsTimestamp dates raw ms := by
  obtain ⟨ms', hparse', hiso⟩ := h
  rw [hparse] at hparse'
  rw [Option.some.inj hparse']
  exact ⟨hparse.trans hparse', hiso⟩

/-- The parameters ask for a relative range. -/
def RawParams.Relative (raw : RawParams) (offset : RelativeOffset) : Prop :=
  raw.fromRaw = none ∧ raw.toRaw = none ∧ offset = .last15m ∨
    raw.fromRaw = some offset.text ∧ (raw.toRaw = none ∨ raw.toRaw = some "now")

/-- The parameters ask for an absolute range with these bounds. -/
def RawParams.Absolute (raw : RawParams) (fromRaw toRaw : String) : Prop :=
  (∀ offset, ¬raw.Relative offset) ∧ raw.fromRaw = some fromRaw ∧ raw.toRaw = some toRaw

variable (dates) in
/-- The parameters that are invalid. -/
inductive RawParams.Invalid (raw : RawParams) : UrlField → Prop
  | refresh {text : String} : raw.refreshRaw = some text →
      (∀ interval : RefreshInterval, text ≠ interval.text) → raw.Invalid .refresh
  | oneBound : (∀ offset, ¬raw.Relative offset) → raw.fromRaw = none ∨ raw.toRaw = none →
      raw.Invalid .fromBound
  | fromBound {fromRaw toRaw : String} : raw.Absolute fromRaw toRaw → ¬Strict dates fromRaw →
      raw.Invalid .fromBound
  | toBound {fromRaw toRaw : String} : raw.Absolute fromRaw toRaw → ¬Strict dates toRaw →
      raw.Invalid .toBound
  | inverted {fromRaw toRaw : String} {fromMs toMs : Int} : raw.Absolute fromRaw toRaw →
      IsTimestamp dates fromRaw fromMs → IsTimestamp dates toRaw toMs → toMs < fromMs →
      raw.Invalid .fromBound

theorem decodeRelative_eq_some_iff {raw : RawParams} {offset : RelativeOffset} :
    decodeRelative raw.fromRaw raw.toRaw = some offset ↔ raw.Relative offset := by
  obtain ⟨q, fromRaw, toRaw, refreshRaw⟩ := raw
  cases fromRaw with
  | none => cases toRaw <;> simp [decodeRelative, RawParams.Relative, eq_comm]
  | some fromRaw =>
    simp only [decodeRelative, RawParams.Relative]
    split_ifs with h
    · simp [relativeOffset?_eq_some_iff, h]
    · simp [h]

theorem decodeRelative_eq_none_iff {raw : RawParams} :
    decodeRelative raw.fromRaw raw.toRaw = none ↔ ∀ offset, ¬raw.Relative offset := by
  simp only [Option.eq_none_iff_forall_ne_some, Ne, decodeRelative_eq_some_iff]

variable (dates) in
/-- The parameters that `decode` takes for invalid. -/
def RawParams.refused (raw : RawParams) : List UrlField :=
  (if decodeRefresh raw.refreshRaw = none then [.refresh] else []) ++
    (decodeRange dates raw.fromRaw raw.toRaw).invalid

theorem mem_fieldOrder (field : UrlField) : field ∈ fieldOrder := by
  cases field <;> decide

variable (dates) in
/-- The forms of the bounds. -/
theorem decodeRange_cases (raw : RawParams) :
    (∃ offset, raw.Relative offset ∧
      decodeRange dates raw.fromRaw raw.toRaw = ⟨some (.relative offset), [], false⟩) ∨
    ((∀ offset, ¬raw.Relative offset) ∧ (raw.fromRaw = none ∨ raw.toRaw = none) ∧
      decodeRange dates raw.fromRaw raw.toRaw = ⟨none, [.fromBound], false⟩) ∨
    ∃ fromRaw toRaw, raw.Absolute fromRaw toRaw ∧
      decodeRange dates raw.fromRaw raw.toRaw = decodeAbsolute dates fromRaw toRaw := by
  unfold decodeRange
  cases hrel : decodeRelative raw.fromRaw raw.toRaw with
  | some offset => exact .inl ⟨offset, decodeRelative_eq_some_iff.mp hrel, rfl⟩
  | none =>
    have hnone := decodeRelative_eq_none_iff.mp hrel
    cases hfrom : raw.fromRaw with
    | none => exact .inr (.inl ⟨hnone, .inl rfl, rfl⟩)
    | some fromRaw =>
      cases hto : raw.toRaw with
      | none => exact .inr (.inl ⟨hnone, .inr rfl, rfl⟩)
      | some toRaw => exact .inr (.inr ⟨fromRaw, toRaw, ⟨hnone, hfrom, hto⟩, rfl⟩)

/-- An absolute range is read from two dates in order. -/
theorem decodeAbsolute_of_valid {fromRaw toRaw : String}
    (h : (decodeAbsolute dates fromRaw toRaw).invalid = []) :
    ∃ fromMs toMs, dates.parse fromRaw = some fromMs ∧ dates.parse toRaw = some toMs ∧
      fromMs ≤ toMs ∧
        decodeAbsolute dates fromRaw toRaw = ⟨some (.absolute fromMs toMs), [], false⟩ := by
  cases hfrom : dates.parse fromRaw with
  | none => simp [decodeAbsolute, parseAbsoluteDate, hfrom] at h
  | some fromMs =>
    cases hto : dates.parse toRaw with
    | none => simp [decodeAbsolute, parseAbsoluteDate, hfrom, hto] at h
    | some toMs =>
      by_cases hlt : toMs < fromMs
      · simp [decodeAbsolute, parseAbsoluteDate, hfrom, hto, hlt] at h
      · exact ⟨fromMs, toMs, rfl, rfl, not_lt.mp hlt, by
          simp [decodeAbsolute, parseAbsoluteDate, hfrom, hto, hlt]⟩

variable (dates) in
/-- What an accepted address is read as. -/
def RawParams.ReadAs (raw : RawParams) (state : UrlState) : Prop :=
  state.locked = state ∧
    ((∃ offset, raw.Relative offset ∧ state.range = .relative offset) ∨
      ∃ fromRaw toRaw fromMs toMs, raw.Absolute fromRaw toRaw ∧
        dates.parse fromRaw = some fromMs ∧ dates.parse toRaw = some toMs ∧ fromMs ≤ toMs ∧
          state.range = .absolute fromMs toMs)

variable (dates) in
/-- An address is accepted, or every parameter that is taken for invalid is named. -/
theorem decodeParams_cases (raw : RawParams) :
    raw.refused dates = [] ∧
      (∃ state, decodeParams dates raw = .ok state ∧ raw.ReadAs dates state) ∨
    raw.refused dates ≠ [] ∧
      ∃ err, decodeParams dates raw = .error err ∧
        ∀ field, field ∈ err.fields ↔ field ∈ raw.refused dates := by
  have hfields : ∀ rangeInverted field,
      field ∈ (decodeError raw rangeInverted (raw.refused dates)).fields ↔
        field ∈ raw.refused dates := by
    intro rangeInverted field
    simp [decodeError, mem_fieldOrder]
  by_cases hrefused : raw.refused dates = []
  · refine .inl ⟨hrefused, ?_⟩
    obtain ⟨hrefresh, hrange⟩ := List.append_eq_nil_iff.mp hrefused
    have hsome : decodeRefresh raw.refreshRaw ≠ none := by
      intro hnone
      simp [hnone] at hrefresh
    obtain ⟨refresh, hrefresh⟩ := Option.ne_none_iff_exists'.mp hsome
    rcases decodeRange_cases dates raw with
      ⟨offset, hrel, hdecoded⟩ | ⟨-, -, hdecoded⟩ | ⟨fromRaw, toRaw, habs, hdecoded⟩
    · refine ⟨⟨raw.q.getD "", .relative offset, refresh⟩, ?_, rfl, .inl ⟨offset, hrel, rfl⟩⟩
      simp [decodeParams, hdecoded, hrefresh, TimeRange.refreshOf]
    · simp [hdecoded] at hrange
    · rw [hdecoded] at hrange
      obtain ⟨fromMs, toMs, hfrom, hto, hle, habsolute⟩ := decodeAbsolute_of_valid hrange
      refine ⟨⟨raw.q.getD "", .absolute fromMs toMs, .off⟩, ?_, rfl,
        .inr ⟨fromRaw, toRaw, fromMs, toMs, habs, hfrom, hto, hle, rfl⟩⟩
      simp [decodeParams, hdecoded, habsolute, hrefresh, TimeRange.refreshOf]
  · refine .inr ⟨hrefused, _, ?_, hfields (decodeRange dates raw.fromRaw raw.toRaw).rangeInverted⟩
    simp only [decodeParams]
    split
    · rename_i hnil _
      exact absurd hnil hrefused
    · rfl

variable (dates) in
/-- Whether a result accounts for the parameters of an address: nothing is invalid, and the
permalink of the state is read as the same state, or the error names what is invalid. -/
def RawParams.AccountedBy (raw : RawParams) : Except UrlParseError UrlState → Prop
  | .ok state =>
    (∀ field, ¬raw.Invalid dates field) ∧
    decode dates (encode dates state) = .ok state ∧
    ∀ fromMs toMs, state.range = .absolute fromMs toMs → fromMs ≤ toMs ∧ state.refresh = .off ∧
      ∃ fromRaw toRaw, raw.fromRaw = some fromRaw ∧ raw.toRaw = some toRaw ∧
        IsTimestamp dates fromRaw fromMs ∧ IsTimestamp dates toRaw toMs
  | .error err => ∀ field, field ∈ err.fields ↔ raw.Invalid dates field

/-- Whether `decode` accounts for an address. -/
def Accounted (dates : Dates) (search : String) : Prop :=
  (searchParams search).AccountedBy dates (decode dates search)

/-- A state that is read is written and read as itself. -/
theorem RawParams.ReadAs.reproduced {raw : RawParams} {state : UrlState}
    (h : raw.ReadAs dates state) : decode dates (encode dates state) = .ok state := by
  obtain ⟨hlocked, hrange⟩ := h
  have hvalid : state.Valid := by
    intro fromMs toMs habsolute
    rcases hrange with ⟨offset, -, hrel⟩ | ⟨fromRaw, toRaw, fromMs', toMs', -, hfrom, hto, hle, heq⟩
    · rw [hrel] at habsolute
      exact nomatch habsolute
    · rw [heq] at habsolute
      obtain ⟨rfl, rfl⟩ := TimeRange.absolute.inj habsolute
      exact ⟨dates.valid_of_parse hfrom, dates.valid_of_parse hto, hle⟩
  rw [decode_encode dates hvalid, hlocked]

/-- An address is accounted for exactly if what is taken for invalid is invalid. -/
theorem accounted_iff_refused (search : String) :
    Accounted dates search ↔
      ∀ field, field ∈ (searchParams search).refused dates ↔
        (searchParams search).Invalid dates field := by
  rw [Accounted, decode]
  rcases decodeParams_cases dates (searchParams search) with
    ⟨hnil, state, hok, hread⟩ | ⟨-, err, herr, hfields⟩
  · rw [hok, hnil]
    simp only [RawParams.AccountedBy, List.not_mem_nil, false_iff]
    refine ⟨And.left, fun hnone => ⟨hnone, hread.reproduced, ?_⟩⟩
    intro fromMs toMs hrange
    obtain ⟨hlocked, habs⟩ := hread
    rcases habs with ⟨offset, -, hrel⟩ |
      ⟨fromRaw, toRaw, fromMs', toMs', habs, hfrom, hto, hle, heq⟩
    · rw [hrel] at hrange
      exact nomatch hrange
    · rw [heq] at hrange
      obtain ⟨rfl, rfl⟩ := TimeRange.absolute.inj hrange
      have hstrict : Strict dates fromRaw := by
        by_contra hnot
        exact hnone _ (.fromBound habs hnot)
      have hstrict' : Strict dates toRaw := by
        by_contra hnot
        exact hnone _ (.toBound habs hnot)
      refine ⟨hle, ?_, fromRaw, toRaw, habs.2.1, habs.2.2, hstrict.isTimestamp hfrom,
        hstrict'.isTimestamp hto⟩
      rw [← hlocked, UrlState.locked, heq]
      rfl
  · simp only [herr, RawParams.AccountedBy, hfields]

variable (dates) in
/-- Whether every bound of an absolute range that `Date` takes is a strict timestamp. Beside that,
a first bound that is none goes with a timestamp before it: the error names the first bound. -/
def BoundsStrict (fromRaw toRaw : String) : Prop :=
  (∀ raw ∈ [fromRaw, toRaw], ∀ ms, dates.parse raw = some ms → Strict dates raw) ∨
    ¬Strict dates fromRaw ∧
      ∃ fromMs toMs, dates.parse fromRaw = some fromMs ∧ IsTimestamp dates toRaw toMs ∧
        toMs < fromMs

theorem strict_iff {raw : String} {ms : Int} (h : dates.parse raw = some ms) :
    Strict dates raw ↔ IsTimestamp dates raw ms :=
  ⟨fun hstrict => hstrict.isTimestamp h, fun htime => ⟨ms, htime⟩⟩

theorem not_strict {raw : String} (h : dates.parse raw = none) : ¬Strict dates raw := by
  rintro ⟨ms, hparse, -⟩
  rw [h] at hparse
  exact nomatch hparse

theorem refresh_refused_iff {raw : RawParams} :
    decodeRefresh raw.refreshRaw = none ↔ raw.Invalid dates .refresh := by
  constructor
  · intro h
    cases htext : raw.refreshRaw with
    | none => simp [htext, decodeRefresh] at h
    | some text =>
      refine .refresh htext ?_
      rintro interval rfl
      rw [htext, decodeRefresh, refreshInterval?_eq_some_iff.mpr rfl] at h
      exact nomatch h
  · intro h
    cases h with
    | refresh htext hall =>
      rename_i text
      rw [htext, decodeRefresh, Option.eq_none_iff_forall_ne_some]
      intro interval hsome
      exact hall interval (refreshInterval?_eq_some_iff.mp hsome)

theorem mem_refused_iff {raw : RawParams} {field : UrlField} :
    field ∈ raw.refused dates ↔ field = .refresh ∧ decodeRefresh raw.refreshRaw = none ∨
      field ∈ (decodeRange dates raw.fromRaw raw.toRaw).invalid := by
  rw [RawParams.refused, List.mem_append]
  split_ifs with h <;> simp [h]

variable (dates) in
/-- Whether two bounds are timestamps of which the first is after the second. -/
def Inverted (fromRaw toRaw : String) : Prop :=
  ∃ fromMs toMs, IsTimestamp dates fromRaw fromMs ∧ IsTimestamp dates toRaw toMs ∧ toMs < fromMs

theorem inverted_iff {fromRaw toRaw : String} {fromMs toMs : Int}
    (hfrom : dates.parse fromRaw = some fromMs) (hto : dates.parse toRaw = some toMs) :
    Inverted dates fromRaw toRaw ↔
      Strict dates fromRaw ∧ Strict dates toRaw ∧ toMs < fromMs := by
  rw [strict_iff hfrom, strict_iff hto]
  constructor
  · rintro ⟨fromMs', toMs', htime, htime', hlt⟩
    obtain rfl := Option.some.inj (hfrom.symm.trans htime.1)
    obtain rfl := Option.some.inj (hto.symm.trans htime'.1)
    exact ⟨htime, htime', hlt⟩
  · rintro ⟨htime, htime', hlt⟩
    exact ⟨fromMs, toMs, htime, htime', hlt⟩

theorem not_inverted_of_not_strict {fromRaw toRaw : String} (h : ¬Strict dates toRaw) :
    ¬Inverted dates fromRaw toRaw := by
  rintro ⟨-, toMs, -, htime, -⟩
  exact h ⟨toMs, htime⟩

theorem boundsStrict_iff {fromRaw toRaw : String} {fromMs toMs : Int}
    (hfrom : dates.parse fromRaw = some fromMs) (hto : dates.parse toRaw = some toMs) :
    BoundsStrict dates fromRaw toRaw ↔
      Strict dates toRaw ∧ (Strict dates fromRaw ∨ toMs < fromMs) := by
  constructor
  · rintro (hall | ⟨-, fromMs', toMs', hparse, htime, hlt⟩)
    · exact ⟨hall toRaw (by simp) toMs hto, .inl (hall fromRaw (by simp) fromMs hfrom)⟩
    · obtain rfl := Option.some.inj (hfrom.symm.trans hparse)
      obtain rfl := Option.some.inj (hto.symm.trans htime.1)
      exact ⟨⟨toMs, htime⟩, .inr hlt⟩
  · rintro ⟨hstrict, hor⟩
    by_cases hstrict' : Strict dates fromRaw
    · left
      intro raw hraw _ _
      rcases List.mem_pair.mp hraw with rfl | rfl
      · exact hstrict'
      · exact hstrict
    · exact .inr ⟨hstrict', fromMs, toMs, hfrom, (strict_iff hto).mp hstrict,
        hor.resolve_left hstrict'⟩

/-- The bounds of an absolute range are read well exactly if they are strict. -/
theorem decodeAbsolute_exact_iff (fromRaw toRaw : String) :
    (UrlField.fromBound ∈ (decodeAbsolute dates fromRaw toRaw).invalid ↔
        ¬Strict dates fromRaw ∨ Inverted dates fromRaw toRaw) ∧
      (UrlField.toBound ∈ (decodeAbsolute dates fromRaw toRaw).invalid ↔ ¬Strict dates toRaw) ↔
    BoundsStrict dates fromRaw toRaw := by
  cases hfrom : dates.parse fromRaw with
  | none =>
    have hnot := not_strict hfrom
    cases hto : dates.parse toRaw with
    | none => simp [decodeAbsolute, parseAbsoluteDate, BoundsStrict, hfrom, hto, hnot,
        not_strict hto]
    | some toMs => simp [decodeAbsolute, parseAbsoluteDate, BoundsStrict, hfrom, hto, hnot]
  | some fromMs =>
    cases hto : dates.parse toRaw with
    | none =>
      have hnot := not_strict hto
      have hinverted : ¬Inverted dates fromRaw toRaw := not_inverted_of_not_strict hnot
      have htime : ∀ toMs, ¬IsTimestamp dates toRaw toMs := fun toMs h => hnot ⟨toMs, h⟩
      simp [decodeAbsolute, parseAbsoluteDate, BoundsStrict, hfrom, hto, hnot, hinverted, htime]
    | some toMs =>
      rw [boundsStrict_iff hfrom hto, inverted_iff hfrom hto]
      by_cases hlt : toMs < fromMs
      · have hinvalid : (decodeAbsolute dates fromRaw toRaw).invalid = [.fromBound] := by
          simp [decodeAbsolute, parseAbsoluteDate, hfrom, hto, hlt]
        have hother : UrlField.toBound ∉ [UrlField.fromBound] := by decide
        simp only [hinvalid, List.mem_cons_self, hother, hlt, true_iff, false_iff]
        tauto
      · have hinvalid : (decodeAbsolute dates fromRaw toRaw).invalid = [] := by
          simp [decodeAbsolute, parseAbsoluteDate, hfrom, hto, hlt]
        simp only [hinvalid, List.not_mem_nil, hlt, false_iff]
        tauto

theorem not_invalid_q {raw : RawParams} : ¬raw.Invalid dates .q := nofun

theorem RawParams.Absolute.unique {raw : RawParams} {fromRaw toRaw fromRaw' toRaw' : String}
    (h : raw.Absolute fromRaw toRaw) (h' : raw.Absolute fromRaw' toRaw') :
    fromRaw = fromRaw' ∧ toRaw = toRaw' :=
  ⟨Option.some.inj (h.2.1.symm.trans h'.2.1), Option.some.inj (h.2.2.symm.trans h'.2.2)⟩

theorem RawParams.Absolute.invalid_fromBound_iff {raw : RawParams} {fromRaw toRaw : String}
    (h : raw.Absolute fromRaw toRaw) :
    raw.Invalid dates .fromBound ↔ ¬Strict dates fromRaw ∨ Inverted dates fromRaw toRaw := by
  constructor
  · intro hinvalid
    cases hinvalid with
    | oneBound _ hnone =>
      rcases hnone with hnone | hnone
      · exact nomatch h.2.1.symm.trans hnone
      · exact nomatch h.2.2.symm.trans hnone
    | fromBound habs hnot =>
      obtain ⟨rfl, rfl⟩ := h.unique habs
      exact .inl hnot
    | inverted habs htime htime' hlt =>
      obtain ⟨rfl, rfl⟩ := h.unique habs
      exact .inr ⟨_, _, htime, htime', hlt⟩
  · rintro (hnot | ⟨fromMs, toMs, htime, htime', hlt⟩)
    · exact .fromBound h hnot
    · exact .inverted h htime htime' hlt

theorem RawParams.Absolute.invalid_toBound_iff {raw : RawParams} {fromRaw toRaw : String}
    (h : raw.Absolute fromRaw toRaw) : raw.Invalid dates .toBound ↔ ¬Strict dates toRaw := by
  constructor
  · intro hinvalid
    cases hinvalid with
    | toBound habs hnot =>
      obtain ⟨rfl, rfl⟩ := h.unique habs
      exact hnot
  · exact .toBound h

theorem RawParams.Relative.not_invalid {raw : RawParams} {offset : RelativeOffset}
    (h : raw.Relative offset) {bound : UrlField} (hbound : bound ∈ [UrlField.fromBound, .toBound]) :
    ¬raw.Invalid dates bound := by
  intro hinvalid
  cases hinvalid with
  | refresh => simp at hbound
  | oneBound hnone _ => exact hnone offset h
  | fromBound habs _ => exact habs.1 offset h
  | toBound habs _ => exact habs.1 offset h
  | inverted habs _ _ _ => exact habs.1 offset h

/-- Only bounds are invalid in a range. -/
theorem mem_bounds_of_mem {raw : RawParams} {field : UrlField}
    (h : field ∈ (decodeRange dates raw.fromRaw raw.toRaw).invalid) :
    field ∈ [UrlField.fromBound, .toBound] := by
  rcases decodeRange_cases dates raw with
    ⟨offset, -, hdecoded⟩ | ⟨-, -, hdecoded⟩ | ⟨fromRaw, toRaw, -, hdecoded⟩
  · simp [hdecoded] at h
  · simp only [hdecoded, List.mem_singleton] at h
    simp [h]
  · rw [hdecoded, decodeAbsolute] at h
    split at h
    · split_ifs at h
      · simp_all
      · simp at h
    · simp only [List.mem_append] at h
      rcases h with h | h
      · split_ifs at h <;> simp_all
      · split_ifs at h <;> simp_all

/-- An address is accounted for exactly if its bounds are read well. -/
theorem accounted_iff_bounds (search : String) :
    Accounted dates search ↔
      ∀ bound ∈ [UrlField.fromBound, .toBound],
        bound ∈
            (decodeRange dates (searchParams search).fromRaw (searchParams search).toRaw).invalid ↔
          (searchParams search).Invalid dates bound := by
  rw [accounted_iff_refused]
  generalize searchParams search = raw
  simp only [mem_refused_iff]
  constructor
  · intro hall bound hbound
    have hne : bound ≠ .refresh := by
      rintro rfl
      simp at hbound
    rw [← hall bound, or_iff_right (fun h => hne h.1)]
  · intro hall field
    have hsub : field ∈ (decodeRange dates raw.fromRaw raw.toRaw).invalid →
        field ∈ [UrlField.fromBound, .toBound] := mem_bounds_of_mem
    cases field with
    | q => exact ⟨fun h => absurd (hsub (h.resolve_left nofun)) (by decide),
        fun h => absurd h not_invalid_q⟩
    | fromBound =>
      rw [← hall .fromBound (by decide), or_iff_right (fun h => nomatch h.1)]
    | toBound =>
      rw [← hall .toBound (by decide), or_iff_right (fun h => nomatch h.1)]
    | refresh =>
      rw [← refresh_refused_iff, or_iff_left (fun h => absurd (hsub h) (by decide)),
        and_iff_right rfl]

/-- An address is accounted for exactly if it does not ask for an absolute range with a bound that
`Date` takes and that is no strict timestamp. -/
theorem accounted_iff (search : String) :
    Accounted dates search ↔
      ∀ fromRaw toRaw, (searchParams search).Absolute fromRaw toRaw →
        BoundsStrict dates fromRaw toRaw := by
  rw [accounted_iff_bounds]
  generalize searchParams search = raw
  rcases decodeRange_cases dates raw with
    ⟨offset, hrel, hdecoded⟩ | ⟨hnone, hbound, hdecoded⟩ | ⟨fromRaw, toRaw, habs, hdecoded⟩
  · have hleft : ∀ bound ∈ [UrlField.fromBound, .toBound],
        bound ∈ (decodeRange dates raw.fromRaw raw.toRaw).invalid ↔ raw.Invalid dates bound := by
      intro bound hbound
      rw [hdecoded]
      exact iff_of_false List.not_mem_nil (hrel.not_invalid hbound)
    exact iff_of_true hleft fun _ _ habs => absurd hrel (habs.1 offset)
  · have hnot : ∀ fromRaw toRaw, ¬raw.Absolute fromRaw toRaw := by
      rintro fromRaw toRaw ⟨-, hfrom, hto⟩
      rcases hbound with h | h
      · exact nomatch hfrom.symm.trans h
      · exact nomatch hto.symm.trans h
    have hleft : ∀ bound ∈ [UrlField.fromBound, .toBound],
        bound ∈ (decodeRange dates raw.fromRaw raw.toRaw).invalid ↔ raw.Invalid dates bound := by
      intro bound hmem
      rw [hdecoded]
      rcases List.mem_pair.mp hmem with rfl | rfl
      · exact iff_of_true List.mem_cons_self (.oneBound hnone hbound)
      · refine iff_of_false (by decide) fun hinvalid => ?_
        cases hinvalid with
        | toBound habs _ => exact hnot _ _ habs
    exact iff_of_true hleft fun _ _ habs => absurd habs (hnot _ _)
  · rw [hdecoded]
    simp only [List.forall_mem_cons, List.not_mem_nil, false_imp_iff, implies_true, and_true,
      habs.invalid_fromBound_iff, habs.invalid_toBound_iff]
    rw [decodeAbsolute_exact_iff]
    refine ⟨fun hstrict fromRaw' toRaw' habs' => ?_, fun hall => hall fromRaw toRaw habs⟩
    obtain ⟨rfl, rfl⟩ := habs.unique habs'
    exact hstrict

variable (dates) in
/-- Every state comes back from its permalink, and an address is accounted for exactly if it does
not ask for an absolute range with a bound that `Date` takes and that is no strict timestamp (but
see `BoundsStrict` for a bound that is named for another reason). -/
theorem permalinks_iff :
    (∀ state : UrlState, state.Valid →
      decode dates (encode dates state) = .ok state.locked) ∧
    ∀ search, Accounted dates search ↔
      ∀ fromRaw toRaw, (searchParams search).Absolute fromRaw toRaw →
        BoundsStrict dates fromRaw toRaw :=
  ⟨fun _ => decode_encode dates, accounted_iff⟩

/-- The number of a text with a sign. -/
def signedMs : Text → Option Int
  | '+' :: digits => ((String.ofList digits).toNat?.map Int.ofNat).filter ValidTime
  | '-' :: digits => ((String.ofList digits).toNat?.map (-Int.ofNat ·)).filter ValidTime
  | _ => none

/-- The texts of two instants; all others are written as numbers. -/
def tabulatedIso (text : String) : Option Int :=
  if text = "2026-05-07T03:00:00.000Z" then some 1778122800000
  else if text = "2026-05-07T03:15:00.000Z" then some 1778123700000
  else signedMs text.toList

theorem tabulatedIso_of_head {t : Text} (h : t.head? ≠ some '2') :
    tabulatedIso (String.ofList t) = signedMs t := by
  have hne : ∀ text : String, text.toList.head? = some '2' → String.ofList t ≠ text := by
    rintro text hhead rfl
    rw [String.toList_ofList] at hhead
    exact h hhead
  rw [tabulatedIso, if_neg (hne _ (by decide)), if_neg (hne _ (by decide)), String.toList_ofList]

theorem validTime_of_signedMs {t : Text} {ms : Int} (h : signedMs t = some ms) : ValidTime ms := by
  unfold signedMs at h
  split at h
  · exact of_decide_eq_true (Option.filter_eq_some_iff.mp h).2
  · exact of_decide_eq_true (Option.filter_eq_some_iff.mp h).2
  · exact nomatch h

theorem validTime_of_tabulatedIso {text : String} {ms : Int} (h : tabulatedIso text = some ms) :
    ValidTime ms := by
  rw [tabulatedIso] at h
  split_ifs at h
  · rw [← Option.some.inj h]
    decide
  · rw [← Option.some.inj h]
    decide
  · exact validTime_of_signedMs h

/-- The text of an instant, as far as it is in the table. -/
def tabulatedText (ms : Int) : String :=
  if ms = 1778122800000 then "2026-05-07T03:00:00.000Z"
  else if ms = 1778123700000 then "2026-05-07T03:15:00.000Z"
  else
    match ms with
    | .ofNat n => String.ofList ('+' :: (toString n).toList)
    | .negSucc n => String.ofList ('-' :: (toString (n + 1)).toList)

theorem tabulatedIso_text {ms : Int} (h : ValidTime ms) :
    tabulatedIso (tabulatedText ms) = some ms := by
  unfold tabulatedText
  split_ifs with hstart hend
  · rw [hstart]
    decide
  · rw [hend]
    decide
  · cases ms with
    | ofNat n =>
      have hread : (toString n).toNat? = some n := Nat.toNat?_repr n
      have hhead : ('+' :: (toString n).toList).head? ≠ some '2' := by simp
      change tabulatedIso (String.ofList ('+' :: (toString n).toList)) = _
      rw [tabulatedIso_of_head hhead, signedMs, String.ofList_toList, hread]
      exact Option.filter_eq_some_iff.mpr ⟨rfl, decide_eq_true h⟩
    | negSucc n =>
      have hread : (toString (n + 1)).toNat? = some (n + 1) := Nat.toNat?_repr (n + 1)
      have hhead : ('-' :: (toString (n + 1)).toList).head? ≠ some '2' := by simp
      change tabulatedIso (String.ofList ('-' :: (toString (n + 1)).toList)) = _
      rw [tabulatedIso_of_head hhead, signedMs, String.ofList_toList, hread]
      exact Option.filter_eq_some_iff.mpr ⟨rfl, decide_eq_true h⟩

/-- A `Date` in UTC that knows these texts, and reads a bare number as a month. -/
def tabulatedDates : Dates where
  parse text := if text = "5" then some 988675200000 else tabulatedIso text
  iso := tabulatedIso
  toISOString := tabulatedText
  parse_of_iso := by
    intro text ms h
    rw [if_neg]
    · exact h
    · rintro rfl
      have hfive : tabulatedIso "5" = none := by decide
      rw [hfive] at h
      exact nomatch h
  iso_toISOString := tabulatedIso_text
  iso_now := by decide
  valid_of_parse := by
    intro text ms h
    split_ifs at h
    · rw [← Option.some.inj h]
      decide
    · exact validTime_of_tabulatedIso h

/-- A state with an absolute range. -/
def incidentState : UrlState := ⟨"up", .absolute 1778122800000 1778123700000, .off⟩

/-- Its permalink is accounted for. -/
theorem written_link_accounted :
    Accounted tabulatedDates (encode tabulatedDates incidentState) := by
  refine ((permalinks_iff tabulatedDates).2 _).mpr ?_
  rw [searchParams_encode]
  rintro fromRaw toRaw ⟨-, hfrom, hto⟩
  obtain rfl := Option.some.inj hfrom
  obtain rfl := Option.some.inj hto
  left
  intro raw hraw _ _
  rcases List.mem_pair.mp hraw with rfl | rfl
  · exact ⟨1778122800000, by decide, by decide⟩
  · exact ⟨1778123700000, by decide, by decide⟩

/-- An address whose first bound is the number of a month is accepted. -/
theorem bare_number_accepted :
    decode tabulatedDates "from=5&to=2026-05-07T03:00:00.000Z" =
      .ok ⟨"", .absolute 988675200000 1778122800000, .off⟩ ∧
    ¬Accounted tabulatedDates "from=5&to=2026-05-07T03:00:00.000Z" := by
  have hparams : searchParams "from=5&to=2026-05-07T03:00:00.000Z" =
      ⟨none, some "5", some "2026-05-07T03:00:00.000Z", none⟩ := by
    decide +kernel
  have hdecode : decode tabulatedDates "from=5&to=2026-05-07T03:00:00.000Z" =
      .ok ⟨"", .absolute 988675200000 1778122800000, .off⟩ := by
    rw [decode, hparams]
    decide
  refine ⟨hdecode, ?_⟩
  rw [Accounted, hdecode, hparams]
  rintro ⟨-, -, hrange⟩
  obtain ⟨-, -, fromRaw, toRaw, hfrom, -, ⟨-, hiso⟩, -⟩ := hrange _ _ rfl
  obtain rfl := Option.some.inj hfrom
  exact absurd hiso (by decide)

end Kaleidoscope.Prism
