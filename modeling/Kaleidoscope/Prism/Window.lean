import Kaleidoscope.Prism.Explorer
import Kaleidoscope.Prism.LiteralSearch
import Kaleidoscope.Prism.Permalink
import Kaleidoscope.QueryHttpCommon.TimeRange

/-!
# The window that is served

A panel turns its time range into seconds and writes them into an address; the server reads them
back. The query panel sends fractions of a second and subtracts in doubles, the explorers send whole
seconds. Either way the server reads the seconds that the range begins and ends in.
-/

namespace Kaleidoscope.Prism

open Binary64 QueryApi QueryHttpCommon Utf8

/-- `Number.prototype.toString` of a double that is written without an exponent. -/
def numberText (x : ℚ) : Text := (display (Binary64.encode x)).toList

/-! ## Addresses -/

/-- `relativeOffsetToSeconds`. -/
def relativeOffsetToSeconds (offset : String) : ℕ :=
  match offset.toList with
  | '-' :: t =>
    let digits := t.takeWhile Char.isDigit
    if digits = [] then 900
    else
      match t.dropWhile Char.isDigit with
      | ['m'] => Decimal.value digits * 60
      | ['h'] => Decimal.value digits * 3600
      | ['d'] => Decimal.value digits * 86400
      | _ => 900
  | _ => 900

/-- `resolveRange`, at a time in milliseconds. -/
def resolveRange (nowMs : Int) : TimeRange → ℚ × ℚ
  | .absolute fromMs toMs => (nearest (fromMs / 1000), nearest (toMs / 1000))
  | .relative offset =>
    let nowSec := nearest (nowMs / 1000)
    (nearest (nowSec - relativeOffsetToSeconds offset.text), nowSec)

/-- `buildUrl`, from the question mark on. -/
def queryRangeSearch (request : QueryRangeRequest) (nowMs : Int) : Text :=
  let bounds := resolveRange nowMs request.range
  UrlEncoded.serialize [("query".toList, request.q.toList),
    ("start".toList, numberText bounds.1), ("end".toList, numberText bounds.2),
    ("step".toList, "15s".toList)]

/-- `buildTracesUrl`, from the question mark on. -/
def tracesSearch (request : FailedTracesRequest) (errorOnly : Bool) : Text :=
  let failed := if errorOnly then [("error".toList, "true".toList)] else []
  let filter :=
    match request.filter with
    | some (key, value) =>
      if key ≠ "" ∧ value ≠ "" then
        [("attr_key".toList, key.toList), ("attr_value".toList, value.toList)]
      else []
    | none => []
  UrlEncoded.serialize ([("service".toList, request.service.toList),
    ("start".toList, numberText request.start), ("end".toList, numberText request.stop)] ++
      failed ++ filter)

/-- `buildLogsUrl`, from the question mark on. -/
def logsSearch (start stop : Int) (filter : ResolvedFilter) : Text :=
  let param :=
    match filter with
    | .bodyRegex value => [("body_regex".toList, value.toList)]
    | .minSeverity value => [("min_severity".toList, value.toList)]
    | .refused _ => []
  UrlEncoded.serialize ([("start".toList, numberText start), ("end".toList, numberText stop)] ++
    param)

/-! ## What the server reads -/

/-- A parameter of an address, as a handler gets it; a missing one is the empty text. -/
def queryParam (search : Text) (name : String) : String :=
  String.ofList ((UrlEncoded.get (UrlEncoded.parse search) name.toList).getD [])

/-- The bounds that a handler reads from an address. -/
def servedRange (rfc3339 : String → Option Int) (search : Text) : Except String EpochRange :=
  parseTimeRange rfc3339 (queryParam search "start") (queryParam search "end")

/-! ## What is meant -/

/-- The whole seconds that two times begin in; there are none before the epoch. -/
def windowOf (fromMs toMs : Int) : Except String EpochRange :=
  if fromMs < 0 then .error (unparseableReason .start)
  else if toMs < 0 then .error (unparseableReason .stop)
  else if toMs / 1000 < fromMs / 1000 then .error reasonInvalidTimeRange
  else .ok ⟨(fromMs / 1000).toNat, (toMs / 1000).toNat⟩

/-- The ends of a range in milliseconds, when a relative one goes back at most so far. -/
def TimeRange.ends (nowMs longest : Int) : TimeRange → Int × Int
  | .absolute fromMs toMs => (fromMs, toMs)
  | .relative offset => (nowMs - 1000 * min (relativeSeconds offset) longest, nowMs)

/-- The times of a range are those of dates. -/
def TimeRange.Valid : TimeRange → Prop
  | .absolute fromMs toMs => ValidTime fromMs ∧ ValidTime toMs
  | .relative _ => True

theorem relativeOffsetToSeconds_text (offset : RelativeOffset) :
    (relativeOffsetToSeconds offset.text : Int) = relativeSeconds offset := by
  cases offset <;> decide

/-! ## Seconds as doubles -/

/-- A double lies in the second of a time in milliseconds. -/
structure SecondOf (x : ℚ) (ms : Int) : Prop where
  double : nearest x = x
  small : |x| < 2 ^ 53
  neg : x < 0 ↔ ms < 0
  second : 0 ≤ ms → ⌊x⌋₊ = (ms / 1000).toNat

theorem SecondOf.asU64 {x : ℚ} {ms : Int} (h : SecondOf x ms) (hms : 0 ≤ ms) :
    asU64 x = (ms / 1000).toNat := by
  have hfloor : ⌊x⌋₊ < 2 ^ 53 := by
    have hnonneg : 0 ≤ x := not_lt.mp (h.neg.not.mpr (not_lt.mpr hms))
    rw [Nat.floor_lt hnonneg]
    exact_mod_cast (abs_lt.mp h.small).2
  rw [QueryHttpCommon.asU64, ← h.second hms, Pulse.u64Max]
  omega

/-- The texts of two doubles are read as the seconds that they are in. -/
theorem SecondOf.parseTimeRange {rfc3339 : String → Option Int} {x y : ℚ} {fromMs toMs : Int}
    (hx : SecondOf x fromMs) (hy : SecondOf y toMs) :
    parseTimeRange rfc3339 (String.ofList (numberText x)) (String.ofList (numberText y)) =
      windowOf fromMs toMs := by
  have hbig {z : ℚ} (hz : |z| < 2 ^ 53) : |z| < 2 ^ 1024 :=
    hz.trans (pow_lt_pow_right₀ (by norm_num) (by norm_num))
  rw [numberText, numberText, String.ofList_toList, String.ofList_toList,
    QueryHttpCommon.parseTimeRange, parseEpochSeconds_display hx.double (hbig hx.small),
    parseEpochSeconds_display hy.double (hbig hy.small), windowOf]
  by_cases hstart : fromMs < 0
  · rw [if_pos hstart, if_neg (not_le.mpr (hx.neg.mpr hstart))]
    rfl
  · rw [if_neg hstart, if_pos (not_lt.mp (hx.neg.not.mpr hstart)), hx.asU64 (not_lt.mp hstart)]
    by_cases hstop : toMs < 0
    · rw [if_pos hstop, if_neg (not_le.mpr (hy.neg.mpr hstop))]
      rfl
    · rw [if_neg hstop, if_pos (not_lt.mp (hy.neg.not.mpr hstop)), hy.asU64 (not_lt.mp hstop)]
      have horder : (toMs / 1000).toNat < (fromMs / 1000).toNat ↔ toMs / 1000 < fromMs / 1000 := by
        omega
      simp only [← horder]
      rfl

/-- The latest time of a date is small enough for its seconds to be told apart. -/
theorem nearest_thousandth_lt {n : ℕ} (h : n ≤ 8640000000000000) :
    nearest ((n : ℚ) / 1000) < 2 ^ 52 := by
  have hlast : nearest (8640000000000 : ℕ) = (8640000000000 : ℕ) := nearest_natCast (by norm_num)
  have hle : (n : ℚ) / 1000 ≤ (8640000000000 : ℕ) := by
    have hn : (n : ℚ) ≤ 8640000000000000 := by exact_mod_cast h
    rw [div_le_iff₀ (by norm_num)]
    push_cast
    linarith
  calc nearest ((n : ℚ) / 1000) ≤ nearest (8640000000000 : ℕ) := nearest_mono (by positivity) hle
    _ = (8640000000000 : ℕ) := hlast
    _ < 2 ^ 52 := by norm_num

theorem floor_thousandth {n : ℕ} (h : n ≤ 8640000000000000) :
    ⌊nearest ((n : ℚ) / 1000)⌋₊ = n / 1000 := by
  obtain ⟨m, r, hn, hr⟩ : ∃ m r, n = 1000 * m + r ∧ r < 1000 :=
    ⟨n / 1000, n % 1000, by omega, by omega⟩
  have hm : n / 1000 = m := by omega
  have hq : (n : ℚ) / 1000 = m + r / 1000 := by
    rw [hn]
    push_cast
    ring
  have hr' : (r : ℚ) ≤ 999 := by exact_mod_cast Nat.le_of_lt_succ hr
  have hulp : ulp ((n : ℚ) / 1000) ≤ 2 ^ (-9 : ℤ) := by
    have hsmall : |(n : ℚ) / 1000| < 2 ^ (44 : ℤ) := by
      have hn' : (n : ℚ) ≤ 8640000000000000 := by exact_mod_cast h
      rw [abs_of_nonneg (by positivity), div_lt_iff₀ (by norm_num)]
      norm_num
      linarith
    exact zpow_le_zpow_right₀ (by norm_num) (lastPlace_le (by norm_num) hsmall)
  rw [hm]
  refine floor_nearest (by omega) ?_ ?_
  · rw [hq]
    linarith [show (0 : ℚ) ≤ r / 1000 by positivity]
  · norm_num at hulp
    rw [hq] at hulp ⊢
    linarith

theorem nearest_neg_thousandth (n : ℕ) :
    nearest (((-(n : ℤ) : ℤ) : ℚ) / 1000) = -nearest ((n : ℚ) / 1000) := by
  rw [Int.cast_neg, Int.cast_natCast, neg_div, nearest_neg]

theorem abs_nearest_thousandth_lt {ms : Int} (h : ValidTime ms) :
    |nearest ((ms : ℚ) / 1000)| < 2 ^ 52 := by
  obtain ⟨hlow, hhigh⟩ := h
  obtain ⟨n, rfl | rfl⟩ := ms.eq_nat_or_neg
  · rw [Int.cast_natCast, abs_of_nonneg (nearest_nonneg (by positivity))]
    exact nearest_thousandth_lt (by omega)
  · rw [nearest_neg_thousandth, abs_neg, abs_of_nonneg (nearest_nonneg (by positivity))]
    exact nearest_thousandth_lt (by omega)

/-- Dividing by a thousand in doubles stays in the second. -/
theorem SecondOf.thousandth {ms : Int} (h : ValidTime ms) :
    SecondOf (nearest ((ms : ℚ) / 1000)) ms := by
  have hsmall := (abs_nearest_thousandth_lt h).trans (by norm_num : (2 : ℚ) ^ 52 < 2 ^ 53)
  obtain ⟨hlow, hhigh⟩ := h
  have hnonneg (n : ℕ) : 0 ≤ nearest ((n : ℚ) / 1000) := nearest_nonneg (by positivity)
  obtain ⟨n, rfl | rfl⟩ := ms.eq_nat_or_neg
  · refine ⟨nearest_nearest _, hsmall, ?_, fun _ => ?_⟩
    · rw [Int.cast_natCast]
      exact iff_of_false (not_lt.mpr (hnonneg n)) (by omega)
    · rw [Int.cast_natCast, floor_thousandth (by omega)]
      omega
  · rw [nearest_neg_thousandth] at hsmall ⊢
    refine ⟨by rw [nearest_neg, nearest_nearest], hsmall, ?_, fun hms => ?_⟩
    · rw [neg_lt_zero]
      constructor
      · intro hpos
        by_contra hzero
        obtain rfl : n = 0 := by omega
        simp at hpos
      · intro hneg
        have hone : (1 : ℚ) ≤ n := by exact_mod_cast (by omega : 1 ≤ n)
        refine nearest_pos (s := -10) (by norm_num) ?_
        norm_num
        linarith
    · obtain rfl : n = 0 := by omega
      simp

/-- The whole seconds of a time. -/
theorem SecondOf.whole {ms : Int} (hlow : -9000000000000000 ≤ ms) (hhigh : ms ≤ 9000000000000000) :
    SecondOf ((ms / 1000 : Int) : ℚ) ms := by
  have habs : |ms / 1000| < 2 ^ 53 := abs_lt.mpr ⟨by omega, by omega⟩
  refine ⟨nearest_intCast habs.le, by exact_mod_cast habs, ?_, fun hms => ?_⟩
  · rw [Int.cast_lt_zero]
    omega
  · rw [← Int.toNat_of_nonneg (by omega : 0 ≤ ms / 1000), Int.cast_natCast, Nat.floor_natCast]
    omega

/-- Taking whole seconds in doubles stays in the second. -/
theorem SecondOf.sub {x : ℚ} {ms : Int} (h : SecondOf x ms) (hx : |x| < 2 ^ 52) {k : ℕ}
    (hk : k ≤ 86400) : SecondOf (nearest (x - k)) (ms - 1000 * k) := by
  have hk' : (k : ℚ) ≤ 86400 := by exact_mod_cast hk
  obtain ⟨hlow, hhigh⟩ := abs_lt.mp hx
  rcases le_or_gt (k : ℚ) x with hle | hgt
  · -- the difference is exact
    have hms : 0 ≤ ms := not_lt.mp (h.neg.not.mp (not_lt.mpr (k.cast_nonneg.trans hle)))
    have hfloor : k ≤ ⌊x⌋₊ := Nat.le_floor hle
    have hsub : 0 ≤ x - k := sub_nonneg.mpr hle
    rw [h.second hms] at hfloor
    rw [nearest_sub_natCast h.double h.small hle]
    refine ⟨nearest_sub_natCast h.double h.small hle, ?_, ?_, fun _ => ?_⟩
    · rw [abs_of_nonneg hsub]
      linarith [k.cast_nonneg (α := ℚ)]
    · exact iff_of_false (not_lt.mpr hsub) (by omega)
    · rw [Nat.floor_sub_natCast, h.second hms]
      omega
  · have hneg : nearest (x - k) < 0 := by
      rcases lt_or_ge x 0 with hx0 | hx0
      · have hmore : nearest (-x) ≤ nearest (k - x) :=
          nearest_mono (by linarith) (by linarith [k.cast_nonneg (α := ℚ)])
        rw [nearest_neg, h.double] at hmore
        rw [← neg_sub, nearest_neg]
        linarith
      · exact nearest_sub_natCast_neg h.double h.small hx0 hgt
    have hms : ms - 1000 * k < 0 := by
      by_contra hle
      have hfloor := h.second (by omega)
      have hnonneg : 0 ≤ x := not_lt.mp (h.neg.not.mpr (by omega))
      have hlt := (Nat.floor_lt hnonneg).mpr hgt
      omega
    refine ⟨nearest_nearest _, ?_, iff_of_true hneg hms, fun hge => absurd hms (not_lt.mpr hge)⟩
    have hbound : nearest (k - x) ≤ nearest ((2 ^ 52 + 86400 : ℕ) : ℚ) := by
      refine nearest_mono (by linarith) ?_
      push_cast
      linarith
    rw [nearest_natCast (by norm_num)] at hbound
    rw [abs_of_neg hneg, ← nearest_neg, neg_sub]
    exact hbound.trans_lt (by norm_num)

/-! ## The three panels -/

theorem queryParam_serialize {pairs : List (Text × Text)} {name : String} {t : Text}
    (hne : pairs ≠ []) (h : UrlEncoded.get pairs name.toList = some t) :
    queryParam (UrlEncoded.serialize pairs) name = String.ofList t := by
  rw [queryParam, UrlEncoded.parse_serialize hne, h, Option.getD_some]

variable {rfc3339 : String → Option Int}

/-- The query panel asks for the seconds of its range. -/
theorem served_queryRange (request : QueryRangeRequest) {nowMs : Int} (hnow : ValidTime nowMs)
    (hvalid : request.range.Valid) :
    servedRange rfc3339 (queryRangeSearch request nowMs) =
      windowOf (request.range.ends nowMs 86400).1 (request.range.ends nowMs 86400).2 := by
  have hread : servedRange rfc3339 (queryRangeSearch request nowMs) =
      parseTimeRange rfc3339 (String.ofList (numberText (resolveRange nowMs request.range).1))
        (String.ofList (numberText (resolveRange nowMs request.range).2)) := by
    rw [servedRange, queryRangeSearch, queryParam_serialize (List.cons_ne_nil _ _) rfl,
      queryParam_serialize (List.cons_ne_nil _ _) rfl]
  rw [hread]
  cases hrange : request.range with
  | absolute fromMs toMs =>
    rw [hrange] at hvalid
    exact (SecondOf.thousandth hvalid.1).parseTimeRange (.thousandth hvalid.2)
  | relative offset =>
    have hends : (nowMs - 1000 * min (relativeSeconds offset) 86400) =
        nowMs - 1000 * (relativeOffsetToSeconds offset.text : ℕ) := by
      rw [relativeOffsetToSeconds_text]
      cases offset <;> rfl
    have hoffset : relativeOffsetToSeconds offset.text ≤ 86400 := by
      cases offset <;> decide
    rw [TimeRange.ends, hends]
    have hstart := (SecondOf.thousandth hnow).sub (abs_nearest_thousandth_lt hnow) hoffset
    exact hstart.parseTimeRange (.thousandth hnow)

/-- The window of an explorer. -/
theorem served_toEpochWindow (range : TimeRange) {nowMs : Int} (hnow : ValidTime nowMs)
    (hvalid : range.Valid) {pairs : List (Text × Text)} (hne : pairs ≠ [])
    (hstart : UrlEncoded.get pairs "start".toList =
      some (numberText (toEpochWindow nowMs range).1))
    (hstop : UrlEncoded.get pairs "end".toList = some (numberText (toEpochWindow nowMs range).2)) :
    servedRange rfc3339 (UrlEncoded.serialize pairs) =
      windowOf (range.ends nowMs MAX_RELATIVE_WINDOW_SECONDS).1
        (range.ends nowMs MAX_RELATIVE_WINDOW_SECONDS).2 := by
  rw [servedRange, queryParam_serialize hne hstart, queryParam_serialize hne hstop]
  cases range with
  | absolute fromMs toMs =>
    obtain ⟨⟨hfromLow, hfromHigh⟩, htoLow, htoHigh⟩ := hvalid
    exact (SecondOf.whole (by omega) (by omega)).parseTimeRange (.whole (by omega) (by omega))
  | relative offset =>
    obtain ⟨hlow, hhigh⟩ := hnow
    obtain ⟨back, hback, hle⟩ : ∃ back : ℕ, min (relativeSeconds offset)
        MAX_RELATIVE_WINDOW_SECONDS = back ∧ back ≤ 86400 := by
      cases offset
      · exact ⟨300, rfl, by omega⟩
      · exact ⟨900, rfl, by omega⟩
      · exact ⟨3600, rfl, by omega⟩
      · exact ⟨21600, rfl, by omega⟩
      · exact ⟨82800, rfl, by omega⟩
    have hdiv : nowMs / 1000 - back = (nowMs - 1000 * back) / 1000 := by omega
    rw [toEpochWindow, TimeRange.ends, hback, hdiv]
    exact (SecondOf.whole (by omega) (by omega)).parseTimeRange (.whole (by omega) (by omega))

theorem served_traces (form : SearchForm) {nowMs : Int} (hnow : ValidTime nowMs)
    (hvalid : form.range.Valid) (errorOnly : Bool) :
    servedRange rfc3339 (tracesSearch (form.request nowMs) errorOnly) =
      windowOf (form.range.ends nowMs MAX_RELATIVE_WINDOW_SECONDS).1
        (form.range.ends nowMs MAX_RELATIVE_WINDOW_SECONDS).2 :=
  served_toEpochWindow form.range hnow hvalid (List.cons_ne_nil _ _) rfl rfl

theorem served_logs (range : TimeRange) {nowMs : Int} (hnow : ValidTime nowMs)
    (hvalid : range.Valid) (filter : ResolvedFilter) :
    servedRange rfc3339
        (logsSearch (toEpochWindow nowMs range).1 (toEpochWindow nowMs range).2 filter) =
      windowOf (range.ends nowMs MAX_RELATIVE_WINDOW_SECONDS).1
        (range.ends nowMs MAX_RELATIVE_WINDOW_SECONDS).2 :=
  served_toEpochWindow range hnow hvalid (List.cons_ne_nil _ _) rfl rfl

/-- A range of so many seconds, not too wide to be served, that ends with the current second. -/
def GoesBack (nowMs seconds : Int) (tr : EpochRange) : Prop :=
  tr.endSecs = (nowMs / 1000).toNat ∧ (tr.endSecs - tr.startSecs : ℕ) = seconds ∧
    tr.endSecs - tr.startSecs ≤ maxWindowSeconds

/-- A window that goes back at most a day is served, with its length. -/
theorem windowOf_relative (offset : RelativeOffset) (longest : Int) {nowMs : Int}
    (hday : 86400000 ≤ nowMs) (hlongest : 0 ≤ longest) :
    ∃ tr, windowOf ((TimeRange.relative offset).ends nowMs longest).1
        ((TimeRange.relative offset).ends nowMs longest).2 = .ok tr ∧
      GoesBack nowMs (min (relativeSeconds offset) longest) tr := by
  obtain ⟨back, hback, hle⟩ : ∃ back : ℕ, min (relativeSeconds offset) longest = back ∧
      back ≤ 86400 := by
    have hseconds : 0 ≤ relativeSeconds offset ∧ relativeSeconds offset ≤ 86400 := by
      cases offset <;> decide
    exact ⟨(min (relativeSeconds offset) longest).toNat, by omega, by omega⟩
  have hlength : (nowMs / 1000).toNat - ((nowMs - 1000 * back) / 1000).toNat = back := by omega
  refine ⟨⟨((nowMs - 1000 * back) / 1000).toNat, (nowMs / 1000).toNat⟩, ?_, rfl, ?_, ?_⟩
  · rw [TimeRange.ends, hback, windowOf, if_neg (by omega), if_neg (by omega), if_neg (by omega)]
  · rw [hlength, hback]
  · rw [hlength, maxWindowSeconds]
    exact hle

/-- The three panels ask for the same range, but that the explorers go back less than a day: the
query panel in doubles, the explorers in whole seconds. The server reads from each address the
seconds that the range begins and ends in, and no relative window is too wide for it. -/
theorem panels_served (range : TimeRange) (q : String) (form : SearchForm) (errorOnly : Bool)
    (filter : ResolvedFilter) {nowMs : Int} (hnow : ValidTime nowMs) (hvalid : range.Valid)
    (hform : form.range = range) :
    let ends := range.ends nowMs
    let query := servedRange rfc3339 (queryRangeSearch ⟨q, range⟩ nowMs)
    let traces := servedRange rfc3339 (tracesSearch (form.request nowMs) errorOnly)
    let logs := servedRange rfc3339
      (logsSearch (toEpochWindow nowMs range).1 (toEpochWindow nowMs range).2 filter)
    query = windowOf (ends 86400).1 (ends 86400).2 ∧
    traces = windowOf (ends MAX_RELATIVE_WINDOW_SECONDS).1 (ends MAX_RELATIVE_WINDOW_SECONDS).2 ∧
    logs = traces ∧
    ∀ offset, range = .relative offset → 86400000 ≤ nowMs →
      (∃ tr, query = .ok tr ∧ GoesBack nowMs (relativeSeconds offset) tr) ∧
      ∃ tr, traces = .ok tr ∧
        GoesBack nowMs (min (relativeSeconds offset) MAX_RELATIVE_WINDOW_SECONDS) tr := by
  intro ends query traces logs
  have hquery : query = windowOf (ends 86400).1 (ends 86400).2 :=
    served_queryRange ⟨q, range⟩ hnow hvalid
  have htraces : traces = windowOf (range.ends nowMs MAX_RELATIVE_WINDOW_SECONDS).1
      (range.ends nowMs MAX_RELATIVE_WINDOW_SECONDS).2 := by
    rw [← hform]
    exact served_traces form hnow (hform ▸ hvalid) errorOnly
  have hlogs : logs = traces := (served_logs range hnow hvalid filter).trans htraces.symm
  refine ⟨hquery, htraces, hlogs, ?_⟩
  rintro offset rfl hday
  rw [hquery, htraces]
  have hcapped : min (relativeSeconds offset) 86400 = relativeSeconds offset := by
    cases offset <;> decide
  refine ⟨?_, windowOf_relative offset _ hday (by decide)⟩
  have hrelative := windowOf_relative offset 86400 hday (by decide)
  rwa [hcapped] at hrelative

/-- A day back from a time between two seconds. -/
theorem day_served :
    servedRange (fun _ => none) (queryRangeSearch ⟨"up", .relative .last24h⟩ 1750000000123) =
      .ok ⟨1749913600, 1750000000⟩ :=
  (panels_served (.relative .last24h) "up" ⟨"checkout", .relative .last24h, "", "", true⟩ true
    (.minSeverity "ERROR") (by decide) trivial rfl).1

end Kaleidoscope.Prism
