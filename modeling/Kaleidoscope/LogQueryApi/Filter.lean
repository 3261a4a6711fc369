import Kaleidoscope.LogQueryApi.Lookup

/-!
# A log query as one filter

The window, the severity floor and the body filter are checked by the store and the trace id by the
handler, which then cuts the page. All of them together are one condition on a record.
-/

namespace Kaleidoscope.LogQueryApi

open Aegis HashMap Lumen QueryApi StableSort

/-! ## What a request asks for -/

section Wants

variable (compile : Compile) (parseTimeRange : String → String → Except String EpochRange)

/-- A time lies in the window of a request, if there is one. Times are exact here. -/
def InWindow (params : LogsParams) (time : Nat) : Prop :=
  ∀ start end_ tr, params.start = some start → params.end_ = some end_ →
    parseTimeRange start end_ = .ok tr →
      tr.startSecs * 1000000000 ≤ time ∧ time < tr.endSecs * 1000000000

/-- A record reaches the severity floor, if there is one. -/
def ReachesFloor (params : LogsParams) (record : LogRecord) : Prop :=
  ∀ raw floor, params.minSeverity = some raw → parseMinSeverity raw = .ok floor →
    floor.number ≤ record.severityNumber.number

/-- A record matches the body filter, if there is one. -/
def MatchesBody (params : LogsParams) (record : LogRecord) : Prop :=
  (∀ target, params.bodyContains = some target → target.toList <:+: record.body.toList) ∧
    ∀ raw test, params.bodyRegex = some raw → compile raw = some test → test record.body = true

/-- A record carries the trace id, if there is one. -/
def CarriesTrace (params : LogsParams) (record : LogRecord) : Prop :=
  ∀ raw id, params.traceId = some raw → parseTraceId raw = .ok id → record.traceId = some id

/-- The condition of a request on a record. -/
structure Wants (params : LogsParams) (record : LogRecord) : Prop where
  inWindow : InWindow parseTimeRange params record.observedTimeUnixNano
  reachesFloor : ReachesFloor params record
  matchesBody : MatchesBody compile params record
  carriesTrace : CarriesTrace params record

/-- The part of a list that a page shows. -/
def page {α : Type} (limit offset : Option String) (l : List α) : List α :=
  let rest := l.drop ((offset.bind parseUsize).getD 0)
  match limit.bind parseUsize with
  | none => rest
  | some n => rest.take n

/-- A request without its page. -/
def LogsParams.unpaged (params : LogsParams) : LogsParams :=
  { params with limit := none, offset := none }

/-- A page of a request. -/
def LogsParams.paged (params : LogsParams) (limit offset : Option String) : LogsParams :=
  { params with limit := limit, offset := offset }

open Classical in
/-- The records of a list that a request asks for. -/
noncomputable def wanted (params : LogsParams) (records : List LogRecord) : List LogRecord :=
  records.filter fun record => Wants compile parseTimeRange params record

open Classical in
/-- The same, one filter after the other. -/
noncomputable def narrowed (params : LogsParams) (records : List LogRecord) : List LogRecord :=
  (((records.filter fun record => InWindow parseTimeRange params record.observedTimeUnixNano).filter
    fun record => ReachesFloor params record).filter
      fun record => MatchesBody compile params record).filter
        fun record => CarriesTrace params record

/-- The answers to a request and to its pages are what one filter leaves of the stored records. -/
structure OneFilter (answer : LogsParams → Response) (params : LogsParams)
    (stored : List LogRecord) : Prop where
  listing : ∀ limit offset views, answer (params.paged limit offset) = .success views →
    views = (page limit offset (wanted compile parseTimeRange params (sortBucket stored))).map
      LogView.ofRecord
  combined : ∀ views, answer params.unpaged = .success views →
    views = (narrowed compile parseTimeRange params (sortBucket stored)).map LogView.ofRecord
  pages : ∀ limit n (offsets : Nat → String) count views, parseLimit limit = .ok n →
    (∀ k < count, parseOffset (offsets k) = .ok (k * n)) →
    answer params.unpaged = .success views → views.length ≤ count * n →
      ∃ pageViews : Nat → List LogView,
        (∀ k < count, answer (params.paged (some limit) (some (offsets k))) =
          .success (pageViews k)) ∧
        (List.range count).flatMap pageViews = views

end Wants

/-! ## What a request is parsed to -/

section Parsed

variable {compile : Compile} {parseTimeRange : String → String → Except String EpochRange}

theorem optionally_eq_ok_iff {α : Type} {parse : String → Except String α} {raw : Option String}
    {value : Option α} : optionally parse raw = .ok value ↔
      raw = none ∧ value = none ∨
        ∃ text a, raw = some text ∧ parse text = .ok a ∧ value = some a := by
  cases raw with
  | none => simp [optionally, eq_comm]
  | some text =>
    cases h : parse text with
    | error reason => simp [optionally, h, Except.map]
    | ok a => simp [optionally, h, Except.map, eq_comm]

/-- A parsed parameter asks of a value what its text does. -/
theorem forall_of_optionally {α : Type} {parse : String → Except String α} {raw : Option String}
    {value : Option α} (h : optionally parse raw = .ok value) {p : α → Prop} :
    (∀ a, value = some a → p a) ↔ ∀ text a, raw = some text → parse text = .ok a → p a := by
  rcases optionally_eq_ok_iff.mp h with ⟨rfl, rfl⟩ | ⟨text, a, rfl, ha, rfl⟩
  · exact iff_of_true nofun nofun
  · constructor
    · rintro hp text' a' htext ha'
      obtain rfl := Option.some.inj htext
      obtain rfl := Except.ok.inj (ha.symm.trans ha')
      exact hp a rfl
    · rintro hp a' ha'
      obtain rfl := Option.some.inj ha'
      exact hp text a rfl ha

theorem exists_of_optionally {α : Type} {parse : String → Except String α} {raw : Option String}
    {value : Option α} (h : optionally parse raw = .ok value) {text : String}
    (htext : raw = some text) : ∃ a, parse text = .ok a := by
  rcases optionally_eq_ok_iff.mp h with ⟨hnone, -⟩ | ⟨text', a, hraw, ha, -⟩
  · exact nomatch htext.symm.trans hnone
  · obtain rfl := Option.some.inj (htext.symm.trans hraw)
    exact ⟨a, ha⟩

/-- What the parameters of a request must be for it to be parsed, and what it is parsed to. -/
structure Parses (compile : Compile)
    (parseTimeRange : String → String → Except String EpochRange) (params : LogsParams)
    (request : LogsRequest) : Prop where
  window : ∃ window, parseWindow parseTimeRange params.start params.end_ = .ok window ∧
    (window.isNone && params.traceId.isNone) = false ∧ request.range = window.getD .all
  minSeverity : optionally parseMinSeverity params.minSeverity = .ok request.minSeverity
  bodyContains : optionally parseBodyContains params.bodyContains = .ok request.bodyContains
  oneBody : (request.bodyContains.isSome && params.bodyRegex.isSome) = false
  bodyRegex : optionally (parseBodyRegex compile) params.bodyRegex = .ok request.bodyRegex
  limit : optionally parseLimit params.limit = .ok request.limit
  offset : ∃ offset, optionally parseOffset params.offset = .ok offset ∧
    request.offset = offset.getD 0
  traceId : optionally parseTraceId params.traceId = .ok request.traceId

theorem parseParams_eq_ok_iff {params : LogsParams} {request : LogsRequest} :
    parseParams compile parseTimeRange params = .ok request ↔
      Parses compile parseTimeRange params request := by
  constructor
  · intro h
    obtain ⟨window, hwindow, h⟩ := Traverse.bind_eq_ok_iff.mp h
    split_ifs at h with hsome
    · exact nomatch h
    obtain ⟨minSeverity, hseverity, h⟩ := Traverse.bind_eq_ok_iff.mp h
    obtain ⟨bodyContains, hcontains, h⟩ := Traverse.bind_eq_ok_iff.mp h
    split_ifs at h with hboth
    · exact nomatch h
    obtain ⟨bodyRegex, hregex, h⟩ := Traverse.bind_eq_ok_iff.mp h
    obtain ⟨limit, hlimit, h⟩ := Traverse.bind_eq_ok_iff.mp h
    obtain ⟨offset, hoffset, h⟩ := Traverse.bind_eq_ok_iff.mp h
    obtain ⟨traceId, htrace, h⟩ := Traverse.bind_eq_ok_iff.mp h
    obtain rfl := Except.ok.inj h
    exact ⟨⟨window, hwindow, eq_false_of_ne_true hsome, rfl⟩, hseverity, hcontains,
      eq_false_of_ne_true hboth, hregex, hlimit, ⟨offset, hoffset, rfl⟩, htrace⟩
  · intro h
    obtain ⟨window, hwindow, hsome, hrange⟩ := h.window
    obtain ⟨offset, hoffset, hstart⟩ := h.offset
    obtain ⟨range, minSeverity, bodyContains, bodyRegex, limit, start, traceId⟩ := request
    simp only at hrange hstart
    simp only [parseParams, hwindow, h.minSeverity, h.bodyContains, h.bodyRegex, h.limit, hoffset,
      h.traceId, hsome, h.oneBody, bind, Except.bind, pure, Except.pure, hrange, hstart]
    rfl

/-- A request with both bounds asks for the range between them. -/
theorem Parses.exists_window {params : LogsParams} {request : LogsRequest}
    (h : Parses compile parseTimeRange params request) {start end_ : String}
    (hstart : params.start = some start) (hend : params.end_ = some end_) :
    ∃ tr, parseTimeRange start end_ = .ok tr ∧
      request.range = ⟨secondsToNanos tr.startSecs, secondsToNanos tr.endSecs⟩ := by
  obtain ⟨window, hwindow, -, hrange⟩ := h.window
  rw [hstart, hend, parseWindow] at hwindow
  obtain ⟨tr, htr, hwindow⟩ := Traverse.bind_eq_ok_iff.mp hwindow
  split_ifs at hwindow
  · cases hwindow
  obtain rfl := Except.ok.inj hwindow
  exact ⟨tr, htr, hrange⟩

/-- Whether the store and the handler let a record through. -/
def LogsRequest.selects (request : LogsRequest) (record : LogRecord) : Bool :=
  request.range.contains record.observedTimeUnixNano &&
    Predicate.matchesRecord ⟨none, request.minSeverity, request.bodyContains, request.bodyRegex⟩
      record &&
    request.traceId.all fun id => record.traceId = some id

/-- Up to the last nanosecond, saturation does not move a bound. -/
theorem contains_seconds_iff (tr : EpochRange) (time : Nat) :
    TimeRange.contains ⟨secondsToNanos tr.startSecs, secondsToNanos tr.endSecs⟩ time = true ↔
      (tr.startSecs * 1000000000 ≤ time ∧ time < tr.endSecs * 1000000000) ∧
        time < Pulse.u64Max := by
  simp only [TimeRange.contains, secondsToNanos, Bool.and_eq_true, decide_eq_true_eq, lt_min_iff,
    min_le_iff]
  omega

/-- Up to the last nanosecond, the range that is asked for is the window. -/
theorem contains_iff {params : LogsParams} {window : Option TimeRange} {time : Nat}
    (h : parseWindow parseTimeRange params.start params.end_ = .ok window) :
    (window.getD .all).contains time = true ↔
      InWindow parseTimeRange params time ∧ time < Pulse.u64Max := by
  cases hstart : params.start with
  | none =>
    cases hend : params.end_ with
    | none =>
      rw [hstart, hend] at h
      obtain rfl := Except.ok.inj h
      exact (contains_all_iff time).trans
        (and_iff_right (fun _ _ _ hsome =>
          absurd (hsome.symm.trans hstart) (Option.some_ne_none _))).symm
    | some end_ =>
      rw [hstart, hend] at h
      cases h
  | some start =>
    cases hend : params.end_ with
    | none =>
      rw [hstart, hend] at h
      cases h
    | some end_ =>
      rw [hstart, hend, parseWindow] at h
      obtain ⟨tr, htr, h⟩ := Traverse.bind_eq_ok_iff.mp h
      split_ifs at h
      · cases h
      obtain rfl := Except.ok.inj h
      have hwindow : InWindow parseTimeRange params time ↔
          tr.startSecs * 1000000000 ≤ time ∧ time < tr.endSecs * 1000000000 := by
        refine ⟨fun hin => hin start end_ tr hstart hend htr, ?_⟩
        intro hin start' end' tr' hstart' hend' htr'
        obtain rfl := Option.some.inj (hstart.symm.trans hstart')
        obtain rfl := Option.some.inj (hend.symm.trans hend')
        obtain rfl := Except.ok.inj (htr.symm.trans htr')
        exact hin
      rw [hwindow]
      exact contains_seconds_iff tr time

theorem parseBodyContains_eq_ok {raw target : String} (h : parseBodyContains raw = .ok target) :
    raw = target := by
  rw [parseBodyContains] at h
  split_ifs at h
  exact Except.ok.inj h

theorem compile_of_parseBodyRegex {raw : String} {test : String → Bool}
    (h : parseBodyRegex compile raw = .ok test) : compile raw = some test := by
  rw [parseBodyRegex] at h
  split_ifs at h
  cases hcompile : compile raw with
  | none => exact nomatch (hcompile ▸ h)
  | some test' =>
    rw [hcompile] at h
    rw [Except.ok.inj h]

theorem matchesBody_iff {params : LogsParams} {request : LogsRequest}
    (h : Parses compile parseTimeRange params request) (record : LogRecord) :
    ((request.bodyContains.all fun target => containsText record.body target) &&
      request.bodyRegex.all fun isMatch => isMatch record.body) = true ↔
      MatchesBody compile params record := by
  have hcontains : (∀ target, request.bodyContains = some target →
      containsText record.body target = true) ↔
        ∀ target, params.bodyContains = some target → target.toList <:+: record.body.toList := by
    rw [forall_of_optionally h.bodyContains]
    simp only [containsText, decide_eq_true_eq]
    constructor
    · intro hall target htarget
      obtain ⟨target', hparse⟩ := exists_of_optionally h.bodyContains htarget
      obtain rfl := parseBodyContains_eq_ok hparse
      exact hall target target htarget hparse
    · intro hall raw target hraw hparse
      rw [← parseBodyContains_eq_ok hparse]
      exact hall raw hraw
  have hregex : (∀ test, request.bodyRegex = some test → test record.body = true) ↔
      ∀ raw test, params.bodyRegex = some raw → compile raw = some test →
        test record.body = true := by
    rw [forall_of_optionally h.bodyRegex]
    constructor
    · intro hall raw test hraw hcompile
      obtain ⟨test', hparse⟩ := exists_of_optionally h.bodyRegex hraw
      obtain rfl := Option.some.inj (hcompile.symm.trans (compile_of_parseBodyRegex hparse))
      exact hall raw test hraw hparse
    · intro hall raw test hraw hparse
      exact hall raw test hraw (compile_of_parseBodyRegex hparse)
  rw [Bool.and_eq_true, Option.all_eq_true, Option.all_eq_true, hcontains, hregex, MatchesBody]

/-- A record is let through exactly if the request asks for it and it was not observed at the last
nanosecond. -/
theorem selects_iff {params : LogsParams} {request : LogsRequest}
    (h : Parses compile parseTimeRange params request) (record : LogRecord) :
    request.selects record = true ↔
      Wants compile parseTimeRange params record ∧
        record.observedTimeUnixNano < Pulse.u64Max := by
  obtain ⟨window, hwindow, -, hrange⟩ := h.window
  have hfloor : (request.minSeverity.all fun floor =>
      ¬record.severityNumber.number < floor.number) = true ↔ ReachesFloor params record := by
    rw [Option.all_eq_true, ReachesFloor, ← forall_of_optionally h.minSeverity]
    simp
  have htrace : (request.traceId.all fun id => record.traceId = some id) = true ↔
      CarriesTrace params record := by
    rw [Option.all_eq_true, CarriesTrace, ← forall_of_optionally h.traceId]
    simp
  have hbody := matchesBody_iff h record
  have hselects : request.selects record = true ↔
      request.range.contains record.observedTimeUnixNano = true ∧
        ReachesFloor params record ∧ MatchesBody compile params record ∧
          CarriesTrace params record := by
    rw [← hfloor, ← hbody, ← htrace]
    simp only [LogsRequest.selects, Predicate.matchesRecord, Option.all_none, Bool.true_and,
      Bool.and_eq_true]
    tauto
  rw [hselects, hrange, contains_iff hwindow]
  constructor
  · rintro ⟨⟨hin, hlt⟩, hfloor, hbody, htrace⟩
    exact ⟨⟨hin, hfloor, hbody, htrace⟩, hlt⟩
  · rintro ⟨⟨hin, hfloor, hbody, htrace⟩, hlt⟩
    exact ⟨⟨hin, hlt⟩, hfloor, hbody, htrace⟩

/-! ## Pages -/

/-- A request and a page of it ask for the same. -/
theorem wants_paged {params : LogsParams} (limit offset : Option String) (record : LogRecord) :
    Wants compile parseTimeRange (params.paged limit offset) record ↔
      Wants compile parseTimeRange params record :=
  ⟨fun h => ⟨h.1, h.2, h.3, h.4⟩, fun h => ⟨h.1, h.2, h.3, h.4⟩⟩

/-- A page is parsed as the request is, with its limit and offset. -/
theorem parses_paged_iff {params : LogsParams} {request : LogsRequest}
    {limit offset : Option String} :
    Parses compile parseTimeRange (params.paged limit offset) request ↔
      Parses compile parseTimeRange params.unpaged { request with limit := none, offset := 0 } ∧
        optionally parseLimit limit = .ok request.limit ∧
          ∃ start, optionally parseOffset offset = .ok start ∧
            request.offset = start.getD 0 := by
  constructor
  · rintro ⟨hwindow, hseverity, hcontains, hboth, hregex, hlimit, hoffset, htrace⟩
    exact ⟨⟨hwindow, hseverity, hcontains, hboth, hregex, rfl, ⟨none, rfl, rfl⟩, htrace⟩, hlimit,
      hoffset⟩
  · rintro ⟨⟨hwindow, hseverity, hcontains, hboth, hregex, -, -, htrace⟩, hlimit, hoffset⟩
    exact ⟨hwindow, hseverity, hcontains, hboth, hregex, hlimit, hoffset, htrace⟩

theorem parseUsize_of_parseLimit {raw : String} {n : Nat} (h : parseLimit raw = .ok n) :
    parseUsize raw = some n := by
  rw [parseLimit] at h
  split at h
  · exact nomatch h
  · split_ifs at h
    rename_i hparse _ _
    rw [hparse, Except.ok.inj h]

theorem parseUsize_of_parseOffset {raw : String} {n : Nat} (h : parseOffset raw = .ok n) :
    parseUsize raw = some n := by
  rw [parseOffset] at h
  cases hparse : parseUsize raw with
  | none => exact nomatch (hparse ▸ h)
  | some m =>
    rw [hparse] at h
    exact congrArg some (Except.ok.inj h)

/-- The records of a page. -/
def LogsRequest.cut (request : LogsRequest) (records : List LogRecord) : List LogRecord :=
  match request.limit with
  | none => records.drop request.offset
  | some n => (records.drop request.offset).take n

theorem cut_eq_page {request : LogsRequest} {limit offset : Option String} {start : Option Nat}
    (hlimit : optionally parseLimit limit = .ok request.limit)
    (hoffset : optionally parseOffset offset = .ok start) (hstart : request.offset = start.getD 0)
    (records : List LogRecord) : request.cut records = page limit offset records := by
  have hdrop : (offset.bind parseUsize).getD 0 = request.offset := by
    rcases optionally_eq_ok_iff.mp hoffset with ⟨rfl, rfl⟩ | ⟨raw, n, rfl, hparse, rfl⟩
    · exact hstart.symm
    · rw [Option.bind_some, parseUsize_of_parseOffset hparse, hstart]
  rw [page, hdrop, LogsRequest.cut]
  rcases optionally_eq_ok_iff.mp hlimit with ⟨rfl, hnone⟩ | ⟨raw, n, rfl, hparse, hsome⟩
  · rw [hnone]
    rfl
  · rw [hsome, Option.bind_some, parseUsize_of_parseLimit hparse]

end Parsed

/-! ## Answers -/

/-- The reads of a tenant are filters of a list of records. -/
structure LogReads.Serves (reads : LogReads) (tenant : TenantId) (records : List LogRecord) :
    Prop where
  query : ∀ range, reads.query tenant range =
    .ok (records.filter fun r => range.contains r.observedTimeUnixNano)
  queryWith : ∀ range predicate, reads.queryWith tenant range predicate =
    .ok (records.filter fun r =>
      range.contains r.observedTimeUnixNano && predicate.matchesRecord r)

section Answers

variable {compile : Compile} {parseTimeRange : String → String → Except String EpochRange}
  {reads : LogReads} {tenant : TenantId} {records : List LogRecord}

/-- Whichever read a request leads to, it asks for the range and the predicate. -/
theorem dispatch_eq (h : reads.Serves tenant records) (request : LogsRequest) :
    reads.dispatch tenant request = .ok (records.filter fun r =>
      request.range.contains r.observedTimeUnixNano &&
        Predicate.matchesRecord ⟨none, request.minSeverity, request.bodyContains,
          request.bodyRegex⟩ r) := by
  rw [LogReads.dispatch]
  split
  · rename_i hseverity hcontains hregex
    rw [h.query, hseverity, hcontains, hregex]
    simp [Predicate.matchesRecord]
  · exact h.queryWith _ _

theorem respond_eq (request : LogsRequest) (found : List LogRecord) :
    request.respond found =
      if (found.filter fun r => request.traceId.all fun id => r.traceId = some id).length >
          maxResultRows then
        .error 400 reasonTooManyRows
      else
        .success ((request.cut (found.filter fun r =>
          request.traceId.all fun id => r.traceId = some id)).map LogView.ofRecord) := by
  obtain ⟨range, minSeverity, bodyContains, bodyRegex, limit, offset, traceId⟩ := request
  cases traceId with
  | none => cases limit <;> simp [LogsRequest.respond, LogsRequest.cut]
  | some id => cases limit <;> rfl

/-- The answer to a request that is parsed. -/
theorem handleLogs_of_parses (h : reads.Serves tenant records) {params : LogsParams}
    {request : LogsRequest} (hparses : Parses compile parseTimeRange params request) :
    handleLogs compile parseTimeRange reads (.ok tenant) params =
      if (records.filter request.selects).length > maxResultRows then
        .error 400 reasonTooManyRows
      else .success ((request.cut (records.filter request.selects)).map LogView.ofRecord) := by
  have hfilter : (records.filter fun r => request.range.contains r.observedTimeUnixNano &&
      Predicate.matchesRecord ⟨none, request.minSeverity, request.bodyContains,
        request.bodyRegex⟩ r).filter (fun r => request.traceId.all fun id => r.traceId = some id) =
      records.filter request.selects := by
    rw [List.filter_filter]
    exact List.filter_congr fun r _ => Bool.and_comm _ _
  simp only [handleLogs, parseParams_eq_ok_iff.mpr hparses, dispatch_eq h, respond_eq, hfilter]

/-- A request that is answered with records is parsed and below the cap. -/
theorem of_handleLogs_success (h : reads.Serves tenant records) {params : LogsParams}
    {views : List LogView}
    (hviews : handleLogs compile parseTimeRange reads (.ok tenant) params = .success views) :
    ∃ request, Parses compile parseTimeRange params request ∧
      (records.filter request.selects).length ≤ maxResultRows ∧
        views = (request.cut (records.filter request.selects)).map LogView.ofRecord := by
  cases hparse : parseParams compile parseTimeRange params with
  | error reason =>
    simp only [handleLogs, hparse] at hviews
    cases hviews
  | ok request =>
    have hparses := parseParams_eq_ok_iff.mp hparse
    rw [handleLogs_of_parses h hparses] at hviews
    split_ifs at hviews with hcap
    exact ⟨request, hparses, not_lt.mp hcap, (Response.success.inj hviews).symm⟩

/-- Pages of one size after the other are the list. -/
theorem flatMap_pages {α : Type} (l : List α) {n count : Nat} (h : l.length ≤ count * n) :
    (List.range count).flatMap (fun k => (l.drop (k * n)).take n) = l := by
  have htake : ∀ count, (List.range count).flatMap (fun k => (l.drop (k * n)).take n) =
      l.take (count * n) := by
    intro count
    induction count with
    | zero => simp
    | succ count ih =>
      rw [List.range_succ, List.flatMap_append, ih, List.flatMap_singleton, Nat.succ_mul,
        List.take_add]
  rw [htake, List.take_of_length_le h]

/-- Without a page everything is shown. -/
theorem cut_unpaged {params : LogsParams} {request : LogsRequest}
    (h : Parses compile parseTimeRange params.unpaged request) (records : List LogRecord) :
    request.cut records = records := by
  obtain ⟨start, hoffset, hstart⟩ := h.offset
  rw [cut_eq_page h.limit hoffset hstart]
  rfl

theorem selects_congr (request : LogsRequest) (limit : Option Nat) (offset : Nat) :
    LogsRequest.selects { request with limit := limit, offset := offset } = request.selects := rfl

theorem mem_wanted {params : LogsParams} {records : List LogRecord} {record : LogRecord} :
    record ∈ wanted compile parseTimeRange params records ↔
      record ∈ records ∧ Wants compile parseTimeRange params record := by
  simp [wanted]

/-- What is let through of records: those that the request asks for, without the last
nanosecond. -/
theorem filter_selects {params : LogsParams} {request : LogsRequest}
    (h : Parses compile parseTimeRange params request) (records : List LogRecord) :
    records.filter request.selects =
      (wanted compile parseTimeRange params records).filter fun record =>
        record.observedTimeUnixNano < Pulse.u64Max := by
  rw [wanted, List.filter_filter]
  refine List.filter_congr fun record _ => ?_
  rw [Bool.eq_iff_iff, selects_iff h]
  simp only [Bool.and_eq_true, decide_eq_true_eq, and_comm]

theorem wanted_paged (params : LogsParams) (limit offset : Option String)
    (records : List LogRecord) :
    wanted compile parseTimeRange (params.paged limit offset) records =
      wanted compile parseTimeRange params records :=
  List.filter_congr fun record _ => decide_eq_decide.mpr (wants_paged limit offset record)

theorem narrowed_eq_wanted (params : LogsParams) (records : List LogRecord) :
    narrowed compile parseTimeRange params records =
      wanted compile parseTimeRange params records := by
  rw [narrowed, wanted, List.filter_filter, List.filter_filter, List.filter_filter]
  refine List.filter_congr fun record _ => ?_
  rw [Bool.eq_iff_iff]
  simp only [Bool.and_eq_true, decide_eq_true_eq]
  exact ⟨fun ⟨⟨⟨htrace, hbody⟩, hfloor⟩, hin⟩ => ⟨hin, hfloor, hbody, htrace⟩,
    fun ⟨hin, hfloor, hbody, htrace⟩ => ⟨⟨⟨htrace, hbody⟩, hfloor⟩, hin⟩⟩

/-- The pages of a request that is answered are answered, and make up its answer. -/
theorem pages_of_success (h : reads.Serves tenant records) {params : LogsParams}
    {views : List LogView}
    (hviews : handleLogs compile parseTimeRange reads (.ok tenant) params.unpaged = .success views)
    {limit : String} {n : Nat} (hlimit : parseLimit limit = .ok n) {offsets : Nat → String}
    {count : Nat} (hoffsets : ∀ k < count, parseOffset (offsets k) = .ok (k * n))
    (hcount : views.length ≤ count * n) :
    ∃ pageViews : Nat → List LogView,
      (∀ k < count, handleLogs compile parseTimeRange reads (.ok tenant)
        (params.paged (some limit) (some (offsets k))) = .success (pageViews k)) ∧
      (List.range count).flatMap pageViews = views := by
  obtain ⟨request, hparses, hcap, rfl⟩ := of_handleLogs_success h hviews
  rw [cut_unpaged hparses] at hcount ⊢
  have hunpaged : Parses compile parseTimeRange (params.paged none none) request := hparses
  refine ⟨fun k => (((records.filter request.selects).map LogView.ofRecord).drop (k * n)).take n,
    fun k hk => ?_, flatMap_pages _ hcount⟩
  have hpage : Parses compile parseTimeRange (params.paged (some limit) (some (offsets k)))
      { request with limit := some n, offset := k * n } := by
    refine parses_paged_iff.mpr ⟨(parses_paged_iff.mp hunpaged).1, ?_, some (k * n), ?_, rfl⟩
    · rw [optionally, hlimit]
      rfl
    · rw [optionally, hoffsets k hk]
      rfl
  rw [handleLogs_of_parses h hpage, selects_congr, if_neg (not_lt.mpr hcap), LogsRequest.cut,
    List.map_take, List.map_drop]

/-- The answers to a request that is answered. -/
theorem oneFilter_iff {stored : List LogRecord} (h : reads.Serves tenant (sortBucket stored))
    {params : LogsParams} {views : List LogView}
    (hviews : handleLogs compile parseTimeRange reads (.ok tenant) params.unpaged =
      .success views) :
    OneFilter compile parseTimeRange (handleLogs compile parseTimeRange reads (.ok tenant)) params
        stored ↔
      ∀ record ∈ stored, Wants compile parseTimeRange params record →
        record.observedTimeUnixNano < Pulse.u64Max := by
  have hmem : (∀ record ∈ stored, Wants compile parseTimeRange params record →
      record.observedTimeUnixNano < Pulse.u64Max) ↔
      ∀ record ∈ wanted compile parseTimeRange params (sortBucket stored),
        decide (record.observedTimeUnixNano < Pulse.u64Max) = true := by
    simp only [mem_wanted, sortBucket, (sortByKey_perm _ _).mem_iff, decide_eq_true_eq, and_imp]
  rw [hmem]
  constructor
  · intro hone
    have hlisting := hone.listing none none views hviews
    obtain ⟨request, hparses, -, rfl⟩ := of_handleLogs_success h hviews
    rw [cut_unpaged hparses, filter_selects hparses] at hlisting
    have hunpaged : wanted compile parseTimeRange params.unpaged (sortBucket stored) =
        wanted compile parseTimeRange params (sortBucket stored) := wanted_paged params none none _
    have hlength := congrArg List.length hlisting
    rw [List.length_map, List.length_map] at hlength
    rw [← hunpaged]
    exact List.length_filter_eq_length_iff.mp (hlength.trans (congrArg List.length hunpaged.symm))
  · intro hall
    have hfound : ∀ {limit offset request},
        Parses compile parseTimeRange (params.paged limit offset) request →
          (sortBucket stored).filter request.selects =
            wanted compile parseTimeRange params (sortBucket stored) := by
      intro limit offset request hparses
      rw [filter_selects hparses, wanted_paged, List.filter_eq_self.mpr hall]
    have hlisting : ∀ limit offset views,
        handleLogs compile parseTimeRange reads (.ok tenant) (params.paged limit offset) =
          .success views →
        views = (page limit offset (wanted compile parseTimeRange params
          (sortBucket stored))).map LogView.ofRecord := by
      intro limit offset views' hviews'
      obtain ⟨request, hparses, -, rfl⟩ := of_handleLogs_success h hviews'
      obtain ⟨-, hlimit, start, hoffset, hstart⟩ := parses_paged_iff.mp hparses
      rw [hfound hparses, cut_eq_page hlimit hoffset hstart]
    refine ⟨hlisting, fun views' hviews' => ?_, fun limit n offsets count views' hlimit hoffsets
      hviews' hcount => pages_of_success h hviews' hlimit hoffsets hcount⟩
    rw [hlisting none none views' hviews', narrowed_eq_wanted]
    rfl

end Answers

/-! ## Reachable stores -/

/-- The file-backed store reads the bucket of the tenant. -/
theorem serves_fileBacked {store : Store PerTenant} {tenant : TenantId} {stored : List LogRecord}
    (h : bucket store.state tenant = sortBucket stored) :
    (fileBackedReads store).Serves tenant (sortBucket stored) where
  query range := by
    rw [← h]
    exact congrArg Except.ok (matching_eq store.state tenant _)
  queryWith range predicate := by
    rw [← h]
    exact congrArg Except.ok (matching_eq store.state tenant _)

/-- So does the store in memory. -/
theorem serves_inMemory {perTenant : PerTenant} {tenant : TenantId} {stored : List LogRecord}
    (h : bucket perTenant tenant = sortBucket stored) :
    (inMemoryReads perTenant).Serves tenant (sortBucket stored) where
  query range := by
    rw [← h]
    exact congrArg Except.ok (matching_eq perTenant tenant _)
  queryWith range predicate := by
    rw [← h]
    exact congrArg Except.ok (matching_eq perTenant tenant _)

/-- A store that is opened on any files and then asked to ingest and to write snapshots, whatever
goes wrong, and the records of each tenant: first those that the files hold, then those of the
ingests that succeed. -/
inductive Reached (wal : LineSerde WalRecord) (snap : FileSerde Snapshot) :
    Store PerTenant → (TenantId → List LogRecord) → Prop
  | opened {files : Files} {store : Store PerTenant} :
      (fileBackedLogStore wal snap).openWithFsyncBackend files = .ok store →
      Reached wal snap store (bucket store.state)
  | attempted {store : Store PerTenant} {stored : TenantId → List LogRecord} (a : Attempt) :
      Reached wal snap store stored →
      Reached wal snap (attempt wal snap store a).2 fun tenant => stored tenant ++
        if (attempt wal snap store a).1.isOk ∧ tenant = a.tenant then a.batch.records else []
  | snapshotted {store : Store PerTenant} {stored : TenantId → List LogRecord}
      (order : IterOrder TenantId (List LogRecord)) : Reached wal snap store stored →
      Reached wal snap ((fileBackedLogStore wal snap).snapshot order store).2 stored

/-- The buckets of a reached store are its records in the order of time. -/
theorem Reached.bucket_eq {wal : LineSerde WalRecord} {snap : FileSerde Snapshot}
    {store : Store PerTenant} {stored : TenantId → List LogRecord}
    (h : Reached wal snap store stored) (tenant : TenantId) :
    bucket store.state tenant = sortBucket (stored tenant) := by
  induction h generalizing tenant with
  | opened hopen =>
    obtain ⟨s, -, hs⟩ := (fileBackedLogStore wal snap).open_keeps (p := fun _ => True) trivial
      (fun _ _ _ => trivial) (fun _ _ _ _ _ => trivial) hopen
    have hsettled : bucket ((fileBackedLogStore wal snap).settle s) tenant =
        sortBucket (bucket s tenant) := (appendOnly wal snap).bucket_settle s tenant
    rw [hs, hsettled]
    exact (sortByKey_sortByKey _ _).symm
  | attempted a _ ih =>
    have horder : InOrder _ := fun t => by rw [ih t]; exact sortByKey_sortByKey _ _
    rw [bucket_attempt wal snap horder, ih tenant]
    exact sortByKey_append_left _ _ _
  | snapshotted order _ ih =>
    rw [(fileBackedLogStore wal snap).state_snapshot, ih tenant]

/-- In every reachable state of either store, also with snapshots and reopens between ingests, the
answers to a request that is not refused are what one filter leaves of the tenant's records, exactly
if the request asks for no record of the last nanosecond. -/
theorem oneFilter_reachable (compile : Compile)
    (parseTimeRange : String → String → Except String EpochRange) :
    (∀ wal snap store stored, Reached wal snap store stored → ∀ tenant params views,
      handleLogs compile parseTimeRange (fileBackedReads store) (.ok tenant) params.unpaged =
        .success views →
      (OneFilter compile parseTimeRange
          (handleLogs compile parseTimeRange (fileBackedReads store) (.ok tenant)) params
          (stored tenant) ↔
        ∀ record ∈ stored tenant, Wants compile parseTimeRange params record →
          record.observedTimeUnixNano < Pulse.u64Max)) ∧
    (∀ wal snap actions, (∀ r, wal.Faithful r) → (∀ k, snap.Faithful k) →
      Run.AllSteps ((fileBackedLogStore wal snap).perform (ask wal snap))
        ((fileBackedLogStore wal snap).Serialises plan)
        ((fileBackedLogStore wal snap).openNode .none) actions →
      ∃ store, Run.run ((fileBackedLogStore wal snap).perform (ask wal snap))
          ((fileBackedLogStore wal snap).openNode .none) actions = .up store ∧
        ∀ tenant params views,
          handleLogs compile parseTimeRange (fileBackedReads store) (.ok tenant) params.unpaged =
            .success views →
          (OneFilter compile parseTimeRange
              (handleLogs compile parseTimeRange (fileBackedReads store) (.ok tenant)) params
              (ingestedFor tenant actions) ↔
            ∀ record ∈ ingestedFor tenant actions, Wants compile parseTimeRange params record →
              record.observedTimeUnixNano < Pulse.u64Max)) ∧
    (∀ actions tenant params views,
      handleLogs compile parseTimeRange
        (inMemoryReads (Run.run (Action.perform InMemoryLogStore.ask) ∅ actions)) (.ok tenant)
        params.unpaged = .success views →
      (OneFilter compile parseTimeRange
          (handleLogs compile parseTimeRange
            (inMemoryReads (Run.run (Action.perform InMemoryLogStore.ask) ∅ actions))
            (.ok tenant)) params (ingestedFor tenant actions) ↔
        ∀ record ∈ ingestedFor tenant actions, Wants compile parseTimeRange params record →
          record.observedTimeUnixNano < Pulse.u64Max)) := by
  have hbucket : ∀ actions tenant, bucket
      (Run.run (Action.perform InMemoryLogStore.ask) ∅ actions) tenant =
        sortBucket (ingestedFor tenant actions) := by
    intro actions tenant
    rw [bucket_run actions ∅ tenant rfl, bucket_empty, List.nil_append]
  refine ⟨fun wal snap store stored h tenant params views hviews => ?_,
    fun wal snap actions hwal hsnap h => ?_, fun actions tenant params views hviews => ?_⟩
  · exact oneFilter_iff (serves_fileBacked (h.bucket_eq tenant)) hviews
  · obtain ⟨store, -, -, hup, -, hsame⟩ := (ask_simulates hwal hsnap h).2
    refine ⟨store, hup, fun tenant params views hviews =>
      oneFilter_iff (serves_fileBacked ?_) hviews⟩
    rw [hsame tenant, hbucket]
  · exact oneFilter_iff (serves_inMemory (hbucket actions tenant)) hviews

/-- A request for the records of a second from a severity on whose body contains a text. -/
def startParams : LogsParams :=
  { start := some "0", end_ := some "1", minSeverity := some "info", bodyContains := some "te" }

/-- The bounds of that request. -/
def startRange (start end_ : String) : Except String EpochRange :=
  if start = "0" ∧ end_ = "1" then .ok ⟨0, 1⟩ else .error "invalid time range"

/-- The request, as it is parsed, for a page. -/
def startRequest (limit : Option Nat) (offset : Nat) : LogsRequest :=
  ⟨⟨0, 1000000000⟩, some ⟨9⟩, some "te", none, limit, offset, none⟩

theorem parseUsize_one : parseUsize "1" = some 1 := by
  have hdigits : "1".toList = ['1'] := by simp
  rw [parseUsize, hdigits]
  decide +kernel

theorem toLower_eq {s t : String} (h : s.toList.map Char.toLower = t.toList) : s.toLower = t :=
  String.toList_inj.mp ((String.toList_map ..).trans h)

theorem parseMinSeverity_info : parseMinSeverity "info" = .ok ⟨9⟩ := by
  have hraw : "info".toLower = "info" := toLower_eq (by simp only [String.reduceToList]; decide)
  have htrace : "TRACE".toLower = "trace" := toLower_eq (by simp only [String.reduceToList]; decide)
  have hdebug : "DEBUG".toLower = "debug" := toLower_eq (by simp only [String.reduceToList]; decide)
  have hinfo : "INFO".toLower = "info" := toLower_eq (by simp only [String.reduceToList]; decide)
  rw [parseMinSeverity, severityNames, List.find?_cons_of_neg, List.find?_cons_of_neg,
    List.find?_cons_of_pos]
  · rw [hraw, hinfo]
    decide
  · rw [hraw, hdebug]
    decide
  · rw [hraw, htrace]
    decide

theorem parses_startRequest :
    Parses (fun _ => none) startRange startParams.unpaged (startRequest none 0) ∧
      Parses (fun _ => none) startRange (startParams.paged (some "1") (some "1"))
        (startRequest (some 1) 1) := by
  have hwindow : parseWindow startRange (some "0") (some "1") = .ok (some ⟨0, 1000000000⟩) := by
    simp only [parseWindow, startRange, and_self, if_true]
    rfl
  have hseverity : optionally parseMinSeverity (some "info") = .ok (some ⟨9⟩) := by
    rw [optionally, parseMinSeverity_info]
    rfl
  have hcontains : optionally parseBodyContains (some "te") = .ok (some "te") := by
    rw [optionally, parseBodyContains, if_neg (by decide), if_neg (by decide)]
    rfl
  have hunpaged : Parses (fun _ => none) startRange startParams.unpaged (startRequest none 0) :=
    ⟨⟨_, hwindow, rfl, rfl⟩, hseverity, hcontains, rfl, rfl, rfl, ⟨none, rfl, rfl⟩, rfl⟩
  have hlimit : optionally parseLimit (some "1") = .ok (some 1) := by
    rw [optionally, parseLimit, parseUsize_one]
    rfl
  have hoffset : optionally parseOffset (some "1") = .ok (some 1) := by
    rw [optionally, parseOffset, parseUsize_one]
    rfl
  exact ⟨hunpaged, parses_paged_iff.mpr ⟨hunpaged, hlimit, some 1, hoffset, rfl⟩⟩

/-- The store, after a snapshot and reopens, is asked for the two records. -/
theorem handleLogs_idleOpen {params : LogsParams} {limit : Option Nat} {offset : Nat}
    (h : Parses (fun _ => none) startRange params (startRequest limit offset)) :
    handleLogs (fun _ => none) startRange (fileBackedReads idleOpen) (.ok ⟨"acme"⟩) params =
      (startRequest limit offset).respond [started, listening] := by
  have htext : containsText started.body "te" = true ∧ containsText listening.body "te" = true := by
    simp only [containsText, started, listening, String.reduceToList]
    decide
  have hbucket : bucket idleOpen.state ⟨"acme"⟩ = [idle, started, listening] := rfl
  have hscan : queryWith idleOpen ⟨"acme"⟩ ⟨0, 1000000000⟩ ⟨none, some ⟨9⟩, some "te", none⟩ =
      [started, listening] := by
    rw [queryWith, matching_eq, hbucket]
    simp only [Predicate.matchesRecord, List.filter, Option.all_some, Option.all_none, htext]
    rfl
  simp only [handleLogs, parseParams_eq_ok_iff.mpr h, LogReads.dispatch, startRequest,
    fileBackedReads, hscan]

/-- The request is one filter of the three records, and its second page has the last of the two
that it leaves. -/
theorem early_record_filtered :
    ∃ store, Run.run (startStore.perform
          (ask startLines.serde (.single startSnapshot startBytes)))
        (startStore.openNode .none) startedActions = .up store ∧
      OneFilter (fun _ => none) startRange
        (handleLogs (fun _ => none) startRange (fileBackedReads store) (.ok ⟨"acme"⟩)) startParams
        (ingestedFor ⟨"acme"⟩ startedActions) ∧
      handleLogs (fun _ => none) startRange (fileBackedReads store) (.ok ⟨"acme"⟩)
        (startParams.paged (some "1") (some "1")) = .success [LogView.ofRecord listening] := by
  obtain ⟨store, hup, hfilter⟩ := (oneFilter_reachable (fun _ => none) startRange).2.1
    startLines.serde (.single startSnapshot startBytes) startedActions startLines.faithful
    (FileSerde.single_faithful _ _) serialises_startedActions
  obtain rfl : store = idleOpen := Node.up.inj (hup.symm.trans run_startedActions)
  have hingested : ingestedFor ⟨"acme"⟩ startedActions = [started, listening, idle] := rfl
  refine ⟨idleOpen, hup, (hfilter ⟨"acme"⟩ startParams _
    (handleLogs_idleOpen parses_startRequest.1)).mpr ?_,
    handleLogs_idleOpen parses_startRequest.2⟩
  intro record hrecord _
  rw [hingested] at hrecord
  exact (by decide : ∀ r ∈ [started, listening, idle], r.observedTimeUnixNano < Pulse.u64Max)
    record hrecord

/-- A request for a trace and nothing else. -/
def traceParams : LogsParams := { traceId := some "01010101010101010101010101010101" }

theorem parseTraceId_ones :
    parseTraceId "01010101010101010101010101010101" = .ok (.replicate 16 1) := by
  decide +kernel

theorem parseParams_traceParams (compile : Compile)
    (parseTimeRange : String → String → Except String EpochRange) :
    parseParams compile parseTimeRange traceParams =
      .ok ⟨.all, none, none, none, none, 0, some (.replicate 16 1)⟩ := by
  rw [traceParams, parseParams_trace, parseTraceId_ones]
  rfl

/-- The record of the last nanosecond carries the trace id, and the request for it answers with
no record. -/
theorem last_record_left_out :
    handleLogs (fun _ => none) (fun _ _ => .error "") (fileBackedReads lastStore) (.ok ⟨"acme"⟩)
        traceParams = .success [] ∧
      ¬OneFilter (fun _ => none) (fun _ _ => .error "")
        (handleLogs (fun _ => none) (fun _ _ => .error "") (fileBackedReads lastStore)
          (.ok ⟨"acme"⟩)) traceParams [lastRecord] := by
  have hanswer : handleLogs (fun _ => none) (fun _ _ => .error "") (fileBackedReads lastStore)
      (.ok ⟨"acme"⟩) traceParams = .success [] := by
    have hscan : query lastStore ⟨"acme"⟩ .all = [] := by decide +kernel
    simp only [handleLogs, parseParams_traceParams, LogReads.dispatch, fileBackedReads, hscan]
    rfl
  refine ⟨hanswer, fun hone => ?_⟩
  have hwants : Wants (fun _ => none) (fun _ _ => .error "") traceParams lastRecord := by
    have habsent {α : Type} {a : α} (h : none = some a) : False := Option.some_ne_none a h.symm
    refine ⟨fun _ _ _ h => (habsent h).elim, fun _ _ h => (habsent h).elim,
      ⟨fun _ h => (habsent h).elim, fun _ _ h => (habsent h).elim⟩, fun raw id hraw hid => ?_⟩
    obtain rfl := Option.some.inj hraw
    rw [← Except.ok.inj (parseTraceId_ones.symm.trans hid)]
    rfl
  have hlisting := hone.listing none none [] hanswer
  have hempty : wanted (fun _ => none) (fun _ _ => .error "") traceParams [lastRecord] = [] :=
    List.map_eq_nil_iff.mp hlisting.symm
  have hmem := mem_wanted.mpr ⟨List.mem_singleton_self lastRecord, hwants⟩
  rw [hempty] at hmem
  exact List.not_mem_nil hmem

end Kaleidoscope.LogQueryApi
