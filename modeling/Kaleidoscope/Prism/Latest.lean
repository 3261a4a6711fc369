import Kaleidoscope.Library.LatestWins
import Kaleidoscope.Prism.Explorer
import Kaleidoscope.Prism.Requests
import Kaleidoscope.Prism.Timers

/-!
# What is on screen once everything was answered

Every answer is shown when it comes, so the latest request wins only where no earlier one is
answered after it.
-/

namespace Kaleidoscope.Prism

open LatestWins Run

namespace QueryPanel

variable {S N : Type} {reader : Reader N S} {panel : QueryPanel S}

/-- With nothing outstanding, the outcome on screen is that of the request issued last. -/
def ShowsLatest (panel : QueryPanel S) : Prop :=
  panel.requests = [] → ∀ id, panel.latest = some id →
    ∃ outcome, panel.outcome = some ⟨id, outcome⟩

/-- The request issued last is answered, and another one is answered only while it is
outstanding. -/
def AnswersInOrder (panel : QueryPanel S) (id : Nat) :
    Option (Request × Option (QueryOutcome S)) → Prop
  | some (_, some _) => panel.latest = some id ∨ ∃ r ∈ panel.requests, panel.latest = some r.id
  | some (_, none) => panel.latest ≠ some id
  | none => True

instance (panel : QueryPanel S) (id : Nat) :
    DecidablePred (panel.AnswersInOrder id)
  | some (_, some _) => inferInstanceAs (Decidable (_ ∨ _))
  | some (_, none) => inferInstanceAs (Decidable (_ ≠ _))
  | none => isTrue trivial

/-- Every continuation comes in order. -/
def InOrder (reader : Reader N S) (panel : QueryPanel S) : PanelEvent → Prop
  | .continued id queryMs => panel.AnswersInOrder id (panel.due reader id queryMs)
  | _ => True

/-- The request issued last is outstanding, or its outcome is on screen. -/
def Latest (panel : QueryPanel S) : Prop :=
  Settled panel.latest (panel.requests.map Request.id) (panel.outcome.map Answer.id)

theorem Latest.showsLatest (h : panel.Latest) : panel.ShowsLatest := by
  intro hnil id hid
  rw [Latest, hnil, List.map_nil] at h
  obtain ⟨answer, hanswer, rfl⟩ := Option.map_eq_some_iff.mp (h.eq_of_nil hid)
  exact ⟨answer.outcome, hanswer⟩

/-- Nothing is issued, answered or shown. -/
theorem Latest.of_same {panel' : QueryPanel S} (h : panel.Latest)
    (hids : panel'.requests.map Request.id = panel.requests.map Request.id)
    (houtcome : panel'.outcome = panel.outcome) (hlatest : panel'.latest = panel.latest) :
    panel'.Latest := by
  rwa [Latest, hids, houtcome, hlatest]

theorem Latest.executeQuery (h : panel.Latest) (range : TimeRange) :
    (panel.executeQuery range).Latest := by
  rw [QueryPanel.executeQuery]
  split_ifs
  · exact h
  · simp only [Latest, issue, List.map_append]
    exact settled_ask _ _ _

theorem Latest.processEffect (h : panel.Latest) (e : AutoRefreshEffect) :
    (panel.processEffect e).Latest := by
  cases e with
  | scheduleTimer ms => exact h
  | cancelTimer =>
    rw [QueryPanel.processEffect]
    split <;> exact h
  | fetch =>
    rw [QueryPanel.processEffect]
    split_ifs
    · exact h
    · simp only [Latest, issue, List.map_append]
      exact settled_ask _ _ _
  | cancelFetch =>
    rw [QueryPanel.processEffect]
    split
    · exact h.of_same (map_id_abort panel _) rfl rfl
    · exact h

theorem mem_map_id_drop {id w : Nat} (hw : w ∈ panel.requests.map Request.id) (hne : w ≠ id) :
    w ∈ (panel.drop id).requests.map Request.id := by
  obtain ⟨request, hrequest, rfl⟩ := List.mem_map.mp hw
  exact List.mem_map_of_mem (List.mem_filter.mpr ⟨hrequest, by simpa using hne⟩)

theorem Latest.continued (h : panel.Latest) {id queryMs : Nat}
    (horder : panel.InOrder reader (.continued id queryMs)) :
    (panel.continued reader id queryMs).Latest := by
  rw [InOrder] at horder
  rw [QueryPanel.continued]
  split
  · next request next hdue =>
    rw [hdue] at horder
    have hid := (mem_of_request? (mem_of_due hdue).1).2
    have hshown : Latest
        { panel.drop id with outcome := some ⟨request.id, next⟩, isLoading := false } := by
      refine settled_answer request.id fun w hw => or_iff_not_imp_left.mpr fun hne => ?_
      rcases horder with hlatest | ⟨r, hr, hlatest⟩
      · exact absurd (Option.some.inj (hw.symm.trans hlatest)) (hid ▸ hne)
      · obtain rfl := Option.some.inj (hw.symm.trans hlatest)
        exact mem_map_id_drop (List.mem_map_of_mem hr) (hid ▸ hne)
    rw [answered]
    split_ifs
    · exact hshown.of_same rfl rfl rfl
    · exact hshown
  · next request hdue =>
    rw [hdue] at horder
    refine Settled.forget h fun w hw hmem => mem_map_id_drop hmem ?_
    rintro rfl
    exact horder hw
  · exact h

theorem Latest.step (h : panel.Latest) {event : PanelEvent} (horder : panel.InOrder reader event) :
    (panel.step reader event).Latest := by
  cases event with
  | queryChanged value => exact h
  | submitted => exact h.executeQuery _
  | rangeChanged range =>
    have hchanged : Latest (dispatch { panel with state := { panel.state with range } }
        (.rangeChanged range)) := h
    exact hchanged.executeQuery range
  | refreshChanged refresh => exact h
  | visibilityChanged hidden => exact h
  | timerFired handle =>
    rw [QueryPanel.step, QueryPanel.timerFired]
    split_ifs <;> exact h
  | effectsProcessed =>
    exact effectsProcessed_induction h (fun _ => h) fun _ e hlatest => hlatest.processEffect e
  | responded id head =>
    exact responded_induction h fun stage => h.of_same (map_id_setStage panel id stage) rfl rfl
  | bodyArrived id text =>
    exact bodyArrived_induction h fun stage => h.of_same (map_id_setStage panel id stage) rfl rfl
  | continued id queryMs => exact h.continued horder

end QueryPanel

namespace TraceExplorerPanel

variable {G T : Type} {panel : TraceExplorerPanel G T}

/-- The traces whose details are outstanding. -/
def outstanding (panel : TraceExplorerPanel G T) : List String :=
  panel.requests.filterMap fun request => request.call.traceId?

/-- With nothing outstanding, the detail on screen is the answer for the selected trace. -/
def ShowsSelected (panel : TraceExplorerPanel G T) : Prop :=
  panel.requests = [] → ∀ traceId, panel.selectedTraceId = some traceId →
    ∃ outcome, panel.detailOnScreen = some ⟨traceId, outcome⟩ ∧
      ∀ trace queryMs, outcome = .success trace queryMs → trace.traceId = traceId

/-- The server answers with the trace that was asked for. -/
def Served (panel : TraceExplorerPanel G T) : ExplorerEvent G T → Prop
  | .detailAnswered id (.success trace _) => panel.call? id = some (.trace trace.traceId)
  | _ => True

/-- The detail of a trace that is not selected comes only while one of the selected trace is
outstanding. -/
def InOrder (panel : TraceExplorerPanel G T) : ExplorerEvent G T → Prop
  | .detailAnswered id _ => ∀ traceId, panel.call? id = some (.trace traceId) →
      ∀ selected, panel.selectedTraceId = some selected →
        selected = traceId ∨ selected ∈ (panel.drop id).outstanding
  | _ => True

/-- What every step keeps. -/
structure Selected (panel : TraceExplorerPanel G T) : Prop where
  settled : Settled panel.selectedTraceId panel.outstanding
    (panel.detailOutcome.map Detail.requested)
  served : ∀ detail ∈ panel.detailOutcome, ∀ trace queryMs,
    detail.outcome = .success trace queryMs → trace.traceId = detail.requested
  loading : panel.detailLoading = true → panel.outstanding ≠ []

theorem Selected.showsSelected (h : panel.Selected) : panel.ShowsSelected := by
  intro hnil traceId hselected
  have hnone : panel.outstanding = [] := by rw [outstanding, hnil, List.filterMap_nil]
  have hsettled := h.settled
  rw [hnone] at hsettled
  obtain ⟨detail, hdetail, rfl⟩ := Option.map_eq_some_iff.mp (hsettled.eq_of_nil hselected)
  refine ⟨detail.outcome, ?_, h.served detail hdetail⟩
  rw [detailOnScreen, if_neg]
  · exact hdetail
  · rintro (hnot | hloading)
    · exact Option.some_ne_none _ (hselected.symm.trans hnot)
    · exact h.loading hloading hnone

theorem outstanding_ask (panel : TraceExplorerPanel G T) (call : ExplorerCall) :
    (panel.ask call).outstanding = panel.outstanding ++ call.traceId?.toList := by
  rw [outstanding, ask, List.filterMap_append]
  cases call <;> rfl

/-- The answer to a search leaves the details that are outstanding. -/
theorem outstanding_drop_find {id : Nat} {request : FailedTracesRequest} {errorsOnly : Bool}
    (h : panel.call? id = some (.find request errorsOnly)) :
    (panel.drop id).outstanding = panel.outstanding := by
  obtain ⟨found, hfound, hcall⟩ := Option.map_eq_some_iff.mp h
  obtain ⟨hid, before, after, hrequests, hbefore⟩ := List.find?_eq_some_iff_append.mp hfound
  have hskip : ∀ r ∈ before, ¬ (decide (r.id = id)) = true :=
    fun r hr => by simpa using hbefore r hr
  have hdrop : (panel.drop id).requests = before ++ after := by
    change panel.requests.eraseP (fun request => request.id = id) = _
    rw [hrequests, List.eraseP_append_right _ hskip]
    exact congrArg (before ++ ·) (List.eraseP_cons_of_pos hid)
  rw [outstanding, hdrop, outstanding, hrequests, List.filterMap_append, List.filterMap_append,
    List.filterMap_cons_none (by rw [hcall, ExplorerCall.traceId?])]

theorem selected_selectTrace (panel : TraceExplorerPanel G T) (traceId : String) :
    (panel.selectTrace traceId).Selected := by
  have houtstanding : (panel.selectTrace traceId).outstanding = panel.outstanding ++ [traceId] :=
    outstanding_ask _ _
  refine ⟨?_, nofun, fun _ => ?_⟩
  · rw [houtstanding]
    exact settled_ask traceId _ _
  · rw [houtstanding]
    exact List.append_ne_nil_of_right_ne_nil _ (List.cons_ne_nil _ _)

theorem Selected.step (h : panel.Selected) {event : ExplorerEvent G T}
    (hserved : panel.Served event) (horder : panel.InOrder event) :
    (panel.step event).Selected := by
  cases event with
  | edited form => exact ⟨h.settled, h.served, h.loading⟩
  | searched nowMs =>
    rw [TraceExplorerPanel.step, runSearch]
    split_ifs
    · exact h
    · exact h
    · refine ⟨nofun, nofun, fun hloading => ?_⟩
      rw [outstanding_ask, ExplorerCall.traceId?, Option.toList_none, List.append_nil]
      exact h.loading hloading
  | selected traceId => exact panel.selected_selectTrace traceId
  | landed initialTraceId =>
    rw [TraceExplorerPanel.step, TraceExplorerPanel.landed]
    split_ifs
    · exact h
    · exact selected_selectTrace _ initialTraceId
  | listAnswered id outcome =>
    simp only [TraceExplorerPanel.step, TraceExplorerPanel.listAnswered]
    split
    · next request errorsOnly hcall =>
      have hsame := outstanding_drop_find hcall
      refine ⟨?_, h.served, fun hloading => hsame.trans_ne (h.loading hloading)⟩
      change Settled panel.selectedTraceId (panel.drop id).outstanding _
      rw [hsame]
      exact h.settled
    · exact h
  | detailAnswered id outcome =>
    simp only [TraceExplorerPanel.step, TraceExplorerPanel.detailAnswered]
    split
    · next traceId hcall =>
      refine ⟨settled_answer traceId (horder traceId hcall), ?_, nofun⟩
      rintro _ ⟨⟩ trace queryMs rfl
      have hsame := Option.some.inj (hcall.symm.trans hserved)
      exact (ExplorerCall.trace.inj hsame).symm
    · exact h

end TraceExplorerPanel

/-- In runs of the query panel and of the trace explorer whose answers come in order, once nothing
is outstanding the outcome on screen is that of the request issued last, and the detail on screen
is the answer for the selected trace. -/
theorem latest_wins {S N G T : Type} (reader : Reader N S) (url : UrlState)
    (events : List PanelEvent) (explorerEvents : List (ExplorerEvent G T))
    (hpanel : AllSteps (QueryPanel.step reader) (QueryPanel.InOrder reader) (QueryPanel.mount url)
      events)
    (hexplorer : AllSteps TraceExplorerPanel.step
      (fun panel event => panel.Served event ∧ panel.InOrder event) TraceExplorerPanel.mount
      explorerEvents) :
    (run (QueryPanel.step reader) (QueryPanel.mount url) events).ShowsLatest ∧
      (run TraceExplorerPanel.step (TraceExplorerPanel.mount (G := G) (T := T))
        explorerEvents).ShowsSelected := by
  constructor
  · have hkeep (p : QueryPanel S) (event : PanelEvent) (h : p.Latest)
        (horder : p.InOrder reader event) : (p.step reader event).Latest :=
      h.step horder
    exact QueryPanel.Latest.showsLatest (hpanel.invariant hkeep nofun)
  · have hmount : (TraceExplorerPanel.mount (G := G) (T := T)).Selected := ⟨nofun, nofun, nofun⟩
    exact (hexplorer.invariant (fun _ _ h hcond => h.step hcond.1 hcond.2) hmount).showsSelected

/-- Two requests of the query panel and two of the explorer, answered in order. -/
theorem latest_wins_in_order :
    (run (QueryPanel.step QueryPanel.emptyReader) QueryPanel.upPanel
      ([.submitted, .rangeChanged (.relative .last1h)] ++ QueryPanel.answers 0 ++
        QueryPanel.answers 1)).ShowsLatest ∧
      (run TraceExplorerPanel.step (TraceExplorerPanel.mount (G := Unit) (T := Unit))
        [.selected "a", .selected "b", .detailAnswered 0 (.success ⟨"a", ()⟩ 5),
          .detailAnswered 1 (.success ⟨"b", ()⟩ 5)]).ShowsSelected := by
  refine latest_wins QueryPanel.emptyReader _ _ _ ?_ ?_
  · refine ⟨trivial, trivial, trivial, trivial, ?_, trivial, trivial, ?_, trivial⟩
    · rw [QueryPanel.InOrder]
      decide +kernel
    · rw [QueryPanel.InOrder]
      decide +kernel
  · refine ⟨⟨trivial, trivial⟩, ⟨trivial, trivial⟩, ⟨rfl, fun _ _ selected hselected => ?_⟩,
      ⟨rfl, fun _ hcall selected hselected => ?_⟩, trivial⟩
    · cases hselected
      exact .inr (by decide +kernel)
    · cases hcall
      cases hselected
      exact .inl rfl

/-- The first request of the query panel is answered last. -/
def reversedAnswers : List PanelEvent :=
  [.submitted, .rangeChanged (.relative .last1h)] ++ QueryPanel.answers 1 ++ QueryPanel.answers 0

/-- The first request of the explorer is answered last. -/
def reversedDetails : List (ExplorerEvent Unit Unit) :=
  [.selected "a", .selected "b", .detailAnswered 1 (.success ⟨"b", ()⟩ 5),
    .detailAnswered 0 (.success ⟨"a", ()⟩ 5)]

/-- Answered the other way round, both panels show the answer to the first request. -/
theorem first_answer_stays :
    (¬ ∀ events, (run (QueryPanel.step QueryPanel.emptyReader) QueryPanel.upPanel
      events).ShowsLatest) ∧
    ¬ ∀ events, AllSteps TraceExplorerPanel.step TraceExplorerPanel.Served
        (TraceExplorerPanel.mount (G := Unit) (T := Unit)) events →
      (run TraceExplorerPanel.step TraceExplorerPanel.mount events).ShowsSelected := by
  constructor
  · intro h
    obtain ⟨outcome, houtcome⟩ := h reversedAnswers (by decide +kernel) 1 (by decide +kernel)
    have hid : (run (QueryPanel.step QueryPanel.emptyReader) QueryPanel.upPanel
        reversedAnswers).outcome.map Answer.id = some 1 := by
      rw [houtcome, Option.map_some]
    exact absurd hid (by decide +kernel)
  · intro h
    obtain ⟨outcome, houtcome, -⟩ :=
      h reversedDetails ⟨trivial, trivial, rfl, rfl, trivial⟩ rfl "b" rfl
    have hrequested : (run TraceExplorerPanel.step TraceExplorerPanel.mount
        reversedDetails).detailOnScreen.map Detail.requested = some "b" := by
      rw [houtcome, Option.map_some]
    exact absurd hrequested (by decide +kernel)

end Kaleidoscope.Prism
