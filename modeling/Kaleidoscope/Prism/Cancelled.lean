import Kaleidoscope.Prism.Requests
import Kaleidoscope.Prism.Timers

/-!
# The answers to cancelled requests

The panel shows every outcome before the reducer sees it, and the reducer ignores only those of
requests whose `fetch` was rejected as aborted.
-/

namespace Kaleidoscope.Prism

open Run

namespace QueryPanel

variable {S N : Type} {reader : Reader N S} {panel : QueryPanel S}

/-- The auto-refresh is as before: no other state, no effect. -/
structure SameRefresh (panel panel' : QueryPanel S) : Prop where
  refreshState : panel'.refreshState = panel.refreshState
  effects : panel'.effects.flatten = panel.effects.flatten

/-- Neither the auto-refresh nor the outcome on screen is changed. -/
structure NoTrace (panel panel' : QueryPanel S) : Prop extends SameRefresh panel panel' where
  outcome : panel'.outcome = panel.outcome

/-- Only requests with a signal are cancelled. -/
def Signals (panel : QueryPanel S) : Prop :=
  ∀ request ∈ panel.requests, request.cancelled = true → request.signalled = true

theorem Signals.setStage (h : panel.Signals) (id : Nat) (stage : Stage) :
    (panel.setStage id stage).Signals := by
  intro request hrequest
  obtain ⟨old, hold, rfl⟩ := List.mem_map.mp hrequest
  split_ifs
  · exact h old hold
  · exact h old hold

theorem Signals.snoc {requests : List Request} {request : Request}
    (h : ∀ r ∈ requests, r.cancelled = true → r.signalled = true)
    (hrequest : request.cancelled = false) :
    ∀ r ∈ requests ++ [request], r.cancelled = true → r.signalled = true := by
  intro r hr hcancelled
  rcases List.mem_append.mp hr with hold | hnew
  · exact h r hold hcancelled
  · rw [List.mem_singleton.mp hnew, hrequest] at hcancelled
    cases hcancelled

theorem Signals.executeQuery (h : panel.Signals) (range : TimeRange) :
    (panel.executeQuery range).Signals := by
  rw [QueryPanel.executeQuery]
  split_ifs
  · exact h
  · exact Signals.snoc h rfl

theorem Signals.processEffect (h : panel.Signals) (e : AutoRefreshEffect) :
    (panel.processEffect e).Signals := by
  cases e with
  | scheduleTimer ms => exact h
  | cancelTimer =>
    rw [QueryPanel.processEffect]
    split <;> exact h
  | fetch =>
    rw [QueryPanel.processEffect]
    split_ifs
    · exact h
    · exact Signals.snoc h rfl
  | cancelFetch =>
    rw [QueryPanel.processEffect]
    split
    · intro request hrequest
      obtain ⟨old, hold, rfl⟩ := List.mem_map.mp hrequest
      split_ifs with habort
      · exact fun _ => habort.1
      · exact h old hold
    · exact h

theorem Signals.continued (h : panel.Signals) (id queryMs : Nat) :
    (panel.continued reader id queryMs).Signals := by
  have hdrop : (panel.drop id).Signals := fun r hr => h r (List.mem_filter.mp hr).1
  rw [QueryPanel.continued]
  split
  · rw [answered]
    split_ifs
    · exact hdrop
    · exact hdrop
  · exact hdrop
  · exact h

theorem Signals.step (h : panel.Signals) (event : PanelEvent) :
    (panel.step reader event).Signals := by
  cases event with
  | queryChanged value => exact h
  | submitted => exact h.executeQuery _
  | rangeChanged range =>
    have hchanged : Signals (dispatch { panel with state := { panel.state with range } }
        (.rangeChanged range)) := h
    exact hchanged.executeQuery range
  | refreshChanged refresh => exact h
  | visibilityChanged hidden => exact h
  | timerFired handle =>
    rw [QueryPanel.step, QueryPanel.timerFired]
    split_ifs <;> exact h
  | effectsProcessed =>
    exact effectsProcessed_induction h (fun _ => h) fun _ e hsignals => hsignals.processEffect e
  | responded id head => exact responded_induction h fun stage => h.setStage id stage
  | bodyArrived id text => exact bodyArrived_induction h fun stage => h.setStage id stage
  | continued id queryMs => exact h.continued id queryMs

/-- The answer to a request with a signal changes nothing of the auto-refresh exactly when the
request was rejected as aborted or the reducer is inactive. -/
theorem sameRefresh_iff {id queryMs : Nat} {request : Request} {next : QueryOutcome S}
    (hdue : panel.due reader id queryMs = some (request, some next))
    (hsignalled : request.signalled = true) :
    SameRefresh panel (panel.continued reader id queryMs) ↔
      (∃ err, request.stage = .settled (.error err) ∧ err.IsAbort) ∨
        ¬ panel.refreshState.IsActive := by
  obtain ⟨-, fetched, hstage, hnext⟩ := mem_of_due hdue
  have haborted : (∃ err, request.stage = .settled (.error err) ∧ err.IsAbort) ↔
      next.isAborted = true := by
    rw [isAborted_iff hnext, hstage]
    simp
  have hdispatch : panel.continued reader id queryMs =
      dispatch { panel.drop id with outcome := some ⟨request.id, next⟩, isLoading := false }
        (.fetchResult next) := by
    rw [QueryPanel.continued, hdue]
    exact if_pos hsignalled
  rw [haborted, hdispatch]
  have hflatten : (dispatch
      { panel.drop id with outcome := some ⟨request.id, next⟩, isLoading := false }
        (.fetchResult next)).effects.flatten =
      panel.effects.flatten ++ (panel.refreshState.onFetchResult next).2 := by
    rw [dispatch, List.flatten_append, List.flatten_singleton]
    rfl
  constructor
  · intro hsame
    by_contra hno
    rw [not_or, not_not] at hno
    obtain ⟨ms, hms⟩ := AutoRefreshState.onFetchResult_active hno.2 (by simpa using hno.1)
    have heffects := hsame.effects
    rw [hflatten, hms] at heffects
    simp at heffects
  · rintro (habort | hinactive)
    · have hignored : panel.refreshState.onFetchResult next = (panel.refreshState, []) :=
        if_pos habort
      exact ⟨congrArg Prod.fst hignored, by rw [hflatten, hignored, List.append_nil]⟩
    · have hignored := AutoRefreshState.onFetchResult_inactive hinactive next
      exact ⟨congrArg Prod.fst hignored, by rw [hflatten, hignored, List.append_nil]⟩

/-- The answer to a request replaces the outcome on screen. -/
theorem Numbered.outcome_ne (h : panel.Numbered) {id queryMs : Nat} {request : Request}
    {next : QueryOutcome S} (hdue : panel.due reader id queryMs = some (request, some next)) :
    (panel.continued reader id queryMs).outcome ≠ panel.outcome := by
  have hmem := (mem_of_request? (mem_of_due hdue).1).1
  have houtcome : (panel.continued reader id queryMs).outcome = some ⟨request.id, next⟩ := by
    simp only [QueryPanel.continued, hdue, answered]
    split_ifs <;> rfl
  rw [houtcome]
  intro hsame
  exact (h.shown _ hsame.symm).2 (List.mem_map_of_mem hmem)

/-- After any run, the answer to a cancelled request leaves a trace: it replaces the outcome on
screen. The auto-refresh is as before exactly when the request was rejected as aborted, before its
head came, or the reducer is inactive. -/
theorem cancelled_traced (reader : Reader N S) (url : UrlState) (events : List PanelEvent)
    {id queryMs : Nat} {request : Request} {next : QueryOutcome S}
    (hdue : (run (step reader) (mount url) events).due reader id queryMs =
      some (request, some next))
    (hcancelled : request.cancelled = true) :
    ¬ NoTrace (run (step reader) (mount url) events)
        (run (step reader) (mount url) (events ++ [.continued id queryMs])) ∧
      (SameRefresh (run (step reader) (mount url) events)
          (run (step reader) (mount url) (events ++ [.continued id queryMs])) ↔
        (∃ err, request.stage = .settled (.error err) ∧ err.IsAbort) ∨
          ¬ (run (step reader) (mount url) events).refreshState.IsActive) := by
  have hall : AllSteps (step reader) (fun _ _ => True) (mount url) events :=
    allSteps_of_forall (fun _ _ => trivial) _ _
  have hnumbered : (run (step reader) (mount url) events).Numbered :=
    hall.invariant (fun _ event h _ => h.step event) (numbered_mount url)
  have hkeep (p : QueryPanel S) (event : PanelEvent) (h : p.Signals) (_ : True) :
      (p.step reader event).Signals :=
    h.step event
  have hsignals : (run (step reader) (mount url) events).Signals :=
    hall.invariant hkeep fun _ hmem => absurd hmem List.not_mem_nil
  rw [run_append, run_cons, run_nil]
  refine ⟨fun hno => hnumbered.outcome_ne hdue hno.outcome, sameRefresh_iff hdue ?_⟩
  exact hsignals request (mem_of_request? (mem_of_due hdue).1).1 hcancelled

/-- A tab that is hidden while a tick's request waits for the head of its response. -/
def hiddenTab : List PanelEvent :=
  [.effectsProcessed, .timerFired 0, .effectsProcessed, .visibilityChanged true, .effectsProcessed]

/-- The request that was cancelled then. -/
def hiddenRequest : Request :=
  ⟨1, ⟨"up", .relative .last15m⟩, true, true, .settled (.error abortError)⟩

theorem due_hiddenRequest : (run (step emptyReader) upPanel hiddenTab).due emptyReader 1 5 =
    some (hiddenRequest, some (.transportError .aborted 5)) := by
  decide +kernel

theorem hiddenTab_traced :
    ¬ NoTrace (run (step emptyReader) upPanel hiddenTab)
        (run (step emptyReader) upPanel (hiddenTab ++ [.continued 1 5])) ∧
      (SameRefresh (run (step emptyReader) upPanel hiddenTab)
          (run (step emptyReader) upPanel (hiddenTab ++ [.continued 1 5])) ↔
        (∃ err, hiddenRequest.stage = .settled (.error err) ∧ err.IsAbort) ∨
          ¬ (run (step emptyReader) upPanel hiddenTab).refreshState.IsActive) :=
  cancelled_traced emptyReader _ hiddenTab due_hiddenRequest rfl

/-- The banner of an aborted request replaces what the hidden tab showed. -/
theorem aborted_on_screen : ¬ ∀ (events : List PanelEvent) (id queryMs : Nat) (request : Request)
    (next : QueryOutcome String),
    (run (step emptyReader) upPanel events).due emptyReader id queryMs =
      some (request, some next) → request.cancelled = true →
        NoTrace (run (step emptyReader) upPanel events)
          (run (step emptyReader) upPanel (events ++ [.continued id queryMs])) := by
  intro h
  have hno := h hiddenTab 1 5 hiddenRequest (.transportError .aborted 5) due_hiddenRequest rfl
  exact absurd hno.outcome (by decide +kernel)

end QueryPanel

end Kaleidoscope.Prism
