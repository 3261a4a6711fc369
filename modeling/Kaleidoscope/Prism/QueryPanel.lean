import Kaleidoscope.Library.Run
import Kaleidoscope.Prism.AutoRefresh

/-!
# The query panel

The panel hands events to the reducer and carries out its effects later, in microtasks that run in
the order in which they were queued. Handles of timers and numbers of requests are drawn from one
counter; nothing depends on their values.
-/

namespace Kaleidoscope.Prism

/-- `UrlState`. -/
structure UrlState where
  q : String
  range : TimeRange
  refresh : RefreshInterval
  deriving DecidableEq, Repr

/-- A one-shot timer that was scheduled and neither fired nor was cancelled. -/
structure Timer where
  handle : Nat
  ms : Nat
  deriving DecidableEq, Repr

/-- What `fetch` and `response.text()` are rejected with when they are aborted while pending. -/
def abortError : Thrown := .error "AbortError" "The operation was aborted."

/-- How far a request has got. -/
inductive Stage where
  | fetching
  | reading (head : Head)
  /-- Both waits are over; the continuation has not run. -/
  | settled (fetched : Except Thrown Response)
  deriving DecidableEq

/-- A request that was not answered. -/
structure Request where
  id : Nat
  query : QueryRangeRequest
  /-- Whether the auto-refresh made it: it has a signal, and its answer goes to the reducer. -/
  signalled : Bool
  /-- Whether its signal was aborted. -/
  cancelled : Bool
  stage : Stage
  deriving DecidableEq

/-- The abort of the signal of a request. -/
def Request.abort (request : Request) : Request :=
  { request with
    cancelled := true
    stage :=
      match request.stage with
      | .fetching => .settled (.error abortError)
      | .reading head => .settled (.ok ⟨head, .error abortError⟩)
      -- both promises are settled already
      | .settled fetched => .settled fetched }

/-- An outcome on screen, with the request it is the answer to. -/
structure Answer (S : Type) where
  id : Nat
  outcome : QueryOutcome S
  deriving DecidableEq

/-- `QueryPanel`, with series from `S`. -/
structure QueryPanel (S : Type) where
  state : UrlState
  outcome : Option (Answer S)
  isLoading : Bool
  refreshState : AutoRefreshState
  /-- The effects of the queued microtasks. -/
  effects : List (List AutoRefreshEffect)
  timers : List Timer
  timerHandleRef : Option Nat
  abortRef : Option Nat
  requests : List Request
  /-- The request that was issued last. -/
  latest : Option Nat
  fresh : Nat
  deriving DecidableEq

/-- What can happen to a panel. -/
inductive PanelEvent where
  | queryChanged (value : String)
  | submitted
  | rangeChanged (range : TimeRange)
  | refreshChanged (refresh : RefreshInterval)
  | visibilityChanged (hidden : Bool)
  | timerFired (handle : Nat)
  | effectsProcessed
  | responded (id : Nat) (head : Except Thrown Head)
  | bodyArrived (id : Nat) (text : Except Thrown String)
  | continued (id : Nat) (queryMs : Nat)
  deriving DecidableEq

namespace QueryPanel

variable {S N : Type}

/-- `dispatch`. -/
def dispatch (panel : QueryPanel S) (event : AutoRefreshEvent S) : QueryPanel S :=
  let (next, effects) := panel.refreshState.reduce event
  { panel with refreshState := next, effects := panel.effects ++ [effects] }

/-- A call of `queryRange`. -/
def issue (panel : QueryPanel S) (id : Nat) (range : TimeRange) (signalled : Bool) :
    QueryPanel S :=
  { panel with
    isLoading := true
    requests := panel.requests ++ [⟨id, ⟨panel.state.q, range⟩, signalled, false, .fetching⟩]
    latest := some id }

/-- One effect of `processEffects`. -/
def processEffect (panel : QueryPanel S) : AutoRefreshEffect → QueryPanel S
  | .scheduleTimer ms =>
    { panel with
      timers := panel.timers ++ [⟨panel.fresh, ms⟩]
      timerHandleRef := some panel.fresh
      fresh := panel.fresh + 1 }
  | .cancelTimer =>
    match panel.timerHandleRef with
    | some handle =>
      { panel with
        timers := panel.timers.filter fun timer => timer.handle ≠ handle
        timerHandleRef := none }
    | none => panel
  | .fetch =>
    let ac := panel.fresh
    let panel := { panel with abortRef := some ac, fresh := panel.fresh + 1 }
    -- the new controller is stored before the query is looked at
    if panel.state.q = "" then panel else panel.issue ac panel.state.range true
  | .cancelFetch =>
    match panel.abortRef with
    | some id =>
      { panel with
        requests := panel.requests.map fun request =>
          if request.signalled = true ∧ request.id = id then request.abort else request
        abortRef := none }
    | none => panel

/-- `processEffects`. -/
def processEffects (panel : QueryPanel S) (effects : List AutoRefreshEffect) : QueryPanel S :=
  effects.foldl processEffect panel

/-- `executeQuery`, up to its wait; such a request has no signal. -/
def executeQuery (panel : QueryPanel S) (range : TimeRange) : QueryPanel S :=
  if panel.state.q = "" then panel
  else { panel with fresh := panel.fresh + 1 }.issue panel.fresh range false

/-- What follows a request: `setOutcome`, and the reducer where the auto-refresh made it. -/
def answered (panel : QueryPanel S) (request : Request) (next : QueryOutcome S) : QueryPanel S :=
  let panel := { panel with outcome := some ⟨request.id, next⟩, isLoading := false }
  if request.signalled then panel.dispatch (.fetchResult next) else panel

/-- A request is over. -/
def drop (panel : QueryPanel S) (id : Nat) : QueryPanel S :=
  { panel with requests := panel.requests.filter fun request => request.id ≠ id }

/-- The request with a number. -/
def request? (panel : QueryPanel S) (id : Nat) : Option Request :=
  panel.requests.find? fun request => request.id = id

/-- Another stage of a request. -/
def setStage (panel : QueryPanel S) (id : Nat) (stage : Stage) : QueryPanel S :=
  { panel with
    requests := panel.requests.map fun request =>
      if request.id = id then { request with stage } else request }

/-- The end of the first wait. -/
def responded (panel : QueryPanel S) (id : Nat) (head : Except Thrown Head) : QueryPanel S :=
  match panel.request? id with
  | some ⟨_, _, _, _, .fetching⟩ =>
    match head with
    | .ok head => panel.setStage id (.reading head)
    | .error err => panel.setStage id (.settled (.error err))
  | _ => panel

/-- The end of the second wait. -/
def bodyArrived (panel : QueryPanel S) (id : Nat) (text : Except Thrown String) : QueryPanel S :=
  match panel.request? id with
  | some ⟨_, _, _, _, .reading head⟩ => panel.setStage id (.settled (.ok ⟨head, text⟩))
  | _ => panel

/-- The outcome that the continuation of a request is run with, with the request. -/
def due (reader : Reader N S) (panel : QueryPanel S) (id queryMs : Nat) :
    Option (Request × Option (QueryOutcome S)) :=
  (panel.request? id).bind fun request =>
    match request.stage with
    | .settled fetched => some (request, queryRange reader fetched queryMs)
    | _ => none

/-- The continuation of a request; after an exception there is none. -/
def continued (reader : Reader N S) (panel : QueryPanel S) (id queryMs : Nat) : QueryPanel S :=
  match panel.due reader id queryMs with
  | some (request, some next) => (panel.drop id).answered request next
  | some (_, none) => panel.drop id
  | none => panel

/-- The callback of a timer. -/
def timerFired (panel : QueryPanel S) (handle : Nat) : QueryPanel S :=
  if ∃ timer ∈ panel.timers, timer.handle = handle then
    dispatch
      { panel with
        timers := panel.timers.filter fun timer => timer.handle ≠ handle
        timerHandleRef := none }
      .tickFired
  else panel

/-- The next microtask. -/
def effectsProcessed (panel : QueryPanel S) : QueryPanel S :=
  match panel.effects with
  | effects :: rest => { panel with effects := rest }.processEffects effects
  | [] => panel

/-- `onRangeChange`. -/
def onRangeChange (panel : QueryPanel S) (range : TimeRange) : QueryPanel S :=
  (dispatch { panel with state := { panel.state with range } } (.rangeChanged range)).executeQuery
    range

/-- `onRefreshChange`. -/
def onRefreshChange (panel : QueryPanel S) (refresh : RefreshInterval) : QueryPanel S :=
  dispatch { panel with state := { panel.state with refresh } } (.refreshChanged refresh)

/-- One step of the panel; what does not apply changes nothing. -/
def step (reader : Reader N S) (panel : QueryPanel S) : PanelEvent → QueryPanel S
  | .queryChanged value => { panel with state := { panel.state with q := value } }
  | .submitted => panel.executeQuery panel.state.range
  | .rangeChanged range => panel.onRangeChange range
  | .refreshChanged refresh => panel.onRefreshChange refresh
  | .visibilityChanged hidden => panel.dispatch (.visibilityChanged hidden)
  | .timerFired handle => panel.timerFired handle
  | .effectsProcessed => panel.effectsProcessed
  | .responded id head => panel.responded id head
  | .bodyArrived id text => panel.bodyArrived id text
  | .continued id queryMs => panel.continued reader id queryMs

/-- The panel once it is mounted. -/
def mount (url : UrlState) : QueryPanel S :=
  dispatch
    { state := url
      outcome := none
      isLoading := false
      refreshState := ⟨.idle, url.refresh, url.range.kind⟩
      effects := []
      timers := []
      timerHandleRef := none
      abortRef := none
      requests := []
      latest := none
      fresh := 0 }
    (.refreshChanged url.refresh)

theorem effectsProcessed_nil {panel : QueryPanel S} (h : panel.effects = []) :
    panel.effectsProcessed = panel := by
  rw [effectsProcessed, h]

theorem effectsProcessed_cons {panel : QueryPanel S} {effects : List AutoRefreshEffect}
    {rest : List (List AutoRefreshEffect)} (h : panel.effects = effects :: rest) :
    panel.effectsProcessed = { panel with effects := rest }.processEffects effects := by
  rw [effectsProcessed, h]

/-- What holds before a response comes and with any stage of the request holds after it. -/
theorem responded_induction {panel : QueryPanel S} {motive : QueryPanel S → Prop} {id : Nat}
    {head : Except Thrown Head} (hsame : motive panel)
    (hstage : ∀ stage, motive (panel.setStage id stage)) : motive (panel.responded id head) := by
  unfold responded
  split
  · split
    · exact hstage _
    · exact hstage _
  · exact hsame

/-- So it is with a body. -/
theorem bodyArrived_induction {panel : QueryPanel S} {motive : QueryPanel S → Prop} {id : Nat}
    {text : Except Thrown String} (hsame : motive panel)
    (hstage : ∀ stage, motive (panel.setStage id stage)) : motive (panel.bodyArrived id text) := by
  unfold bodyArrived
  split
  · exact hstage _
  · exact hsame

/-- What does not depend on the queue and is kept by each effect is kept by a microtask. -/
theorem effectsProcessed_induction {panel : QueryPanel S} {motive : QueryPanel S → Prop}
    (h : motive panel) (hqueue : ∀ rest, motive { panel with effects := rest })
    (heffect : ∀ panel e, motive panel → motive (processEffect panel e)) :
    motive panel.effectsProcessed := by
  cases heffects : panel.effects with
  | nil => rwa [effectsProcessed_nil heffects]
  | cons effects rest =>
    rw [effectsProcessed_cons heffects]
    exact List.foldlRecOn effects _ (hqueue rest) fun panel h e _ => heffect panel e h

/-- Two panels with the same timers, the same queue and the same reducer. -/
structure SameTimers (panel panel' : QueryPanel S) : Prop where
  timers : panel'.timers = panel.timers
  timerHandleRef : panel'.timerHandleRef = panel.timerHandleRef
  effects : panel'.effects = panel.effects
  refreshState : panel'.refreshState = panel.refreshState

theorem SameTimers.refl (panel : QueryPanel S) : SameTimers panel panel := ⟨rfl, rfl, rfl, rfl⟩

theorem sameTimers_executeQuery (panel : QueryPanel S) (range : TimeRange) :
    SameTimers panel (panel.executeQuery range) := by
  rw [executeQuery]
  split_ifs <;> exact ⟨rfl, rfl, rfl, rfl⟩

theorem sameTimers_responded (panel : QueryPanel S) (id : Nat) (head : Except Thrown Head) :
    SameTimers panel (panel.responded id head) :=
  responded_induction (.refl panel) fun _ => ⟨rfl, rfl, rfl, rfl⟩

theorem sameTimers_bodyArrived (panel : QueryPanel S) (id : Nat) (text : Except Thrown String) :
    SameTimers panel (panel.bodyArrived id text) :=
  bodyArrived_induction (.refl panel) fun _ => ⟨rfl, rfl, rfl, rfl⟩

/-- An effect leaves the queue, the reducer, the outcome and the query. -/
theorem processEffect_frame (panel : QueryPanel S) (e : AutoRefreshEffect) :
    (panel.processEffect e).effects = panel.effects ∧
      (panel.processEffect e).refreshState = panel.refreshState ∧
      (panel.processEffect e).outcome = panel.outcome ∧
      (panel.processEffect e).state = panel.state := by
  cases e with
  | scheduleTimer ms => exact ⟨rfl, rfl, rfl, rfl⟩
  | cancelTimer =>
    rw [processEffect]
    split <;> exact ⟨rfl, rfl, rfl, rfl⟩
  | fetch =>
    rw [processEffect]
    split_ifs <;> exact ⟨rfl, rfl, rfl, rfl⟩
  | cancelFetch =>
    rw [processEffect]
    split <;> exact ⟨rfl, rfl, rfl, rfl⟩

theorem processEffects_frame (panel : QueryPanel S) (effects : List AutoRefreshEffect) :
    (panel.processEffects effects).effects = panel.effects ∧
      (panel.processEffects effects).refreshState = panel.refreshState ∧
      (panel.processEffects effects).outcome = panel.outcome ∧
      (panel.processEffects effects).state = panel.state := by
  induction effects generalizing panel with
  | nil => exact ⟨rfl, rfl, rfl, rfl⟩
  | cons e effects ih =>
    obtain ⟨heffects, hrefresh, houtcome, hstate⟩ := ih (panel.processEffect e)
    obtain ⟨heffects', hrefresh', houtcome', hstate'⟩ := panel.processEffect_frame e
    exact ⟨heffects.trans heffects', hrefresh.trans hrefresh', houtcome.trans houtcome',
      hstate.trans hstate'⟩

end QueryPanel

end Kaleidoscope.Prism
