import Kaleidoscope.Prism.QueryPanel

/-!
# At most one timer

A timer is scheduled beside a live one exactly when an answer reaches the reducer while the timer
of an earlier answer, of an interval or of a visible tab is live or about to be.
-/

namespace Kaleidoscope.Prism

open Run

/-- Whether a timer is live after an effect; none when it would be scheduled beside a live one. -/
def AutoRefreshEffect.timerAfter (live : Bool) : AutoRefreshEffect → Option Bool
  | .scheduleTimer _ => if live then none else some true
  | .cancelTimer => some false
  | .fetch => some live
  | .cancelFetch => some live

/-- Whether a timer is live after some effects. -/
def timerAfter (live : Bool) (effects : List AutoRefreshEffect) : Option Bool :=
  effects.foldlM AutoRefreshEffect.timerAfter live

@[simp] theorem timerAfter_nil (live : Bool) : timerAfter live [] = some live := rfl

@[simp] theorem timerAfter_cons (live : Bool) (e : AutoRefreshEffect)
    (effects : List AutoRefreshEffect) :
    timerAfter live (e :: effects) = (e.timerAfter live).bind (timerAfter · effects) := rfl

theorem timerAfter_append (live : Bool) (effects effects' : List AutoRefreshEffect) :
    timerAfter live (effects ++ effects') =
      (timerAfter live effects).bind (timerAfter · effects') :=
  List.foldlM_append

/-- Effects that fit a live timer fit none, and leave no more timers then. -/
theorem timerAfter_of_live {effects : List AutoRefreshEffect} {after : Bool}
    (h : timerAfter true effects = some after) :
    ∃ after', timerAfter false effects = some after' ∧ (after = false → after' = false) := by
  induction effects with
  | nil => exact ⟨false, rfl, fun _ => rfl⟩
  | cons e effects ih =>
    cases e with
    | scheduleTimer ms => simp [AutoRefreshEffect.timerAfter] at h
    | cancelTimer => exact ⟨after, h, id⟩
    | fetch => exact ih h
    | cancelFetch => exact ih h

/-- The effects of the reducer fit the timers when an answer comes while none is live; an inactive
reducer has none. -/
theorem AutoRefreshState.Moves.timerAfter {S : Type} {state next : AutoRefreshState}
    {event : AutoRefreshEvent S} {effects : List AutoRefreshEffect}
    (h : Moves state next event effects) {live : Bool} (hinactive : ¬ state.IsActive → live = false)
    (hanswer : event.IsAnswer → state.IsActive → live = false) :
    ∃ after, timerAfter live effects = some after ∧ (¬ next.IsActive → after = false) := by
  cases h with
  | stays hsame => exact ⟨live, rfl, fun hnext => hinactive fun hstate => hnext (hsame.mpr hstate)⟩
  | leaves => exact ⟨false, rfl, fun _ => rfl⟩
  | starts hstate hnext ms =>
    obtain rfl := hinactive hstate
    exact ⟨true, rfl, fun h => absurd hnext h⟩
  | restarts _ hnext ms => exact ⟨true, rfl, fun h => absurd hnext h⟩
  | reschedules hevent hstate hnext ms =>
    obtain rfl := hanswer hevent hstate
    exact ⟨true, rfl, fun h => absurd hnext h⟩
  | shows hstate hnext ms =>
    obtain rfl := hinactive hstate
    exact ⟨true, rfl, fun h => absurd hnext h⟩
  | ticks _ hnext => exact ⟨live, rfl, fun h => absurd hnext h⟩

namespace QueryPanel

variable {S N : Type} {reader : Reader N S} {panel : QueryPanel S}

/-- Whether a timer is live. -/
def hasTimer (panel : QueryPanel S) : Bool := !panel.timers.isEmpty

/-- At most one timer is live, and the stored handle is its handle. -/
structure OneTimer (panel : QueryPanel S) : Prop where
  length_le : panel.timers.length ≤ 1
  handle : ∀ timer ∈ panel.timers, panel.timerHandleRef = some timer.handle

/-- Whether a timer is live once the queued effects are carried out. -/
def timerDue (panel : QueryPanel S) : Option Bool :=
  Prism.timerAfter panel.hasTimer panel.effects.flatten

/-- An answer that the reducer does not ignore comes while no timer is live or due. -/
def AnsweredInTurn (reader : Reader N S) (panel : QueryPanel S) : PanelEvent → Prop
  | .continued id queryMs => ∀ request next,
      panel.due reader id queryMs = some (request, some next) →
      request.signalled = true → next.isAborted = false → panel.refreshState.IsActive →
        panel.timerDue ≠ some true
  | _ => True

/-- What every step keeps: the queued effects fit the timers. -/
structure Tidy (panel : QueryPanel S) : Prop where
  oneTimer : panel.OneTimer
  due : ∃ after, panel.timerDue = some after ∧ (¬ panel.refreshState.IsActive → after = false)

/-- No timer is live beside the one whose handle is stored. -/
theorem OneTimer.others_eq_nil (h : panel.OneTimer) {handle : Nat}
    (hhandle : panel.timerHandleRef = some handle) :
    (panel.timers.filter fun timer => timer.handle ≠ handle) = [] := by
  refine List.filter_eq_nil_iff.mpr fun timer ht => ?_
  have hsame := Option.some.inj ((h.handle timer ht).symm.trans hhandle)
  simpa using hsame

theorem OneTimer.of_nil (h : panel.timers = []) : panel.OneTimer ∧ panel.hasTimer = false := by
  refine ⟨⟨?_, ?_⟩, ?_⟩
  · simp [h]
  · simp [h]
  · simp [hasTimer, h]

/-- One effect that fits. -/
theorem OneTimer.processEffect (h : panel.OneTimer) {e : AutoRefreshEffect} {live : Bool}
    (he : e.timerAfter panel.hasTimer = some live) :
    (panel.processEffect e).OneTimer ∧ (panel.processEffect e).hasTimer = live := by
  cases e with
  | scheduleTimer ms =>
    have hnil : panel.timers = [] := by
      by_contra hne
      simp [AutoRefreshEffect.timerAfter, hasTimer, hne] at he
    obtain rfl : live = true := by
      simpa [AutoRefreshEffect.timerAfter, hasTimer, hnil] using he.symm
    constructor
    · constructor
      · simp [QueryPanel.processEffect, hnil]
      · simp [QueryPanel.processEffect, hnil]
    · simp [QueryPanel.processEffect, hasTimer]
  | cancelTimer =>
    obtain rfl : false = live := Option.some.inj he
    refine OneTimer.of_nil ?_
    rw [QueryPanel.processEffect]
    cases hhandle : panel.timerHandleRef with
    | none =>
      refine List.eq_nil_iff_forall_not_mem.mpr fun timer ht => ?_
      exact absurd (hhandle.symm.trans (h.handle timer ht)) (by simp)
    | some handle => exact h.others_eq_nil hhandle
  | fetch =>
    obtain rfl : panel.hasTimer = live := Option.some.inj he
    rw [QueryPanel.processEffect]
    split_ifs
    · exact ⟨⟨h.length_le, h.handle⟩, rfl⟩
    · exact ⟨⟨h.length_le, h.handle⟩, rfl⟩
  | cancelFetch =>
    obtain rfl : panel.hasTimer = live := Option.some.inj he
    rw [QueryPanel.processEffect]
    split
    · exact ⟨⟨h.length_le, h.handle⟩, rfl⟩
    · exact ⟨h, rfl⟩

/-- A list of effects that fit. -/
theorem OneTimer.processEffects (h : panel.OneTimer) {effects : List AutoRefreshEffect}
    {live : Bool} (heffects : Prism.timerAfter panel.hasTimer effects = some live) :
    (panel.processEffects effects).OneTimer ∧ (panel.processEffects effects).hasTimer = live := by
  induction effects generalizing panel with
  | nil => exact ⟨h, Option.some.inj heffects⟩
  | cons e effects ih =>
    rw [timerAfter_cons, Option.bind_eq_some_iff] at heffects
    obtain ⟨after, he, heffects⟩ := heffects
    obtain ⟨hone, hlive⟩ := h.processEffect he
    exact ih hone (by rwa [hlive])

theorem Tidy.of_same {panel' : QueryPanel S} (h : panel.Tidy) (hsame : SameTimers panel panel') :
    panel'.Tidy := by
  obtain ⟨⟨hlength, hhandle⟩, hdue⟩ := h
  rw [timerDue, hasTimer, ← hsame.effects, ← hsame.refreshState, ← hsame.timers] at hdue
  rw [← hsame.timers] at hlength
  rw [← hsame.timers, ← hsame.timerHandleRef] at hhandle
  exact ⟨⟨hlength, hhandle⟩, hdue⟩

/-- An event for the reducer. -/
theorem Tidy.dispatch (h : panel.Tidy) (event : AutoRefreshEvent S)
    (hanswer : event.IsAnswer → panel.refreshState.IsActive → panel.timerDue ≠ some true) :
    (panel.dispatch event).Tidy := by
  obtain ⟨live, hlive, hinactive⟩ := h.due
  obtain ⟨after, hafter, hnext⟩ := (panel.refreshState.moves_reduce event).timerAfter hinactive
    fun hevent hactive => by simpa [hlive] using hanswer hevent hactive
  refine ⟨⟨h.oneTimer.length_le, h.oneTimer.handle⟩, after, ?_, hnext⟩
  calc timerAfter panel.hasTimer (panel.effects ++ [(panel.refreshState.reduce event).2]).flatten
      = (timerAfter panel.hasTimer panel.effects.flatten).bind
          (timerAfter · (panel.refreshState.reduce event).2) := by
        rw [List.flatten_append, List.flatten_singleton, timerAfter_append]
    _ = timerAfter live (panel.refreshState.reduce event).2 := by
        rw [← timerDue, hlive, Option.bind_some]
    _ = some after := hafter

/-- A timer that fires is no longer live. -/
theorem Tidy.timerFired (h : panel.Tidy) (handle : Nat) : (panel.timerFired handle).Tidy := by
  rw [QueryPanel.timerFired]
  split_ifs with hfired
  · obtain ⟨timer, ht, rfl⟩ := hfired
    have hnil := h.oneTimer.others_eq_nil (h.oneTimer.handle timer ht)
    have hlive : panel.hasTimer = true := by
      cases htimers : panel.timers with
      | nil => simp [htimers] at ht
      | cons t ts => simp [hasTimer, htimers]
    obtain ⟨live, hdue, hinactive⟩ := h.due
    rw [timerDue, hlive] at hdue
    obtain ⟨live', hdue', himp⟩ := timerAfter_of_live hdue
    have hfiredTidy : Tidy
        { panel with
          timers := panel.timers.filter fun t => t.handle ≠ timer.handle
          timerHandleRef := none } := by
      refine ⟨(OneTimer.of_nil ?_).1, live', ?_, fun hidle => himp (hinactive hidle)⟩
      · exact hnil
      · rwa [timerDue, (OneTimer.of_nil ?_).2]
        exact hnil
    exact hfiredTidy.dispatch .tickFired nofun
  · exact h

theorem Tidy.effectsProcessed (h : panel.Tidy) : panel.effectsProcessed.Tidy := by
  cases heffects : panel.effects with
  | nil => rwa [effectsProcessed_nil heffects]
  | cons effects rest =>
    rw [effectsProcessed_cons heffects]
    obtain ⟨after, hdue, hinactive⟩ := h.due
    rw [timerDue, heffects, List.flatten_cons, timerAfter_append, Option.bind_eq_some_iff] at hdue
    obtain ⟨live, hhead, hrest⟩ := hdue
    have hrestOne : OneTimer { panel with effects := rest } :=
      ⟨h.oneTimer.length_le, h.oneTimer.handle⟩
    obtain ⟨hone, hlive⟩ := hrestOne.processEffects hhead
    obtain ⟨hqueue, hrefresh, -⟩ := processEffects_frame { panel with effects := rest } effects
    refine ⟨hone, after, ?_, fun hidle => hinactive (hrefresh ▸ hidle)⟩
    rwa [timerDue, hlive, hqueue]

theorem Tidy.continued (h : panel.Tidy) {id queryMs : Nat}
    (hturn : panel.AnsweredInTurn reader (.continued id queryMs)) :
    (panel.continued reader id queryMs).Tidy := by
  rw [QueryPanel.continued]
  split
  · next request next hdue =>
    rw [answered]
    have hshown : Tidy
        { panel.drop id with outcome := some ⟨request.id, next⟩, isLoading := false } :=
      h.of_same ⟨rfl, rfl, rfl, rfl⟩
    split_ifs with hsignalled
    · exact hshown.dispatch (.fetchResult next) (hturn request next hdue hsignalled)
    · exact hshown
  · exact h.of_same ⟨rfl, rfl, rfl, rfl⟩
  · exact h

/-- Every step whose answer is in turn keeps the timers tidy. -/
theorem Tidy.step (h : panel.Tidy) {event : PanelEvent}
    (hturn : panel.AnsweredInTurn reader event) : (panel.step reader event).Tidy := by
  cases event with
  | queryChanged value => exact h.of_same ⟨rfl, rfl, rfl, rfl⟩
  | submitted => exact h.of_same (panel.sameTimers_executeQuery _)
  | rangeChanged range =>
    have hchanged : Tidy { panel with state := { panel.state with range } } :=
      h.of_same ⟨rfl, rfl, rfl, rfl⟩
    exact (hchanged.dispatch (.rangeChanged range) nofun).of_same (sameTimers_executeQuery _ range)
  | refreshChanged refresh =>
    have hchanged : Tidy { panel with state := { panel.state with refresh } } :=
      h.of_same ⟨rfl, rfl, rfl, rfl⟩
    exact hchanged.dispatch (.refreshChanged refresh) nofun
  | visibilityChanged hidden => exact h.dispatch (.visibilityChanged hidden) nofun
  | timerFired handle => exact h.timerFired handle
  | effectsProcessed => exact h.effectsProcessed
  | responded id head => exact h.of_same (panel.sameTimers_responded id head)
  | bodyArrived id text => exact h.of_same (panel.sameTimers_bodyArrived id text)
  | continued id queryMs => exact h.continued hturn

theorem tidy_mount (url : UrlState) : (mount url : QueryPanel S).Tidy :=
  Tidy.dispatch ⟨(OneTimer.of_nil rfl).1, false, rfl, fun _ => rfl⟩ (.refreshChanged url.refresh)
    nofun

/-- In a run in which every answer the reducer does not ignore comes while no timer is live or due,
at most one timer is live in every state, and its handle is stored. -/
theorem oneTimer_run (reader : Reader N S) (url : UrlState) (events : List PanelEvent)
    (h : AllSteps (step reader) (AnsweredInTurn reader) (mount url) events) :
    (run (step reader) (mount url) events).OneTimer :=
  (h.invariant (fun _ _ htidy hturn => htidy.step hturn) (tidy_mount url)).oneTimer

/-- The answer of a backend that has no series. -/
def emptyBody : String := "\x7b\"status\":\"success\",\"data\":\x7b\"result\":[]\x7d\x7d"

/-- A reader that knows that answer. -/
def emptyReader : Reader Nat String where
  json body :=
    if body = emptyBody then
      .ok (.object [("status", .string "success"), ("data", .object [("result", .array [])])])
    else .error (.error "SyntaxError" "Unexpected token")
  series entries := if entries.isEmpty then some [] else none

/-- A panel that asks for `up` every ten seconds. -/
def upPanel : QueryPanel String := mount ⟨"up", .relative .last15m, .every10s⟩

/-- A request is answered without series. -/
def answers (id : Nat) : List PanelEvent :=
  [.responded id (.ok ⟨true, 200⟩), .bodyArrived id (.ok emptyBody), .continued id 5]

/-- A tick and its answer, then the next timer. -/
theorem oneTimer_tick : (run (step emptyReader) upPanel
    ([.effectsProcessed, .timerFired 0, .effectsProcessed] ++ answers 1 ++
      [.effectsProcessed])).OneTimer := by
  refine oneTimer_run emptyReader _ _ ?_
  simp only [answers, List.cons_append, List.nil_append, AllSteps, AnsweredInTurn, true_and,
    and_true]
  rintro request next hdue - - -
  decide +kernel

/-- A tab that is hidden and shown fetches and schedules; the answer schedules again. -/
theorem two_timers : ¬ ∀ events, (run (step emptyReader) upPanel events).OneTimer := by
  intro h
  have hone := h ([.effectsProcessed, .visibilityChanged true, .effectsProcessed,
    .visibilityChanged false, .effectsProcessed] ++ answers 1 ++ [.effectsProcessed])
  exact absurd hone.length_le (by decide +kernel)

end QueryPanel

end Kaleidoscope.Prism
