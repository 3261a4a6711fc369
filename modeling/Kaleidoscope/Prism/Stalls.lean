import Kaleidoscope.Prism.Requests
import Kaleidoscope.Prism.Timers

/-!
# What keeps the auto-refresh going

While the reducer is active, a live timer or a request in flight leads to the next answer. A tick
that finds no query issues no request, and then nothing does.
-/

namespace Kaleidoscope.Prism

open Run

/-- An effect after which something will come to the reducer. -/
def AutoRefreshEffect.Kicks : AutoRefreshEffect → Prop
  | .scheduleTimer _ => True
  | .fetch => True
  | .cancelTimer => False
  | .cancelFetch => False

/-- A request whose answer will reach the reducer. -/
def Request.Alive (request : Request) : Prop :=
  request.signalled = true ∧ request.cancelled = false

instance (request : Request) : Decidable request.Alive :=
  inferInstanceAs (Decidable (_ ∧ _))

/-- A request is rejected as aborted only when it was aborted. -/
def Request.Honest (request : Request) : Prop :=
  ∀ err, request.stage = .settled (.error err) → err.IsAbort → ¬ request.Alive

/-- A request whose `fetch` was not rejected. -/
theorem Request.honest_of_ne {request : Request}
    (h : ∀ err, request.stage ≠ .settled (.error err)) : request.Honest :=
  fun err hstage => absurd hstage (h err)

/-- Effects that end with a request are those of a tick. -/
theorem AutoRefreshState.Moves.fetch {S : Type} {state next : AutoRefreshState}
    {event : AutoRefreshEvent S} {effects : List AutoRefreshEffect}
    (h : Moves state next event effects) (hlast : effects.getLast? = some .fetch) :
    effects = [.cancelFetch, .fetch] := by
  cases h with
  | ticks => rfl
  | _ => cases hlast

/-- Effects of a reducer that stays active end with one after which something will come. -/
theorem AutoRefreshState.Moves.kicks {S : Type} {state next : AutoRefreshState}
    {event : AutoRefreshEvent S} {effects : List AutoRefreshEffect}
    (h : Moves state next event effects) (hnext : next.IsActive) (hne : effects ≠ []) :
    ∃ e, effects.getLast? = some e ∧ e.Kicks := by
  cases h with
  | stays => exact absurd rfl hne
  | leaves _ hidle => exact absurd hnext hidle
  | starts _ _ ms => exact ⟨.scheduleTimer ms, rfl, trivial⟩
  | restarts _ _ ms => exact ⟨.scheduleTimer ms, rfl, trivial⟩
  | reschedules _ _ _ ms => exact ⟨.scheduleTimer ms, rfl, trivial⟩
  | shows _ _ ms => exact ⟨.scheduleTimer ms, rfl, trivial⟩
  | ticks => exact ⟨.fetch, rfl, trivial⟩

/-- An active reducer without effects was active, and the event was neither a tick nor an answer. -/
theorem AutoRefreshState.Moves.quiet {S : Type} {state next : AutoRefreshState}
    {event : AutoRefreshEvent S} (h : Moves state next event []) (hnext : next.IsActive) :
    state.IsActive ∧ event ≠ .tickFired ∧ ¬ event.IsAnswer := by
  cases h with
  | stays hsame htick hanswer =>
    have hstate := hsame.mp hnext
    exact ⟨hstate, htick hstate, hanswer hstate⟩

namespace QueryPanel

variable {S N : Type} {reader : Reader N S} {panel : QueryPanel S}

/-- A timer is live, or a request is in flight whose answer will reach the reducer. -/
def Refreshing (panel : QueryPanel S) : Prop :=
  panel.timers ≠ [] ∨ ∃ request ∈ panel.requests, request.Alive

instance (panel : QueryPanel S) : Decidable panel.Refreshing :=
  inferInstanceAs (Decidable (_ ∨ _))

/-- With nothing left to carry out, an active reducer is kept going. -/
def NotStalled (panel : QueryPanel S) : Prop :=
  panel.effects = [] → panel.refreshState.IsActive → panel.Refreshing

/-- A tick finds a query, a live timer or a request that it does not cancel, unless more effects are
queued or the reducer is inactive. No request whose answer will reach the reducer is rejected as
aborted, and none throws. -/
def Refreshes (reader : Reader N S) (panel : QueryPanel S) : PanelEvent → Prop
  | .effectsProcessed => ∀ rest, panel.effects = [.cancelFetch, .fetch] :: rest →
      rest.flatten = [] → panel.refreshState.IsActive →
        panel.state.q ≠ "" ∨ panel.timers ≠ [] ∨
          ∃ request ∈ panel.requests, request.Alive ∧ panel.abortRef ≠ some request.id
  | .responded id (.error err) => ∀ request, panel.request? id = some request → request.Alive →
      ¬ err.IsAbort
  | .continued id queryMs => ∀ request, request.Alive →
      panel.due reader id queryMs ≠ some (request, none)
  | _ => True

/-- Something comes to the reducer, now or once the queued effects are carried out. -/
def Kept (panel : QueryPanel S) : Prop :=
  panel.effects.flatten = [] ∧ panel.Refreshing ∨
    ∃ e, panel.effects.flatten.getLast? = some e ∧ e.Kicks

/-- What every step keeps. -/
structure Going (panel : QueryPanel S) : Prop where
  numbered : panel.Numbered
  honest : ∀ request ∈ panel.requests, request.Honest
  ticks : ∀ effects ∈ panel.effects, effects.getLast? = some .fetch →
    effects = [.cancelFetch, .fetch]
  kept : panel.refreshState.IsActive → panel.Kept

theorem Going.notStalled (h : panel.Going) : panel.NotStalled := by
  intro heffects hactive
  rcases h.kept hactive with ⟨-, hrefreshing⟩ | ⟨e, he, -⟩
  · exact hrefreshing
  · simp [heffects] at he

/-- An event for the reducer; a tick and an answer need nothing to have kept it going. -/
theorem going_dispatch {event : AutoRefreshEvent S} (hnumbered : panel.Numbered)
    (hhonest : ∀ request ∈ panel.requests, request.Honest)
    (hticks : ∀ effects ∈ panel.effects, effects.getLast? = some .fetch →
      effects = [.cancelFetch, .fetch])
    (hkept : panel.refreshState.IsActive → event ≠ .tickFired → ¬ event.IsAnswer → panel.Kept) :
    (panel.dispatch event).Going := by
  have hmoves := panel.refreshState.moves_reduce event
  refine ⟨hnumbered.dispatch event, hhonest, fun effects heffects hlast => ?_, fun hactive => ?_⟩
  · rcases List.mem_append.mp heffects with hqueued | hnew
    · exact hticks effects hqueued hlast
    · obtain rfl := List.mem_singleton.mp hnew
      exact hmoves.fetch hlast
  · have hflatten : (panel.dispatch event).effects.flatten =
        panel.effects.flatten ++ (panel.refreshState.reduce event).2 := by
      rw [dispatch, List.flatten_append, List.flatten_singleton]
    by_cases hnil : (panel.refreshState.reduce event).2 = []
    · rw [hnil] at hmoves
      obtain ⟨hstate, htick, hanswer⟩ := hmoves.quiet hactive
      rw [Kept, hflatten, hnil, List.append_nil]
      exact hkept hstate htick hanswer
    · obtain ⟨e, hlast, hkicks⟩ := hmoves.kicks hactive hnil
      refine .inr ⟨e, ?_, hkicks⟩
      rw [hflatten, List.getLast?_append, hlast, Option.some_or]

theorem Going.dispatch (h : panel.Going) (event : AutoRefreshEvent S) :
    (panel.dispatch event).Going :=
  going_dispatch h.numbered h.honest h.ticks fun hactive _ _ => h.kept hactive

theorem Kept.mono {panel' : QueryPanel S} (h : panel.Kept)
    (heffects : panel'.effects = panel.effects)
    (hrefreshing : panel.Refreshing → panel'.Refreshing) : panel'.Kept := by
  rw [Kept, heffects]
  exact h.imp_left (And.imp_right hrefreshing)

theorem Going.executeQuery (h : panel.Going) (range : TimeRange) :
    (panel.executeQuery range).Going := by
  have hnumbered := h.numbered.executeQuery range
  rw [QueryPanel.executeQuery] at hnumbered ⊢
  split_ifs with hq
  · exact h
  · rw [if_neg hq] at hnumbered
    refine ⟨hnumbered, fun request hrequest => ?_, h.ticks, fun hactive => ?_⟩
    · rcases List.mem_append.mp hrequest with hold | hnew
      · exact h.honest request hold
      · rw [List.mem_singleton.mp hnew]
        exact Request.honest_of_ne (by simp)
    · refine (h.kept hactive).mono rfl (Or.imp_right ?_)
      rintro ⟨request, hmem, halive⟩
      exact ⟨request, List.mem_append_left _ hmem, halive⟩

/-- A request goes on to a stage that is honest. -/
theorem Going.setStage (h : panel.Going) (id : Nat) (stage : Stage)
    (hstage : ∀ request, panel.request? id = some request → { request with stage }.Honest) :
    (panel.setStage id stage).Going := by
  refine ⟨h.numbered.setStage id stage, fun request hrequest => ?_, h.ticks, fun hactive => ?_⟩
  · obtain ⟨old, hold, rfl⟩ := List.mem_map.mp hrequest
    split_ifs with hid
    · obtain ⟨found, hfound⟩ : ∃ found, panel.request? id = some found :=
        Option.isSome_iff_exists.mp (List.find?_isSome.mpr ⟨old, hold, by simpa using hid⟩)
      obtain rfl := h.numbered.eq_of_request? hfound hold hid
      exact hstage old hfound
    · exact h.honest old hold
  · refine (h.kept hactive).mono rfl (Or.imp_right ?_)
    rintro ⟨request, hmem, halive⟩
    refine ⟨_, List.mem_map_of_mem hmem, ?_⟩
    split_ifs
    · exact halive
    · exact halive

theorem Going.responded (h : panel.Going) {id : Nat} {head : Except Thrown Head}
    (hcond : panel.Refreshes reader (.responded id head)) : (panel.responded id head).Going := by
  simp only [QueryPanel.responded]
  split
  · cases head with
    | ok head => exact h.setStage id _ fun _ _ => Request.honest_of_ne (by simp)
    | error err =>
      refine h.setStage id _ fun request hrequest err' hstage habort halive => ?_
      cases hstage
      exact hcond request hrequest halive habort
  · exact h

theorem Going.bodyArrived (h : panel.Going) (id : Nat) (text : Except Thrown String) :
    (panel.bodyArrived id text).Going := by
  simp only [QueryPanel.bodyArrived]
  split
  · exact h.setStage id _ fun _ _ => Request.honest_of_ne (by simp)
  · exact h

/-- A request whose answer does not reach the reducer is over; what kept the panel going is another
one, or a timer. -/
theorem Going.drop (h : panel.Going) {id : Nat} {request : Request}
    (hrequest : panel.request? id = some request) (hdead : ¬ request.Alive) :
    (panel.drop id).Going := by
  refine ⟨h.numbered.drop id, fun r hr => h.honest r (List.mem_filter.mp hr).1, h.ticks,
    fun hactive => (h.kept hactive).mono rfl (Or.imp_right ?_)⟩
  rintro ⟨alive, hmem, halive⟩
  refine ⟨alive, List.mem_filter.mpr ⟨hmem, ?_⟩, halive⟩
  have hne : alive.id ≠ id := fun hid =>
    hdead (h.numbered.eq_of_request? hrequest hmem hid ▸ halive)
  simpa using hne

theorem Going.continued (h : panel.Going) {id queryMs : Nat}
    (hcond : panel.Refreshes reader (.continued id queryMs)) :
    (panel.continued reader id queryMs).Going := by
  rw [QueryPanel.continued]
  split
  · next request next hdue =>
    obtain ⟨hrequest, fetched, hstage, hnext⟩ := mem_of_due hdue
    have hshown := h.numbered.show hrequest next
    have hhonest : ∀ r ∈ (panel.drop id).requests, r.Honest :=
      fun r hr => h.honest r (List.mem_filter.mp hr).1
    rw [answered]
    split_ifs with hsignalled
    · refine going_dispatch hshown hhonest h.ticks fun hactive _ hquiet => ?_
      -- an ignored answer is that of a request that was rejected as aborted
      have haborted : next.isAborted = true := by
        simpa [AutoRefreshEvent.IsAnswer] using hquiet
      obtain ⟨err, rfl, habort⟩ := (isAborted_iff hnext).mp haborted
      have hdead := h.honest request (mem_of_request? hrequest).1 err hstage habort
      exact (h.drop hrequest hdead).kept hactive
    · have hdropped := h.drop hrequest fun halive => hsignalled halive.1
      exact ⟨hshown, hhonest, h.ticks, hdropped.kept⟩
  · next request hdue =>
    exact h.drop (mem_of_due hdue).1 fun halive => hcond request halive hdue
  · exact h

/-- A cancelled request was not rejected before, or it was and nothing waited for it. -/
theorem honest_abort (request : Request) : request.abort.Honest :=
  fun _ _ _ halive => nomatch halive.2

theorem honest_processEffect (h : ∀ request ∈ panel.requests, request.Honest)
    (e : AutoRefreshEffect) : ∀ request ∈ (panel.processEffect e).requests, request.Honest := by
  cases e with
  | scheduleTimer ms => exact h
  | cancelTimer =>
    rw [processEffect]
    split <;> exact h
  | fetch =>
    rw [processEffect]
    split_ifs
    · exact h
    · intro request hrequest
      rcases List.mem_append.mp hrequest with hold | hnew
      · exact h request hold
      · rw [List.mem_singleton.mp hnew]
        exact Request.honest_of_ne (by simp)
  | cancelFetch =>
    rw [processEffect]
    split
    · intro request hrequest
      obtain ⟨old, hold, rfl⟩ := List.mem_map.mp hrequest
      split_ifs
      · exact honest_abort old
      · exact h old hold
    · exact h

/-- A tick that finds something to go on with leaves something to go on with. -/
theorem refreshing_tick (h : panel.state.q ≠ "" ∨ panel.timers ≠ [] ∨
    ∃ request ∈ panel.requests, request.Alive ∧ panel.abortRef ≠ some request.id) :
    (panel.processEffects [.cancelFetch, .fetch]).Refreshing := by
  have hstate := (panel.processEffect_frame .cancelFetch).2.2.2
  have htimers : (panel.processEffect .cancelFetch).timers = panel.timers := by
    rw [processEffect]
    split <;> rfl
  change ((panel.processEffect .cancelFetch).processEffect .fetch).Refreshing
  rw [processEffect, hstate]
  split_ifs with hq
  · rcases h with hquery | htimer | ⟨request, hmem, halive, hother⟩
    · exact absurd hq hquery
    · exact .inl (htimers.trans_ne htimer)
    · refine .inr ⟨request, ?_, halive⟩
      change request ∈ (panel.processEffect .cancelFetch).requests
      rw [processEffect]
      split
      · next id hid =>
        refine List.mem_map.mpr ⟨request, hmem, if_neg fun hsame => hother ?_⟩
        rw [hid, hsame.2]
      · exact hmem
  · exact .inr ⟨_, List.mem_append_right _ (List.mem_singleton_self _), rfl, rfl⟩

theorem Going.effectsProcessed (h : panel.Going)
    (hcond : panel.Refreshes reader .effectsProcessed) : panel.effectsProcessed.Going := by
  have hnumbered := h.numbered.effectsProcessed
  cases heffects : panel.effects with
  | nil => rwa [effectsProcessed_nil heffects]
  | cons effects rest =>
    rw [effectsProcessed_cons heffects] at hnumbered ⊢
    have hhonest : ∀ r ∈ (processEffects { panel with effects := rest } effects).requests,
        r.Honest :=
      List.foldlRecOn effects _ (motive := fun p : QueryPanel S => ∀ r ∈ p.requests, r.Honest)
        h.honest fun _ hhonest e _ => honest_processEffect hhonest e
    obtain ⟨hqueue, hrefresh, -⟩ := processEffects_frame { panel with effects := rest } effects
    refine ⟨hnumbered, hhonest, fun es hes => h.ticks es ?_, fun hactive => ?_⟩
    · rw [hqueue] at hes
      exact heffects ▸ List.mem_cons_of_mem _ hes
    · rw [hrefresh] at hactive
      have hkept := h.kept hactive
      rw [Kept, heffects, List.flatten_cons] at hkept
      rw [Kept, hqueue]
      by_cases hrest : rest.flatten = []
      · rw [hrest, List.append_nil] at hkept
        refine .inl ⟨hrest, ?_⟩
        rcases hkept with ⟨rfl, hrefreshing⟩ | ⟨e, hlast, hkicks⟩
        · exact hrefreshing
        · cases e with
          | scheduleTimer ms =>
            obtain ⟨init, rfl⟩ := List.getLast?_eq_some_iff.mp hlast
            refine .inl ?_
            rw [processEffects, List.foldl_append]
            exact List.append_ne_nil_of_right_ne_nil _ (List.cons_ne_nil _ _)
          | fetch =>
            have hmem : effects ∈ panel.effects := heffects ▸ List.mem_cons_self
            obtain rfl := h.ticks effects hmem hlast
            exact refreshing_tick (hcond rest heffects hrest hactive)
          | cancelTimer => exact hkicks.elim
          | cancelFetch => exact hkicks.elim
      · rcases hkept with ⟨hnil, -⟩ | ⟨e, hlast, hkicks⟩
        · exact absurd (List.append_eq_nil_iff.mp hnil).2 hrest
        · exact .inr ⟨e, by rw [← hlast, List.getLast?_append_of_ne_nil _ hrest], hkicks⟩

/-- Every step that meets the condition keeps the panel going. -/
theorem Going.step (h : panel.Going) {event : PanelEvent}
    (hcond : panel.Refreshes reader event) : (panel.step reader event).Going := by
  cases event with
  | queryChanged value =>
    exact ⟨h.numbered.of_same rfl rfl le_rfl, h.honest, h.ticks, h.kept⟩
  | submitted => exact h.executeQuery _
  | rangeChanged range =>
    have hchanged : Going { panel with state := { panel.state with range } } :=
      ⟨h.numbered.of_same rfl rfl le_rfl, h.honest, h.ticks, h.kept⟩
    exact (hchanged.dispatch (.rangeChanged range)).executeQuery range
  | refreshChanged refresh =>
    have hchanged : Going { panel with state := { panel.state with refresh } } :=
      ⟨h.numbered.of_same rfl rfl le_rfl, h.honest, h.ticks, h.kept⟩
    exact hchanged.dispatch (.refreshChanged refresh)
  | visibilityChanged hidden => exact h.dispatch (.visibilityChanged hidden)
  | timerFired handle =>
    rw [QueryPanel.step, QueryPanel.timerFired]
    split_ifs
    · exact going_dispatch (h.numbered.of_same rfl rfl le_rfl) h.honest h.ticks
        fun _ htick => absurd rfl htick
    · exact h
  | effectsProcessed => exact h.effectsProcessed hcond
  | responded id head => exact h.responded hcond
  | bodyArrived id text => exact h.bodyArrived id text
  | continued id queryMs => exact h.continued hcond

theorem going_mount (url : UrlState) : (mount url : QueryPanel S).Going := by
  rw [mount]
  refine going_dispatch ⟨List.nodup_nil, ?_, ?_⟩ ?_ ?_ ?_
  · intro request hrequest
    exact absurd hrequest List.not_mem_nil
  · intro id hid
    cases hid
  · intro request hrequest
    exact absurd hrequest List.not_mem_nil
  · intro effects heffects
    exact absurd heffects List.not_mem_nil
  · intro hactive
    exact absurd hactive (by simp)

/-- In a run in which every tick finds something to go on with, in every state without queued
effects an active reducer has a live timer or a request whose answer will reach it. -/
theorem notStalled_run (reader : Reader N S) (url : UrlState) (events : List PanelEvent)
    (h : AllSteps (step reader) (Refreshes reader) (mount url) events) :
    (run (step reader) (mount url) events).NotStalled :=
  (h.invariant (fun _ _ hgoing hcond => hgoing.step hcond) (going_mount url)).notStalled

/-- A tick whose request waits for its body. -/
theorem notStalled_tick : (run (step emptyReader) upPanel [.effectsProcessed, .timerFired 0,
    .effectsProcessed, .responded 1 (.ok ⟨true, 200⟩)]).NotStalled :=
  notStalled_run emptyReader _ _
    ⟨fun _ _ _ _ => .inl (by decide), trivial, fun _ _ _ _ => .inl (by decide), trivial, trivial⟩

/-- A tick that finds the query cleared issues no request, and nothing schedules another tick. -/
theorem stalled_without_query :
    ¬ ∀ events, (run (step emptyReader) upPanel events).NotStalled := by
  intro h
  have hrefreshing := h [.effectsProcessed, .queryChanged "", .timerFired 0, .effectsProcessed]
    (by decide +kernel) (by decide +kernel)
  exact absurd hrefreshing (by decide +kernel)

end QueryPanel

end Kaleidoscope.Prism
