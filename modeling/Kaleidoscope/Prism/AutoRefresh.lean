import Kaleidoscope.Prism.QueryRange

/-!
# The auto-refresh reducer

A pure function from a state and an event to the next state and the effects to carry out.
-/

namespace Kaleidoscope.Prism

/-- `RefreshInterval`. -/
inductive RefreshInterval where
  | off
  | every5s
  | every10s
  | every30s
  | every1m
  deriving DecidableEq, Repr

/-- The kind of a time range. -/
inductive RangeKind where
  | relative
  | absolute
  deriving DecidableEq, Repr

/-- `range.kind`. -/
def TimeRange.kind : TimeRange → RangeKind
  | .relative _ => .relative
  | .absolute _ _ => .absolute

/-- The kind of a state; a backoff has its rung. -/
inductive RefreshKind where
  | idle
  | running
  | backoff (retry : Fin 3)
  | hidden
  deriving DecidableEq, Repr

/-- `AutoRefreshState`. -/
structure AutoRefreshState where
  kind : RefreshKind
  interval : RefreshInterval
  rangeKind : RangeKind
  deriving DecidableEq, Repr

/-- `AutoRefreshEvent`. -/
inductive AutoRefreshEvent (S : Type) where
  | refreshChanged (interval : RefreshInterval)
  | rangeChanged (range : TimeRange)
  | tickFired
  | fetchResult (outcome : QueryOutcome S)
  | visibilityChanged (hidden : Bool)

/-- `AutoRefreshEffect`. -/
inductive AutoRefreshEffect where
  | scheduleTimer (ms : Nat)
  | cancelTimer
  | fetch
  | cancelFetch
  deriving DecidableEq, Repr

/-- `INTERVAL_MS`. -/
def pickedMs : RefreshInterval → Nat
  | .off => 0
  | .every5s => 5000
  | .every10s => 10000
  | .every30s => 30000
  | .every1m => 60000

/-- `BACKOFF_MS_BY_RETRY`. -/
def BACKOFF_MS_BY_RETRY : Fin 3 → Nat
  | 0 => 5000
  | 1 => 10000
  | 2 => 20000

/-- `BACKOFF_CAP_MS`. -/
def BACKOFF_CAP_MS : Nat := 30000

/-- Whether the answer makes the reducer back off. -/
def QueryOutcome.failed {S : Type} : QueryOutcome S → Bool
  | .transportError _ _ => true
  | .configError _ _ => true
  | _ => false

/-- An answer that the reducer does not ignore. -/
def AutoRefreshEvent.IsAnswer {S : Type} : AutoRefreshEvent S → Prop
  | .fetchResult outcome => outcome.isAborted = false
  | _ => False

namespace AutoRefreshState

/-- What every transition into idleness tells the panel. -/
def leaving : List AutoRefreshEffect := [.cancelTimer, .cancelFetch]

/-- Whether a timer or a request keeps the refresh going. -/
def IsActive (state : AutoRefreshState) : Prop :=
  state.kind = .running ∨ ∃ retry, state.kind = .backoff retry

instance (state : AutoRefreshState) : Decidable state.IsActive :=
  inferInstanceAs (Decidable (_ ∨ _))

/-- `makeIdle`. -/
def makeIdle (state : AutoRefreshState) : AutoRefreshState := { state with kind := .idle }

/-- `makeRunning`. -/
def makeRunning (state : AutoRefreshState) : AutoRefreshState := { state with kind := .running }

/-- `makeBackoff`. -/
def makeBackoff (state : AutoRefreshState) (retry : Fin 3) : AutoRefreshState :=
  { state with kind := .backoff retry }

/-- `makeHidden`. -/
def makeHidden (state : AutoRefreshState) : AutoRefreshState := { state with kind := .hidden }

/-- `shouldRun`. -/
def shouldRun (state : AutoRefreshState) : Bool :=
  state.interval ≠ .off && state.rangeKind = .relative

/-- `onRefreshChanged`. -/
def onRefreshChanged (state : AutoRefreshState) (interval : RefreshInterval) :
    AutoRefreshState × List AutoRefreshEffect :=
  let ctx := { state with interval }
  match state.kind with
  | .idle =>
    if interval ≠ .off ∧ state.rangeKind = .relative then
      (ctx.makeRunning, [.scheduleTimer (pickedMs interval)])
    else (ctx.makeIdle, [])
  | .running =>
    if interval = .off then (ctx.makeIdle, leaving)
    else (ctx.makeRunning, [.cancelTimer, .scheduleTimer (pickedMs interval)])
  | .backoff _ =>
    if interval = .off then (ctx.makeIdle, leaving)
    -- the rung of a backoff does not depend on the interval
    else (ctx, [])
  | .hidden => (ctx, [])

/-- `onRangeChanged`. -/
def onRangeChanged (state : AutoRefreshState) (rangeKind : RangeKind) :
    AutoRefreshState × List AutoRefreshEffect :=
  let ctx := { state with rangeKind }
  match rangeKind with
  | .absolute => if state.IsActive then (ctx.makeIdle, leaving) else (ctx.makeIdle, [])
  | .relative =>
    if state.kind = .idle ∧ state.interval ≠ .off then
      (ctx.makeRunning, [.scheduleTimer (pickedMs state.interval)])
    else (ctx, [])

/-- `onTickFired`. -/
def onTickFired (state : AutoRefreshState) : AutoRefreshState × List AutoRefreshEffect :=
  if state.IsActive then (state, [.cancelFetch, .fetch]) else (state, [])

/-- `onFetchResult`. -/
def onFetchResult {S : Type} (state : AutoRefreshState) (outcome : QueryOutcome S) :
    AutoRefreshState × List AutoRefreshEffect :=
  if outcome.isAborted then (state, [])
  else
    match state.kind with
    | .running =>
      if outcome.failed then (state.makeBackoff 0, [.scheduleTimer (BACKOFF_MS_BY_RETRY 0)])
      else (state.makeRunning, [.scheduleTimer (pickedMs state.interval)])
    | .backoff retry =>
      if outcome.failed then
        match retry with
        | 0 => (state.makeBackoff 1, [.scheduleTimer (BACKOFF_MS_BY_RETRY 1)])
        | 1 => (state.makeBackoff 2, [.scheduleTimer (BACKOFF_MS_BY_RETRY 2)])
        | 2 => (state.makeBackoff 2, [.scheduleTimer BACKOFF_CAP_MS])
      else (state.makeRunning, [.scheduleTimer (pickedMs state.interval)])
    | _ => (state, [])

/-- `onVisibilityChanged`. -/
def onVisibilityChanged (state : AutoRefreshState) (hidden : Bool) :
    AutoRefreshState × List AutoRefreshEffect :=
  if hidden then
    if state.IsActive then (state.makeHidden, leaving)
    else if state.kind = .hidden then (state, [])
    else (state.makeHidden, [])
  else if state.kind ≠ .hidden then (state, [])
  else if state.shouldRun then
    (state.makeRunning, [.fetch, .scheduleTimer (pickedMs state.interval)])
  else (state.makeIdle, [])

/-- `reduce`. -/
def reduce {S : Type} (state : AutoRefreshState) :
    AutoRefreshEvent S → AutoRefreshState × List AutoRefreshEffect
  | .refreshChanged interval => state.onRefreshChanged interval
  | .rangeChanged range => state.onRangeChanged range.kind
  | .tickFired => state.onTickFired
  | .fetchResult outcome => state.onFetchResult outcome
  | .visibilityChanged hidden => state.onVisibilityChanged hidden

section Moves

variable {S : Type}

@[simp] theorem isActive_running (interval : RefreshInterval) (rangeKind : RangeKind) :
    (⟨.running, interval, rangeKind⟩ : AutoRefreshState).IsActive :=
  .inl rfl

@[simp] theorem isActive_backoff (retry : Fin 3) (interval : RefreshInterval)
    (rangeKind : RangeKind) : (⟨.backoff retry, interval, rangeKind⟩ : AutoRefreshState).IsActive :=
  .inr ⟨retry, rfl⟩

@[simp] theorem not_isActive_idle (interval : RefreshInterval) (rangeKind : RangeKind) :
    ¬ (⟨.idle, interval, rangeKind⟩ : AutoRefreshState).IsActive := by
  rintro (h | ⟨_, h⟩) <;> cases h

@[simp] theorem not_isActive_hidden (interval : RefreshInterval) (rangeKind : RangeKind) :
    ¬ (⟨.hidden, interval, rangeKind⟩ : AutoRefreshState).IsActive := by
  rintro (h | ⟨_, h⟩) <;> cases h

/-- What the reducer can do, by its effects. -/
inductive Moves (state next : AutoRefreshState) :
    AutoRefreshEvent S → List AutoRefreshEffect → Prop
  | stays {event : AutoRefreshEvent S} (hsame : next.IsActive ↔ state.IsActive)
      (htick : state.IsActive → event ≠ .tickFired) (hanswer : state.IsActive → ¬ event.IsAnswer) :
      Moves state next event []
  | leaves {event : AutoRefreshEvent S} (h : state.IsActive) (hnext : ¬ next.IsActive) :
      Moves state next event leaving
  | starts {event : AutoRefreshEvent S} (h : ¬ state.IsActive) (hnext : next.IsActive) (ms : Nat) :
      Moves state next event [.scheduleTimer ms]
  | restarts {event : AutoRefreshEvent S} (h : state.IsActive) (hnext : next.IsActive) (ms : Nat) :
      Moves state next event [.cancelTimer, .scheduleTimer ms]
  | reschedules {event : AutoRefreshEvent S} (hanswer : event.IsAnswer) (h : state.IsActive)
      (hnext : next.IsActive) (ms : Nat) : Moves state next event [.scheduleTimer ms]
  | shows {event : AutoRefreshEvent S} (h : ¬ state.IsActive) (hnext : next.IsActive) (ms : Nat) :
      Moves state next event [.fetch, .scheduleTimer ms]
  | ticks (h : state.IsActive) (hnext : next.IsActive) :
      Moves state next .tickFired [.cancelFetch, .fetch]

theorem moves_refreshChanged (state : AutoRefreshState) (interval : RefreshInterval) :
    Moves (S := S) state (state.onRefreshChanged interval).1 (.refreshChanged interval)
      (state.onRefreshChanged interval).2 := by
  obtain ⟨kind, _, rangeKind⟩ := state
  have hquiet : ¬ (AutoRefreshEvent.refreshChanged (S := S) interval).IsAnswer := id
  cases kind with
  | idle =>
    simp only [onRefreshChanged]
    split_ifs
    · exact .starts (by simp) (by simp [makeRunning]) _
    · exact .stays (by simp [makeIdle]) nofun fun _ => hquiet
  | running =>
    simp only [onRefreshChanged]
    split_ifs
    · exact .leaves (by simp) (by simp [makeIdle])
    · exact .restarts (by simp) (by simp [makeRunning]) _
  | backoff retry =>
    simp only [onRefreshChanged]
    split_ifs
    · exact .leaves (by simp) (by simp [makeIdle])
    · exact .stays (by simp) nofun fun _ => hquiet
  | hidden => exact .stays (by simp [onRefreshChanged]) nofun fun _ => hquiet

theorem moves_rangeChanged (state : AutoRefreshState) (range : TimeRange) :
    Moves (S := S) state (state.onRangeChanged range.kind).1 (.rangeChanged range)
      (state.onRangeChanged range.kind).2 := by
  have hquiet : ¬ (AutoRefreshEvent.rangeChanged (S := S) range).IsAnswer := id
  cases range with
  | absolute fromMs toMs =>
    simp only [TimeRange.kind, onRangeChanged]
    split_ifs with hactive
    · exact .leaves hactive (by simp [makeIdle])
    · exact .stays (by simp [makeIdle, hactive]) nofun fun _ => hquiet
  | relative offset =>
    obtain ⟨kind, interval, _⟩ := state
    simp only [TimeRange.kind, onRangeChanged]
    split_ifs with hidle
    · obtain ⟨rfl, -⟩ := hidle
      exact .starts (by simp) (by simp [makeRunning]) _
    · exact .stays (by simp [IsActive]) nofun fun _ => hquiet

theorem moves_tickFired (state : AutoRefreshState) :
    Moves (S := S) state state.onTickFired.1 .tickFired state.onTickFired.2 := by
  rw [onTickFired]
  split_ifs with hactive
  · exact .ticks hactive hactive
  · exact .stays .rfl (fun h => absurd h hactive) fun h => absurd h hactive

theorem moves_fetchResult (state : AutoRefreshState) (outcome : QueryOutcome S) :
    Moves state (state.onFetchResult outcome).1 (.fetchResult outcome)
      (state.onFetchResult outcome).2 := by
  rw [onFetchResult]
  by_cases haborted : outcome.isAborted = true
  · rw [if_pos haborted]
    exact .stays .rfl nofun fun _ hanswer => absurd (haborted.symm.trans hanswer) (by simp)
  · rw [if_neg haborted]
    have hanswer : (AutoRefreshEvent.fetchResult outcome).IsAnswer := by
      simpa [AutoRefreshEvent.IsAnswer] using haborted
    obtain ⟨kind, interval, rangeKind⟩ := state
    cases kind with
    | idle => exact .stays .rfl nofun fun h => absurd h (by simp)
    | running =>
      dsimp only
      split_ifs
      · exact .reschedules hanswer (by simp) (by simp [makeBackoff]) _
      · exact .reschedules hanswer (by simp) (by simp [makeRunning]) _
    | backoff retry =>
      dsimp only
      split_ifs
      · split
        · exact .reschedules hanswer (by simp) (by simp [makeBackoff]) _
        · exact .reschedules hanswer (by simp) (by simp [makeBackoff]) _
        · exact .reschedules hanswer (by simp) (by simp [makeBackoff]) _
      · exact .reschedules hanswer (by simp) (by simp [makeRunning]) _
    | hidden => exact .stays .rfl nofun fun h => absurd h (by simp)

/-- An active reducer schedules the next tick on every answer that it does not ignore. -/
theorem onFetchResult_active {state : AutoRefreshState} (h : state.IsActive)
    {outcome : QueryOutcome S} (haborted : outcome.isAborted = false) :
    ∃ ms, (state.onFetchResult outcome).2 = [.scheduleTimer ms] := by
  rw [onFetchResult, if_neg (by simp [haborted])]
  obtain ⟨kind, interval, rangeKind⟩ := state
  cases kind with
  | idle => exact absurd h (by simp)
  | running =>
    dsimp only
    split_ifs
    · exact ⟨_, rfl⟩
    · exact ⟨_, rfl⟩
  | backoff retry =>
    dsimp only
    split_ifs
    · split <;> exact ⟨_, rfl⟩
    · exact ⟨_, rfl⟩
  | hidden => exact absurd h (by simp)

/-- An inactive reducer ignores answers. -/
theorem onFetchResult_inactive {state : AutoRefreshState} (h : ¬ state.IsActive)
    (outcome : QueryOutcome S) : state.onFetchResult outcome = (state, []) := by
  rw [onFetchResult]
  obtain ⟨kind, interval, rangeKind⟩ := state
  cases kind with
  | idle => split_ifs <;> rfl
  | running => exact absurd (isActive_running interval rangeKind) h
  | backoff retry => exact absurd (isActive_backoff retry interval rangeKind) h
  | hidden => split_ifs <;> rfl

theorem moves_visibilityChanged (state : AutoRefreshState) (hidden : Bool) :
    Moves (S := S) state (state.onVisibilityChanged hidden).1 (.visibilityChanged hidden)
      (state.onVisibilityChanged hidden).2 := by
  have hquiet : ¬ (AutoRefreshEvent.visibilityChanged (S := S) hidden).IsAnswer := id
  rw [onVisibilityChanged]
  split_ifs with hidden hactive hkind hkind hrun
  · exact .leaves hactive (by simp [makeHidden])
  · exact .stays .rfl nofun fun _ => hquiet
  · exact .stays (by simp [makeHidden, hactive]) nofun fun _ => hquiet
  · exact .stays .rfl nofun fun _ => hquiet
  · exact .shows (by simp_all [IsActive]) (by simp [makeRunning]) _
  · exact .stays (by simp_all [IsActive, makeIdle]) nofun fun _ => hquiet

/-- Every transition is one of these. -/
theorem moves_reduce (state : AutoRefreshState) (event : AutoRefreshEvent S) :
    Moves state (state.reduce event).1 event (state.reduce event).2 := by
  cases event with
  | refreshChanged interval => exact state.moves_refreshChanged interval
  | rangeChanged range => exact state.moves_rangeChanged range
  | tickFired => exact state.moves_tickFired
  | fetchResult outcome => exact state.moves_fetchResult outcome
  | visibilityChanged hidden => exact state.moves_visibilityChanged hidden

end Moves

end AutoRefreshState

end Kaleidoscope.Prism
