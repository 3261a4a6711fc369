import Kaleidoscope.Library.Interleaving

/-!
# Readiness

The phase that `/readyz` reports is one atomic byte. It is written by compare-and-swap only, from
the tasks that bind the listeners, the tasks that serve them and the shutdown. A call is taken
apart into its steps here, of which the line that tells of a change of phase is one of its own, and
the steps of any number of calls come in any order.
-/

namespace Kaleidoscope.Aperture

open Interleaving Run
open scoped List

/-- `ReadinessPhase`. -/
inductive ReadinessPhase where
  | starting
  | ready
  | draining
  | failed
  deriving DecidableEq, Repr

namespace ReadinessPhase

/-- A phase as its byte. -/
def asU8 : ReadinessPhase → UInt8
  | starting => 0
  | ready => 1
  | draining => 2
  | failed => 3

/-- Nothing comes after the drain or a failure. -/
def Final (phase : ReadinessPhase) : Prop := phase = draining ∨ phase = failed

/-- The order in which the phases come. -/
def Precedes (phase later : ReadinessPhase) : Prop :=
  phase = later ∨ phase = starting ∨ phase = ready ∧ later.Final

theorem asU8_inj {phase phase' : ReadinessPhase} (h : phase.asU8 = phase'.asU8) :
    phase = phase' := by
  cases phase <;> cases phase' <;> first | rfl | exact absurd h (by decide)

theorem Precedes.trans {phase later latest : ReadinessPhase} (h : phase.Precedes later)
    (h' : later.Precedes latest) : phase.Precedes latest := by
  rcases h with rfl | rfl | ⟨rfl, hfinal⟩
  · exact h'
  · exact .inr (.inl rfl)
  · rcases h' with rfl | rfl | ⟨rfl, -⟩
    · exact .inr (.inr ⟨rfl, hfinal⟩)
    · exact absurd hfinal (by simp [Final])
    · exact absurd hfinal (by simp [Final])

/-- A phase after which nothing comes stays. -/
theorem Precedes.of_final {phase later : ReadinessPhase} (h : phase.Precedes later)
    (hfinal : phase.Final) : later = phase := by
  rcases h with rfl | rfl | ⟨rfl, -⟩
  · rfl
  · exact absurd hfinal (by simp [Final])
  · exact absurd hfinal (by simp [Final])

end ReadinessPhase

/-- The event `readiness_changed`. -/
structure ReadinessChanged where
  ready : String
  reason : String
  deriving DecidableEq, Repr

/-- `ReadinessState`. -/
structure ReadinessState where
  inner : UInt8
  grpcBound : Bool
  httpBound : Bool
  deriving DecidableEq, Repr

/-- The two flips, `flip_to_draining` and `flip_to_failed`. -/
inductive Flip where
  | toDraining
  | toFailed
  deriving DecidableEq, Repr

/-- The phase that a flip leads to. -/
def Flip.phase : Flip → ReadinessPhase
  | toDraining => .draining
  | toFailed => .failed

/-- What a flip tells. -/
def Flip.changed : Flip → ReadinessChanged
  | toDraining => ⟨"false", "shutdown_drain"⟩
  | toFailed => ⟨"false", "serve_loop_failed"⟩

/-- What the promotion tells. -/
def listenersBound : ReadinessChanged := ⟨"true", "listeners_bound"⟩

namespace ReadinessState

/-- `ReadinessState::new`. -/
def new : ReadinessState := ⟨ReadinessPhase.starting.asU8, false, false⟩

/-- `current`. -/
def current (state : ReadinessState) : ReadinessPhase :=
  if state.inner = ReadinessPhase.failed.asU8 then .failed
  else if state.inner = ReadinessPhase.draining.asU8 then .draining
  else if state.inner = ReadinessPhase.ready.asU8 then .ready
  else .starting

/-- `compare_exchange` of the phase. -/
def compareExchange (state : ReadinessState) (expected new : ReadinessPhase) :
    Option ReadinessState :=
  if state.inner = expected.asU8 then some { state with inner := new.asU8 } else none

end ReadinessState

/-- `handle_readyz`: the status with the body. -/
def handleReadyz (state : ReadinessState) : Nat × String :=
  match state.current with
  | .starting => (503, "starting\n")
  | .ready => (200, "ready\n")
  | .draining => (503, "draining\n")
  | .failed => (503, "failed\n")

/-- The calls. -/
inductive ReadinessCall where
  | markGrpcBound
  | markHttpBound
  | flip (f : Flip)

/-- The next step of a call. -/
inductive ReadinessPoint where
  | storeGrpcBound
  | storeHttpBound
  | loadGrpcBound
  | loadHttpBound
  | promote
  | fromReady (f : Flip)
  | fromStarting (f : Flip)
  | tell (changed : ReadinessChanged)
  deriving DecidableEq

/-- Where a call begins. -/
def ReadinessCall.entry : ReadinessCall → ReadinessPoint
  | markGrpcBound => .storeGrpcBound
  | markHttpBound => .storeHttpBound
  | flip f => .fromReady f

/-- One step, with what it tells. -/
def ReadinessPoint.advance (state : ReadinessState) :
    ReadinessPoint → Option ReadinessPoint × ReadinessState × Option ReadinessChanged
  | storeGrpcBound => (some loadGrpcBound, { state with grpcBound := true }, none)
  | storeHttpBound => (some loadGrpcBound, { state with httpBound := true }, none)
  | loadGrpcBound => (if state.grpcBound then some loadHttpBound else none, state, none)
  | loadHttpBound => (if state.httpBound then some promote else none, state, none)
  | promote =>
    match state.compareExchange .starting .ready with
    | some state => (some (tell listenersBound), state, none)
    | none => (none, state, none)
  | fromReady f =>
    match state.compareExchange .ready f.phase with
    | some state => (some (tell f.changed), state, none)
    | none => (some (fromStarting f), state, none)
  | fromStarting f =>
    match state.compareExchange .starting f.phase with
    | some state => (some (tell f.changed), state, none)
    | none => (none, state, none)
  | tell changed => (none, state, some changed)

/-- The state with what was told so far. -/
structure Reported where
  state : ReadinessState
  events : List ReadinessChanged

/-- A step of a call on what is reported. -/
def report (point : ReadinessPoint) (reported : Reported) : Option ReadinessPoint × Reported :=
  let next := point.advance reported.state
  (next.1, ⟨next.2.1, reported.events ++ next.2.2.toList⟩)

/-- The readiness after a series of turns. -/
def readinessAfter (turns : List (Turn ReadinessCall)) : Threads Reported ReadinessPoint :=
  run (turn ReadinessCall.entry report) ⟨⟨.new, []⟩, []⟩ turns

/-- What a call that has changed the phase is yet to tell. -/
def ReadinessPoint.untold : ReadinessPoint → Option ReadinessChanged
  | tell changed => some changed
  | _ => none

/-- What the calls are yet to tell. -/
def untold (w : Threads Reported ReadinessPoint) : List ReadinessChanged :=
  w.points.filterMap fun point => point.bind ReadinessPoint.untold

/-- The changes on the way to a phase. -/
def LeadTo (changes : List ReadinessChanged) : ReadinessPhase → Prop
  | .starting => changes = []
  | .ready => changes = [listenersBound]
  | .draining => changes = [Flip.toDraining.changed] ∨
      changes = [listenersBound, Flip.toDraining.changed]
  | .failed => changes = [Flip.toFailed.changed] ∨
      changes = [listenersBound, Flip.toFailed.changed]

/-- The byte is that of a phase, and neither is the phase ready nor is it told to be before both
listeners are bound. -/
structure Reported.Consistent (reported : Reported) : Prop where
  inner : reported.state.inner = reported.state.current.asU8
  ready : reported.state.current = .ready →
    reported.state.grpcBound = true ∧ reported.state.httpBound = true
  told : listenersBound ∈ reported.events →
    reported.state.grpcBound = true ∧ reported.state.httpBound = true

/-- What a call knows of the listeners. -/
def ReadinessPoint.Knows (point : ReadinessPoint) (reported : Reported) : Prop :=
  match point with
  | loadHttpBound => reported.state.grpcBound = true
  | promote => reported.state.grpcBound = true ∧ reported.state.httpBound = true
  | tell changed => changed = listenersBound →
      reported.state.grpcBound = true ∧ reported.state.httpBound = true
  | _ => True

namespace ReadinessState

theorem current_of_inner {state : ReadinessState} {phase : ReadinessPhase}
    (h : state.inner = phase.asU8) : state.current = phase := by
  cases phase <;> simp [current, h, ReadinessPhase.asU8]

theorem current_withInner (state : ReadinessState) (phase : ReadinessPhase) :
    { state with inner := phase.asU8 }.current = phase :=
  current_of_inner rfl

/-- The exchange, of a byte that is that of a phase. -/
theorem compareExchange_eq {state : ReadinessState} (h : state.inner = state.current.asU8)
    (expected new : ReadinessPhase) : state.compareExchange expected new =
      if state.current = expected then some { state with inner := new.asU8 } else none := by
  rw [compareExchange, h]
  by_cases heq : state.current = expected
  · rw [if_pos (congrArg ReadinessPhase.asU8 heq), if_pos heq]
  · rw [if_neg fun hbyte => heq (ReadinessPhase.asU8_inj hbyte), if_neg heq]

end ReadinessState

/-- What one step does: it stores that a listener is bound, promotes, flips, tells, or only
reads. -/
theorem ReadinessPoint.advance_cases {state : ReadinessState}
    (h : state.inner = state.current.asU8) (point : ReadinessPoint) :
    (point = storeGrpcBound ∧
      point.advance state = (some loadGrpcBound, { state with grpcBound := true }, none)) ∨
    (point = storeHttpBound ∧
      point.advance state = (some loadGrpcBound, { state with httpBound := true }, none)) ∨
    (point = promote ∧ state.current = .starting ∧ point.advance state =
      (some (tell listenersBound), { state with inner := ReadinessPhase.ready.asU8 }, none)) ∨
    (∃ f, ((point = fromReady f ∧ state.current = .ready) ∨
        (point = fromStarting f ∧ state.current = .starting)) ∧ point.advance state =
      (some (tell f.changed), { state with inner := f.phase.asU8 }, none)) ∨
    (∃ changed, point = tell changed ∧ point.advance state = (none, state, some changed)) ∨
    ∃ next, point.advance state = (next, state, none) ∧ point.untold = none ∧
      (∀ f, point = fromReady f → state.current ≠ .ready ∧ next = some (fromStarting f)) ∧
      (∀ f, point = fromStarting f → state.current ≠ .starting ∧ next = none) ∧
      (next = some loadHttpBound → state.grpcBound = true) ∧
      (next = some promote → point = loadHttpBound ∧ state.httpBound = true) ∧
      ∀ changed, next ≠ some (tell changed) := by
  cases point with
  | storeGrpcBound => exact .inl ⟨rfl, rfl⟩
  | storeHttpBound => exact .inr (.inl ⟨rfl, rfl⟩)
  | loadGrpcBound =>
    refine .inr (.inr (.inr (.inr (.inr ⟨_, rfl, rfl, ?_⟩))))
    cases state.grpcBound <;> simp
  | loadHttpBound =>
    refine .inr (.inr (.inr (.inr (.inr ⟨_, rfl, rfl, ?_⟩))))
    cases state.httpBound <;> simp
  | promote =>
    rw [advance, ReadinessState.compareExchange_eq h]
    by_cases hstarting : state.current = .starting
    · rw [if_pos hstarting]
      exact .inr (.inr (.inl ⟨rfl, hstarting, rfl⟩))
    · rw [if_neg hstarting]
      exact .inr (.inr (.inr (.inr (.inr ⟨none, rfl, rfl, by simp⟩))))
  | fromReady f =>
    rw [advance, ReadinessState.compareExchange_eq h]
    by_cases hready : state.current = .ready
    · rw [if_pos hready]
      exact .inr (.inr (.inr (.inl ⟨f, .inl ⟨rfl, hready⟩, rfl⟩)))
    · rw [if_neg hready]
      exact .inr (.inr (.inr (.inr (.inr
        ⟨some (fromStarting f), rfl, rfl, by simp [hready]⟩))))
  | fromStarting f =>
    rw [advance, ReadinessState.compareExchange_eq h]
    by_cases hstarting : state.current = .starting
    · rw [if_pos hstarting]
      exact .inr (.inr (.inr (.inl ⟨f, .inr ⟨rfl, hstarting⟩, rfl⟩)))
    · rw [if_neg hstarting]
      exact .inr (.inr (.inr (.inr (.inr ⟨none, rfl, rfl, by simp [hstarting]⟩))))
  | tell changed => exact .inr (.inr (.inr (.inr (.inl ⟨changed, rfl, rfl⟩))))

theorem ReadinessPhase.starting_precedes (phase : ReadinessPhase) : starting.Precedes phase :=
  .inr (.inl rfl)

theorem Flip.final_phase (f : Flip) : f.phase.Final := by
  cases f
  · exact .inl rfl
  · exact .inr rfl

theorem Flip.changed_ne (f : Flip) : listenersBound ≠ f.changed := by
  cases f <;> decide

/-- A flip is the change to its phase. -/
theorem LeadTo.flip {changes : List ReadinessChanged} {phase : ReadinessPhase}
    (h : LeadTo changes phase) (hphase : phase = .ready ∨ phase = .starting) (f : Flip) :
    LeadTo (changes ++ [f.changed]) f.phase := by
  rcases hphase with rfl | rfl <;> cases f <;> simp [LeadTo] at h ⊢ <;> simp [h, Flip.phase]

/-- The phases come in their order, whatever call takes a step. -/
theorem ReadinessPoint.precedes_advance {state : ReadinessState}
    (h : state.inner = state.current.asU8) (point : ReadinessPoint) :
    state.current.Precedes (point.advance state).2.1.current := by
  rcases point.advance_cases h with ⟨-, hstep⟩ | ⟨-, hstep⟩ | ⟨-, hstarting, -⟩ |
    ⟨f, hfrom, hstep⟩ | ⟨changed, -, hstep⟩ | ⟨next, hstep, -⟩
  · rw [hstep]
    exact .inl rfl
  · rw [hstep]
    exact .inl rfl
  · rw [hstarting]
    exact ReadinessPhase.starting_precedes _
  · rw [hstep, ReadinessState.current_withInner]
    rcases hfrom with ⟨-, hready⟩ | ⟨-, hstarting⟩
    · rw [hready]
      exact .inr (.inr ⟨rfl, f.final_phase⟩)
    · rw [hstarting]
      exact ReadinessPhase.starting_precedes _
  · rw [hstep]
    exact .inl rfl
  · rw [hstep]
    exact .inl rfl

/-- A listener that is bound stays bound. -/
theorem ReadinessPoint.bound_advance {state : ReadinessState}
    (h : state.inner = state.current.asU8) (point : ReadinessPoint) :
    (state.grpcBound = true → (point.advance state).2.1.grpcBound = true) ∧
      (state.httpBound = true → (point.advance state).2.1.httpBound = true) := by
  rcases point.advance_cases h with ⟨-, hstep⟩ | ⟨-, hstep⟩ | ⟨-, -, hstep⟩ |
    ⟨f, -, hstep⟩ | ⟨changed, -, hstep⟩ | ⟨next, hstep, -⟩
  · simp [hstep]
  · simp [hstep]
  · simp [hstep]
  · simp [hstep]
  · simp [hstep]
  · simp [hstep]

theorem ReadinessPoint.report_tell (changed : ReadinessChanged) (reported : Reported) :
    Aperture.report (tell changed) reported =
      (none, ⟨reported.state, reported.events ++ [changed]⟩) := rfl

/-- The step theorem: what is reported stays consistent. -/
theorem Reported.Consistent.report {reported : Reported} (h : reported.Consistent)
    {point : ReadinessPoint} (hknows : point.Knows reported) :
    (report point reported).2.Consistent := by
  rcases point.advance_cases h.inner with ⟨-, hstep⟩ | ⟨-, hstep⟩ | ⟨rfl, -, hstep⟩ |
    ⟨f, -, hstep⟩ | ⟨changed, rfl, -⟩ | ⟨next, hstep, -⟩
  · simp only [Aperture.report, hstep, Option.toList_none, List.append_nil]
    exact ⟨h.inner, fun hready => ⟨rfl, (h.ready hready).2⟩, fun hmem => ⟨rfl, (h.told hmem).2⟩⟩
  · simp only [Aperture.report, hstep, Option.toList_none, List.append_nil]
    exact ⟨h.inner, fun hready => ⟨(h.ready hready).1, rfl⟩, fun hmem => ⟨(h.told hmem).1, rfl⟩⟩
  · simp only [Aperture.report, hstep, Option.toList_none, List.append_nil]
    refine ⟨?_, fun _ => hknows, h.told⟩
    simp only [ReadinessState.current_withInner]
  · simp only [Aperture.report, hstep, Option.toList_none, List.append_nil]
    refine ⟨?_, fun hready => ?_, h.told⟩
    · simp only [ReadinessState.current_withInner]
    · rw [ReadinessState.current_withInner] at hready
      have hfinal := f.final_phase
      rw [hready] at hfinal
      exact absurd hfinal (by simp [ReadinessPhase.Final])
  · rw [ReadinessPoint.report_tell]
    refine ⟨h.inner, h.ready, fun hmem => ?_⟩
    rcases List.mem_append.mp hmem with hold | hnew
    · exact h.told hold
    · exact hknows (List.mem_singleton.mp hnew).symm
  · simp only [Aperture.report, hstep, Option.toList_none, List.append_nil]
    exact h

/-- What a call knows is not undone by the step of another. -/
theorem ReadinessPoint.Knows.report {reported : Reported} (h : reported.Consistent)
    (point : ReadinessPoint) {other : ReadinessPoint} (hknows : other.Knows reported) :
    other.Knows (report point reported).2 := by
  obtain ⟨hgrpc, hhttp⟩ := point.bound_advance h.inner
  cases other with
  | loadHttpBound => exact hgrpc hknows
  | promote => exact ⟨hgrpc hknows.1, hhttp hknows.2⟩
  | tell changed => exact fun hbound => ⟨hgrpc (hknows hbound).1, hhttp (hknows hbound).2⟩
  | _ => trivial

/-- The calls keep what they rely on. -/
theorem readiness_proved :
    Proved ReadinessCall.entry report Reported.Consistent ReadinessPoint.Knows where
  entry call _ _ := by cases call <;> trivial
  shared _ _ h hknows := h.report hknows
  others point _ _ h _ hother := hother.report h point
  own point reported h hknows next hnext := by
    rcases point.advance_cases h.inner with ⟨-, hstep⟩ | ⟨-, hstep⟩ | ⟨rfl, -, hstep⟩ |
      ⟨f, -, hstep⟩ | ⟨changed, rfl, -⟩ | ⟨next', hstep, -, -, -, hload, hpromote, htell⟩
    · obtain rfl : next = .loadGrpcBound := by simpa [report, hstep] using hnext.symm
      trivial
    · obtain rfl : next = .loadGrpcBound := by simpa [report, hstep] using hnext.symm
      trivial
    · obtain rfl : next = .tell listenersBound := by simpa [report, hstep] using hnext.symm
      simp only [report, hstep, ReadinessPoint.Knows]
      exact fun _ => hknows
    · obtain rfl : next = .tell f.changed := by simpa [report, hstep] using hnext.symm
      exact fun hbound => absurd hbound.symm f.changed_ne
    · simp [ReadinessPoint.report_tell] at hnext
    · obtain rfl : next' = some next := by simpa [report, hstep] using hnext
      have hstate : (report point reported).2.state = reported.state := by simp [report, hstep]
      cases next with
      | loadHttpBound =>
        rw [ReadinessPoint.Knows, hstate]
        exact hload rfl
      | promote =>
        obtain ⟨rfl, hhttp⟩ := hpromote rfl
        rw [ReadinessPoint.Knows, hstate]
        exact ⟨hknows, hhttp⟩
      | tell changed => exact absurd rfl (htell changed)
      | _ => trivial

theorem readiness_holds (turns : List (Turn ReadinessCall)) :
    Holds Reported.Consistent ReadinessPoint.Knows (readinessAfter turns) :=
  readiness_proved.run (w := ⟨⟨.new, []⟩, []⟩)
    ⟨⟨by decide, fun h => absurd h (by decide), fun h => absurd h List.not_mem_nil⟩,
      fun _ h => absurd h List.not_mem_nil⟩ turns

/-- From any consistent state on the phases come in their order. -/
theorem precedes_run {w : Threads Reported ReadinessPoint}
    (h : Holds Reported.Consistent ReadinessPoint.Knows w) (turns : List (Turn ReadinessCall)) :
    w.shared.state.current.Precedes
      (run (turn ReadinessCall.entry report) w turns).shared.state.current := by
  have hordered := readiness_proved.and
    (fun point (reported : Reported) hconsistent _ (hprecedes : w.shared.state.current.Precedes
      reported.state.current) => hprecedes.trans (point.precedes_advance hconsistent.inner))
  exact (hordered.run ⟨⟨h.shared, .inl rfl⟩, h.points⟩ turns).shared.2

/-- What was told, with what is yet to be told, are the changes that led to the phase. -/
def AllTold (w : Threads Reported ReadinessPoint) : Prop :=
  ∃ changes, LeadTo changes w.shared.state.current ∧ w.shared.events ++ untold w ~ changes

/-- A step that tells nothing leaves its call to tell of the change that it makes. -/
theorem AllTold.silent {w w' : Threads Reported ReadinessPoint} (h : AllTold w)
    (news : List ReadinessChanged) (hevents : w'.shared.events = w.shared.events)
    (huntold : untold w' ~ news ++ untold w)
    (hlead : ∀ changes, LeadTo changes w.shared.state.current →
      LeadTo (changes ++ news) w'.shared.state.current) : AllTold w' := by
  obtain ⟨changes, hchanges, hperm⟩ := h
  refine ⟨changes ++ news, hlead changes hchanges, ?_⟩
  calc w'.shared.events ++ untold w'
    _ ~ w.shared.events ++ (news ++ untold w) := by rw [hevents]; exact huntold.append_left _
    _ ~ w.shared.events ++ (untold w ++ news) := List.perm_append_comm.append_left _
    _ = w.shared.events ++ untold w ++ news := (List.append_assoc _ _ _).symm
    _ ~ changes ++ news := hperm.append_right news

/-- Each change is told by the call that made it. -/
theorem AllTold.report {w : Threads Reported ReadinessPoint} (h : AllTold w)
    (hinner : w.shared.state.inner = w.shared.state.current.asU8) {thread : Nat}
    {point : ReadinessPoint} (hpoint : w.points[thread]? = some (some point)) :
    AllTold ⟨(report point w.shared).2, w.points.set thread (report point w.shared).1⟩ := by
  have hset : point.untold.toList ++ untold
      ⟨(Aperture.report point w.shared).2, w.points.set thread (Aperture.report point w.shared).1⟩ ~
        ((Aperture.report point w.shared).1.bind ReadinessPoint.untold).toList ++ untold w :=
    filterMap_set_perm (fun point => point.bind ReadinessPoint.untold) hpoint _
  rcases point.advance_cases hinner with ⟨rfl, hstep⟩ | ⟨rfl, hstep⟩ | ⟨rfl, hstarting, hstep⟩ |
    ⟨f, hfrom, hstep⟩ | ⟨changed, rfl, -⟩ | ⟨next, hstep, hnothing, -, -, -, -, htell⟩
  · simp only [Aperture.report, hstep] at hset ⊢
    exact h.silent [] (List.append_nil _) hset
      (fun changes hchanges => by rwa [List.append_nil])
  · simp only [Aperture.report, hstep] at hset ⊢
    exact h.silent [] (List.append_nil _) hset
      (fun changes hchanges => by rwa [List.append_nil])
  · simp only [Aperture.report, hstep] at hset ⊢
    refine h.silent [listenersBound] (List.append_nil _) hset fun changes hchanges => ?_
    rw [hstarting] at hchanges
    rw [ReadinessState.current_withInner, show changes = [] from hchanges]
    rfl
  · have hquiet : point.untold = none := by rcases hfrom with ⟨rfl, -⟩ | ⟨rfl, -⟩ <;> rfl
    simp only [Aperture.report, hstep, hquiet] at hset ⊢
    refine h.silent [f.changed] (List.append_nil _) hset fun changes hchanges => ?_
    rw [ReadinessState.current_withInner]
    exact hchanges.flip (hfrom.imp And.right And.right) f
  · obtain ⟨changes, hchanges, hperm⟩ := h
    simp only [ReadinessPoint.report_tell] at hset ⊢
    refine ⟨changes, hchanges, ?_⟩
    rw [List.append_assoc]
    exact (hset.append_left _).trans hperm
  · have huntold : next.bind ReadinessPoint.untold = none := by
      rcases next with _ | point
      · rfl
      · cases point with
        | tell changed => exact absurd rfl (htell changed)
        | _ => rfl
    simp only [Aperture.report, hstep, hnothing, huntold] at hset ⊢
    exact h.silent [] (List.append_nil _) hset
      (fun changes hchanges => by rwa [List.append_nil])

/-- The run lemma: all along, every change is told once or about to be. -/
theorem allTold_run (turns : List (Turn ReadinessCall)) : AllTold (readinessAfter turns) := by
  refine (invariant (fun w : Threads Reported ReadinessPoint =>
    Holds Reported.Consistent ReadinessPoint.Knows w ∧ AllTold w)
    (fun w e h => ⟨readiness_proved.turn h.1 e, ?_⟩) ⟨readiness_holds [], [], rfl, .nil⟩ turns).2
  obtain ⟨hholds, changes, hchanges, hperm⟩ := h
  cases e with
  | start call =>
    refine ⟨changes, hchanges, ?_⟩
    have hsame : untold (turn ReadinessCall.entry report w (.start call)) = untold w := by
      cases call <;> simp [untold, turn, ReadinessCall.entry, ReadinessPoint.untold]
    rw [hsame]
    exact hperm
  | advance thread =>
    rcases turn_advance_cases ReadinessCall.entry report w thread with hsame | ⟨point, hpoint⟩
    · rw [hsame]
      exact ⟨changes, hchanges, hperm⟩
    · rw [turn_advance hpoint]
      exact AllTold.report ⟨changes, hchanges, hperm⟩ hholds.shared.inner hpoint

/-- What a probe is answered, whatever calls are under way: ready only if both listeners are bound,
as is told only then, and never again what it was before. Every change of phase is told once, by
the call that made it. -/
theorem readyz_never_back (turns later : List (Turn ReadinessCall)) :
    let w := readinessAfter turns
    let reported' := (readinessAfter (turns ++ later)).shared
    (handleReadyz w.shared.state = (200, "ready\n") ∨ listenersBound ∈ w.shared.events →
      w.shared.state.grpcBound = true ∧ w.shared.state.httpBound = true) ∧
    w.shared.state.current.Precedes reported'.state.current ∧
    ∃ changes, LeadTo changes w.shared.state.current ∧ w.shared.events ++ untold w ~ changes := by
  intro w reported'
  have hholds := readiness_holds turns
  have hready (h : handleReadyz w.shared.state = (200, "ready\n")) :
      w.shared.state.current = .ready := by
    rw [handleReadyz] at h
    cases hphase : w.shared.state.current <;> simp [hphase] at h ⊢
  have hrun : readinessAfter (turns ++ later) =
      run (turn ReadinessCall.entry report) (readinessAfter turns) later := run_append _ _ _ _
  have hprecedes := precedes_run hholds later
  rw [← hrun] at hprecedes
  refine ⟨fun h => ?_, hprecedes, allTold_run turns⟩
  rcases h with hprobe | htold
  · exact hholds.shared.ready (hready hprobe)
  · exact hholds.shared.told htold

/-- How far a flip has come that was called in a phase. -/
def FlipStage (f : Flip) (called : ReadinessPhase) (point : Option ReadinessPoint)
    (reported : Reported) : Prop :=
  called.Precedes reported.state.current ∧
    match point with
    | some (.fromReady f') => f' = f
    | some (.fromStarting f') => f' = f ∧ (reported.state.current.Final ∨ called = .starting)
    | some (.tell _) => reported.state.current.Final
    | none => reported.state.current.Final ∨
        called = .starting ∧ reported.state.current = .ready
    | some _ => False

theorem ReadinessPhase.Precedes.eq_starting {phase : ReadinessPhase}
    (h : phase.Precedes starting) : phase = starting := by
  rcases h with rfl | rfl | ⟨-, hfinal⟩
  · rfl
  · rfl
  · exact absurd hfinal (by simp [Final])

theorem ReadinessPhase.ready_or_final {phase : ReadinessPhase} (h : phase ≠ starting) :
    phase = ready ∨ phase.Final := by
  cases phase <;> simp [Final] at h ⊢

/-- What others do does not set a flip back. -/
theorem FlipStage.others {f : Flip} {called : ReadinessPhase} {point : Option ReadinessPoint}
    {reported : Reported} (h : FlipStage f called point reported)
    (hconsistent : reported.Consistent) (other : ReadinessPoint) :
    FlipStage f called point (report other reported).2 := by
  have hprecedes : reported.state.current.Precedes (report other reported).2.state.current :=
    other.precedes_advance hconsistent.inner
  have hfinal (hfinal : reported.state.current.Final) :
      (report other reported).2.state.current.Final := by
    rwa [hprecedes.of_final hfinal]
  refine ⟨h.1.trans hprecedes, ?_⟩
  rcases point with _ | point
  · rcases h.2 with hdone | ⟨hcalled, hready⟩
    · exact .inl (hfinal hdone)
    · rw [hready] at hprecedes
      have hnot : (report other reported).2.state.current ≠ .starting := by
        intro hstarting
        rw [hstarting] at hprecedes
        exact absurd hprecedes.eq_starting (by decide)
      rcases ReadinessPhase.ready_or_final hnot with hsame | hlater
      · exact .inr ⟨hcalled, hsame⟩
      · exact .inl hlater
  · cases point with
    | fromReady f' => exact h.2
    | fromStarting f' => exact ⟨h.2.1, h.2.2.imp_left hfinal⟩
    | tell changed => exact hfinal h.2
    | _ => exact h.2

/-- Its own steps take it further. -/
theorem FlipStage.own {f : Flip} {called : ReadinessPhase} {point : ReadinessPoint}
    {reported : Reported} (h : FlipStage f called (some point) reported)
    (hconsistent : reported.Consistent) :
    FlipStage f called (report point reported).1 (report point reported).2 := by
  have hprecedes : called.Precedes (report point reported).2.state.current :=
    h.1.trans (point.precedes_advance hconsistent.inner)
  refine ⟨hprecedes, ?_⟩
  rcases point.advance_cases hconsistent.inner with ⟨rfl, -⟩ | ⟨rfl, -⟩ | ⟨rfl, -⟩ |
    ⟨f', -, hstep⟩ | ⟨changed, rfl, -⟩ | ⟨next, hstep, huntold, hready, hstarting, -⟩
  · exact h.2.elim
  · exact h.2.elim
  · exact h.2.elim
  · have htells : (report point reported).1 = some (.tell f'.changed) := by simp [report, hstep]
    have hphase : (report point reported).2.state.current = f'.phase := by
      simp only [report, hstep, ReadinessState.current_withInner]
    rw [htells]
    exact hphase ▸ f'.final_phase
  · exact .inl h.2
  · have hnext : (report point reported).1 = next := by simp [report, hstep]
    have hsame : (report point reported).2.state = reported.state := by simp [report, hstep]
    rw [hnext, hsame]
    cases point with
    | fromReady f' =>
      obtain ⟨hnot, rfl⟩ := hready f' rfl
      refine ⟨h.2, ?_⟩
      by_cases hstart : reported.state.current = .starting
      · exact .inr (hstart ▸ h.1).eq_starting
      · exact .inl ((ReadinessPhase.ready_or_final hstart).resolve_left hnot)
    | fromStarting f' =>
      obtain ⟨hnot, rfl⟩ := hstarting f' rfl
      rcases ReadinessPhase.ready_or_final hnot with hisReady | hfinal
      · refine h.2.2.imp_right fun hcalled => ⟨hcalled, hisReady⟩
      · exact .inl hfinal
    | tell changed => simp [ReadinessPoint.untold] at huntold
    | _ => exact h.2.elim

/-- A flip that has returned took effect, unless the phase was `starting` when it was called and
the listeners were found bound in between. -/
theorem flip_returned (turns later : List (Turn ReadinessCall)) (f : Flip) :
    let called := readinessAfter turns
    let returned := readinessAfter (turns ++ .start (.flip f) :: later)
    returned.points[called.points.length]? = some none →
      returned.shared.state.current.Final ∨
        called.shared.state.current = .starting ∧ returned.shared.state.current = .ready := by
  intro called returned hreturned
  have hholds := readiness_holds (turns ++ [.start (.flip f)])
  have hstarted : readinessAfter (turns ++ [.start (.flip f)]) =
      { called with points := called.points ++ [some (.fromReady f)] } := run_append _ _ _ _
  have hrun : returned = run (turn ReadinessCall.entry report)
      (readinessAfter (turns ++ [.start (.flip f)])) later := by
    rw [readinessAfter, ← run_append, List.append_assoc]
    rfl
  have hpoint : (readinessAfter (turns ++ [.start (.flip f)])).points[called.points.length]? =
      some (some (.fromReady f)) := by
    rw [hstarted]
    simp
  have hstage : FlipStage f called.shared.state.current (some (.fromReady f))
      (readinessAfter (turns ++ [.start (.flip f)])).shared := by
    rw [hstarted]
    exact ⟨.inl rfl, rfl⟩
  obtain ⟨point, hpoint, hstage⟩ := readiness_proved.track
    (P := FlipStage f called.shared.state.current)
    (fun point reported hconsistent h => h.own hconsistent)
    (fun point o reported hconsistent h => h.others hconsistent point)
    hholds hpoint hstage later
  rw [← hrun] at hpoint hstage
  obtain rfl : point = none := Option.some.inj (hpoint.symm.trans hreturned)
  exact hstage.2

/-- The gRPC listener is bound, and then its loop dies. -/
def grpcBound : List (Turn ReadinessCall) :=
  [.start .markGrpcBound, .advance 0, .advance 0, .advance 0]

/-- The HTTP listener is found bound between the two exchanges of the flip. -/
def httpBoundMeanwhile : List (Turn ReadinessCall) :=
  [.advance 1, .start .markHttpBound, .advance 2, .advance 2, .advance 2, .advance 2, .advance 1]

/-- So the flip is in vain. -/
theorem failed_flip_in_vain :
    let called := readinessAfter grpcBound
    let returned := readinessAfter (grpcBound ++ .start (.flip .toFailed) :: httpBoundMeanwhile)
    called.shared.state.current = .starting ∧ returned.shared.state.current = .ready :=
  (flip_returned grpcBound httpBoundMeanwhile .toFailed (by decide)).resolve_left
    (by simp only [ReadinessPhase.Final]; decide)

end Kaleidoscope.Aperture
