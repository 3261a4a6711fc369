import Mathlib.Tactic

/-!
# Runs of a deterministic system

A system takes one step for each event. A property of single steps is asked of every
step of a run, and an invariant that such steps keep holds wherever the run ends.
-/

namespace Run

variable {W E : Type} (step : W → E → W)

/-- Where a list of events leads. -/
def run (w : W) (events : List E) : W := events.foldl step w

/-- Every step of the run meets the condition in the state in which it is taken. -/
def AllSteps (cond : W → E → Prop) : W → List E → Prop
  | _, [] => True
  | w, e :: events => cond w e ∧ AllSteps cond (step w e) events

instance AllSteps.decidable (cond : W → E → Prop) [∀ w e, Decidable (cond w e)] :
    (w : W) → (events : List E) → Decidable (AllSteps step cond w events)
  | _, [] => isTrue True.intro
  | w, e :: events =>
    have := AllSteps.decidable cond (step w e) events
    inferInstanceAs (Decidable (_ ∧ _))

@[simp] theorem run_nil (w : W) : run step w [] = w := rfl

@[simp] theorem run_cons (w : W) (e : E) (events : List E) :
    run step w (e :: events) = run step (step w e) events := rfl

theorem run_append (w : W) (events events' : List E) :
    run step w (events ++ events') = run step (run step w events) events' :=
  List.foldl_append

variable {step}

/-- An invariant kept by every step that meets the condition holds at the end. -/
theorem AllSteps.invariant {cond : W → E → Prop} {Inv : W → Prop}
    (keep : ∀ w e, Inv w → cond w e → Inv (step w e)) {w : W} {events : List E}
    (h : AllSteps step cond w events) (hw : Inv w) : Inv (run step w events) := by
  induction events generalizing w with
  | nil => exact hw
  | cons e events ih => exact ih h.2 (keep w e hw h.1)

/-- An invariant kept by every step holds after every run. -/
theorem invariant (Inv : W → Prop) (keep : ∀ w e, Inv w → Inv (step w e)) {w : W} (hw : Inv w)
    (events : List E) : Inv (run step w events) := by
  induction events generalizing w with
  | nil => exact hw
  | cons e events ih => exact ih (keep w e hw)

/-- What becomes true in a run becomes true in one of its steps. -/
theorem exists_step {P : W → Prop} {w : W} {events : List E} (hbefore : ¬ P w)
    (hafter : P (run step w events)) :
    ∃ before e rest, events = before ++ e :: rest ∧ ¬ P (run step w before) ∧
      P (step (run step w before) e) := by
  induction events generalizing w with
  | nil => exact absurd hafter hbefore
  | cons e events ih =>
    by_cases h : P (step w e)
    · exact ⟨[], e, events, rfl, hbefore, h⟩
    · obtain ⟨before, e', rest, rfl, hnot, hyes⟩ := ih h hafter
      exact ⟨e :: before, e', rest, rfl, hnot, hyes⟩

/-- Under an invariant, one condition on the steps may be replaced by another. -/
theorem AllSteps.imp {cond cond' : W → E → Prop} {Inv : W → Prop}
    (keep : ∀ w e, Inv w → cond w e → Inv (step w e))
    (weaken : ∀ w e, Inv w → cond w e → cond' w e) {w : W} {events : List E}
    (h : AllSteps step cond w events) (hw : Inv w) : AllSteps step cond' w events := by
  induction events generalizing w with
  | nil => exact True.intro
  | cons e events ih => exact ⟨weaken w e hw h.1, ih h.2 (keep w e hw h.1)⟩

/-- A condition implied by another in every state. -/
theorem AllSteps.mono {cond cond' : W → E → Prop} (weaken : ∀ w e, cond w e → cond' w e)
    {w : W} {events : List E} (h : AllSteps step cond w events) :
    AllSteps step cond' w events :=
  h.imp (fun _ _ (_ : True) _ => True.intro) (fun w e _ => weaken w e) True.intro

/-- Two conditions that agree under an invariant, which each keeps, are met by the same runs. -/
theorem AllSteps.iff_of {cond P Q : W → E → Prop} {Inv : W → Prop}
    (agree : ∀ w e, Inv w → cond w e → (P w e ↔ Q w e) ∧ (P w e → Inv (step w e)))
    {w : W} {events : List E} (h : AllSteps step cond w events) (hw : Inv w) :
    AllSteps step P w events ↔ AllSteps step Q w events := by
  induction events generalizing w with
  | nil => rfl
  | cons e events ih =>
    obtain ⟨hiff, hkeep⟩ := agree w e hw h.1
    constructor
    · exact fun hP => ⟨hiff.mp hP.1, (ih h.2 (hkeep hP.1)).mp hP.2⟩
    · exact fun hQ => ⟨hiff.mpr hQ.1, (ih h.2 (hkeep (hiff.mpr hQ.1))).mpr hQ.2⟩

theorem allSteps_of_forall {cond : W → E → Prop} (h : ∀ w e, cond w e) (w : W)
    (events : List E) : AllSteps step cond w events := by
  induction events generalizing w with
  | nil => exact True.intro
  | cons e events ih => exact ⟨h w e, ih _⟩

theorem AllSteps.and {cond cond' : W → E → Prop} {w : W} {events : List E}
    (h : AllSteps step cond w events) (h' : AllSteps step cond' w events) :
    AllSteps step (fun w e => cond w e ∧ cond' w e) w events := by
  induction events generalizing w with
  | nil => exact True.intro
  | cons e events ih => exact ⟨⟨h.1, h'.1⟩, ih h.2 h'.2⟩

/-- The steps of a run are those of its two parts. -/
theorem allSteps_append {cond : W → E → Prop} {w : W} {events events' : List E} :
    AllSteps step cond w (events ++ events') ↔
      AllSteps step cond w events ∧ AllSteps step cond (run step w events) events' := by
  induction events generalizing w with
  | nil => exact ⟨fun h => ⟨True.intro, h⟩, fun h => h.2⟩
  | cons e events ih => exact (and_congr_right fun _ => ih).trans and_assoc.symm

section Image

variable {V : Type} {step' : V → E → V} {f : V → W}

/-- A system whose states map to those of another takes the same runs. -/
theorem run_image (hf : ∀ v e, f (step' v e) = step (f v) e) (v : V) (events : List E) :
    f (run step' v events) = run step (f v) events := by
  induction events generalizing v with
  | nil => rfl
  | cons e events ih => rw [run_cons, run_cons, ih, hf]

/-- A condition on the steps of the image is one on the steps themselves. -/
theorem AllSteps.preimage (hf : ∀ v e, f (step' v e) = step (f v) e) {cond : W → E → Prop}
    {v : V} {events : List E} (h : AllSteps step cond (f v) events) :
    AllSteps step' (fun v e => cond (f v) e) v events := by
  induction events generalizing v with
  | nil => exact True.intro
  | cons e events ih => exact ⟨h.1, ih (by rw [hf]; exact h.2)⟩

end Image

section Transcript

variable {O : Type} (step) (reply : W → E → O)

/-- What a run replies, event by event. -/
def transcript : W → List E → List O
  | _, [] => []
  | w, e :: events => reply w e :: transcript (step w e) events

variable {step reply}

/-- A relation between two systems that every step keeps, with the same reply from both,
holds after every run, and both runs reply alike. -/
theorem AllSteps.simulates {V : Type} {step' : V → E → V} {reply' : V → E → O}
    {cond : W → E → Prop} {Rel : W → V → Prop}
    (keep : ∀ w v e, Rel w v → cond w e →
      reply w e = reply' v e ∧ Rel (step w e) (step' v e))
    {w : W} {v : V} {events : List E} (h : AllSteps step cond w events) (hrel : Rel w v) :
    transcript step reply w events = transcript step' reply' v events ∧
      Rel (run step w events) (run step' v events) := by
  induction events generalizing w v with
  | nil => exact ⟨rfl, hrel⟩
  | cons e events ih =>
    obtain ⟨hreply, hnext⟩ := keep w v e hrel h.1
    obtain ⟨htail, hlast⟩ := ih h.2 hnext
    exact ⟨congrArg₂ List.cons hreply htail, hlast⟩

end Transcript

end Run

/-!
## Noninterference

Many parties send requests to one system. A party is undisturbed by the others when its own
requests get the replies that they would get if no other request were ever made. It is enough to
ask it of single steps: a step of the party keeps two states alike that look alike to it, with the
same reply from both, and a step of another leaves a state that looks alike.
-/

namespace Noninterference

open Run

variable {W E O : Type}

/-- The replies to the events of one party in a run of all. -/
def observed (step : W → E → W) (reply : W → E → O) (mine : E → Bool) : W → List E → List O
  | _, [] => []
  | w, e :: events =>
    if mine e then reply w e :: observed step reply mine (step w e) events
    else observed step reply mine (step w e) events

/-- What single steps do to a party, under an invariant. -/
structure Unwinding (step : W → E → W) (reply : W → E → O) (mine : E → Bool) (Inv : W → Prop)
    (Alike : W → W → Prop) (cond : E → Prop) : Prop where
  keep : ∀ w e, Inv w → Inv (step w e)
  own : ∀ w v e, Inv w → Inv v → Alike w v → mine e = true → cond e →
    reply w e = reply v e ∧ Alike (step w e) (step v e)
  other : ∀ w v e, Inv w → Alike w v → mine e = false → Alike (step w e) v

variable {step : W → E → W} {reply : W → E → O} {mine : E → Bool} {Inv : W → Prop}
  {Alike : W → W → Prop} {cond : E → Prop}

/-- A run of all looks to the party like the run of its own events. -/
theorem Unwinding.observed_eq (h : Unwinding step reply mine Inv Alike cond) {w v : W}
    (hw : Inv w) (hv : Inv v) (halike : Alike w v) {events : List E}
    (hcond : ∀ e ∈ events, mine e = true → cond e) :
    observed step reply mine w events = transcript step reply v (events.filter mine) ∧
      Alike (run step w events) (run step v (events.filter mine)) := by
  induction events generalizing w v with
  | nil => exact ⟨rfl, halike⟩
  | cons e events ih =>
    have hrest : ∀ e' ∈ events, mine e' = true → cond e' := fun e' he' =>
      hcond e' (List.mem_cons_of_mem e he')
    rw [observed, List.filter_cons, run_cons]
    cases hmine : mine e with
    | true =>
      obtain ⟨hreply, hnext⟩ := h.own w v e hw hv halike hmine (hcond e List.mem_cons_self hmine)
      obtain ⟨htail, hlast⟩ := ih (h.keep w e hw) (h.keep v e hv) hnext hrest
      simp only [if_true, transcript, run_cons]
      exact ⟨congrArg₂ List.cons hreply htail, hlast⟩
    | false => exact ih (h.keep w e hw) hv (h.other w v e hw halike hmine) hrest

end Noninterference
