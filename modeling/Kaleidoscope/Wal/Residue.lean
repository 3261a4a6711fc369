import Kaleidoscope.Wal.Refinement

/-!
# What failed appends leave behind

A failed append may leave bytes of its record in the log or in the buffer. Memory does not
change with them, and once a snapshot has replaced the log they are gone. A run is watched
for such bytes: as long as the files are not read while there are any, they hold what
memory stands for.
-/

namespace Kaleidoscope

open Replay

variable {σ ρ κ ε ω C : Type}

/-- A world, and whether the log or its buffer has bytes of a failed append. -/
structure Watched (σ ρ : Type) where
  world : World σ ρ
  residue : Bool

/-- Nothing was ever written. -/
def Watched.init (σ ρ : Type) : Watched σ ρ := ⟨World.init σ ρ, false⟩

namespace Pillar

variable (P : Pillar σ ρ κ ε ω) (plan : C → σ → Plan σ ρ)

/-- Whether there is residue after an event: a failing append leaves some unless it is
harmless, and a snapshot that is written replaces the log. -/
def residueAfter (v : Watched σ ρ) (e : Event C ω) : Bool :=
  match v.world.node, e with
  | .up s, .call c faults => v.residue || !decide (P.Harmless (plan c s.state).steps faults)
  | .up s, .snapshot order =>
    v.residue && !(P.snapSerde.toWriter (P.capture order s.state)).isOk
  | _, _ => v.residue

/-- One event of a watched run. -/
def watch (v : Watched σ ρ) (e : Event C ω) : Watched σ ρ :=
  ⟨P.step plan v.world e, P.residueAfter plan v e⟩

/-- No process is lost, and no store is closed over residue. -/
def ClosesClean (v : Watched σ ρ) : Event C ω → Prop
  | .crash _ _ _ => False
  | .crashInSnapshot _ _ => False
  | .close => v.residue = false
  | _ => True

instance (v : Watched σ ρ) : (e : Event C ω) → Decidable (ClosesClean v e)
  | .crash _ _ _ => isFalse id
  | .crashInSnapshot _ _ => isFalse id
  | .close => instDecidableEqBool v.residue false
  | .openStore => isTrue trivial
  | .call _ _ => isTrue trivial
  | .snapshot _ => isTrue trivial

/-- Wherever the run leaves files to be read, nothing of a failed append is among them. -/
def ReadsClean (events : List (Event C ω)) : Prop :=
  Run.AllSteps (P.watch plan) ClosesClean (Watched.init σ ρ) events ∧
    (Run.run (P.watch plan) (Watched.init σ ρ) events).residue = false

end Pillar

namespace Refinement

variable {P : Pillar σ ρ κ ε ω} {I : Type} (R : Refinement P I)

/-- Memory stands for the abstract state, and without residue the files do. -/
structure Keeps (v : Watched σ ρ) (i : I) : Prop where
  live : ∀ s, v.world.node = .up s → R.live s.state i
  up : v.residue = true → ∃ s, v.world.node = .up s
  clean : v.residue = false → R.Stands v.world.ledger v.world.node i ∧ Tidy v.world

theorem keeps_init : R.Keeps (Watched.init σ ρ) R.init where
  live _ hn := by cases hn
  up hres := by cases hres
  clean _ := ⟨R.holds_none, tidy_init⟩

theorem keeps_of_stands {w : World σ ρ} {i : I} (h : R.Stands w.ledger w.node i)
    (htidy : Tidy w) : R.Keeps ⟨w, false⟩ i where
  live s hn := by
    obtain ⟨node, ledger⟩ := w
    obtain rfl : node = .up s := hn
    exact h.live
  up hres := by cases hres
  clean _ := ⟨h, htidy⟩

theorem keeps_of_live {s : Store σ} {ledger : List ρ} {i : I} (h : R.live s.state i) :
    R.Keeps ⟨⟨.up s, ledger⟩, true⟩ i where
  live s' hn := by
    obtain rfl := Node.up.inj hn
    exact h
  up _ := ⟨s, rfl⟩
  clean hres := by cases hres

/-- Memory follows the records whose append returned `Ok`, whatever the failing ones
leave. -/
theorem runSteps_live {steps : List (LogStep σ ρ)} (faults : List Fault) {s : Store σ} {i : I}
    (hlive : R.live s.state i) (hlegal : R.LegalSteps steps s.state i) :
    ∃ j, Path R.next i (P.runSteps steps faults s).logged j ∧
      R.live (P.runSteps steps faults s).store.state j := by
  induction steps generalizing faults s i with
  | nil => exact ⟨i, .nil i, hlive⟩
  | cons step rest ih =>
    obtain ⟨j, hnext, hcommit, hrest⟩ := hlegal
    rw [Pillar.runSteps]
    split
    · exact ⟨i, .nil i, hlive⟩
    · next wal' _ =>
      obtain ⟨k, hpath, hk⟩ := ih faults.tail
        (s := ⟨step.commit s.state, s.snapshot, s.tmp, wal'⟩) hcommit hrest
      exact ⟨k, (Path.single hnext).append hpath, hk⟩

/-- An operation on an open store, seen from memory alone. -/
theorem call_keeps {plan : C → σ → Plan σ ρ}
    (hlive : ∀ c {s i}, R.live s i → R.live (plan c s).prepared i)
    (hlegal : ∀ c {s i}, R.live s i → R.LegalSteps (plan c s).steps (plan c s).prepared i)
    {s : Store σ} {i : I} (hs : R.live s.state i) (c : C) (faults : List Fault) (ledger : List ρ) :
    ∃ j, R.Reaches i (P.call (plan c s.state) faults s).logged j ∧
      R.Keeps ⟨⟨.up (P.call (plan c s.state) faults s).store, ledger⟩, true⟩ j := by
  obtain ⟨j, hpath, hj⟩ := R.runSteps_live faults
    (s := { s with state := (plan c s.state).prepared }) (hlive c hs) (hlegal c hs)
  exact ⟨j, hpath.reach, R.keeps_of_live hj⟩

/-- While a failed append may have left a piece of a record, memory alone is kept. -/
theorem Keeps.step_of_residue {plan : C → σ → Plan σ ρ} (hR : R.Restores)
    (hlive : ∀ c {s i}, R.live s i → R.live (plan c s).prepared i)
    (hlegal : ∀ c {s i}, R.live s i → R.LegalSteps (plan c s).steps (plan c s).prepared i)
    {w : World σ ρ} {e : Event C ω} {i : I} (h : R.Keeps ⟨w, true⟩ i)
    (he : Pillar.ClosesClean ⟨w, true⟩ e) :
    ∃ j, R.Reaches i (P.logs plan w e) j ∧ R.Keeps (P.watch plan ⟨w, true⟩ e) j := by
  obtain ⟨s, hn⟩ := h.up rfl
  obtain ⟨node, ledger⟩ := w
  obtain rfl : node = .up s := hn
  have hs := h.live s rfl
  cases e with
  | openStore => exact ⟨i, .nil i, R.keeps_of_live hs⟩
  | close => cases he
  | call c faults => exact R.call_keeps hlive hlegal hs c faults _
  | crash c done n => exact absurd he id
  | snapshot order =>
    cases hb : P.snapSerde.toWriter (P.capture order s.state) with
    | ok bytes =>
      obtain ⟨j, hcompacts, hserves⟩ := R.serves_of_snapshot ledger hR hs hb
      refine ⟨j, .silent (.nil i) hcompacts, ?_⟩
      simp only [Pillar.watch, Pillar.residueAfter, hb, Pillar.step]
      exact R.keeps_of_stands hserves (by rw [P.snapshot_of_ok hb]; exact ⟨rfl, Or.inl rfl⟩)
    | error e =>
      refine ⟨i, .nil i, ?_⟩
      simp only [Pillar.watch, Pillar.residueAfter, hb, Pillar.step]
      refine R.keeps_of_live ?_
      simp only [Pillar.snapshot, hb]
      exact hs
  | crashInSnapshot order k => exact absurd he id

/-- From a clean log on, memory and disk are kept until an append leaves a piece of a record. -/
theorem Keeps.step_of_clean {plan : C → σ → Plan σ ρ} (hR : R.Restores)
    (hlive : ∀ c {s i}, R.live s i → R.live (plan c s).prepared i)
    (hlegal : ∀ c {s i}, R.live s i → R.LegalSteps (plan c s).steps (plan c s).prepared i)
    {w : World σ ρ} {e : Event C ω} {i : I} (h : R.Keeps ⟨w, false⟩ i)
    (he : Pillar.ClosesClean ⟨w, false⟩ e) :
    ∃ j, R.Reaches i (P.logs plan w e) j ∧ R.Keeps (P.watch plan ⟨w, false⟩ e) j := by
  obtain ⟨hstands, htidy⟩ := h.clean rfl
  -- an event that leaves no residue is gentle
  have gentle (hgentle : R.Gentle plan w e) (hres : P.residueAfter plan ⟨w, false⟩ e = false) :
      ∃ j, R.Reaches i (P.logs plan w e) j ∧ R.Keeps (P.watch plan ⟨w, false⟩ e) j := by
    obtain ⟨rs, j, hledger, hreach, hj⟩ :=
      Stands.step R hstands (Gentle.sound R hR htidy hgentle)
    obtain rfl : P.logs plan w e = rs :=
      List.append_cancel_left ((P.ledger_step plan w e).symm.trans hledger)
    rw [Pillar.watch, hres]
    exact ⟨j, hreach, R.keeps_of_stands (by rw [hledger]; exact hj) (Tidy.step R htidy hgentle)⟩
  obtain ⟨node, ledger⟩ := w
  cases node with
  | down f => exact gentle (by cases e <;> exact trivial) (by cases e <;> rfl)
  | up s =>
    cases e with
    | call c faults =>
      by_cases hharmless : P.Harmless (plan c s.state).steps faults
      · exact gentle ⟨fun hs => ⟨Or.inl (hlive c hs), hlegal c hs⟩, hharmless⟩
          (by simp [Pillar.residueAfter, hharmless])
      · simp only [Pillar.watch, Pillar.residueAfter, hharmless]
        exact R.call_keeps hlive hlegal (h.live s rfl) c faults _
    | crash c done n => exact absurd he id
    | crashInSnapshot order k => exact absurd he id
    | _ => exact gentle trivial rfl

/-- The step theorem for runs in which appends fail in any way. -/
theorem Keeps.step {plan : C → σ → Plan σ ρ} (hR : R.Restores)
    (hlive : ∀ c {s i}, R.live s i → R.live (plan c s).prepared i)
    (hlegal : ∀ c {s i}, R.live s i → R.LegalSteps (plan c s).steps (plan c s).prepared i)
    {v : Watched σ ρ} {e : Event C ω} {i : I} (h : R.Keeps v i) (he : Pillar.ClosesClean v e) :
    ∃ j, R.Reaches i (P.logs plan v.world e) j ∧ R.Keeps (P.watch plan v e) j := by
  obtain ⟨w, residue⟩ := v
  cases residue with
  | true => exact h.step_of_residue R hR hlive hlegal he
  | false => exact h.step_of_clean R hR hlive hlegal he

/-- The run theorem: what every record of a certain kind keeps, a run that logs such records
only keeps. -/
theorem Keeps.run {plan : C → σ → Plan σ ρ} (hR : R.Restores)
    (hlive : ∀ c {s i}, R.live s i → R.live (plan c s).prepared i)
    (hlegal : ∀ c {s i}, R.live s i → R.LegalSteps (plan c s).steps (plan c s).prepared i)
    {A : I → Prop} {G : ρ → Prop} (hnext : ∀ {i r j}, R.next i r j → G r → A i → A j)
    (hcompacts : ∀ {i j}, R.compacts i j → A i → A j) {v : Watched σ ρ}
    {events : List (Event C ω)} {i : I} (h : R.Keeps v i) (hi : A i)
    (hevents : Run.AllSteps (P.watch plan)
      (fun v e => Pillar.ClosesClean v e ∧ ∀ r ∈ P.logs plan v.world e, G r) v events) :
    ∃ j, R.Keeps (Run.run (P.watch plan) v events) j ∧ A j := by
  induction events generalizing v i with
  | nil => exact ⟨i, h, hi⟩
  | cons e events ih =>
    obtain ⟨j, hreach, hj⟩ := Keeps.step R hR hlive hlegal h hevents.1.1
    exact ih hj (hreach.preserves (A := A) (G := G) hnext hcompacts hevents.1.2 hi) hevents.2

end Refinement

end Kaleidoscope
