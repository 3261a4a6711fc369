import Kaleidoscope.Library.Run
import Kaleidoscope.Wal.Pillar

/-!
# A file-backed store over its whole life

The store is opened, called, snapshotted and closed, its appends fail, and the process
is lost inside an append or inside a snapshot. The ledger, which no store can see,
collects the records whose append returned `Ok`, and the record of an interrupted
append once its whole text had reached the log.
-/

namespace Kaleidoscope

open Utf8

/-- One append of an operation, and what the operation does to memory once it succeeded. -/
structure LogStep (σ ρ : Type) where
  record : ρ
  commit : σ → σ

/-- An operation: what it does to memory first, and the appends that follow. A failed
append ends the operation. -/
structure Plan (σ ρ : Type) where
  prepared : σ
  steps : List (LogStep σ ρ)

/-- What a series of appends returned, where it left the store, and the records whose
append returned `Ok`. -/
structure Ran (σ ρ ε : Type) where
  result : Except ε Unit
  store : Store σ
  logged : List ρ

/-- A store is open, or there are only its files. -/
inductive Node (σ : Type) where
  | down (f : Files)
  | up (s : Store σ)

/-- A store with the ledger of what was logged since its base path was empty. -/
structure World (σ ρ : Type) where
  node : Node σ
  ledger : List ρ

/-- Nothing was ever written. -/
def World.init (σ ρ : Type) : World σ ρ := ⟨.down .none, []⟩

/-- What can happen to a store with operations `C`. -/
inductive Event (C ω : Type) where
  /-- `open`. -/
  | openStore
  /-- The store is dropped. -/
  | close
  /-- An operation, with the faults its appends meet in order. -/
  | call (c : C) (faults : List Fault)
  /-- The process is lost during an operation: after this many complete appends, with
  this many bytes of the next one in the log. -/
  | crash (c : C) (done n : Nat)
  /-- `snapshot`, visiting the hash maps in this order. -/
  | snapshot (order : ω)
  /-- The process is lost during `snapshot` after this many of its effects. -/
  | crashInSnapshot (order : ω) (k : Nat)

namespace Event

variable {C ω : Type}

/-- Opening and closing, operations without faults, and crashes inside an append. -/
def CrashOnly : Event C ω → Prop
  | .call _ faults => faults = []
  | .snapshot _ => False
  | .crashInSnapshot _ _ => False
  | _ => True

/-- Opening and closing, operations without faults, snapshots, and crashes inside an
append. -/
def CrashOrSnapshot : Event C ω → Prop
  | .call _ faults => faults = []
  | .crashInSnapshot _ _ => False
  | _ => True

/-- Opening and closing, operations without faults, and snapshots. -/
def Orderly : Event C ω → Prop
  | .call _ faults => faults = []
  | .crash _ _ _ => False
  | .crashInSnapshot _ _ => False
  | _ => True

/-- Anything but a crash inside an append. -/
def Untorn : Event C ω → Prop
  | .crash _ _ _ => False
  | _ => True

/-- Anything but a crash. -/
def Crashless : Event C ω → Prop
  | .crash _ _ _ => False
  | .crashInSnapshot _ _ => False
  | _ => True

/-- The operation, where the event is one, is allowed. -/
def Calls (allowed : C → Prop) : Event C ω → Prop
  | .call c _ => allowed c
  | .crash c _ _ => allowed c
  | _ => True

theorem calls_true (e : Event C ω) : e.Calls fun _ => True := by
  cases e <;> trivial

instance (e : Event C ω) : Decidable e.CrashOnly := by
  cases e <;> unfold CrashOnly <;> infer_instance

instance (e : Event C ω) : Decidable e.CrashOrSnapshot := by
  cases e <;> unfold CrashOrSnapshot <;> infer_instance

instance (e : Event C ω) : Decidable e.Orderly := by
  cases e <;> unfold Orderly <;> infer_instance

instance (e : Event C ω) : Decidable e.Untorn := by
  cases e <;> unfold Untorn <;> infer_instance

instance (e : Event C ω) : Decidable e.Crashless := by
  cases e <;> unfold Crashless <;> infer_instance

instance (allowed : C → Prop) [DecidablePred allowed] (e : Event C ω) :
    Decidable (e.Calls allowed) := by
  cases e <;> unfold Calls <;> infer_instance

end Event

namespace Pillar

variable {σ ρ κ ε ω C : Type} (P : Pillar σ ρ κ ε ω)

/-- The appends of an operation, until one fails. -/
def runSteps : List (LogStep σ ρ) → List Fault → Store σ → Ran σ ρ ε
  | [], _, s => ⟨.ok (), s, []⟩
  | step :: rest, faults, s =>
    match appendWal P.walSerde P.persistenceFailed s.wal step.record (faults.headD .none) with
    | (.error e, wal) => ⟨.error e, { s with wal := wal }, []⟩
    | (.ok _, wal) =>
      let ran := runSteps rest faults.tail { s with state := step.commit s.state, wal := wal }
      { ran with logged := step.record :: ran.logged }

/-- An operation on an open store. -/
def call (p : Plan σ ρ) (faults : List Fault) (s : Store σ) : Ran σ ρ ε :=
  P.runSteps p.steps faults { s with state := p.prepared }

/-- The files left by a process lost after `done` complete appends, when `n` bytes of the
next one had reached the log, and the records that count as logged. -/
def crashIn : List (LogStep σ ρ) → Nat → Nat → Store σ → Files × List ρ
  | [], _, _, s => (s.files, [])
  | step :: _, 0, n, s =>
    match P.walSerde.toString step.record with
    | .error _ => (s.files, [])
    | .ok line =>
      ({ s.files with wal := some (s.wal.file ++ (s.wal.buf ++ wireLine line).take n) },
        if s.wal.buf.length + (asBytes line).length ≤ n then [step.record] else [])
  | step :: rest, done + 1, n, s =>
    match appendWal P.walSerde P.persistenceFailed s.wal step.record .none with
    | (.error _, wal) => ({ s.files with wal := some wal.file }, [])
    | (.ok _, wal) =>
      let left := crashIn rest done n { s with wal := wal }
      (left.1, step.record :: left.2)

variable (plan : C → σ → Plan σ ρ)

/-- One event; an event that does not apply changes nothing. -/
def step (w : World σ ρ) (e : Event C ω) : World σ ρ :=
  match w.node, e with
  | .down f, .openStore =>
    match P.openWithFsyncBackend f with
    | .ok s => { w with node := .up s }
    | .error _ => w
  | .up s, .close => { w with node := .down s.drop }
  | .up s, .call c faults =>
    let ran := P.call (plan c s.state) faults s
    ⟨.up ran.store, w.ledger ++ ran.logged⟩
  | .up s, .crash c done n =>
    let left := P.crashIn (plan c s.state).steps done n s
    ⟨.down left.1, w.ledger ++ left.2⟩
  | .up s, .snapshot order => { w with node := .up (P.snapshot order s).2 }
  | .up s, .crashInSnapshot order k => { w with node := .down (P.snapshotCrash order s k) }
  | _, _ => w

/-- The records an event logs. -/
def logs (w : World σ ρ) (e : Event C ω) : List ρ :=
  match w.node, e with
  | .up s, .call c faults => (P.call (plan c s.state) faults s).logged
  | .up s, .crash c done n => (P.crashIn (plan c s.state).steps done n s).2
  | _, _ => []

/-- Every append of the operation that fails leaves nothing of its record behind. -/
def Harmless : List (LogStep σ ρ) → List Fault → Prop
  | [], _ => True
  | step :: rest, faults => ∀ t, P.walSerde.toString step.record = .ok t →
      (faults.headD .none).LeavesNothing t ∧
        ((faults.headD .none).Accepts t → Harmless rest faults.tail)

/-- The first append of the operation succeeds. -/
def FirstSucceeds (steps : List (LogStep σ ρ)) (faults : List Fault) : Prop :=
  ∃ step ∈ steps.head?, ∃ t, P.walSerde.toString step.record = .ok t ∧
    (faults.headD .none).Accepts t

/-- Every record of the operation serialises. -/
def Encodable (steps : List (LogStep σ ρ)) : Prop :=
  ∀ step ∈ steps, ∃ t, P.walSerde.toString step.record = .ok t

/-- The process is lost before the first byte of the append in progress, or once its
whole text is in the log. -/
def CutWhole (steps : List (LogStep σ ρ)) (done n : Nat) : Prop :=
  n = 0 ∨ ∀ step ∈ steps[done]?, ∀ t, P.walSerde.toString step.record = .ok t →
    (asBytes t).length ≤ n

/-- The operation appends nothing, or the log it appends to is empty or ends in a
newline. -/
def StartsTerminated (steps : List (LogStep σ ρ)) (s : Store σ) : Prop :=
  steps ≠ [] → Terminated s.wal.file

instance (steps : List (LogStep σ ρ)) (s : Store σ) : Decidable (StartsTerminated steps s) :=
  inferInstanceAs (Decidable (_ → _))

/-- Every append of the event finds an empty log or one that ends in a newline. -/
def AppendsTerminated (w : World σ ρ) (e : Event C ω) : Prop :=
  match w.node, e with
  | .up s, .call c _ => StartsTerminated (plan c s.state).steps s
  | .up s, .crash c _ _ => StartsTerminated (plan c s.state).steps s
  | _, _ => True

instance (w : World σ ρ) (e : Event C ω) : Decidable (AppendsTerminated plan w e) := by
  unfold AppendsTerminated
  split <;> infer_instance

private instance decidableForallOk {ε α : Type} (x : Except ε α) (p : α → Prop) [DecidablePred p] :
    Decidable (∀ a, x = .ok a → p a) :=
  match x with
  | .ok a => decidable_of_iff (p a) ⟨fun h _ he => Except.ok.inj he ▸ h, fun h => h a rfl⟩
  | .error _ => isTrue fun _ he => nomatch he

private instance decidableExistsOk {ε α : Type} (x : Except ε α) : Decidable (∃ a, x = .ok a) :=
  match x with
  | .ok a => isTrue ⟨a, rfl⟩
  | .error _ => isFalse fun ⟨_, he⟩ => nomatch he

instance (steps : List (LogStep σ ρ)) : Decidable (P.Encodable steps) := by
  unfold Encodable
  infer_instance

instance (steps : List (LogStep σ ρ)) (done n : Nat) : Decidable (P.CutWhole steps done n) := by
  unfold CutWhole
  infer_instance

/-- A crash inside an append leaves none of its record or all of its text. -/
def CrashesWhole (w : World σ ρ) (e : Event C ω) : Prop :=
  match w.node, e with
  | .up s, .crash c done n => P.CutWhole (plan c s.state).steps done n
  | _, _ => True

/-- Every append of an operation that fails leaves nothing of its record behind. -/
def FaultsHarmless (w : World σ ρ) (e : Event C ω) : Prop :=
  match w.node, e with
  | .up s, .call c faults => P.Harmless (plan c s.state).steps faults
  | _, _ => True

/-- Every record of an operation serialises. -/
def CallsEncodable (w : World σ ρ) (e : Event C ω) : Prop :=
  match w.node, e with
  | .up s, .call c _ => P.Encodable (plan c s.state).steps
  | _, _ => True

instance Harmless.decidable :
    (steps : List (LogStep σ ρ)) → (faults : List Fault) → Decidable (P.Harmless steps faults)
  | [], _ => isTrue trivial
  | step :: rest, faults =>
    have := Harmless.decidable rest faults.tail
    inferInstanceAs (Decidable (∀ t, P.walSerde.toString step.record = .ok t → _ ∧ (_ → _)))

instance (w : World σ ρ) (e : Event C ω) : Decidable (P.FaultsHarmless plan w e) := by
  unfold FaultsHarmless
  split <;> infer_instance

instance (w : World σ ρ) (e : Event C ω) : Decidable (P.CrashesWhole plan w e) := by
  unfold CrashesWhole
  split <;> infer_instance

instance (w : World σ ρ) (e : Event C ω) : Decidable (P.CallsEncodable plan w e) := by
  unfold CallsEncodable
  split <;> infer_instance

/-- After every run whose steps meet the condition, whenever the store is down, opening it
succeeds with a state that holds the ledger. -/
def Recovers (cond : World σ ρ → Event C ω → Prop) (holds : σ → List ρ → Prop) : Prop :=
  ∀ events, Run.AllSteps (P.step plan) cond (World.init σ ρ) events →
    match (Run.run (P.step plan) (World.init σ ρ) events).node with
    | .down f => ∃ s, P.openWithFsyncBackend f = .ok s ∧
        holds s.state (Run.run (P.step plan) (World.init σ ρ) events).ledger
    | .up _ => True

/-- What holds of every open store, and its ledger, that a run reaches whose steps meet the
condition. -/
def EveryStore (cond : World σ ρ → Event C ω → Prop) (Q : Store σ → List ρ → Prop) : Prop :=
  ∀ events s, Run.AllSteps (P.step plan) cond (World.init σ ρ) events →
    (Run.run (P.step plan) (World.init σ ρ) events).node = .up s →
      Q s (Run.run (P.step plan) (World.init σ ρ) events).ledger

/-- After a crash inside `snapshot`, the store opens to the same state as before it. -/
def CrashInvisible (same : σ → σ → Prop) (s : Store σ) (order : ω) (k : Nat) : Prop :=
  ∃ s', P.openWithFsyncBackend (P.snapshotCrash order s k) = .ok s' ∧ same s.state s'.state

/-- Which crashes inside `snapshot` are invisible: exactly those at a stage at which nothing
shows. -/
def CrashInvisibleIff (cond : World σ ρ → Event C ω → Prop) (same : σ → σ → Prop)
    (hides : Store σ → SnapshotStage → Prop) : Prop :=
  P.EveryStore plan cond fun s _ => ∀ order k,
    P.CrashInvisible same s order k ↔ hides s (P.snapshotStage order s k)

/-- Whether the store, if it is down, opens. -/
def opens (w : World σ ρ) : Bool :=
  match w.node with
  | .down f => (P.openWithFsyncBackend f).isOk
  | .up _ => true

/-- An operation leaves the store open. -/
theorem node_call {w : World σ ρ} {s : Store σ} (hn : w.node = .up s) (c : C)
    (faults : List Fault) : (P.step plan w (.call c faults : Event C ω)).node =
      .up (P.call (plan c s.state) faults s).store := by
  obtain ⟨node, ledger⟩ := w
  obtain rfl : node = .up s := hn
  rfl

/-- The ledger grows by what an event logs. -/
theorem ledger_step (w : World σ ρ) (e : Event C ω) :
    (P.step plan w e).ledger = w.ledger ++ P.logs plan w e := by
  obtain ⟨node, ledger⟩ := w
  cases node with
  | up s => cases e <;> simp [step, logs]
  | down f =>
    cases e with
    | openStore =>
      simp only [step, logs, List.append_nil]
      cases P.openWithFsyncBackend f <;> rfl
    | _ => simp [step, logs]

variable {P plan}

theorem Recovers.mono {cond : World σ ρ → Event C ω → Prop} {holds holds' : σ → List ρ → Prop}
    (h : P.Recovers plan cond holds) (himp : ∀ s ledger, holds s ledger → holds' s ledger) :
    P.Recovers plan cond holds' := by
  intro events hevents
  have hw := h events hevents
  cases hn : (Run.run (P.step plan) (World.init σ ρ) events).node with
  | up s => trivial
  | down f =>
    rw [hn] at hw
    obtain ⟨s, hs, hholds⟩ := hw
    exact ⟨s, hs, himp _ _ hholds⟩

theorem Recovers.opens {cond : World σ ρ → Event C ω → Prop} {holds : σ → List ρ → Prop}
    (h : P.Recovers plan cond holds) {events : List (Event C ω)}
    (hevents : Run.AllSteps (P.step plan) cond (World.init σ ρ) events) :
    P.opens (Run.run (P.step plan) (World.init σ ρ) events) = true := by
  have hw := h events hevents
  rw [Pillar.opens]
  cases hn : (Run.run (P.step plan) (World.init σ ρ) events).node with
  | up s => rfl
  | down f =>
    rw [hn] at hw
    obtain ⟨s, hs, -⟩ := hw
    exact congrArg Except.isOk hs

/-- What every append of an operation keeps holds in memory after it. -/
theorem runSteps_state {Q : σ → Prop} {steps : List (LogStep σ ρ)} {faults : List Fault}
    {s : Store σ} (hs : Q s.state) (hsteps : ∀ step ∈ steps, ∀ s', Q s' → Q (step.commit s')) :
    Q (P.runSteps steps faults s).store.state := by
  induction steps generalizing faults s with
  | nil => exact hs
  | cons step rest ih =>
    rw [runSteps]
    rcases appendWal P.walSerde P.persistenceFailed s.wal step.record (faults.headD .none) with
      ⟨e | _, wal⟩
    · exact hs
    · exact ih (hsteps step List.mem_cons_self _ hs) fun step' h =>
        hsteps step' (List.mem_cons_of_mem _ h)

/-- What `open` establishes and every step of an operation keeps holds in memory always. -/
theorem everyStore_state {Q : σ → Prop} (hsettle : ∀ s, Q (P.settle s))
    (hprepared : ∀ c s, Q s → Q (plan c s).prepared)
    (hcommit : ∀ c s, ∀ step ∈ (plan c s).steps, ∀ s', Q s' → Q (step.commit s')) :
    P.EveryStore plan (fun _ (_ : Event C ω) => True) fun s _ => Q s.state := by
  have keep (w : World σ ρ) (e : Event C ω) (hw : ∀ s, w.node = .up s → Q s.state) (_ : True) :
      ∀ s, (P.step plan w e).node = .up s → Q s.state := by
    intro s hs
    obtain ⟨node, ledger⟩ := w
    cases node with
    | down f =>
      cases e with
      | openStore =>
        simp only [step] at hs
        cases hopen : P.openWithFsyncBackend f with
        | error e =>
          rw [hopen] at hs
          cases hs
        | ok s' =>
          rw [hopen] at hs
          cases hs
          have hstate := P.state_of_open hopen
          cases hload : (P.loadSnapshot f).bind (P.replay (f.wal.getD [])) with
          | error e =>
            rw [hload] at hstate
            cases hstate
          | ok loaded =>
            rw [hload] at hstate
            rw [← Except.ok.inj hstate]
            exact hsettle loaded
      | _ => cases hs
    | up s' =>
      have hs' : Q s'.state := hw s' rfl
      cases e with
      | call c faults =>
        cases hs
        exact P.runSteps_state (hprepared c _ hs') (hcommit c s'.state)
      | snapshot order =>
        cases hs
        rw [P.state_snapshot]
        exact hs'
      | openStore =>
        cases hs
        exact hs'
      | _ => cases hs
  exact fun events s hevents hup => hevents.invariant keep (fun _ h => nomatch h) s hup

/-- Without faults an append of a record that serialises succeeds. -/
theorem Encodable.firstSucceeds {steps : List (LogStep σ ρ)} (h : P.Encodable steps)
    (hne : steps ≠ []) : P.FirstSucceeds steps [] := by
  cases steps with
  | nil => exact absurd rfl hne
  | cons step rest =>
    obtain ⟨t, ht⟩ := h step List.mem_cons_self
    exact ⟨step, rfl, t, ht, trivial⟩

/-- Without faults nothing is left behind by a failing append. -/
theorem harmless_nil (steps : List (LogStep σ ρ)) : P.Harmless steps [] := by
  induction steps with
  | nil => trivial
  | cons step rest ih => exact fun t _ => ⟨Or.inl trivial, fun _ => ih⟩

/-- An operation whose one append is a line that bypasses the buffer, and fails at its first byte,
changes nothing. -/
theorem step_of_bypass {plan : C → σ → Plan σ ρ} {s : Store σ} (hbuf : s.wal.buf = [])
    (ledger : List ρ) {c : C} {record : ρ} {commit : σ → σ}
    (hplan : plan c s.state = ⟨s.state, [⟨record, commit⟩]⟩) {t : Text}
    (h : P.walSerde.toString record = .ok t)
    (hcap : BufWriter.capacity ≤ (asBytes t).length) (e : String) :
    P.step plan ⟨.up s, ledger⟩ (.call c [.write 0 e] : Event C ω) = ⟨.up s, ledger⟩ := by
  obtain ⟨state, snapshot, tmp, ⟨file, buf⟩⟩ := s
  obtain rfl : buf = [] := hbuf
  change plan c state = ⟨state, [⟨record, commit⟩]⟩ at hplan
  simp only [Pillar.step, call, hplan, runSteps, List.headD_cons,
    appendWal_of_bypass _ _ _ h hcap, List.append_nil]

/-- It leaves nothing of its record behind. -/
theorem harmless_of_bypass {record : ρ} {t : Text} (h : P.walSerde.toString record = .ok t)
    (hcap : BufWriter.capacity ≤ (asBytes t).length) (commit : σ → σ) (e : String) :
    P.Harmless [⟨record, commit⟩] [.write 0 e] := by
  intro t' ht'
  obtain rfl := Except.ok.inj (h.symm.trans ht')
  exact ⟨.inr ⟨e, rfl, hcap⟩, fun _ => trivial⟩

end Pillar

end Kaleidoscope
