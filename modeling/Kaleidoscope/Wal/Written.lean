import Kaleidoscope.Wal.World

/-!
# What was written to the files

The snapshot file holds the last snapshot that was written, the log the text of every
record logged since, whether or not these texts decode.
-/

namespace Kaleidoscope

open Utf8

variable {σ ρ κ ε ω C : Type}

/-- The last snapshot of a store and the records logged since. -/
structure Written (κ ρ : Type) where
  snapshot : Option κ
  log : List ρ

/-- A world with what was written to its files. -/
structure Recorded (σ ρ κ : Type) where
  world : World σ ρ
  written : Written κ ρ

/-- Nothing was ever written. -/
def Recorded.init (σ ρ κ : Type) : Recorded σ ρ κ := ⟨World.init σ ρ, none, []⟩

/-- The files a node leaves to the next open: those of an open store as they are, or once it
is dropped. -/
def Node.Leaves (f : Files) : Node σ → Prop
  | .down f' => f = f'
  | .up s => f = s.files ∨ f = s.drop

namespace Pillar

variable (P : Pillar σ ρ κ ε ω) (plan : C → σ → Plan σ ρ)

/-- What has been written after an event. -/
def writtenAfter (v : Recorded σ ρ κ) (e : Event C ω) : Written κ ρ :=
  match v.world.node, e with
  | .up s, .snapshot order =>
    match P.snapSerde.toWriter (P.capture order s.state) with
    | .ok _ => ⟨some (P.capture order s.state), []⟩
    | .error _ => v.written
  | _, _ => ⟨v.written.snapshot, v.written.log ++ P.logs plan v.world e⟩

/-- One event of a recorded run. -/
def record (v : Recorded σ ρ κ) (e : Event C ω) : Recorded σ ρ κ :=
  ⟨P.step plan v.world e, P.writtenAfter plan v e⟩

/-- Some lines are the texts of some records. -/
def Lines (rs : List ρ) (ts : List Text) : Prop :=
  List.Forall₂ (fun r t => P.walSerde.toString r = .ok t) rs ts

/-- The files contain what was written. -/
structure Contains (f : Files) (written : Written κ ρ) : Prop where
  noSnapshot : written.snapshot = none → f.snapshot = none
  snapshot : ∀ k, written.snapshot = some k →
    ∃ bytes, P.snapSerde.toWriter k = .ok bytes ∧ f.snapshot = some bytes
  log : ∃ ts, P.Lines written.log ts ∧ f.wal.getD [] = ts.flatMap wireLine

/-- Opening succeeds, and the snapshot and every record of the log decode to what was
written. -/
structure ReadsBack (f : Files) (written : Written κ ρ) : Prop where
  opens : ∃ s, P.openWithFsyncBackend f = .ok s
  snapshot : ∀ k, written.snapshot = some k →
    ∃ bytes, f.snapshot = some bytes ∧ P.snapSerde.fromReader bytes = .ok k
  log : P.walSerde.records (f.wal.getD []) = written.log

/-- The files of a node, with nothing left in the buffer of an open store. -/
def NodeContains (node : Node σ) (written : Written κ ρ) : Prop :=
  match node with
  | .down f => P.Contains f written
  | .up s => s.wal.buf = [] ∧ P.Contains s.files written

variable {P plan}

theorem contains_none : P.Contains .none ⟨none, []⟩ where
  noSnapshot _ := rfl
  snapshot k hk := by cases hk
  log := ⟨[], .nil, rfl⟩

/-- What files contain depends on the snapshot and the log. -/
theorem Contains.congr {f g : Files} {written : Written κ ρ} (h : P.Contains f written)
    (hs : g.snapshot = f.snapshot) (hw : g.wal.getD [] = f.wal.getD []) :
    P.Contains g written where
  noSnapshot hk := hs.trans (h.noSnapshot hk)
  snapshot k hk := by
    rw [hs]
    exact h.snapshot k hk
  log := by
    rw [hw]
    exact h.log

/-- The files a node leaves contain what the node does. -/
theorem NodeContains.of_leaves {node : Node σ} {written : Written κ ρ} {f : Files}
    (h : P.NodeContains node written) (hf : node.Leaves f) : P.Contains f written := by
  cases node with
  | down f' =>
    obtain rfl : f = f' := hf
    exact h
  | up s =>
    rcases hf with rfl | rfl
    · exact h.2
    · refine h.2.congr rfl ?_
      change s.wal.file ++ s.wal.buf = s.wal.file
      rw [h.1, List.append_nil]

/-- Without faults the appends of an operation write the lines of what they log. -/
theorem runSteps_writes (P : Pillar σ ρ κ ε ω) (steps : List (LogStep σ ρ)) {s : Store σ}
    {rs : List ρ}
    (hbuf : s.wal.buf = []) (hlog : ∃ ts, P.Lines rs ts ∧ s.wal.file = ts.flatMap wireLine) :
    (P.runSteps steps [] s).store.wal.buf = [] ∧
      (P.runSteps steps [] s).store.snapshot = s.snapshot ∧
      ∃ ts, P.Lines (rs ++ (P.runSteps steps [] s).logged) ts ∧
        (P.runSteps steps [] s).store.wal.file = ts.flatMap wireLine := by
  induction steps generalizing s rs with
  | nil => exact ⟨hbuf, rfl, by simpa [runSteps] using hlog⟩
  | cons step rest ih =>
    have hwal : s.wal = ⟨s.wal.file, []⟩ := by rw [← hbuf]
    rw [runSteps, hwal]
    cases ht : P.walSerde.toString step.record with
    | error e =>
      simp only [List.headD_nil, appendWal_error _ _ _ ht]
      exact ⟨trivial, trivial, by simpa using hlog⟩
    | ok t =>
      obtain ⟨ts, hts, hfile⟩ := hlog
      have hnext : ∃ ts, P.Lines (rs ++ [step.record]) ts ∧
          s.wal.file ++ wireLine t = ts.flatMap wireLine :=
        ⟨ts ++ [t], List.rel_append hts (.cons ht .nil), by simp [hfile]⟩
      have hrest := ih (s := ⟨step.commit s.state, s.snapshot, s.tmp,
        ⟨s.wal.file ++ wireLine t, []⟩⟩) rfl hnext
      rw [List.append_assoc] at hrest
      simp only [List.headD_nil, appendWal_new _ _ _ ht, appendOutcome]
      exact hrest

/-- An orderly event keeps the files to what was written. -/
theorem NodeContains.record {v : Recorded σ ρ κ} {e : Event C ω}
    (h : P.NodeContains v.world.node v.written) (he : e.Orderly) :
    P.NodeContains (P.record plan v e).world.node (P.record plan v e).written := by
  obtain ⟨⟨node, ledger⟩, written⟩ := v
  have hsame : written = ⟨written.snapshot, written.log ++ []⟩ := by rw [List.append_nil]
  cases node with
  | down f =>
    have hf : P.Contains f written := h
    rw [hsame] at hf
    cases e with
    | openStore =>
      simp only [Pillar.record, step, writtenAfter, logs, P.openWithFsyncBackend_eq]
      cases (P.loadSnapshot f).bind (P.replay (f.wal.getD [])) with
      | error e => exact hf
      | ok s => exact ⟨rfl, hf.congr rfl rfl⟩
    | _ => exact hf
  | up s =>
    obtain ⟨hbuf, hf⟩ : s.wal.buf = [] ∧ P.Contains s.files written := h
    rw [hsame] at hf
    cases e with
    | openStore => exact ⟨hbuf, hf⟩
    | close =>
      have hup : P.NodeContains (.up s) ⟨written.snapshot, written.log ++ []⟩ := ⟨hbuf, hf⟩
      exact hup.of_leaves (Or.inr rfl)
    | call c faults =>
      obtain rfl : faults = [] := he
      rw [List.append_nil] at hf
      let prepared : Store σ := { s with state := (plan c s.state).prepared }
      have hprepared : prepared.wal.buf = [] := hbuf
      obtain ⟨hbuf', hsnap, hlog⟩ := P.runSteps_writes (plan c s.state).steps hprepared hf.log
      refine ⟨hbuf', ⟨fun hk => ?_, fun k hk => ?_, hlog⟩⟩
      · exact hsnap.trans (hf.noSnapshot hk)
      · obtain ⟨bytes, hbytes, hfile⟩ := hf.snapshot k hk
        exact ⟨bytes, hbytes, hsnap.trans hfile⟩
    | crash c done n => exact absurd he id
    | snapshot order =>
      cases hb : P.snapSerde.toWriter (P.capture order s.state) with
      | ok bytes =>
        simp only [Pillar.record, step, writtenAfter, hb, P.snapshot_of_ok hb]
        refine ⟨rfl, ⟨(by simp), fun k hk => ?_, ⟨[], .nil, rfl⟩⟩⟩
        obtain rfl := Option.some.inj hk
        exact ⟨bytes, hb, rfl⟩
      | error e =>
        rw [List.append_nil] at hf
        simp only [Pillar.record, step, writtenAfter, hb, P.snapshot_of_error hbuf hb]
        exact ⟨hbuf, hf.congr rfl rfl⟩
    | crashInSnapshot order k => exact absurd he id

/-- After every orderly run the files contain what was written. -/
theorem contains_run {events : List (Event C ω)} (hevents : ∀ e ∈ events, e.Orderly) :
    P.NodeContains (Run.run (P.record plan) (Recorded.init σ ρ κ) events).world.node
      (Run.run (P.record plan) (Recorded.init σ ρ κ) events).written := by
  have hinit : P.NodeContains (Recorded.init σ ρ κ).world.node (Recorded.init σ ρ κ).written :=
    contains_none
  generalize Recorded.init σ ρ κ = v at hinit
  induction events generalizing v with
  | nil => exact hinit
  | cons e events ih =>
    obtain ⟨he, hevents⟩ := List.forall_mem_cons.mp hevents
    exact ih hevents _ (hinit.record he)

end Pillar

end Kaleidoscope
