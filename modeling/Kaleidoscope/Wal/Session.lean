import Kaleidoscope.Wal.Refinement

/-!
# A file-backed store in use

Callers make requests of an open store, and in between it is snapshotted and reopened. No
append fails, so the store stays open and what its abstract state is survives every reopen.
-/

namespace Kaleidoscope

open Utf8 Replay

/-- What happens to a store in use. -/
inductive Action (Q ω : Type) where
  /-- A request of a caller. -/
  | request (q : Q)
  /-- `snapshot`, visiting the hash maps in this order. -/
  | snapshot (order : ω)
  /-- The store is dropped and opened again. -/
  | reopen

namespace Action

variable {M Q A ω : Type} (ask : M → Q → A × M)

/-- A store in memory takes requests and has nothing to snapshot or to reopen. -/
def perform (m : M) : Action Q ω → M
  | .request q => (ask m q).2
  | _ => m

/-- Its answer to a request. -/
def reply (m : M) : Action Q ω → Option A
  | .request q => some (ask m q).1
  | _ => none

end Action

variable {σ ρ κ ε ω Q A : Type}

/-- Memory after an operation whose appends all succeed. -/
def Plan.outcome (p : Plan σ ρ) : σ := p.steps.foldl (fun s step => step.commit s) p.prepared

namespace Pillar

variable (P : Pillar σ ρ κ ε ω) (ask : Store σ → Q → A × Store σ)

/-- What there is after `open`. -/
def openNode (f : Files) : Node σ :=
  match P.openWithFsyncBackend f with
  | .ok s => .up s
  | .error _ => .down f

theorem openWithFsyncBackend_of_openNode {f : Files} {s : Store σ} (h : P.openNode f = .up s) :
    P.openWithFsyncBackend f = .ok s := by
  rw [openNode] at h
  cases hopen : P.openWithFsyncBackend f with
  | error e => simp [hopen] at h
  | ok s' =>
    rw [hopen] at h
    cases h
    rfl

/-- A file-backed store takes requests as long as it opens. -/
def perform (n : Node σ) (a : Action Q ω) : Node σ :=
  match n, a with
  | .up s, .request q => .up (ask s q).2
  | .up s, .snapshot order => .up (P.snapshot order s).2
  | .up s, .reopen => P.openNode s.drop
  | .down f, _ => .down f

/-- Its answer to a request, if it is open. -/
def reply (n : Node σ) (a : Action Q ω) : Option A :=
  match n, a with
  | .up s, .request q => some (ask s q).1
  | _, _ => none

/-- Every record a request appends serialises. -/
def Serialises (plan : Q → σ → Plan σ ρ) (n : Node σ) (a : Action Q ω) : Prop :=
  match n, a with
  | .up s, .request q => P.Encodable (plan q s.state).steps
  | _, _ => True

instance (plan : Q → σ → Plan σ ρ) (n : Node σ) (a : Action Q ω) :
    Decidable (P.Serialises plan n a) := by
  unfold Serialises
  split <;> infer_instance

/-- A snapshot that is written keeps the state and empties the log. -/
theorem perform_snapshot {s : Store σ} {order : ω} {bytes : Bytes}
    (hbytes : P.snapSerde.toWriter (P.capture order s.state) = .ok bytes) :
    P.perform ask (.up s) (.snapshot order) =
      .up ⟨s.state, some bytes, none, BufWriter.new []⟩ := by
  rw [perform, P.snapshot_of_ok hbytes]

/-- It divides a run. -/
theorem run_snapshot {n : Node σ} {s : Store σ} {order : ω} {bytes : Bytes}
    {before : List (Action Q ω)} (hrun : Run.run (P.perform ask) n before = .up s)
    (hbytes : P.snapSerde.toWriter (P.capture order s.state) = .ok bytes)
    (after : List (Action Q ω)) :
    Run.run (P.perform ask) n (before ++ .snapshot order :: after) =
      Run.run (P.perform ask) (.up ⟨s.state, some bytes, none, BufWriter.new []⟩) after := by
  rw [Run.run_append, hrun, Run.run_cons, P.perform_snapshot ask hbytes]

/-- And what is asked of every step of a run is asked before it and after it. -/
theorem allSteps_snapshot {cond : Node σ → Action Q ω → Prop} {n : Node σ} {s : Store σ}
    {order : ω} {bytes : Bytes} {before after : List (Action Q ω)}
    (hrun : Run.run (P.perform ask) n before = .up s)
    (hbytes : P.snapSerde.toWriter (P.capture order s.state) = .ok bytes)
    (hbefore : Run.AllSteps (P.perform ask) cond n before) (hcond : cond (.up s) (.snapshot order))
    (hafter : Run.AllSteps (P.perform ask) cond
      (.up ⟨s.state, some bytes, none, BufWriter.new []⟩) after) :
    Run.AllSteps (P.perform ask) cond n (before ++ .snapshot order :: after) := by
  rw [Run.allSteps_append, hrun]
  refine ⟨hbefore, hcond, ?_⟩
  rwa [P.perform_snapshot ask hbytes]

private theorem runSteps_of_encodable {steps : List (LogStep σ ρ)} {s : Store σ}
    (hbuf : s.wal.buf = []) (h : P.Encodable steps) :
    (P.runSteps steps [] s).result = .ok () ∧
      (P.runSteps steps [] s).store.state = steps.foldl (fun s step => step.commit s) s.state ∧
      (P.runSteps steps [] s).logged = steps.map LogStep.record ∧
      (P.runSteps steps [] s).store.wal.buf = [] := by
  induction steps generalizing s with
  | nil => exact ⟨rfl, rfl, rfl, hbuf⟩
  | cons step rest ih =>
    obtain ⟨t, ht⟩ := h step List.mem_cons_self
    have hwal : s.wal = ⟨s.wal.file, []⟩ := by rw [← hbuf]
    have happ : appendWal P.walSerde P.persistenceFailed s.wal step.record Fault.none =
        (.ok (), ⟨s.wal.file ++ wireLine t, []⟩) := by
      rw [hwal, appendWal_new _ _ _ ht]
      rfl
    obtain ⟨hresult, hstate, hlogged, hunbuffered⟩ :=
      ih (s := ⟨step.commit s.state, s.snapshot, s.tmp, ⟨s.wal.file ++ wireLine t, []⟩⟩) rfl
        fun step' hm => h step' (List.mem_cons_of_mem _ hm)
    simp only [runSteps, List.headD_nil, happ, List.tail_nil]
    exact ⟨hresult, hstate, congrArg (step.record :: ·) hlogged, hunbuffered⟩

/-- Without faults an operation whose records serialise succeeds, commits all its steps and
leaves nothing unwritten. -/
theorem call_of_encodable {p : Plan σ ρ} {s : Store σ} (hbuf : s.wal.buf = [])
    (h : P.Encodable p.steps) :
    (P.call p [] s).result = .ok () ∧ (P.call p [] s).store.state = p.outcome ∧
      (P.call p [] s).logged = p.steps.map LogStep.record ∧ (P.call p [] s).store.wal.buf = [] :=
  P.runSteps_of_encodable (s := { s with state := p.prepared }) hbuf h

/-- An operation of one append commits it or changes no memory. -/
theorem call_singleton (m : σ) (step : LogStep σ ρ) (fault : Fault) (s : Store σ) :
    ((P.call ⟨m, [step]⟩ [fault] s).result = .ok () ∧
        (P.call ⟨m, [step]⟩ [fault] s).store.state = step.commit m) ∨
      ∃ e, (P.call ⟨m, [step]⟩ [fault] s).result = .error e ∧
        (P.call ⟨m, [step]⟩ [fault] s).store.state = m := by
  simp only [call, runSteps, List.headD_cons]
  rcases appendWal P.walSerde P.persistenceFailed s.wal step.record fault with ⟨e | u, wal⟩
  · exact .inr ⟨e, rfl, rfl⟩
  · exact .inl ⟨rfl, rfl⟩

/-- Without a fault the append succeeds, whatever is left in the buffer. -/
theorem call_singleton_none (m : σ) (step : LogStep σ ρ)
    (h : ∃ t, P.walSerde.toString step.record = .ok t) (s : Store σ) :
    (P.call ⟨m, [step]⟩ [.none] s).store.state = step.commit m := by
  obtain ⟨t, h⟩ := h
  simp only [call, runSteps, List.headD_cons, appendWal, h, Fault.device]
  obtain ⟨hline, hdevice⟩ := s.wal.writeAll_none (asBytes t)
  rcases hwrite : s.wal.writeAll (asBytes t) none with ⟨result, w, d⟩
  rw [hwrite] at hline hdevice
  obtain rfl : result = .ok () := hline
  obtain rfl : d = none := hdevice
  obtain ⟨hnewline, hdevice⟩ := w.writeAll_none [10]
  rcases hwrite' : w.writeAll [10] none with ⟨result, w', d⟩
  rw [hwrite'] at hnewline hdevice
  obtain rfl : result = .ok () := hnewline
  obtain rfl : d = none := hdevice
  simp only [hwrite', BufWriter.flushBuf_none]

/-- What an append comes to when no write fails: an error of the encoder, or one of the fsync. -/
def appendVerdict (record : ρ) (fault : Fault) : Except ε Unit :=
  match P.walSerde.toString record, fault with
  | .error e, _ => .error (parse P.persistenceFailed e)
  | .ok _, .fsync e => .error (io P.persistenceFailed e)
  | .ok _, _ => .ok ()

theorem appendWal_of_written (wal : BufWriter) (record : ρ) {fault : Fault}
    (hwritten : fault.device = none) :
    (appendWal P.walSerde P.persistenceFailed wal record fault).1 =
      P.appendVerdict record fault := by
  cases hline : P.walSerde.toString record with
  | error e => simp only [appendWal, appendVerdict, hline]
  | ok t =>
    simp only [appendWal, appendVerdict, hline, hwritten]
    obtain ⟨hline, hdevice⟩ := wal.writeAll_none (asBytes t)
    rcases hwrite : wal.writeAll (asBytes t) none with ⟨result, w, d⟩
    rw [hwrite] at hline hdevice
    obtain rfl : result = .ok () := hline
    obtain rfl : d = none := hdevice
    obtain ⟨hnewline, hdevice⟩ := w.writeAll_none [10]
    rcases hwrite' : w.writeAll [10] none with ⟨result, w', d⟩
    rw [hwrite'] at hnewline hdevice
    obtain rfl : result = .ok () := hnewline
    obtain rfl : d = none := hdevice
    simp only [hwrite', BufWriter.flushBuf_none]
    cases fault <;> rfl

/-- When no write fails, an operation of one append comes to the same in every store. -/
theorem call_singleton_of_written (m : σ) (step : LogStep σ ρ) {fault : Fault}
    (hwritten : fault.device = none) (s : Store σ) :
    (P.call ⟨m, [step]⟩ [fault] s).result = P.appendVerdict step.record fault ∧
      (P.call ⟨m, [step]⟩ [fault] s).store.state =
        if (P.appendVerdict step.record fault).isOk then step.commit m else m := by
  have happend := P.appendWal_of_written s.wal step.record hwritten
  simp only [call, runSteps, List.headD_cons]
  rcases happ : appendWal P.walSerde P.persistenceFailed s.wal step.record fault with
    ⟨e | u, wal⟩
  · rw [happ] at happend
    rw [← happend]
    exact ⟨rfl, rfl⟩
  · rw [happ] at happend
    rw [← happend]
    exact ⟨rfl, rfl⟩

/-- An append without a fault is an append with none. -/
theorem call_none (p : Plan σ ρ) (s : Store σ) : P.call p [.none] s = P.call p [] s := by
  rw [call, call]
  cases p.steps <;> rfl

end Pillar

namespace Refinement

variable {P : Pillar σ ρ κ ε ω} {I : Type} (R : Refinement P I)

/-- An open store whose appends have all succeeded. -/
structure InService (ledger : List ρ) (s : Store σ) (i : I) : Prop
    extends R.Serves ledger s i where
  terminated : Terminated s.wal.file

theorem inService_new :
    R.InService [] ⟨P.settle P.empty, none, none, .new []⟩ R.init where
  unbuffered := rfl
  live := R.settle_live (R.loaded_disk R.empty_loaded)
  holds := R.holds_none
  terminated := .inl rfl

variable {R}

/-- A sound event on a store in service that is open after it leaves it in service. -/
private theorem InService.step {C : Type} {ledger : List ρ} {s s' : Store σ} {i : I}
    (h : R.InService ledger s i) (hR : R.Restores) (plan : C → σ → Plan σ ρ) {e : Event C ω}
    (he : R.Gentle plan ⟨.up s, ledger⟩ e)
    (hup : (P.step plan ⟨.up s, ledger⟩ e).node = .up s') :
    ∃ rs j, (P.step plan ⟨.up s, ledger⟩ e).ledger = ledger ++ rs ∧ R.Reaches i rs j ∧
      R.InService (ledger ++ rs) s' j := by
  have hw : Tidy (⟨.up s, ledger⟩ : World σ ρ) := ⟨h.unbuffered, h.terminated⟩
  obtain ⟨rs, j, hledger, hreach, hserves⟩ :=
    Stands.step R (w := ⟨.up s, ledger⟩) h.toServes (Gentle.sound R hR hw he)
  have htidy := Tidy.step R hw he
  rw [hup] at hserves
  rw [Tidy, hup] at htidy
  exact ⟨rs, j, hledger, hreach, hserves, htidy.2⟩

/-- A legal operation keeps the store in service, along the records it logs, if the appends of
it that fail leave nothing behind. -/
theorem InService.attempt {ledger : List ρ} {s : Store σ} {i : I} (h : R.InService ledger s i)
    (hR : R.Restores) {p : Plan σ ρ} {faults : List Fault}
    (hlegal : ∀ {i}, R.live s.state i → R.Legal p faults i) (hfaults : P.Harmless p.steps faults) :
    ∃ j, R.Reaches i (P.call p faults s).logged j ∧
      R.InService (ledger ++ (P.call p faults s).logged) (P.call p faults s).store j := by
  obtain ⟨rs, j, hledger, hreach, hserves⟩ := h.step hR (fun (_ : Unit) _ => p)
    (e := .call () faults) ⟨hlegal, hfaults⟩ rfl
  obtain rfl : (P.call p faults s).logged = rs := List.append_cancel_left hledger
  exact ⟨j, hreach, hserves⟩

/-- So does one without faults. -/
theorem InService.call {ledger : List ρ} {s : Store σ} {i : I} (h : R.InService ledger s i)
    (hR : R.Restores) {p : Plan σ ρ} (hlegal : ∀ {i}, R.live s.state i → R.Legal p [] i) :
    ∃ j, R.Reaches i (P.call p [] s).logged j ∧
      R.InService (ledger ++ (P.call p [] s).logged) (P.call p [] s).store j :=
  h.attempt hR hlegal (Pillar.harmless_nil _)

/-- One whose records serialise succeeds and commits. -/
theorem InService.succeeds {ledger : List ρ} {s : Store σ} {i : I} (h : R.InService ledger s i)
    (hR : R.Restores) {p : Plan σ ρ} (hlegal : ∀ {i}, R.live s.state i → R.Legal p [] i)
    (henc : P.Encodable p.steps) :
    (P.call p [.none] s).result = .ok () ∧ (P.call p [.none] s).store.state = p.outcome ∧
      ∃ j, R.Reaches i (p.steps.map LogStep.record) j ∧
        R.InService (ledger ++ p.steps.map LogStep.record) (P.call p [.none] s).store j := by
  obtain ⟨hresult, hstate, hlogged, -⟩ := P.call_of_encodable h.unbuffered henc
  obtain ⟨j, hreach, hservice⟩ := h.call hR hlegal
  rw [hlogged] at hreach hservice
  rw [Pillar.call_none]
  exact ⟨hresult, hstate, j, hreach, hservice⟩

/-- So does a snapshot, for an abstract state that compacts the one before. -/
theorem InService.snapshot {ledger : List ρ} {s : Store σ} {i : I} (h : R.InService ledger s i)
    (hR : R.Restores) (order : ω) :
    ∃ j, R.Reaches i [] j ∧ R.InService ledger (P.snapshot order s).2 j := by
  obtain ⟨rs, j, hledger, hreach, hserves⟩ := h.step hR
    (fun (_ : Unit) s => ⟨s, []⟩) (e := .snapshot order) trivial rfl
  obtain rfl : [] = rs := List.append_cancel_left ((List.append_nil _).trans hledger)
  rw [List.append_nil] at hserves
  exact ⟨j, hreach, hserves⟩

/-- A reopen succeeds with the same abstract state. -/
theorem InService.reopen {ledger : List ρ} {s : Store σ} {i : I} (h : R.InService ledger s i) :
    ∃ d s', R.disk d i ∧ P.openNode s.drop = .up s' ∧ s'.state = P.settle d ∧
      R.InService ledger s' i := by
  obtain ⟨d, hd, hopen⟩ := Holds.settles R (Serves.drop R h.toServes)
  refine ⟨d, ⟨P.settle d, s.snapshot, s.tmp, .new s.wal.drop⟩, hd, ?_, rfl,
    ⟨rfl, R.settle_live hd, Serves.drop R h.toServes⟩, ?_⟩
  · rw [Pillar.openNode, hopen]
    rfl
  · change Terminated (s.wal.file ++ s.wal.buf)
    rw [h.unbuffered, List.append_nil]
    exact h.terminated

section Simulation

variable {M : Type} {ask : Store σ → Q → A × Store σ} {agree : σ → M → Prop}

/-- A file-backed store in service agrees with a store in memory. -/
def Agrees (R : Refinement P I) (agree : σ → M → Prop) (n : Node σ) (m : M) : Prop :=
  ∃ s ledger i, n = .up s ∧ R.InService ledger s i ∧ agree s.state m

/-- Where requests are answered alike and agreement is not lost by replay, a file-backed store
answers throughout as the store in memory does, however often it is snapshotted and
reopened. -/
theorem simulates (ask' : M → Q → A × M) (m : M) (hR : R.Restores)
    {cond : Node σ → Action Q ω → Prop}
    (hrequest : ∀ {ledger s i m q}, R.InService ledger s i → agree s.state m →
      cond (.up s) (.request q) → (ask s q).1 = (ask' m q).1 ∧
        agree (ask s q).2.state (ask' m q).2 ∧
        ∃ ledger' j, R.InService ledger' (ask s q).2 j)
    (hreopen : ∀ {s d i m}, R.live s i → R.disk d i → agree s m → agree (P.settle d) m)
    {actions : List (Action Q ω)} (hinit : agree (P.settle P.empty) m)
    (h : Run.AllSteps (P.perform ask) cond (P.openNode .none) actions) :
    Run.transcript (P.perform ask) (Pillar.reply ask) (P.openNode .none) actions =
        Run.transcript (Action.perform ask') (Action.reply ask') m actions ∧
      R.Agrees agree (Run.run (P.perform ask) (P.openNode .none) actions)
        (Run.run (Action.perform ask') m actions) := by
  refine h.simulates (fun n m a hagrees hcond => ?_) ⟨_, [], R.init, rfl, R.inService_new, hinit⟩
  obtain ⟨s, ledger, i, rfl, hservice, hagree⟩ := hagrees
  cases a with
  | request q =>
    obtain ⟨hanswer, hnext, ledger', j, hservice'⟩ := hrequest hservice hagree hcond
    exact ⟨congrArg some hanswer, _, ledger', j, rfl, hservice', hnext⟩
  | snapshot order =>
    obtain ⟨j, -, hservice'⟩ := hservice.snapshot hR order
    refine ⟨rfl, _, ledger, j, rfl, hservice', ?_⟩
    rw [P.state_snapshot]
    exact hagree
  | reopen =>
    obtain ⟨d, s', hd, hopen, hstate, hservice'⟩ := hservice.reopen
    refine ⟨rfl, s', ledger, i, hopen, hservice', ?_⟩
    rw [hstate]
    exact hreopen hservice.live hd hagree

end Simulation

end Refinement

end Kaleidoscope
