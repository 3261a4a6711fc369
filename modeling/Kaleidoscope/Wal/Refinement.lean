import Kaleidoscope.Library.Replay
import Kaleidoscope.Wal.World

/-!
# What the files of a store stand for

A refinement gives a store an abstract state that its log records drive. Kept over every
step of a run is that the files hold a snapshot of an earlier abstract state and a log
of the records since, and that memory stands for an abstract state of the ledger.
-/

namespace Kaleidoscope

open Utf8 Replay

variable {σ ρ κ ε ω C : Type}

/-- An abstract state `I` for a store: how a record changes it, and when a state just
loaded, in the middle of a replay and in service stands for it. -/
structure Refinement (P : Pillar σ ρ κ ε ω) (I : Type) where
  /-- The abstract state of a store without files. -/
  init : I
  /-- The effect of one logged record. -/
  next : I → ρ → I → Prop
  /-- What a snapshot may replace an abstract state by. -/
  compacts : I → I → Prop
  /-- What a state loaded from a snapshot stands for. -/
  loaded : σ → I → Prop
  /-- What a state being replayed stands for. -/
  disk : σ → I → Prop
  /-- What the state of an open store stands for. -/
  live : σ → I → Prop
  faithful : ∀ {i r j}, next i r j → P.walSerde.Faithful r
  empty_loaded : loaded P.empty init
  loaded_disk : ∀ {s i}, loaded s i → disk s i
  apply_disk : ∀ {i r j s}, next i r j → disk s i → ∃ s', P.apply s r = .ok s' ∧ disk s' j
  settle_live : ∀ {s i}, disk s i → live (P.settle s) i

namespace Refinement

variable {P : Pillar σ ρ κ ε ω} {I : Type} (R : Refinement P I)

/-- The appends of an operation drive the abstract state as they drive memory. -/
def LegalSteps : List (LogStep σ ρ) → σ → I → Prop
  | [], _, _ => True
  | step :: rest, s, i =>
    ∃ j, R.next i step.record j ∧ R.live (step.commit s) j ∧ LegalSteps rest (step.commit s) j

/-- Besides, what the operation does before its first append does not show in the abstract
state, unless that append cannot fail. -/
def Legal (p : Plan σ ρ) (faults : List Fault) (i : I) : Prop :=
  (R.live p.prepared i ∨ P.FirstSucceeds p.steps faults) ∧ R.LegalSteps p.steps p.prepared i

/-- Every snapshot of an open store restores to something the store stands for. -/
def Restores : Prop :=
  ∀ {s i}, R.live s i → ∀ order, P.snapSerde.Faithful (P.capture order s) ∧
    ∃ s' j, P.restore (P.capture order s) = .ok s' ∧ R.loaded s' j ∧ R.live s j ∧
      R.compacts i j

/-- Replaying a log again over what a snapshot made of it changes nothing. -/
def Idempotent : Prop :=
  ∀ {i₀ rs i j}, Path R.next i₀ rs i → R.compacts i j → Path R.next j rs j

/-- The files hold a snapshot and a log that lead to the abstract state, and the log holds
the last records of the ledger. -/
def Holds (ledger : List ρ) (f : Files) (i : I) : Prop :=
  ∃ s₀ i₀ rs, P.loadSnapshot f = .ok s₀ ∧ R.loaded s₀ i₀ ∧ rs <:+ ledger ∧
    Logged P.walSerde P.replayLoop.Tolerant (f.wal.getD []) rs ∧ Path R.next i₀ rs i

/-- An open store: nothing buffered, memory and files stand for the abstract state. -/
structure Serves (ledger : List ρ) (s : Store σ) (i : I) : Prop where
  unbuffered : s.wal.buf = []
  live : R.live s.state i
  holds : R.Holds ledger s.files i

/-- What a node stands for. -/
def Stands (ledger : List ρ) : Node σ → I → Prop
  | .down f, i => R.Holds ledger f i
  | .up s, i => R.Serves ledger s i

/-- What the records of a ledger and the snapshots between them lead to. -/
abbrev Reaches : I → List ρ → I → Prop := Reach R.next R.compacts

/-- The run invariant: the node stands for an abstract state of the ledger. -/
def Invariant (w : World σ ρ) : Prop :=
  ∃ i, R.Reaches R.init w.ledger i ∧ R.Stands w.ledger w.node i

/-- What one event must meet for the invariant to survive it. -/
def Sound (plan : C → σ → Plan σ ρ) (w : World σ ρ) (e : Event C ω) : Prop :=
  match w.node, e with
  | .up s, .call c faults =>
    (∀ {i}, R.live s.state i → R.Legal (plan c s.state) faults i) ∧
      Pillar.StartsTerminated (plan c s.state).steps s ∧
        P.Harmless (plan c s.state).steps faults
  | .up s, .crash c done n =>
    (∀ {i}, R.live s.state i → R.LegalSteps (plan c s.state).steps (plan c s.state).prepared i) ∧
      Pillar.StartsTerminated (plan c s.state).steps s ∧
        (P.replayLoop.Tolerant ∨ P.CutWhole (plan c s.state).steps done n)
  | .up _, .snapshot _ => R.Restores
  | .up s, .crashInSnapshot order k =>
    R.Restores ∧ (R.Idempotent ∨ P.snapshotStage order s k ≠ .renamed ∨ s.wal.file = [])
  | _, _ => True

theorem holds_none : R.Holds [] .none R.init :=
  ⟨P.empty, R.init, [], rfl, R.empty_loaded, List.nil_suffix, .terminated (.nil _), .nil _⟩

theorem invariant_init : R.Invariant (World.init σ ρ) :=
  ⟨R.init, .nil _, R.holds_none⟩

/-- Replay of the log leads along the path of its records. -/
theorem replay_logged {b : Bytes} {rs : List ρ} {s : σ} {i j : I}
    (hlog : Logged P.walSerde P.replayLoop.Tolerant b rs) (hpath : Path R.next i rs j)
    (hs : R.disk s i) : ∃ s', P.replay b s = .ok s' ∧ R.disk s' j := by
  obtain ⟨s', hfold, hs'⟩ := hpath.foldlM (fun _ _ _ _ => R.apply_disk) hs
  exact ⟨s', (P.replay_eq_foldlM hlog s).trans hfold, hs'⟩

/-- Files that hold an abstract state open to what the replay of their log settles to. -/
theorem Holds.settles {ledger : List ρ} {f : Files} {i : I} (h : R.Holds ledger f i) :
    ∃ d, R.disk d i ∧ P.openWithFsyncBackend f =
      .ok ⟨P.settle d, f.snapshot, f.tmp, BufWriter.new (f.wal.getD [])⟩ := by
  obtain ⟨s₀, i₀, rs, hsnap, hloaded, -, hlog, hpath⟩ := h
  obtain ⟨d, hreplay, hd⟩ := R.replay_logged hlog hpath (R.loaded_disk hloaded)
  refine ⟨d, hd, ?_⟩
  rw [P.openWithFsyncBackend_eq, hsnap]
  simp only [Except.bind, hreplay, Except.map]

/-- The store they open to serves the abstract state. -/
theorem Holds.opens {ledger : List ρ} {f : Files} {i : I} (h : R.Holds ledger f i) :
    ∃ s, P.openWithFsyncBackend f = .ok s ∧ R.Serves ledger s i := by
  obtain ⟨d, hd, hopen⟩ := Holds.settles R h
  exact ⟨_, hopen, rfl, R.settle_live hd, h⟩

/-- An append that fails is not one that succeeds. -/
theorem not_firstSucceeds_of_error {step : LogStep σ ρ} {rest : List (LogStep σ ρ)}
    {faults : List Fault} {wal wal' : BufWriter} (hbuf : wal.buf = []) {e : ε}
    (h : appendWal P.walSerde P.persistenceFailed wal step.record (faults.headD .none) =
      (.error e, wal')) : ¬ P.FirstSucceeds (step :: rest) faults := by
  rintro ⟨_, hm, t, ht, hacc⟩
  obtain rfl := Option.some.inj hm
  have hwal : wal = ⟨wal.file, []⟩ := by rw [← hbuf]
  rw [hwal, appendWal_new _ _ _ ht, appendOutcome_of_accepts _ _ hacc] at h
  cases h

/-- The appends of a legal operation, as far as they get, lengthen the log and drive
memory along the same records. -/
theorem runSteps_keeps {steps : List (LogStep σ ρ)} {faults : List Fault} {s : Store σ}
    {i : I} {rs : List ρ} (hbuf : s.wal.buf = [])
    (hlive : R.live s.state i ∨ P.FirstSucceeds steps faults)
    (hlegal : R.LegalSteps steps s.state i) (hfaults : P.Harmless steps faults)
    (hlog : Encodes P.walSerde rs s.wal.file) :
    ∃ j, Path R.next i (P.runSteps steps faults s).logged j ∧
      R.live (P.runSteps steps faults s).store.state j ∧
      (P.runSteps steps faults s).store.wal.buf = [] ∧
      (P.runSteps steps faults s).store.snapshot = s.snapshot ∧
      Encodes P.walSerde (rs ++ (P.runSteps steps faults s).logged)
        (P.runSteps steps faults s).store.wal.file := by
  induction steps generalizing faults s i rs with
  | nil =>
    have hlive := hlive.resolve_right fun ⟨step, hm, _⟩ => by simp at hm
    exact ⟨i, .nil i, hlive, hbuf, rfl, by simpa [Pillar.runSteps] using hlog⟩
  | cons step rest ih =>
    obtain ⟨j, hnext, hcommit, hrest⟩ := hlegal
    have hwal : s.wal = ⟨s.wal.file, []⟩ := by rw [← hbuf]
    rcases appendWal_of_leavesNothing P.walSerde P.persistenceFailed s.wal.file step.record
      (fun t ht => (hfaults t ht).1) with ⟨t, ht, hacc, happ⟩ | ⟨e, happ⟩
    · rw [← hwal] at happ
      obtain ⟨k, hpath, hk⟩ := ih (s := ⟨step.commit s.state, s.snapshot, s.tmp,
        ⟨s.wal.file ++ wireLine t, []⟩⟩) rfl (Or.inl hcommit) hrest ((hfaults t ht).2 hacc)
        (hlog.snoc ⟨R.faithful hnext, ht⟩)
      refine ⟨k, ?_⟩
      simp only [Pillar.runSteps, happ]
      rw [List.append_assoc] at hk
      exact ⟨by simpa using (Path.single hnext).append hpath, hk⟩
    · rw [← hwal] at happ
      have hlive := hlive.resolve_right fun hfirst =>
        not_firstSucceeds_of_error hbuf happ hfirst
      refine ⟨i, ?_⟩
      simp only [Pillar.runSteps, happ]
      exact ⟨.nil i, hlive, hbuf, trivial, by simpa using hlog⟩

/-- So do the appends of an operation the process is lost in. -/
theorem crashIn_keeps {steps : List (LogStep σ ρ)} {done n : Nat} {s : Store σ} {i : I}
    {rs : List ρ} {m : σ} (hbuf : s.wal.buf = []) (hlegal : R.LegalSteps steps m i)
    (hcut : P.replayLoop.Tolerant ∨ P.CutWhole steps done n)
    (hlog : Encodes P.walSerde rs s.wal.file) :
    ∃ j, Path R.next i (P.crashIn steps done n s).2 j ∧
      (P.crashIn steps done n s).1.snapshot = s.snapshot ∧
      Logged P.walSerde P.replayLoop.Tolerant ((P.crashIn steps done n s).1.wal.getD [])
        (rs ++ (P.crashIn steps done n s).2) := by
  induction steps generalizing done s i rs m with
  | nil => exact ⟨i, .nil i, rfl, by simpa [Pillar.crashIn] using .terminated hlog⟩
  | cons step rest ih =>
    obtain ⟨j, hnext, hcommit, hrest⟩ := hlegal
    have hwal : s.wal = ⟨s.wal.file, []⟩ := by rw [← hbuf]
    cases done with
    | zero =>
      cases ht : P.walSerde.toString step.record with
      | error e =>
        refine ⟨i, ?_⟩
        simp only [Pillar.crashIn, ht]
        exact ⟨.nil i, rfl, by simpa using .terminated hlog⟩
      | ok t =>
        have hcut' : P.replayLoop.Tolerant ∨ n = 0 ∨ (asBytes t).length ≤ n :=
          hcut.imp id (Or.imp id fun h => h step rfl t ht)
        have hl := hlog.cut ⟨R.faithful hnext, ht⟩ hcut'
        simp only [Pillar.crashIn, ht, hbuf, List.nil_append, List.length_nil, Nat.zero_add,
          Option.getD_some]
        split_ifs at hl ⊢ with hn
        · exact ⟨j, .single hnext, rfl, hl⟩
        · exact ⟨i, .nil i, rfl, by simpa using hl⟩
    | succ done =>
      have hnone (t : Text) (_ : P.walSerde.toString step.record = .ok t) :
          Fault.none.LeavesNothing t := Or.inl trivial
      rcases appendWal_of_leavesNothing P.walSerde P.persistenceFailed s.wal.file step.record
        hnone with ⟨t, ht, -, happ⟩ | ⟨e, happ⟩
      · rw [← hwal] at happ
        obtain ⟨k, hpath, hk⟩ := ih (s := ⟨s.state, s.snapshot, s.tmp,
          ⟨s.wal.file ++ wireLine t, []⟩⟩) rfl hrest hcut (hlog.snoc ⟨R.faithful hnext, ht⟩)
        refine ⟨k, ?_⟩
        simp only [Pillar.crashIn, happ]
        rw [List.append_assoc] at hk
        exact ⟨by simpa using (Path.single hnext).append hpath, hk⟩
      · rw [← hwal] at happ
        refine ⟨i, ?_⟩
        simp only [Pillar.crashIn, happ]
        exact ⟨.nil i, rfl, by simpa using .terminated hlog⟩

/-- What files hold depends on the snapshot and the log. -/
theorem Holds.congr {ledger : List ρ} {f g : Files} {i : I} (h : R.Holds ledger f i)
    (hs : g.snapshot = f.snapshot) (hw : g.wal.getD [] = f.wal.getD []) :
    R.Holds ledger g i := by
  obtain ⟨s₀, i₀, rs, hsnap, hloaded, hledger, hlog, hpath⟩ := h
  refine ⟨s₀, i₀, rs, ?_, hloaded, hledger, hw ▸ hlog, hpath⟩
  rw [← hsnap, Pillar.loadSnapshot, Pillar.loadSnapshot, hs]

/-- A new snapshot with a log holds what the log leads to from the captured state. -/
theorem holds_snapshot {R : Refinement P I} (hR : R.Restores) {order : ω} {s : σ} {i : I}
    (hs : R.live s i) {bytes : Bytes}
    (hb : P.snapSerde.toWriter (P.capture order s) = .ok bytes) :
    ∃ j, R.compacts i j ∧ R.live s j ∧ ∀ {ledger : List ρ} {f : Files} {rs : List ρ} {k : I},
      f.snapshot = some bytes → rs <:+ ledger →
        Logged P.walSerde P.replayLoop.Tolerant (f.wal.getD []) rs → Path R.next j rs k →
          R.Holds ledger f k := by
  obtain ⟨hfaithful, s', j, hrestore, hloaded, hlive, hcompacts⟩ := hR hs order
  refine ⟨j, hcompacts, hlive, fun hf hledger hlog hpath =>
    ⟨s', j, _, ?_, hloaded, hledger, hlog, hpath⟩⟩
  simp only [Pillar.loadSnapshot, hf, hfaithful bytes hb, hrestore]

private theorem serves_call {p : Plan σ ρ} {faults : List Fault} {ledger : List ρ}
    {s : Store σ} {i : I} (h : R.Serves ledger s i) (hlegal : R.Legal p faults i)
    (hstart : Pillar.StartsTerminated p.steps s) (hfaults : P.Harmless p.steps faults) :
    ∃ j, Path R.next i (P.call p faults s).logged j ∧
      R.Serves (ledger ++ (P.call p faults s).logged) (P.call p faults s).store j := by
  by_cases hnil : p.steps = []
  · have hlive := hlegal.1.resolve_right fun ⟨step, hm, _⟩ => by simp [hnil] at hm
    rw [Pillar.call, hnil]
    refine ⟨i, .nil i, h.unbuffered, hlive, ?_⟩
    simp only [Pillar.runSteps, List.append_nil]
    exact h.holds
  · obtain ⟨s₀, i₀, rs, hsnap, hloaded, hledger, hlog, hpath⟩ := h.holds
    obtain ⟨j, hj, hlive, hbuf, hsame, hlog'⟩ := R.runSteps_keeps
      (s := { s with state := p.prepared }) h.unbuffered hlegal.1 hlegal.2 hfaults
      (hlog.encodes (hstart hnil))
    refine ⟨j, hj, hbuf, hlive, s₀, i₀, _, ?_, hloaded, List.suffix_append_self_iff.mpr hledger,
      .terminated hlog', hpath.append hj⟩
    rw [← hsnap, Pillar.loadSnapshot, Pillar.loadSnapshot, Pillar.call]
    simp only [Store.files, hsame]

private theorem holds_crash {p : Plan σ ρ} {done n : Nat} {ledger : List ρ} {s : Store σ}
    {i : I} (h : R.Serves ledger s i) (hlegal : R.LegalSteps p.steps p.prepared i)
    (hstart : Pillar.StartsTerminated p.steps s)
    (hcut : P.replayLoop.Tolerant ∨ P.CutWhole p.steps done n) :
    ∃ j, Path R.next i (P.crashIn p.steps done n s).2 j ∧
      R.Holds (ledger ++ (P.crashIn p.steps done n s).2) (P.crashIn p.steps done n s).1 j := by
  by_cases hnil : p.steps = []
  · rw [hnil]
    exact ⟨i, .nil i, by simpa [Pillar.crashIn] using h.holds⟩
  · obtain ⟨s₀, i₀, rs, hsnap, hloaded, hledger, hlog, hpath⟩ := h.holds
    obtain ⟨j, hj, hsame, hlog'⟩ := R.crashIn_keeps h.unbuffered hlegal hcut
      (hlog.encodes (hstart hnil))
    refine ⟨j, hj, s₀, i₀, _, ?_, hloaded, List.suffix_append_self_iff.mpr hledger, hlog',
      hpath.append hj⟩
    rw [← hsnap, Pillar.loadSnapshot, Pillar.loadSnapshot, hsame]
    rfl

/-- A snapshot leaves files that hold what memory stands for, whatever the log was. -/
theorem serves_of_snapshot (ledger : List ρ) {s : Store σ} {i : I} (hR : R.Restores)
    (hs : R.live s.state i) {order : ω} {bytes : Bytes}
    (hb : P.snapSerde.toWriter (P.capture order s.state) = .ok bytes) :
    ∃ j, R.compacts i j ∧ R.Serves ledger (P.snapshot order s).2 j := by
  obtain ⟨j, hcompacts, hlive, hholds⟩ := holds_snapshot hR hs hb
  rw [P.snapshot_of_ok hb]
  exact ⟨j, hcompacts, rfl, hlive,
    hholds rfl List.nil_suffix (.terminated (.nil _)) (.nil j)⟩

private theorem serves_snapshot {ledger : List ρ} {s : Store σ} {i : I}
    (h : R.Serves ledger s i) (hR : R.Restores) (order : ω) :
    ∃ j, R.Reaches i [] j ∧ R.Serves ledger (P.snapshot order s).2 j := by
  cases hb : P.snapSerde.toWriter (P.capture order s.state) with
  | ok bytes =>
    obtain ⟨j, hcompacts, hserves⟩ := R.serves_of_snapshot ledger hR h.live hb
    exact ⟨j, .silent (.nil i) hcompacts, hserves⟩
  | error e =>
    rw [P.snapshot_of_error h.unbuffered hb]
    exact ⟨i, .nil i, h.unbuffered, h.live, Holds.congr R h.holds rfl rfl⟩

/-- A crash between the rename and the truncation leaves the new snapshot beside the log
that led to it. -/
theorem holds_renamed {ledger : List ρ} {s : Store σ} {i : I} (h : R.Serves ledger s i)
    (hR : R.Restores) {order : ω} {k : Nat} (hk : P.snapshotStage order s k = .renamed) :
    ∃ s₀ i₀ rs j, R.loaded s₀ i₀ ∧ Logged P.walSerde P.replayLoop.Tolerant s.wal.file rs ∧
      Path R.next i₀ rs i ∧ R.compacts i j ∧ R.live s.state j ∧
        ∀ k', Path R.next j rs k' → R.Holds ledger (P.snapshotCrash order s k) k' := by
  obtain ⟨s₀, i₀, rs, -, hloaded, hledger, hlog, hpath⟩ := h.holds
  rcases P.snapshotCrash_cases order h.unbuffered k with
    ⟨hstage, -, -⟩ | ⟨bytes, hb, hsnap, ⟨-, hwal⟩ | ⟨hstage, -⟩⟩
  · rw [hk] at hstage
    cases hstage
  · obtain ⟨j, hcompacts, hlive, hholds⟩ := holds_snapshot hR h.live hb
    exact ⟨s₀, i₀, rs, j, hloaded, hlog, hpath, hcompacts, hlive, fun k' hk' =>
      hholds hsnap hledger (by rw [hwal]; exact hlog) hk'⟩
  · rw [hk] at hstage
    cases hstage

/-- A crash elsewhere inside `snapshot` leaves files that hold what the store stood for. -/
theorem holds_unless_renamed {ledger : List ρ} {s : Store σ} {i : I}
    (h : R.Serves ledger s i) (hR : R.Restores) {order : ω} {k : Nat}
    (hk : P.snapshotStage order s k ≠ .renamed) :
    ∃ j, R.Holds ledger (P.snapshotCrash order s k) j ∧ R.live s.state j ∧
      (P.snapshotStage order s k = .unrenamed ∧ j = i ∨
        P.snapshotStage order s k = .truncated ∧ R.compacts i j) := by
  rcases P.snapshotCrash_cases order h.unbuffered k with
    ⟨hstage, hsnap, hwal⟩ | ⟨bytes, hb, hsnap, ⟨hstage, -⟩ | ⟨hstage, hwal⟩⟩
  · exact ⟨i, Holds.congr R h.holds hsnap (by rw [hwal]; rfl), h.live, Or.inl ⟨hstage, rfl⟩⟩
  · exact absurd hstage hk
  · obtain ⟨j, hcompacts, hlive, hholds⟩ := holds_snapshot hR h.live hb
    have hlog : Logged P.walSerde P.replayLoop.Tolerant
        ((P.snapshotCrash order s k).wal.getD []) [] := by
      rw [hwal]
      exact .terminated (.nil _)
    exact ⟨j, hholds hsnap List.nil_suffix hlog (.nil j), hlive, Or.inr ⟨hstage, hcompacts⟩⟩

/-- Files after a crash inside `snapshot` that no second replay can show. -/
theorem holds_crashInSnapshot {ledger : List ρ} {s : Store σ} {i : I}
    (h : R.Serves ledger s i) (hR : R.Restores) {order : ω} {k : Nat}
    (hcut : R.Idempotent ∨ P.snapshotStage order s k ≠ .renamed ∨ s.wal.file = []) :
    ∃ j, R.Reaches i [] j ∧ R.live s.state j ∧ R.Holds ledger (P.snapshotCrash order s k) j := by
  by_cases hk : P.snapshotStage order s k = .renamed
  · obtain ⟨s₀, i₀, rs, j, -, hlog, hpath, hcompacts, hlive, hholds⟩ := R.holds_renamed h hR hk
    refine ⟨j, .silent (.nil i) hcompacts, hlive, hholds j ?_⟩
    rcases hcut with hidem | hne | hempty
    · exact hidem hpath hcompacts
    · exact absurd hk hne
    · obtain rfl := (hlog.encodes (Or.inl hempty)).eq_nil_iff.mp hempty
      exact .nil j
  · obtain ⟨j, hholds, hlive, ⟨-, rfl⟩ | ⟨-, hcompacts⟩⟩ := R.holds_unless_renamed h hR hk
    · exact ⟨j, .nil j, hlive, hholds⟩
    · exact ⟨j, .silent (.nil i) hcompacts, hlive, hholds⟩

/-- What a dropped store leaves holds what the store stood for. -/
theorem Serves.drop {ledger : List ρ} {s : Store σ} {i : I} (h : R.Serves ledger s i) :
    R.Holds ledger s.drop i :=
  Holds.congr R h.holds rfl (by simp [Store.drop, Store.files, h.unbuffered])

/-- The step theorem: after a sound event the node stands for what the records it logged
lead to. -/
theorem Stands.step {plan : C → σ → Plan σ ρ} {w : World σ ρ} {e : Event C ω} {i : I}
    (h : R.Stands w.ledger w.node i) (he : R.Sound plan w e) :
    ∃ rs j, (P.step plan w e).ledger = w.ledger ++ rs ∧ R.Reaches i rs j ∧
      R.Stands (w.ledger ++ rs) (P.step plan w e).node j := by
  obtain ⟨node, ledger⟩ := w
  have still {node' : Node σ} {j : I} (hreach : R.Reaches i [] j)
      (h' : R.Stands ledger node' j) : ∃ rs j, ledger = ledger ++ rs ∧ R.Reaches i rs j ∧
        R.Stands (ledger ++ rs) node' j :=
    ⟨[], j, (List.append_nil _).symm, hreach, by rwa [List.append_nil]⟩
  cases node with
  | down f =>
    cases e with
    | openStore =>
      obtain ⟨s, hs, hserves⟩ := Holds.opens R h
      simp only [Pillar.step, hs]
      exact still (.nil i) hserves
    | _ => exact still (.nil i) h
  | up s =>
    cases e with
    | openStore => exact still (.nil i) h
    | close => exact still (.nil i) (Serves.drop R h)
    | call c faults =>
      obtain ⟨j, hj, hserves⟩ := R.serves_call h (he.1 h.live) he.2.1 he.2.2
      exact ⟨_, j, rfl, hj.reach, hserves⟩
    | crash c done n =>
      obtain ⟨j, hj, hholds⟩ := R.holds_crash h (he.1 h.live) he.2.1 he.2.2
      exact ⟨_, j, rfl, hj.reach, hholds⟩
    | snapshot order =>
      obtain ⟨j, hj, hserves⟩ := R.serves_snapshot h he order
      exact still hj hserves
    | crashInSnapshot order k =>
      obtain ⟨j, hj, -, hholds⟩ := R.holds_crashInSnapshot h he.1 he.2
      exact still hj hholds

/-- The run theorem: sound events lead from what a node stands for along what they log. -/
theorem Stands.run {plan : C → σ → Plan σ ρ} {w : World σ ρ} {events : List (Event C ω)}
    {i : I} (h : R.Stands w.ledger w.node i)
    (hevents : Run.AllSteps (P.step plan) (R.Sound plan) w events) :
    ∃ rs j, (Run.run (P.step plan) w events).ledger = w.ledger ++ rs ∧ R.Reaches i rs j ∧
      R.Stands (w.ledger ++ rs) (Run.run (P.step plan) w events).node j := by
  induction events generalizing w i with
  | nil => exact ⟨[], i, (List.append_nil _).symm, .nil i, by rwa [List.append_nil]⟩
  | cons e events ih =>
    obtain ⟨rs, j, hledger, hreach, hstands⟩ := Stands.step R h hevents.1
    rw [← hledger] at hstands
    obtain ⟨rs', k, hledger', hreach', hstands'⟩ := ih hstands hevents.2
    rw [hledger, List.append_assoc] at hledger' hstands'
    exact ⟨rs ++ rs', k, hledger', hreach.append hreach', hstands'⟩

/-- Sound events keep the invariant. -/
theorem Invariant.run {plan : C → σ → Plan σ ρ} {w : World σ ρ} {events : List (Event C ω)}
    (h : R.Invariant w) (hevents : Run.AllSteps (P.step plan) (R.Sound plan) w events) :
    R.Invariant (Run.run (P.step plan) w events) := by
  obtain ⟨i, hi, hstands⟩ := h
  obtain ⟨rs, j, hledger, hreach, hstands'⟩ := Stands.run R hstands hevents
  refine ⟨j, ?_, ?_⟩
  · rw [hledger]
    exact hi.append hreach
  · rw [hledger]
    exact hstands'

/-- Crashes inside appends to terminated logs are sound for a store that forgives a torn
tail. -/
theorem sound_of_crashOnly {plan : C → σ → Plan σ ρ} {allowed : C → Prop}
    (htolerant : P.replayLoop.Tolerant)
    (hlegal : ∀ c, allowed c → ∀ {s i}, R.live s i → R.Legal (plan c s) [] i) {w : World σ ρ}
    {e : Event C ω} (he : e.CrashOnly) (hcalls : e.Calls allowed)
    (hterm : Pillar.AppendsTerminated plan w e) : R.Sound plan w e := by
  obtain ⟨node, ledger⟩ := w
  cases node with
  | down f => cases e <;> exact trivial
  | up s =>
    cases e with
    | call c faults =>
      obtain rfl : faults = [] := he
      exact ⟨hlegal c hcalls, hterm, Pillar.harmless_nil _⟩
    | crash c done n =>
      exact ⟨fun hlive => (hlegal c hcalls hlive).2, hterm, Or.inl htolerant⟩
    | snapshot order => exact absurd he id
    | crashInSnapshot order k => exact absurd he id
    | _ => exact trivial

/-- Crashes that leave none or all of the text of a record are sound for every store, if the
logs they append to are terminated. -/
theorem sound_of_crashesWhole {plan : C → σ → Plan σ ρ} (hR : R.Restores)
    (hsteps : ∀ c {s i}, R.live s i → R.LegalSteps (plan c s).steps (plan c s).prepared i)
    {w : World σ ρ} {e : Event C ω}
    (hlegal : ∀ {s c i}, w.node = .up s → e = .call c [] → R.live s.state i →
      R.Legal (plan c s.state) [] i)
    (he : e.CrashOrSnapshot) (hterm : Pillar.AppendsTerminated plan w e)
    (hcut : P.CrashesWhole plan w e) : R.Sound plan w e := by
  obtain ⟨node, ledger⟩ := w
  cases node with
  | down f => cases e <;> exact trivial
  | up s =>
    cases e with
    | call c faults =>
      obtain rfl : faults = [] := he
      exact ⟨hlegal rfl rfl, hterm, Pillar.harmless_nil _⟩
    | crash c done n => exact ⟨hsteps c, hterm, Or.inr hcut⟩
    | snapshot order => exact hR
    | crashInSnapshot order k => exact absurd he id
    | _ => exact trivial

/-- A condition under which runs are sound makes a store recover what its abstract state
amounts to. -/
theorem recovers {plan : C → σ → Plan σ ρ} {cond : World σ ρ → Event C ω → Prop}
    {holds : σ → List ρ → Prop}
    (hsound : ∀ events, Run.AllSteps (P.step plan) cond (World.init σ ρ) events →
      Run.AllSteps (P.step plan) (R.Sound plan) (World.init σ ρ) events)
    (hholds : ∀ {ledger i d}, R.Reaches R.init ledger i → R.disk d i →
      holds (P.settle d) ledger) : P.Recovers plan cond holds := by
  intro events hevents
  obtain ⟨i, hreach, hstands⟩ := Invariant.run R R.invariant_init (hsound events hevents)
  cases hn : (Run.run (P.step plan) (World.init σ ρ) events).node with
  | up s => trivial
  | down f =>
    rw [hn] at hstands
    obtain ⟨d, hd, hopen⟩ := Holds.settles R hstands
    exact ⟨_, hopen, hholds hreach hd⟩

/-- Nothing is buffered and no line of the log is unfinished. -/
def Tidy (w : World σ ρ) : Prop :=
  match w.node with
  | .down f => Terminated (f.wal.getD [])
  | .up s => s.wal.buf = [] ∧ Terminated s.wal.file

/-- Operations are legal, failing appends leave nothing, and the process is lost neither
inside an append nor where a second replay of the log would show. -/
def Gentle (plan : C → σ → Plan σ ρ) (w : World σ ρ) (e : Event C ω) : Prop :=
  match w.node, e with
  | .up s, .call c faults =>
    (∀ {i}, R.live s.state i → R.Legal (plan c s.state) faults i) ∧
      P.Harmless (plan c s.state).steps faults
  | .up _, .crash _ _ _ => False
  | .up s, .crashInSnapshot order k =>
    R.Idempotent ∨ P.snapshotStage order s k ≠ .renamed ∨ s.wal.file = []
  | _, _ => True

theorem terminated_wireLine (b : Bytes) (t : Text) : Terminated (b ++ wireLine t) :=
  Or.inr (by simp [wireLine])

private theorem runSteps_tidy {steps : List (LogStep σ ρ)} {faults : List Fault} {s : Store σ}
    (hbuf : s.wal.buf = []) (hterm : Terminated s.wal.file) (hfaults : P.Harmless steps faults) :
    (P.runSteps steps faults s).store.wal.buf = [] ∧
      Terminated (P.runSteps steps faults s).store.wal.file := by
  induction steps generalizing faults s with
  | nil => exact ⟨hbuf, hterm⟩
  | cons step rest ih =>
    have hwal : s.wal = ⟨s.wal.file, []⟩ := by rw [← hbuf]
    rcases appendWal_of_leavesNothing P.walSerde P.persistenceFailed s.wal.file step.record
      (fun t ht => (hfaults t ht).1) with ⟨t, ht, hacc, happ⟩ | ⟨e, happ⟩ <;>
      rw [← hwal] at happ <;> simp only [Pillar.runSteps, happ]
    · exact ih rfl (terminated_wireLine _ t) ((hfaults t ht).2 hacc)
    · exact ⟨hbuf, hterm⟩

private theorem tidy_crashInSnapshot {s : Store σ} {order : ω} {k : Nat}
    (hbuf : s.wal.buf = []) (hterm : Terminated s.wal.file) :
    Terminated ((P.snapshotCrash order s k).wal.getD []) := by
  rcases P.snapshotCrash_cases order hbuf k with
    ⟨-, -, hwal⟩ | ⟨bytes, -, -, ⟨-, hwal⟩ | ⟨-, hwal⟩⟩ <;> rw [hwal]
  · exact hterm
  · exact hterm
  · exact Or.inl rfl

/-- Gentle events keep the log tidy. -/
theorem Tidy.step {plan : C → σ → Plan σ ρ} {w : World σ ρ} {e : Event C ω}
    (h : Tidy w) (he : R.Gentle plan w e) : Tidy (P.step plan w e) := by
  obtain ⟨node, ledger⟩ := w
  cases node with
  | down f =>
    cases e with
    | openStore =>
      simp only [Pillar.step, P.openWithFsyncBackend_eq]
      cases (P.loadSnapshot f).bind (P.replay (f.wal.getD [])) with
      | error e => exact h
      | ok s => exact ⟨rfl, h⟩
    | _ => exact h
  | up s =>
    cases e with
    | openStore => exact h
    | close =>
      change Terminated (s.wal.file ++ s.wal.buf)
      rw [h.1, List.append_nil]
      exact h.2
    | call c faults => exact runSteps_tidy (s := ⟨_, s.snapshot, s.tmp, s.wal⟩) h.1 h.2 he.2
    | crash c done n => exact absurd he id
    | snapshot order =>
      cases hb : P.snapSerde.toWriter (P.capture order s.state) with
      | ok bytes => simp only [Pillar.step, P.snapshot_of_ok hb]; exact ⟨rfl, Or.inl rfl⟩
      | error e => simp only [Pillar.step, P.snapshot_of_error h.1 hb]; exact h
    | crashInSnapshot order k => exact tidy_crashInSnapshot h.1 h.2

/-- A gentle event on a tidy log is sound. -/
theorem Gentle.sound {plan : C → σ → Plan σ ρ} (hR : R.Restores) {w : World σ ρ}
    {e : Event C ω} (h : Tidy w) (he : R.Gentle plan w e) : R.Sound plan w e := by
  obtain ⟨node, ledger⟩ := w
  cases node with
  | down f => cases e <;> exact trivial
  | up s =>
    cases e with
    | call c faults => exact ⟨he.1, fun _ => h.2, he.2⟩
    | crash c done n => exact absurd he id
    | snapshot order => exact hR
    | crashInSnapshot order k => exact ⟨hR, he⟩
    | _ => exact trivial

/-- Gentle events are sound from a tidy log on, and keep it tidy. -/
theorem gentle_run {plan : C → σ → Plan σ ρ} (hR : R.Restores) {w : World σ ρ}
    {events : List (Event C ω)} (hw : Tidy w)
    (h : Run.AllSteps (P.step plan) (R.Gentle plan) w events) :
    Run.AllSteps (P.step plan) (R.Sound plan) w events ∧
      Tidy (Run.run (P.step plan) w events) := by
  have keep : ∀ w e, Tidy w → R.Gentle plan w e → Tidy (P.step plan w e) :=
    fun _ _ hw he => Tidy.step R hw he
  exact ⟨h.imp keep (fun _ _ hw he => Gentle.sound R hR hw he) hw, h.invariant keep hw⟩

theorem tidy_init : Tidy (World.init σ ρ) := Or.inl rfl

/-- Orderly events are gentle. -/
theorem gentle_of_orderly {plan : C → σ → Plan σ ρ} {w : World σ ρ} {e : Event C ω}
    (hlegal : ∀ {s c i}, w.node = .up s → e = .call c [] → R.live s.state i →
      R.Legal (plan c s.state) [] i) (he : e.Orderly) : R.Gentle plan w e := by
  obtain ⟨node, ledger⟩ := w
  cases node with
  | down f => cases e <;> exact trivial
  | up s =>
    cases e with
    | call c faults =>
      obtain rfl : faults = [] := he
      exact ⟨hlegal rfl rfl, Pillar.harmless_nil _⟩
    | crash c done n => exact absurd he id
    | crashInSnapshot order k => exact absurd he id
    | _ => exact trivial

/-- Events without crashes are gentle when failing appends leave nothing; where a second
replay is harmless, so are crashes inside `snapshot`. -/
theorem gentle_of_harmless {plan : C → σ → Plan σ ρ} {w : World σ ρ} {e : Event C ω}
    (hlegal : ∀ {s c faults i}, w.node = .up s → e = .call c faults → R.live s.state i →
      R.Legal (plan c s.state) faults i) (hfaults : P.FaultsHarmless plan w e)
    (he : e.Crashless ∨ R.Idempotent ∧ e.Untorn) : R.Gentle plan w e := by
  obtain ⟨node, ledger⟩ := w
  cases node with
  | down f => cases e <;> exact trivial
  | up s =>
    cases e with
    | call c faults => exact ⟨hlegal rfl rfl, hfaults⟩
    | crash c done n => exact absurd he (by simp [Event.Crashless, Event.Untorn])
    | crashInSnapshot order k =>
      exact Or.inl (he.resolve_left (by simp [Event.Crashless])).1
    | _ => exact trivial

/-- Every open store that gentle events lead to serves what its ledger reaches, from a
terminated log. -/
theorem everyStore {plan : C → σ → Plan σ ρ} {cond : World σ ρ → Event C ω → Prop}
    {Q : Store σ → List ρ → Prop} (hR : R.Restores)
    (hgentle : ∀ w e, cond w e → R.Gentle plan w e)
    (hQ : ∀ {ledger s i}, R.Reaches R.init ledger i → R.Serves ledger s i →
      Terminated s.wal.file → Q s ledger) : P.EveryStore plan cond Q := by
  intro events s hevents hn
  obtain ⟨hsound, htidy⟩ := R.gentle_run hR tidy_init (hevents.mono hgentle)
  obtain ⟨i, hreach, hstands⟩ := Invariant.run R R.invariant_init hsound
  rw [hn] at hstands
  rw [Tidy, hn] at htidy
  exact hQ hreach hstands htidy.2

end Refinement

end Kaleidoscope
