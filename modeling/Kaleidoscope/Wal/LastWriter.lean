import Kaleidoscope.Wal.Refinement

/-!
# Stores in which the last write wins

The tiering store and the rule-state store replay their logs by overwriting. Replaying a
log again over the state it led to changes nothing, so a snapshot may be interrupted
anywhere.
-/

namespace Kaleidoscope

open Utf8 Replay

variable {σ ρ κ ε ω C : Type}

/-- A pillar whose log records overwrite. -/
structure LastWriter (P : Pillar σ ρ κ ε ω) where
  /-- The effect of one log record. -/
  write : σ → ρ → σ
  apply_eq : ∀ s r, P.apply s r = .ok (write s r)
  settle_eq : ∀ s, P.settle s = s
  restore_capture : ∀ order s, P.restore (P.capture order s) = .ok s
  lastWrite : LastWrite write

namespace LastWriter

variable {P : Pillar σ ρ κ ε ω} (L : LastWriter P)

/-- The refinement of such a pillar: memory itself is the abstract state. -/
def refinement : Refinement P σ where
  init := P.empty
  next i r j := P.walSerde.Faithful r ∧ j = L.write i r
  compacts := Eq
  loaded := Eq
  disk := Eq
  live := Eq
  faithful h := h.1
  empty_loaded := rfl
  loaded_disk := id
  apply_disk {i r j s} h hs := ⟨j, by rw [hs, L.apply_eq, h.2], rfl⟩
  settle_live {s i} hs := by rw [L.settle_eq, hs]

theorem path_eq {i j : σ} {rs : List ρ} (h : Path L.refinement.next i rs j) :
    j = rs.foldl L.write i := Path.eq_foldl h

/-- A second replay of the log is harmless. -/
theorem idempotent : L.refinement.Idempotent := by
  rintro i rs j _ h rfl
  have hagain : Path L.refinement.next j rs (rs.foldl L.write j) :=
    path_foldl j (Path.good_of_mem h)
  have hj := L.path_eq h
  rwa [hj, L.lastWrite.foldl_idem, ← hj] at hagain

theorem restores (hsnap : ∀ k, P.snapSerde.Faithful k) : L.refinement.Restores := by
  intro s i hs order
  exact ⟨hsnap _, s, i, L.restore_capture order s, hs, hs, rfl⟩

/-- Appends that do in memory what their record does at replay are legal. -/
theorem legal_of_commit {steps : List (LogStep σ ρ)}
    (h : ∀ step ∈ steps, P.walSerde.Faithful step.record ∧
      ∀ s, step.commit s = L.write s step.record) (faults : List Fault) {s i : σ}
    (hs : s = i) : L.refinement.Legal ⟨s, steps⟩ faults i := by
  refine ⟨Or.inl hs, ?_⟩
  dsimp only
  induction steps generalizing s i with
  | nil => trivial
  | cons step steps ih =>
    obtain ⟨hfaithful, hcommit⟩ := h step List.mem_cons_self
    subst hs
    exact ⟨L.write s step.record, ⟨hfaithful, rfl⟩, hcommit s,
      ih (fun step' hm => h step' (List.mem_cons_of_mem _ hm)) (hcommit s)⟩

/-- What a reopened store holds is what the ledger wrote. -/
theorem recovers {plan : C → σ → Plan σ ρ} {cond : World σ ρ → Event C ω → Prop}
    (hsound : ∀ events, Run.AllSteps (P.step plan) cond (World.init σ ρ) events →
      Run.AllSteps (P.step plan) (L.refinement.Sound plan) (World.init σ ρ) events) :
    P.Recovers plan cond fun s ledger => s = ledger.foldl L.write P.empty := by
  refine L.refinement.recovers hsound fun {ledger i d} hreach hd => ?_
  obtain rfl := L.path_eq hreach.path
  exact L.refinement.settle_live hd

/-- An open store that serves reopens to the same state, from the files as they are and
from those a drop leaves. -/
theorem reopens {ledger : List ρ} {s : Store σ} {i : σ} (h : L.refinement.Serves ledger s i)
    {f : Files} (hf : f = s.files ∨ f = s.drop) :
    ∃ s', P.openWithFsyncBackend f = .ok s' ∧ s'.state = s.state := by
  have hholds : L.refinement.Holds ledger f i := by
    rcases hf with rfl | rfl
    · exact h.holds
    · exact Refinement.Serves.drop _ h
  obtain ⟨s', hs', hserves⟩ := hholds.opens
  exact ⟨s', hs', hserves.live.trans (Eq.symm h.live)⟩

/-- So it does after a crash at any step of `snapshot`. -/
theorem reopens_snapshotCrash (hsnap : ∀ k, P.snapSerde.Faithful k) {ledger : List ρ} {s : Store σ}
    {i : σ} (h : L.refinement.Serves ledger s i) (order : ω) (k : Nat) :
    ∃ s', P.openWithFsyncBackend (P.snapshotCrash order s k) = .ok s' ∧ s'.state = s.state := by
  have hidem : L.refinement.Idempotent ∨ P.snapshotStage order s k ≠ .renamed ∨ s.wal.file = [] :=
    Or.inl L.idempotent
  obtain ⟨j, -, hlive, hholds⟩ := L.refinement.holds_crashInSnapshot h (L.restores hsnap) hidem
  obtain ⟨s', hs', hserves⟩ := hholds.opens
  exact ⟨s', hs', hserves.live.trans (Eq.symm hlive)⟩

end LastWriter

end Kaleidoscope
