import Kaleidoscope.Library.HashMap

/-!
# Replaying a log of records

A log is replayed by folding its records over a state. Two facts are general: a fold that
may fail follows any labelled path it simulates, and a step that obeys the last-write law
makes the fold idempotent.
-/

namespace Replay

variable {I ρ σ ε : Type}

/-- A path through a labelled transition relation, with the labels it passes. -/
inductive Path (next : I → ρ → I → Prop) : I → List ρ → I → Prop where
  | nil (i : I) : Path next i [] i
  | snoc {i j k : I} {rs : List ρ} {r : ρ} (h : Path next i rs j) (hr : next j r k) :
      Path next i (rs ++ [r]) k

theorem Path.single {next : I → ρ → I → Prop} {i j : I} {r : ρ} (h : next i r j) :
    Path next i [r] j := .snoc (.nil i) h

theorem Path.append {next : I → ρ → I → Prop} {i j k : I} {rs rs' : List ρ}
    (h : Path next i rs j) (h' : Path next j rs' k) : Path next i (rs ++ rs') k := by
  induction h' with
  | nil => simpa using h
  | snoc _ hr ih =>
    rw [← List.append_assoc]
    exact .snoc ih hr

theorem Path.mono {next next' : I → ρ → I → Prop} (himp : ∀ i r j, next i r j → next' i r j)
    {i j : I} {rs : List ρ} (h : Path next i rs j) : Path next' i rs j := by
  induction h with
  | nil => exact .nil _
  | snoc _ hr ih => exact .snoc ih (himp _ _ _ hr)

/-- A path that may also move without a label. -/
inductive Reach (next : I → ρ → I → Prop) (silent : I → I → Prop) : I → List ρ → I → Prop where
  | nil (i : I) : Reach next silent i [] i
  | snoc {i j k : I} {rs : List ρ} {r : ρ} (h : Reach next silent i rs j) (hr : next j r k) :
      Reach next silent i (rs ++ [r]) k
  | silent {i j k : I} {rs : List ρ} (h : Reach next silent i rs j) (hs : silent j k) :
      Reach next silent i rs k

theorem Path.reach {next : I → ρ → I → Prop} {silent : I → I → Prop} {i j : I} {rs : List ρ}
    (h : Path next i rs j) : Reach next silent i rs j := by
  induction h with
  | nil => exact .nil _
  | snoc _ hr ih => exact .snoc ih hr

theorem Reach.append {next : I → ρ → I → Prop} {silent : I → I → Prop} {i j k : I}
    {rs rs' : List ρ} (h : Reach next silent i rs j) (h' : Reach next silent j rs' k) :
    Reach next silent i (rs ++ rs') k := by
  induction h' with
  | nil => simpa using h
  | snoc _ hr ih =>
    rw [← List.append_assoc]
    exact .snoc ih hr
  | silent _ hs ih => exact .silent ih hs

/-- What every move keeps holds at the end. -/
theorem Reach.preserves {next : I → ρ → I → Prop} {silent : I → I → Prop} {A : I → Prop}
    {G : ρ → Prop} (hnext : ∀ {i r j}, next i r j → G r → A i → A j)
    (hsilent : ∀ {i j}, silent i j → A i → A j) {i j : I} {rs : List ρ}
    (h : Reach next silent i rs j) (hG : ∀ r ∈ rs, G r) (hi : A i) : A j := by
  induction h with
  | nil => exact hi
  | snoc _ hr ih =>
    exact hnext hr (hG _ (by simp)) (ih fun r hr' => hG r (List.mem_append_left _ hr'))
  | silent _ hs ih => exact hsilent hs (ih hG)

/-- Without silent moves a reach is a path. -/
theorem Reach.path {next : I → ρ → I → Prop} {i j : I} {rs : List ρ}
    (h : Reach next Eq i rs j) : Path next i rs j := by
  induction h with
  | nil => exact .nil _
  | snoc _ hr ih => exact .snoc ih hr
  | silent _ hs ih => exact hs ▸ ih

/-- A fallible fold that simulates each transition simulates the path. -/
theorem Path.foldlM {next : I → ρ → I → Prop} {R : σ → I → Prop} {apply : σ → ρ → Except ε σ}
    (step : ∀ i r j s, next i r j → R s i → ∃ s', apply s r = .ok s' ∧ R s' j)
    {i j : I} {rs : List ρ} (h : Path next i rs j) {s : σ} (hs : R s i) :
    ∃ s', rs.foldlM apply s = .ok s' ∧ R s' j := by
  induction h with
  | nil => exact ⟨s, rfl, hs⟩
  | snoc _ hr ih =>
    obtain ⟨s₁, h₁, hR₁⟩ := ih
    obtain ⟨s₂, h₂, hR₂⟩ := step _ _ _ _ hr hR₁
    refine ⟨s₂, ?_, hR₂⟩
    rw [List.foldlM_append, h₁]
    change (apply s₁ _ >>= fun s' => pure s') = _
    rw [h₂]
    rfl

/-- A path through the graph of a function is its fold. -/
theorem Path.eq_foldl {step : I → ρ → I} {good : ρ → Prop} {i j : I} {rs : List ρ}
    (h : Path (fun i r j => good r ∧ j = step i r) i rs j) : j = rs.foldl step i := by
  induction h with
  | nil => rfl
  | snoc _ hr ih => rw [List.foldl_append, ← ih]; exact hr.2

theorem Path.good_of_mem {step : I → ρ → I} {good : ρ → Prop} {i j : I} {rs : List ρ}
    (h : Path (fun i r j => good r ∧ j = step i r) i rs j) : ∀ r ∈ rs, good r := by
  induction h with
  | nil => simp
  | snoc _ hr ih =>
    intro r hm
    rcases List.mem_append.mp hm with hm | hm
    · exact ih r hm
    · rw [List.mem_singleton.mp hm]
      exact hr.1

theorem path_foldl {step : I → ρ → I} {good : ρ → Prop} (i : I) {rs : List ρ}
    (h : ∀ r ∈ rs, good r) :
    Path (fun i r j => good r ∧ j = step i r) i rs (rs.foldl step i) := by
  induction rs using List.reverseRecOn with
  | nil => exact .nil i
  | append_singleton rs r ih =>
    rw [List.foldl_append]
    exact .snoc (ih fun r hr => h r (List.mem_append_left _ hr)) ⟨h r (by simp), rfl⟩

/-- The last-write laws: writing a record twice is writing it once, and what it wrote
before is of no consequence once it is written again. -/
structure LastWrite (step : I → ρ → I) : Prop where
  twice : ∀ i r, step (step i r) r = step i r
  between : ∀ i r r', step (step (step i r) r') r = step (step i r') r

theorem LastWrite.foldl_absorb {step : I → ρ → I} (h : LastWrite step) (i : I) (r : ρ)
    (l : List ρ) : step (l.foldl step (step i r)) r = step (l.foldl step i) r := by
  induction l using List.reverseRecOn with
  | nil => exact h.twice i r
  | append_singleton l r' ih =>
    simp only [List.foldl_append, List.foldl_cons, List.foldl_nil]
    rw [← h.between, ih, h.between]

/-- Replaying a log over the state it produced changes nothing. -/
theorem LastWrite.foldl_idem {step : I → ρ → I} (h : LastWrite step) (i : I) (rs : List ρ) :
    rs.foldl step (rs.foldl step i) = rs.foldl step i := by
  induction rs using List.reverseRecOn with
  | nil => rfl
  | append_singleton l r ih =>
    simp only [List.foldl_append, List.foldl_cons, List.foldl_nil]
    rw [h.foldl_absorb, ih]

/-- A record that acts on one key of a hash map obeys the last-write laws when its effect
on the value does. -/
theorem LastWrite.of_lookup {K V : Type} [DecidableEq K] {step : HashMap K V → ρ → HashMap K V}
    (key : ρ → K) (effect : ρ → Option V → Option V)
    (hlookup : ∀ m r k, (step m r).lookup k =
      if k = key r then effect r (m.lookup k) else m.lookup k)
    (htwice : ∀ r v, effect r (effect r v) = effect r v)
    (hbetween : ∀ r r' v, effect r (effect r' (effect r v)) = effect r (effect r' v)) :
    LastWrite step where
  twice m r := by
    apply Finmap.ext_lookup
    intro k
    simp only [hlookup]
    split_ifs
    · exact htwice r _
    · rfl
  between m r r' := by
    apply Finmap.ext_lookup
    intro k
    simp only [hlookup]
    split_ifs
    · exact hbetween r r' _
    · exact htwice r _
    · rfl
    · rfl

end Replay
