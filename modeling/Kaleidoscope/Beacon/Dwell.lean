import Kaleidoscope.Beacon.Server

/-!
# Held for the duration

When the loop of a rule emits, read off its observations: a rule fires at the first observation at
which its condition has held for the duration, and resolves at the first one at which it does not
hold any more. The observations of a loop are numbered; there is no last one.
-/

namespace Kaleidoscope.Beacon

open HashMap

/-- The loop of a rule on its own: the state that it holds, and what is persisted. -/
structure Loop where
  state : RuleState
  stored : Rules

namespace Loop

/-- The loop of a rule as `spawn_generation` seeds it. -/
def seeded (rule : Rule) (stored : Rules) : Loop :=
  ⟨(stored.lookup rule.name).getD .inactive, stored⟩

/-- The part of a turn of `run_rule` that is about the state. -/
def turn (rule : Rule) (loop : Loop) (turn : Turn) : Loop :=
  let next := evaluateOnce rule loop.state turn.outcome turn.now
  { state := next.1
    stored :=
      if loop.state ≠ next.1 ∧ turn.persists then applyRecord loop.stored (.put rule.name next.1)
      else loop.stored }

/-- What a turn hands to the resolver. -/
def emission (rule : Rule) (loop : Loop) (turn : Turn) : Option Emission :=
  (evaluateOnce rule loop.state turn.outcome turn.now).2

end Loop

/-- The loop has the state and the persisted states of the server's turn. -/
theorem runRule_eq_turn (generation : Generation) (server : Server) (rule : Rule) (turn : Turn) :
    (runRule generation server rule turn).stored =
        (Loop.turn rule ⟨generation.state rule.name, server.stored⟩ turn).stored ∧
      ∀ next, (runRule generation server rule turn).running = some next →
        next.state rule.name =
          (Loop.turn rule ⟨generation.state rule.name, server.stored⟩ turn).state := by
  refine ⟨rfl, fun next hnext => ?_⟩
  obtain rfl := Option.some.inj hnext
  exact congrArg (·.getD .inactive) (Finmap.lookup_insert generation.states)

section Run

variable (rule : Rule) (loop : Loop) (turns : Nat → Turn)

/-- The loop before its turn number `n`. -/
def loopAt : Nat → Loop
  | 0 => loop
  | n + 1 => (loopAt n).turn rule (turns n)

/-- The emission of the turn number `n`. -/
def emissionAt (n : Nat) : Option Emission := (loopAt rule loop turns n).emission rule (turns n)

/-- The condition began to hold at `j` and held before `n`. -/
structure HeldFrom (j n : Nat) : Prop where
  starts : ∀ i, i + 1 = j → (turns i).outcome = .inactive
  holds : ∀ i, j ≤ i → i < n → (turns i).outcome = .active

/-- At `k` the condition has held for the duration for the first time since `j`, and nothing fired
since. -/
structure FiresFirst (j k : Nat) : Prop where
  held : HeldFrom turns j (k + 1)
  silent : ∀ i, j ≤ i → i < k → ∀ incident, emissionAt rule loop turns i ≠ some (.firing incident)
  dwelt : rule.forDuration ≤ (turns k).now - (turns j).now
  first : ∀ i, j < i → i < k → ¬ rule.forDuration ≤ (turns i).now - (turns j).now

/-- Dwell correctness of a loop. -/
structure DwellCorrect : Prop where
  alternates : ∀ n, Bracketed.Alternates Emission.isFiring
    ((List.range n).filterMap (emissionAt rule loop turns))
  fires : ∀ k incident, emissionAt rule loop turns k = some (.firing incident) ↔
    incident = .firing rule (turns k).now ∧ ∃ j < k, FiresFirst rule loop turns j k
  resolves : ∀ m incident, emissionAt rule loop turns m = some (.resolved incident) ↔
    ∃ k < m, emissionAt rule loop turns k = some (.firing (.firing rule (turns k).now)) ∧
      (∀ i, k < i → i < m → (turns i).outcome = .active) ∧ (turns m).outcome = .inactive ∧
      incident = .resolved rule (turns k).now (turns m).now
  restarts : ∀ n, (∀ i < n, (turns i).persists) → ∀ k,
    let restarted := Loop.seeded rule (loopAt rule loop turns n).stored
    (loopAt rule restarted (fun i => turns (n + i)) k).state =
        (loopAt rule loop turns (n + k)).state ∧
      emissionAt rule restarted (fun i => turns (n + i)) k = emissionAt rule loop turns (n + k)

/-! ## What a state says about the turns before it -/

/-- The state of a loop, explained by its turns before `n`. -/
inductive Explained (n : Nat) : RuleState → Prop where
  | inactive (h : ∀ i, i + 1 = n → (turns i).outcome = .inactive) : Explained n .inactive
  | pending {j : Nat} (hj : j < n) (held : HeldFrom turns j n)
      (silent : ∀ i, j ≤ i → i < n → emissionAt rule loop turns i = none)
      (short : ∀ i, j < i → i < n → ¬ rule.forDuration ≤ (turns i).now - (turns j).now) :
      Explained n (.pending (turns j).now)
  | firing {k : Nat} (hk : k < n)
      (fired : emissionAt rule loop turns k = some (.firing (.firing rule (turns k).now)))
      (holds : ∀ i, k < i → i < n → (turns i).outcome = .active) :
      Explained n (.firing (turns k).now)

variable {turns}

theorem HeldFrom.snoc {j n : Nat} (h : HeldFrom turns j n) (hn : (turns n).outcome = .active) :
    HeldFrom turns j (n + 1) where
  starts := h.starts
  holds i hj hi := by
    rcases Nat.lt_succ_iff_lt_or_eq.mp hi with hi | rfl
    · exact h.holds i hj hi
    · exact hn

/-- The condition has held since one observation only. -/
theorem HeldFrom.unique {j j' n : Nat} (h : HeldFrom turns j n) (h' : HeldFrom turns j' n)
    (hj : j < n) (hj' : j' < n) : j = j' := by
  have hle : ∀ {j j' : Nat}, HeldFrom turns j n → HeldFrom turns j' n → j' < n → j' ≤ j := by
    intro j j' h h' hj'
    by_contra hlt
    obtain ⟨i, rfl⟩ : ∃ i, i + 1 = j' := ⟨j' - 1, by omega⟩
    have hactive := h.holds i (by omega) (by omega)
    rw [h'.starts i rfl] at hactive
    cases hactive
  exact Nat.le_antisymm (hle h' h hj) (hle h h' hj')

theorem le_durationSince_iff {since now : Int} (h : since ≤ now) (d : Nat) :
    d ≤ durationSince now since ↔ (d : Int) ≤ now - since := by
  rw [durationSince]
  omega

variable {rule loop}

/-- A loop that starts inactive is always explained. -/
theorem explained (hstart : loop.state = .inactive) (n : Nat) :
    Explained rule loop turns n (loopAt rule loop turns n).state := by
  induction n with
  | zero =>
    change Explained rule loop turns 0 loop.state
    rw [hstart]
    exact .inactive fun i hi => absurd hi (Nat.succ_ne_zero i)
  | succ n ih =>
    have hnext : (loopAt rule loop turns (n + 1)).state =
      (transition (loopAt rule loop turns n).state (turns n).outcome rule (turns n).now).1 := rfl
    have hemit : emissionAt rule loop turns n =
      (transition (loopAt rule loop turns n).state (turns n).outcome rule (turns n).now).2 := rfl
    rw [hnext]
    cases houtcome : (turns n).outcome with
    | inactive =>
      have hinactive : (transition (loopAt rule loop turns n).state .inactive rule
          (turns n).now).1 = .inactive := by
        cases (loopAt rule loop turns n).state <;> rfl
      rw [hinactive]
      exact .inactive fun i hi => by rwa [Nat.succ.inj hi]
    | active =>
      rw [houtcome] at hemit
      generalize hstate : (loopAt rule loop turns n).state = state at ih hemit ⊢
      cases ih with
      | inactive h =>
        refine .pending (Nat.lt_succ_self n) ⟨h, fun i hj hi => ?_⟩ (fun i hj hi => ?_)
          (fun i hj hi => ?_)
        · rwa [Nat.le_antisymm (Nat.le_of_lt_succ hi) hj]
        · rw [Nat.le_antisymm (Nat.le_of_lt_succ hi) hj]
          exact hemit
        · omega
      | @pending j hj held silent short =>
        by_cases hdwell : rule.forDuration ≤ durationSince (turns n).now (turns j).now
        · have hfire : transition (.pending (turns j).now) .active rule (turns n).now =
              (.firing (turns n).now, some (.firing (.firing rule (turns n).now))) := if_pos hdwell
          rw [hfire] at hemit ⊢
          exact .firing (Nat.lt_succ_self n) hemit fun i hk hi => by omega
        · have hwait : transition (.pending (turns j).now) .active rule (turns n).now =
              (.pending (turns j).now, none) := if_neg hdwell
          rw [hwait] at hemit ⊢
          refine .pending (by omega) (held.snoc houtcome) (fun i hj hi => ?_) (fun i hj hi => ?_)
          · rcases Nat.lt_succ_iff_lt_or_eq.mp hi with hi | rfl
            · exact silent i hj hi
            · exact hemit
          · rcases Nat.lt_succ_iff_lt_or_eq.mp hi with hi | rfl
            · exact short i hj hi
            · rw [durationSince] at hdwell
              omega
      | @firing k hk fired holds =>
        refine .firing (by omega) fired fun i hk hi => ?_
        rcases Nat.lt_succ_iff_lt_or_eq.mp hi with hi | rfl
        · exact holds i hk hi
        · exact houtcome

/-! ## What the emissions say -/

theorem HeldFrom.mono {j n m : Nat} (h : HeldFrom turns j n) (hm : m ≤ n) : HeldFrom turns j m where
  starts := h.starts
  holds i hj hi := h.holds i hj (by omega)

/-- A rule fires out of a pending state in which it dwelt long enough. -/
theorem of_emissionAt_firing {k : Nat} {incident : Incident}
    (h : emissionAt rule loop turns k = some (.firing incident)) :
    incident = .firing rule (turns k).now ∧ (turns k).outcome = .active ∧
      (loopAt rule loop turns (k + 1)).state = .firing (turns k).now ∧
      ∃ since, (loopAt rule loop turns k).state = .pending since ∧
        rule.forDuration ≤ durationSince (turns k).now since := by
  rw [emissionAt, Loop.emission, evaluateOnce] at h
  rw [loopAt, Loop.turn, evaluateOnce]
  cases hstate : (loopAt rule loop turns k).state <;> cases houtcome : (turns k).outcome <;>
    simp only [hstate, houtcome, transition] at h ⊢
  case pending.active since =>
    split_ifs at h ⊢ with hdwell
    cases h
    exact ⟨rfl, trivial, rfl, since, rfl, hdwell⟩
  all_goals cases h

/-- A rule resolves out of a firing state, when its condition does not hold. -/
theorem emissionAt_resolved_iff {m : Nat} {incident : Incident} :
    emissionAt rule loop turns m = some (.resolved incident) ↔
      ∃ since, (loopAt rule loop turns m).state = .firing since ∧
        (turns m).outcome = .inactive ∧ incident = .resolved rule since (turns m).now := by
  rw [emissionAt, Loop.emission, evaluateOnce]
  cases (loopAt rule loop turns m).state <;> cases (turns m).outcome <;> simp only [transition]
  case firing.inactive since => simp [eq_comm]
  case pending.active since => split_ifs <;> simp
  all_goals simp

/-- The condition holds since one observation: a rule that fired in between did so after it. -/
theorem HeldFrom.le_of_fired {j k n : Nat} (h : HeldFrom turns j n)
    (hfired : (turns k).outcome = .active)
    (holds : ∀ i, k < i → i < n → (turns i).outcome = .active) (hj : j < n) : j ≤ k := by
  by_contra hlt
  obtain ⟨i, rfl⟩ : ∃ i, i + 1 = j := ⟨j - 1, by omega⟩
  have hinactive := h.starts i rfl
  by_cases hi : i = k
  · rw [hi, hfired] at hinactive
    cases hinactive
  · rw [holds i (by omega) (by omega)] at hinactive
    cases hinactive

theorem emissionAt_firing_iff (hstart : loop.state = .inactive)
    (hmono : Monotone fun n => (turns n).now) (k : Nat) (incident : Incident) :
    emissionAt rule loop turns k = some (.firing incident) ↔
      incident = .firing rule (turns k).now ∧ ∃ j < k, FiresFirst rule loop turns j k := by
  have hexplained : Explained rule loop turns k _ := explained hstart k
  constructor
  · intro hemit
    obtain ⟨hincident, hactive, -, since, hstate, hdwell⟩ := of_emissionAt_firing hemit
    rw [hstate] at hexplained
    cases hexplained with
    | @pending j hj held silent short =>
      refine ⟨hincident, j, hj, held.snoc hactive, fun i hji hi e he => ?_, ?_, short⟩
      · rw [silent i hji hi] at he
        cases he
      · exact (le_durationSince_iff (hmono hj.le) _).mp hdwell
  · rintro ⟨rfl, j, hj, held, silent, dwelt, -⟩
    have hactive := held.holds k hj.le (Nat.lt_succ_self k)
    generalize hstate : (loopAt rule loop turns k).state = state at hexplained
    cases hexplained with
    | inactive h =>
      obtain ⟨i, rfl⟩ : ∃ i, i + 1 = k := ⟨k - 1, by omega⟩
      have hinactive := h i rfl
      rw [held.holds i (by omega) (by omega)] at hinactive
      cases hinactive
    | pending hj' held' =>
      obtain rfl := (held.mono (Nat.le_succ k)).unique held' hj hj'
      rw [emissionAt, Loop.emission, evaluateOnce, hstate, hactive, transition,
        if_pos ((le_durationSince_iff (hmono hj.le) _).mpr dwelt)]
    | firing hk fired holds =>
      have hle := (held.mono (Nat.le_succ k)).le_of_fired (of_emissionAt_firing fired).2.1 holds hj
      exact absurd fired (silent _ hle hk _)

/-- A rule that fired stays so while its condition holds. -/
theorem state_after_firing {k m : Nat} {incident : Incident} (hk : k < m)
    (hfired : emissionAt rule loop turns k = some (.firing incident))
    (holds : ∀ i, k < i → i < m → (turns i).outcome = .active) :
    (loopAt rule loop turns m).state = .firing (turns k).now := by
  induction m, hk using Nat.le_induction with
  | base => exact (of_emissionAt_firing hfired).2.2.1
  | succ m hm ih =>
    have hstate := ih fun i hi him => holds i hi (by omega)
    rw [loopAt, Loop.turn, evaluateOnce, hstate, holds m hm (Nat.lt_succ_self m)]
    rfl

/-! ## Dwell correctness -/

theorem alternates_emissionAt (hstart : loop.state = .inactive) (n : Nat) :
    Bracketed.Alternates Emission.isFiring
        ((List.range n).filterMap (emissionAt rule loop turns)) ∧
      Bracketed.isOpen Emission.isFiring
        ((List.range n).filterMap (emissionAt rule loop turns)) =
      (loopAt rule loop turns n).state.isFiring := by
  induction n with
  | zero =>
    refine ⟨Bracketed.alternates_nil _, ?_⟩
    change false = loop.state.isFiring
    rw [hstart]
    rfl
  | succ n ih =>
    obtain ⟨halternates, hopen⟩ := ih
    rw [List.range_succ, List.filterMap_append]
    cases hemit : emissionAt rule loop turns n with
    | none =>
      have hsilent := transition_silent hemit
      rw [List.filterMap_cons_none hemit, List.filterMap_nil, List.append_nil]
      exact ⟨halternates, hopen.trans hsilent.symm⟩
    | some e =>
      obtain ⟨-, hnext, hstate⟩ := transition_emits hemit
      rw [List.filterMap_cons_some hemit, List.filterMap_nil, Bracketed.alternates_snoc,
        Bracketed.isOpen_snoc, hopen, hstate, Bool.not_not]
      exact ⟨⟨halternates, rfl⟩, hnext.symm⟩

/-- A loop goes on as its state says, whatever is persisted. -/
theorem state_loopAt_congr {loop' : Loop} (h : loop.state = loop'.state) (k : Nat) :
    (loopAt rule loop turns k).state = (loopAt rule loop' turns k).state := by
  induction k with
  | zero => exact h
  | succ k ih =>
    rw [loopAt, loopAt, Loop.turn, Loop.turn, ih]

theorem loopAt_add (n k : Nat) : loopAt rule loop turns (n + k) =
    loopAt rule (loopAt rule loop turns n) (fun i => turns (n + i)) k := by
  induction k with
  | zero => rfl
  | succ k ih => rw [← Nat.add_assoc, loopAt, ih, loopAt]

/-- While every put succeeds, the state of the loop is the persisted one. -/
theorem lookup_stored {stored : Rules} {n : Nat} (h : ∀ i < n, (turns i).persists) :
    ((loopAt rule (Loop.seeded rule stored) turns n).stored.lookup rule.name).getD .inactive =
      (loopAt rule (Loop.seeded rule stored) turns n).state := by
  induction n with
  | zero => rfl
  | succ n ih =>
    have hcurrent := ih fun i hi => h i (by omega)
    rw [loopAt, Loop.turn]
    dsimp only
    split_ifs with hput
    · rw [applyRecord, Finmap.lookup_insert]
      rfl
    · rw [hcurrent]
      by_contra hne
      exact hput ⟨hne, h n (Nat.lt_succ_self n)⟩

/-- The loop of every rule that starts inactive, over observations in the order of time, emits by
the dwell of its condition. -/
theorem dwellCorrect (rule : Rule) {stored : Rules} {turns : Nat → Turn}
    (hstart : (stored.lookup rule.name).getD .inactive = .inactive)
    (hmono : Monotone fun n => (turns n).now) :
    DwellCorrect rule (Loop.seeded rule stored) turns where
  alternates n := (alternates_emissionAt hstart n).1
  fires := emissionAt_firing_iff hstart hmono
  resolves m incident := by
    rw [emissionAt_resolved_iff]
    constructor
    · rintro ⟨since, hstate, hinactive, rfl⟩
      have hexplained : Explained rule (Loop.seeded rule stored) turns m _ := explained hstart m
      rw [hstate] at hexplained
      cases hexplained with
      | firing hk fired holds => exact ⟨_, hk, fired, holds, hinactive, rfl⟩
    · rintro ⟨k, hk, fired, holds, hinactive, rfl⟩
      exact ⟨_, state_after_firing hk fired holds, hinactive, rfl⟩
  restarts n hpersists k := by
    have hseeded : (Loop.seeded rule (loopAt rule (Loop.seeded rule stored) turns n).stored).state =
      (loopAt rule (Loop.seeded rule stored) turns n).state := lookup_stored hpersists
    have hstate : (loopAt rule (Loop.seeded rule _) (fun i => turns (n + i)) k).state = _ :=
      state_loopAt_congr hseeded k
    rw [← loopAt_add] at hstate
    refine ⟨hstate, ?_⟩
    rw [emissionAt, emissionAt, Loop.emission, Loop.emission, hstate]

/-- A rule whose condition is to hold for two seconds. -/
def uplink : Rule := { Rule.bare "uplink" [] [] with forDuration := 2000000000 }

/-- One observation a second: the condition holds from the second to the fourth. -/
def uplinkTurns (n : Nat) : Turn :=
  ⟨"uplink", if 1 ≤ n ∧ n ≤ 3 then .active else .inactive, n * 1000000000, true⟩

/-- It fires at the fourth observation, by the dwell since the second, and resolves at the fifth. -/
theorem dwellCorrect_uplink :
    DwellCorrect uplink (Loop.seeded uplink ∅) uplinkTurns ∧
      (∃ j < 3, FiresFirst uplink (Loop.seeded uplink ∅) uplinkTurns j 3) ∧
      ∃ k < 4, emissionAt uplink (Loop.seeded uplink ∅) uplinkTurns k =
        some (.firing (.firing uplink (uplinkTurns k).now)) ∧ (uplinkTurns 4).outcome = .inactive := by
  have hmono : Monotone fun n => (uplinkTurns n).now := fun m n h =>
    mul_le_mul_of_nonneg_right (Int.ofNat_le.mpr h) (by decide)
  have hcorrect : DwellCorrect uplink (Loop.seeded uplink ∅) uplinkTurns :=
    dwellCorrect uplink rfl hmono
  have hfires : emissionAt uplink (Loop.seeded uplink ∅) uplinkTurns 3 =
      some (.firing (.firing uplink 3000000000)) := by decide +kernel
  have hresolves : emissionAt uplink (Loop.seeded uplink ∅) uplinkTurns 4 =
      some (.resolved (.resolved uplink 3000000000 4000000000)) := by decide +kernel
  obtain ⟨k, hk, hfired, -, hinactive, -⟩ := (hcorrect.resolves 4 _).mp hresolves
  exact ⟨hcorrect, ((hcorrect.fires 3 _).mp hfires).2, k, hk, hfired, hinactive⟩

end Run

end Kaleidoscope.Beacon
