import Mathlib.Tactic

/-!
# Stores that are written and read

A write changes the state of a store, a read does not. A store may depend on a clock, which tells
each call a time of its own.
-/

/-- A store as its callers know it. -/
structure ReadStore (State Write Receipt Read Answer : Type) where
  write : State → Write → Receipt × State
  read : State → Read → Answer

namespace ReadStore

variable {State Write Receipt Read Answer : Type}

/-- The state after writes. -/
def after (store : ReadStore State Write Receipt Read Answer) (state : State)
    (writes : List Write) : State :=
  writes.foldl (fun state w => (store.write state w).2) state

/-- What every write keeps holds after any. -/
theorem after_induction (store : ReadStore State Write Receipt Read Answer)
    (Invariant : State → Prop) {state : State} (h : Invariant state)
    (hwrite : ∀ state w, Invariant state → Invariant (store.write state w).2)
    (writes : List Write) : Invariant (store.after state writes) := by
  induction writes generalizing state with
  | nil => exact h
  | cons w writes ih => exact ih (hwrite state w h)

/-- A call of a store. -/
inductive Call (Write Read : Type) where
  | write (w : Write)
  | read (r : Read)

/-- The state that a call leaves, at the time of the call. -/
def step (store : Nat → ReadStore State Write Receipt Read Answer) (state : State) :
    Nat × Call Write Read → State
  | (now, .write w) => ((store now).write state w).2
  | (_, .read _) => state

/-- The state that calls leave. -/
def run (store : Nat → ReadStore State Write Receipt Read Answer) (state : State)
    (calls : List (Nat × Call Write Read)) : State :=
  calls.foldl (step store) state

/-- Reads change nothing that a later call sees. -/
theorem run_reads (store : Nat → ReadStore State Write Receipt Read Answer) (state : State)
    {calls : List (Nat × Call Write Read)} (h : ∀ call ∈ calls, ∃ r, call.2 = .read r) :
    run store state calls = state := by
  induction calls with
  | nil => rfl
  | cons call calls ih =>
    obtain ⟨hcall, hcalls⟩ := List.forall_mem_cons.mp h
    obtain ⟨now, call⟩ := call
    obtain ⟨r, rfl⟩ : ∃ r, call = .read r := hcall
    exact ih hcalls

/-- Whatever was read before, a later read has the same answer. -/
def ReadsAlone (store : Nat → ReadStore State Write Receipt Read Answer) : Prop :=
  ∀ state (calls : List (Nat × Call Write Read)), (∀ call ∈ calls, ∃ r, call.2 = .read r) →
    ∀ now r, (store now).read (run store state calls) r = (store now).read state r

theorem readsAlone (store : Nat → ReadStore State Write Receipt Read Answer) :
    ReadsAlone store := by
  intro state calls hcalls now r
  rw [run_reads store state hcalls]

end ReadStore
