import Kaleidoscope.Library.Run

/-!
# Interleavings

Threads share a state. A call starts a thread, each thread takes one atomic step at a time, and
the turns come in any order. An assertion about a thread depends on the point that it has reached,
and holds on as long as no step of another thread disturbs it.
-/

namespace Interleaving

open Run
open scoped List

variable {S T C : Type}

/-- The shared state, with the points that the threads have reached; `none` has finished. -/
structure Threads (S T : Type) where
  shared : S
  points : List (Option T)

/-- A call starts a thread, or a thread takes its next step. -/
inductive Turn (C : Type) where
  | start (call : C)
  | advance (thread : Nat)

variable (entry : C → T) (step : T → S → Option T × S)

/-- One turn. -/
def turn (w : Threads S T) : Turn C → Threads S T
  | .start call => { w with points := w.points ++ [some (entry call)] }
  | .advance thread =>
    match w.points[thread]? with
    | some (some point) =>
      { shared := (step point w.shared).2, points := w.points.set thread (step point w.shared).1 }
    | _ => w

/-- Only a thread that has not finished advances. -/
theorem turn_advance_cases (w : Threads S T) (thread : Nat) :
    turn entry step w (.advance thread) = w ∨
      ∃ point, w.points[thread]? = some (some point) := by
  rw [turn]
  rcases hpoint : w.points[thread]? with _ | _ | point
  · exact .inl rfl
  · exact .inl rfl
  · exact .inr ⟨point, rfl⟩

variable {entry step}

theorem turn_advance {w : Threads S T} {thread : Nat} {point : T}
    (h : w.points[thread]? = some (some point)) :
    turn entry step w (.advance thread) =
      ⟨(step point w.shared).2, w.points.set thread (step point w.shared).1⟩ := by
  rw [turn, h]

section Assertions

variable {Inv : S → Prop} {At : T → S → Prop}

/-- The invariant holds, and so does what is asserted at the point of each thread. -/
structure Holds (Inv : S → Prop) (At : T → S → Prop) (w : Threads S T) : Prop where
  shared : Inv w.shared
  points : ∀ point, some point ∈ w.points → At point w.shared

/-- The assertions are met by the calls, by the steps of a thread itself and by those of others. -/
structure Proved (entry : C → T) (step : T → S → Option T × S) (Inv : S → Prop)
    (At : T → S → Prop) : Prop where
  entry : ∀ call s, Inv s → At (entry call) s
  shared : ∀ point s, Inv s → At point s → Inv (step point s).2
  own : ∀ point s, Inv s → At point s → ∀ next, (step point s).1 = some next →
    At next (step point s).2
  others : ∀ point other s, Inv s → At point s → At other s → At other (step point s).2

/-- The step theorem. -/
theorem Proved.turn (hproved : Proved entry step Inv At) {w : Threads S T} (h : Holds Inv At w)
    (e : Turn C) : Holds Inv At (turn entry step w e) := by
  cases e with
  | start call =>
    refine ⟨h.shared, fun point hpoint => ?_⟩
    rcases List.mem_append.mp hpoint with hold | hnew
    · exact h.points point hold
    · obtain rfl : point = entry call := by simpa using hnew
      exact hproved.entry call w.shared h.shared
  | advance thread =>
    rcases turn_advance_cases entry step w thread with hsame | ⟨point, hpoint⟩
    · rw [hsame]
      exact h
    · have hat : At point w.shared := h.points point (List.mem_of_getElem? hpoint)
      rw [turn_advance hpoint]
      refine ⟨hproved.shared point w.shared h.shared hat, fun other hother => ?_⟩
      rcases List.mem_or_eq_of_mem_set hother with hold | hnext
      · exact hproved.others point other w.shared h.shared hat (h.points other hold)
      · exact hproved.own point w.shared h.shared hat other hnext.symm

/-- So the assertions hold after every run. -/
theorem Proved.run (hproved : Proved entry step Inv At) {w : Threads S T} (h : Holds Inv At w)
    (turns : List (Turn C)) : Holds Inv At (run (Interleaving.turn entry step) w turns) :=
  invariant (Holds Inv At) (fun _ e hw => hproved.turn hw e) h turns

/-- What every step keeps, given the assertions, may be added to the invariant. -/
theorem Proved.and (hproved : Proved entry step Inv At) {Kept : S → Prop}
    (keep : ∀ point s, Inv s → At point s → Kept s → Kept (step point s).2) :
    Proved entry step (fun s => Inv s ∧ Kept s) At where
  entry call s h := hproved.entry call s h.1
  shared point s h hat := ⟨hproved.shared point s h.1 hat, keep point s h.1 hat h.2⟩
  own point s h hat := hproved.own point s h.1 hat
  others point other s h hat := hproved.others point other s h.1 hat

/-- An assertion about one thread that neither its own steps nor those of others disturb. -/
theorem Proved.track (hproved : Proved entry step Inv At) {P : Option T → S → Prop}
    (own : ∀ point s, Inv s → P (some point) s → P (step point s).1 (step point s).2)
    (others : ∀ point o s, Inv s → P o s → P o (step point s).2)
    {w : Threads S T} (hw : Holds Inv At w) {thread : Nat} {o : Option T}
    (ho : w.points[thread]? = some o) (h : P o w.shared) (turns : List (Turn C)) :
    ∃ o', (Run.run (Interleaving.turn entry step) w turns).points[thread]? = some o' ∧
      P o' (Run.run (Interleaving.turn entry step) w turns).shared := by
  refine (invariant (fun w : Threads S T => Holds Inv At w ∧ ∃ o, w.points[thread]? = some o ∧
    P o w.shared) (fun w e h => ⟨hproved.turn h.1 e, ?_⟩) ⟨hw, o, ho, h⟩ turns).2
  obtain ⟨hw, o, ho, h⟩ := h
  have hlt : thread < w.points.length := (List.getElem?_eq_some_iff.mp ho).1
  cases e with
  | start call => exact ⟨o, (List.getElem?_append_left hlt).trans ho, h⟩
  | advance other =>
    rcases turn_advance_cases entry step w other with hsame | ⟨point, hpoint⟩
    · exact ⟨o, by rw [hsame]; exact ho, by rw [hsame]; exact h⟩
    · rw [turn_advance hpoint]
      by_cases heq : other = thread
      · subst heq
        obtain rfl : o = some point := Option.some.inj (ho.symm.trans hpoint)
        exact ⟨_, List.getElem?_set_self hlt, own point w.shared hw.shared h⟩
      · exact ⟨o, (List.getElem?_set_ne heq).trans ho, others point o w.shared hw.shared h⟩

end Assertions

section Conservation

variable (stored : S → Nat) (held : T → Nat)

/-- What the shared state stores and the threads hold. -/
def total (w : Threads S T) : Nat :=
  stored w.shared + (w.points.map fun point => point.elim 0 held).sum

/-- What the calls of a run bring. -/
def brought (entry : C → T) (turns : List (Turn C)) : Nat :=
  (turns.map fun
    | .start call => held (entry call)
    | .advance _ => 0).sum

theorem sum_set {l : List Nat} {i x : Nat} (h : l[i]? = some x) (y : Nat) :
    (l.set i y).sum + x = l.sum + y := by
  induction l generalizing i with
  | nil => simp at h
  | cons z l ih =>
    cases i with
    | zero =>
      obtain rfl : z = x := by simpa using h
      simp only [List.set_cons_zero, List.sum_cons]
      omega
    | succ i =>
      have hrest := ih (i := i) (by simpa using h)
      simp only [List.set_cons_succ, List.sum_cons]
      omega

variable {stored held}

/-- Where no step loses or adds anything, as long as the total does not pass a bound, everything
the calls bring is stored or held. -/
theorem total_run {bound : Nat}
    (keep : ∀ point s, stored s + held point ≤ bound →
      stored (step point s).2 + (step point s).1.elim 0 held = stored s + held point)
    {w : Threads S T} {turns : List (Turn C)}
    (hbound : total stored held w + brought held entry turns ≤ bound) :
    total stored held (run (turn entry step) w turns) =
      total stored held w + brought held entry turns := by
  induction turns generalizing w with
  | nil => rfl
  | cons e turns ih =>
    have hnext : total stored held (turn entry step w e) =
        total stored held w + brought held entry [e] := by
      cases e with
      | start call =>
        simp only [turn, total, brought, List.map_append, List.sum_append, List.map_cons,
          List.map_nil, List.sum_cons, List.sum_nil, Option.elim_some]
        omega
      | advance thread =>
        rcases turn_advance_cases entry step w thread with
          hsame | ⟨point, hpoint⟩
        · rw [hsame]
          simp [brought]
        · have hheld : (w.points.map fun point => point.elim 0 held)[thread]? =
              some (held point) := by
            rw [List.getElem?_map, hpoint]
            rfl
          have hset := sum_set hheld ((step point w.shared).1.elim 0 held)
          have hle : held point ≤ (w.points.map fun point => point.elim 0 held).sum :=
            List.le_sum_of_mem (List.mem_of_getElem? hheld)
          have hkeep := keep point w.shared (by simp only [total] at hbound; omega)
          rw [turn_advance hpoint]
          simp only [total, brought, List.map_set, List.map_cons, List.map_nil, List.sum_cons,
            List.sum_nil] at hset ⊢
          omega
    have hsplit : brought held entry (e :: turns) =
        brought held entry [e] + brought held entry turns := by
      simp [brought]
    rw [run_cons, ih (by omega), hnext, hsplit]
    omega

end Conservation

section Items

variable {M : Type} (f : Option T → Option M)

theorem filterMap_cons_eq (point : Option T) (points : List (Option T)) :
    (point :: points).filterMap f = (f point).toList ++ points.filterMap f := by
  cases h : f point <;> simp [h]

/-- When a thread moves, what it held goes and what it holds comes. -/
theorem filterMap_set_perm {points : List (Option T)} {i : Nat} {x : Option T}
    (h : points[i]? = some x) (y : Option T) :
    ((f x).toList ++ (points.set i y).filterMap f).Perm
      ((f y).toList ++ points.filterMap f) := by
  induction points generalizing i with
  | nil => simp at h
  | cons z points ih =>
    cases i with
    | zero =>
      obtain rfl : z = x := by simpa using h
      simp only [List.set_cons_zero, filterMap_cons_eq]
      exact List.perm_append_comm_assoc _ _ _
    | succ i =>
      have hrest := ih (i := i) (by simpa using h)
      simp only [List.set_cons_succ, filterMap_cons_eq]
      calc (f x).toList ++ ((f z).toList ++ (points.set i y).filterMap f)
        _ ~ (f z).toList ++ ((f x).toList ++ (points.set i y).filterMap f) :=
          List.perm_append_comm_assoc _ _ _
        _ ~ (f z).toList ++ ((f y).toList ++ points.filterMap f) := hrest.append_left _
        _ ~ (f y).toList ++ ((f z).toList ++ points.filterMap f) :=
          List.perm_append_comm_assoc _ _ _

end Items

end Interleaving
