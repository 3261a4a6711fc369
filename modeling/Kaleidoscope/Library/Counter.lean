import Mathlib.Tactic

/-!
# Counters as streams of points

A counter is reported by points that declare how they add up: a delta is added to what was reported
before, a cumulative value replaces it.
-/

namespace Counter

/-- `AggregationTemporality`. -/
inductive Temporality where
  | delta
  | cumulative
  deriving DecidableEq, Repr

/-- A point of a series. -/
structure Point (S : Type) where
  series : S
  temporality : Temporality
  isMonotonic : Bool
  value : Nat
  deriving DecidableEq

variable {S : Type} [DecidableEq S]

/-- What is known of a series after one more point of it. -/
def accumulate (total : Nat) (point : Point S) : Nat :=
  match point.temporality with
  | .delta => total + point.value
  | .cumulative => point.value

/-- The total of a series that points report. -/
def reported (points : List (Point S)) (s : S) : Nat :=
  (points.filter fun point => point.series = s).foldl accumulate 0

/-- The total of a series that events add up to. -/
def counted (events : List (S × Nat)) (s : S) : Nat :=
  ((events.filter fun event => event.1 = s).map Prod.snd).sum

/-- After every event each series is reported as it was counted. -/
def CountsRight (events : List (S × Nat)) (points : List (Point S)) : Prop :=
  ∀ n s, reported (points.take n) s = counted (events.take n) s

/-- The values of a series that is declared cumulative and monotonic never decrease. -/
def NeverDecreases (points : List (Point S)) : Prop :=
  points.Pairwise fun a b => a.series = b.series → a.temporality = .cumulative →
    a.isMonotonic = true → b.temporality = .cumulative → b.isMonotonic = true → a.value ≤ b.value

/-- The amounts of events as cumulative points. -/
def asCumulative (events : List (S × Nat)) : List (Point S) :=
  events.map fun event => ⟨event.1, .cumulative, true, event.2⟩

theorem reported_concat (events : List (S × Nat)) (event : S × Nat) (s : S) :
    reported (asCumulative (events ++ [event])) s =
      if event.1 = s then event.2 else reported (asCumulative events) s := by
  rw [reported, asCumulative, List.map_append, List.filter_append, List.foldl_append]
  by_cases hs : event.1 = s
  · simp [hs, accumulate]
  · simp [hs, reported, asCumulative]

theorem counted_concat (events : List (S × Nat)) (event : S × Nat) (s : S) :
    counted (events ++ [event]) s = counted events s + if event.1 = s then event.2 else 0 := by
  rw [counted, List.filter_append, List.map_append, List.sum_append]
  by_cases hs : event.1 = s
  · simp [hs, counted]
  · simp [hs, counted]

theorem counted_eq_zero_iff (events : List (S × Nat)) (s : S) :
    counted events s = 0 ↔ ∀ event ∈ events, event.1 = s → event.2 = 0 := by
  rw [counted, List.sum_eq_zero_iff, List.forall_mem_map]
  simp only [List.mem_filter, decide_eq_true_eq, and_imp]

/-- An event that is reported by its amount is counted right if nothing was counted before. -/
theorem reported_concat_iff {events : List (S × Nat)}
    (h : ∀ s, reported (asCumulative events) s = counted events s) (event : S × Nat) :
    (∀ s, reported (asCumulative (events ++ [event])) s = counted (events ++ [event]) s) ↔
      ∀ earlier ∈ events, earlier.1 = event.1 → earlier.2 = 0 := by
  rw [← counted_eq_zero_iff]
  constructor
  · intro hall
    have hevent := hall event.1
    rw [reported_concat, counted_concat, if_pos rfl, if_pos rfl] at hevent
    omega
  · intro hzero s
    rw [reported_concat, counted_concat]
    split_ifs with hs
    · rw [← hs, hzero, Nat.zero_add]
    · exact h s

/-- Amounts that are reported as cumulative values count right as long as nothing was counted before
in the series of an event. -/
theorem countsRight_iff (events : List (S × Nat)) :
    CountsRight events (asCumulative events) ↔
      events.Pairwise fun a b => a.1 = b.1 → a.2 = 0 := by
  have htake : CountsRight events (asCumulative events) ↔
      ∀ earlier, earlier <+: events →
        ∀ s, reported (asCumulative earlier) s = counted earlier s := by
    simp only [CountsRight, asCumulative, ← List.map_take]
    constructor
    · intro h earlier hearlier
      rw [List.prefix_iff_eq_take.mp hearlier]
      exact h _
    · exact fun h n => h _ (List.take_prefix n events)
  rw [htake]
  clear htake
  induction events using List.reverseRecOn with
  | nil => simp [reported, counted, asCumulative]
  | append_singleton events event ih =>
    simp only [List.prefix_concat_iff, forall_eq_or_imp, List.pairwise_append, List.mem_singleton,
      List.pairwise_singleton, forall_eq, true_and]
    constructor
    · rintro ⟨hall, hevents⟩
      exact ⟨ih.mp hevents, (reported_concat_iff (hevents events List.prefix_rfl) event).mp hall⟩
    · rintro ⟨hpairs, hzero⟩
      have hevents := ih.mpr hpairs
      exact ⟨(reported_concat_iff (hevents events List.prefix_rfl) event).mpr hzero, hevents⟩

/-- A counter that counts right never decreases. -/
theorem CountsRight.neverDecreases {events : List (S × Nat)}
    (h : CountsRight events (asCumulative events)) : NeverDecreases (asCumulative events) := by
  rw [NeverDecreases, asCumulative, List.pairwise_map]
  refine ((countsRight_iff events).mp h).imp fun hab hs _ _ _ _ => ?_
  rw [hab hs]
  exact Nat.zero_le _

end Counter
