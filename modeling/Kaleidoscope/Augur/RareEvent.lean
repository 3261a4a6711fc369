import Kaleidoscope.Augur.ZScore
import Kaleidoscope.Library.Run

/-!
# The rare-event observer

The observer counts how often each value was seen. A value is reported at the first observation at
which its share of all observations is at most a threshold, and not again until a reset.
-/

namespace Kaleidoscope.Augur

open Aegis HashMap

variable {F Time : Type}

/-- `Anomaly` of a text. -/
structure RareEvent (F Time : Type) where
  tenant : TenantId
  value : String
  score : F
  observedAt : Time
  reason : String
  deriving DecidableEq

/-- `RareEventObserver`. -/
structure RareEventObserver (F : Type) where
  rarityThreshold : F
  minSamples : Nat
  total : Nat
  counts : HashMap String Nat
  alreadyFired : Finset String

namespace RareEventObserver

/-- `RareEventObserver::new`. -/
def new (rarityThreshold : F) (minSamples : Nat) : RareEventObserver F where
  rarityThreshold
  minSamples
  total := 0
  counts := ∅
  alreadyFired := ∅

/-- `vocabulary_size`. -/
def vocabularySize (o : RareEventObserver F) : Nat := o.counts.keys.card

/-- `observe` of a text. -/
def observe [Field F] [LinearOrder F] (o : RareEventObserver F) (tenant : TenantId)
    (value : String) (observedAt : Time) : Option (RareEvent F Time) × RareEventObserver F :=
  let counts := o.counts.upsert value 0 (· + 1)
  let countAfter := (counts.lookup value).getD 0
  let o := { o with total := o.total + 1, counts }
  if o.total < o.minSamples then (none, o)
  else if value ∈ o.alreadyFired then (none, o)
  else
    let fraction : F := countAfter / o.total
    if fraction ≤ o.rarityThreshold then
      (some { tenant, value, score := fraction, observedAt,
              reason := "frequency below rarity_threshold" },
        { o with alreadyFired := insert value o.alreadyFired })
    else (none, o)

/-- `samples_seen`. -/
def samplesSeen (o : RareEventObserver F) : Nat := o.total

/-- `reset`. -/
def reset (o : RareEventObserver F) : RareEventObserver F :=
  { o with total := 0, counts := ∅, alreadyFired := ∅ }

end RareEventObserver

/-! ## What is rare -/

section Rare

variable [Field F] [LinearOrder F]

/-- The share of a value in what was observed. -/
def share (xs : List String) (value : String) : F := xs.count value / xs.length

/-- The last of the observations has a rare value. -/
def RareAt (threshold : F) (minSamples : Nat) (xs : List String) (value : String) : Prop :=
  minSamples ≤ xs.length ∧ share xs value ≤ threshold

instance (threshold : F) (minSamples : Nat) (xs : List String) (value : String) :
    Decidable (RareAt threshold minSamples xs value) :=
  inferInstanceAs (Decidable (_ ∧ _))

/-- One of the observations had the value while it was rare. -/
def WasRare (threshold : F) (minSamples : Nat) (xs : List String) (value : String) : Prop :=
  ∃ earlier, earlier ++ [value] <+: xs ∧ RareAt threshold minSamples (earlier ++ [value]) value

theorem wasRare_concat {threshold : F} {minSamples : Nat} {xs : List String} {value x : String} :
    WasRare threshold minSamples (xs ++ [x]) value ↔
      WasRare threshold minSamples xs value ∨
        x = value ∧ RareAt threshold minSamples (xs ++ [value]) value := by
  simp only [WasRare, List.prefix_concat_iff]
  constructor
  · rintro ⟨earlier, heq | hprefix, hrare⟩
    · obtain ⟨rfl, hx⟩ := List.append_inj' heq rfl
      exact .inr ⟨(List.singleton_inj.mp hx).symm, hrare⟩
    · exact .inl ⟨earlier, hprefix, hrare⟩
  · rintro (⟨earlier, hprefix, hrare⟩ | ⟨rfl, hrare⟩)
    · exact ⟨earlier, .inr hprefix, hrare⟩
    · exact ⟨xs, .inl rfl, hrare⟩

theorem not_wasRare_nil (threshold : F) (minSamples : Nat) (value : String) :
    ¬ WasRare threshold minSamples [] value := by
  rintro ⟨earlier, hprefix, -⟩
  exact absurd (List.prefix_nil.mp hprefix) (by simp)

end Rare

namespace RareEventObserver

section Tally

variable [Field F] [LinearOrder F]

/-- The observer has counted the observations, and knows what was rare. -/
structure Tally (threshold : F) (minSamples : Nat) (xs : List String) (o : RareEventObserver F) :
    Prop where
  alreadyFired : ∀ value, value ∈ o.alreadyFired ↔ WasRare threshold minSamples xs value
  rarityThreshold : o.rarityThreshold = threshold
  minSamples : o.minSamples = minSamples
  total : o.total = xs.length
  counts : ∀ value, o.counts.lookup value = if value ∈ xs then some (xs.count value) else none

variable {threshold : F} {minSamples : Nat} {xs : List String} {o : RareEventObserver F}

theorem tally_new (threshold : F) (minSamples : Nat) :
    Tally threshold minSamples [] (new threshold minSamples) where
  rarityThreshold := rfl
  minSamples := rfl
  total := rfl
  counts value := by simp [new]
  alreadyFired value :=
    iff_of_false (Finset.notMem_empty value) (not_wasRare_nil threshold minSamples value)

theorem Tally.reset (h : Tally threshold minSamples xs o) :
    Tally threshold minSamples [] o.reset where
  rarityThreshold := h.rarityThreshold
  minSamples := h.minSamples
  total := rfl
  counts value := by simp [RareEventObserver.reset]
  alreadyFired value :=
    iff_of_false (Finset.notMem_empty value) (not_wasRare_nil threshold minSamples value)

/-- The count of a value after one more observation. -/
theorem Tally.lookup_upsert (h : Tally threshold minSamples xs o) (x value : String) :
    (o.counts.upsert x 0 (· + 1)).lookup value =
      if value ∈ xs ++ [x] then some ((xs ++ [x]).count value) else none := by
  have hold : (o.counts.lookup x).getD 0 = xs.count x := by
    rw [h.counts]
    split_ifs with hmem
    · rfl
    · exact (List.count_eq_zero.mpr hmem).symm
  rw [HashMap.lookup_upsert]
  by_cases hvalue : value = x
  · subst hvalue
    rw [if_pos rfl, hold, if_pos (by simp), List.count_append, List.count_singleton_self]
  · rw [if_neg hvalue, h.counts]
    simp [hvalue, Ne.symm hvalue]

/-- The value of the last observation is rare for the first time. -/
def FirstRare (threshold : F) (minSamples : Nat) (xs : List String) (value : String) : Prop :=
  RareAt threshold minSamples (xs ++ [value]) value ∧ ¬ WasRare threshold minSamples xs value

/-- The step theorem: an observation is counted, and reported when it is rare for the first
time. -/
theorem Tally.observe (h : Tally threshold minSamples xs o) (tenant : TenantId) (value : String)
    (observedAt : Time) :
    Tally threshold minSamples (xs ++ [value]) (o.observe tenant value observedAt).2 ∧
      ∀ event, (o.observe tenant value observedAt).1 = some event ↔
        FirstRare threshold minSamples xs value ∧
          event = ⟨tenant, value, share (xs ++ [value]) value, observedAt,
            "frequency below rarity_threshold"⟩ := by
  have hcounts := h.lookup_upsert value
  obtain rfl := h.rarityThreshold
  obtain rfl := h.minSamples
  have htotal : o.total + 1 = (xs ++ [value]).length := by simp [h.total]
  have hafter : ((o.counts.upsert value 0 (· + 1)).lookup value).getD 0 =
      (xs ++ [value]).count value := by
    rw [hcounts, if_pos (by simp)]
    rfl
  -- the observer without a report
  have hkept (hrare : RareAt o.rarityThreshold o.minSamples (xs ++ [value]) value →
        WasRare o.rarityThreshold o.minSamples xs value) :
      Tally o.rarityThreshold o.minSamples (xs ++ [value])
        { o with total := o.total + 1, counts := o.counts.upsert value 0 (· + 1) } :=
    { alreadyFired := fun other => by
        rw [wasRare_concat]
        refine (h.alreadyFired other).trans ⟨.inl, ?_⟩
        rintro (hwas | ⟨rfl, hnow⟩)
        · exact hwas
        · exact hrare hnow
      rarityThreshold := rfl
      minSamples := rfl
      total := htotal
      counts := hcounts }
  simp only [RareEventObserver.observe, hafter]
  by_cases hwarm : o.total + 1 < o.minSamples
  · have hnot : ¬ RareAt o.rarityThreshold o.minSamples (xs ++ [value]) value := fun hrare =>
      absurd hrare.1 (by omega)
    rw [if_pos hwarm]
    exact ⟨hkept fun hrare => absurd hrare hnot, fun event => by simp [FirstRare, hnot]⟩
  rw [if_neg hwarm]
  by_cases hfired : value ∈ o.alreadyFired
  · have hwas := (h.alreadyFired value).mp hfired
    rw [if_pos hfired]
    exact ⟨hkept fun _ => hwas, fun event => by simp [FirstRare, hwas]⟩
  have hnew := mt (h.alreadyFired value).mpr hfired
  rw [if_neg hfired, htotal, ← share]
  by_cases hshare : (share (xs ++ [value]) value : F) ≤ o.rarityThreshold
  · have hrare : RareAt o.rarityThreshold o.minSamples (xs ++ [value]) value :=
      ⟨by omega, hshare⟩
    have hfirst : FirstRare o.rarityThreshold o.minSamples xs value := ⟨hrare, hnew⟩
    rw [if_pos hshare]
    refine ⟨⟨fun other => ?_, rfl, rfl, rfl, hcounts⟩, fun event => ?_⟩
    · rw [wasRare_concat, Finset.mem_insert, h.alreadyFired, or_comm]
      refine or_congr_right ⟨?_, fun hother => hother.1.symm⟩
      rintro rfl
      exact ⟨rfl, hrare⟩
    · simp only [Option.some.injEq, hfirst, true_and]
      exact eq_comm
  · have hnot : ¬ RareAt o.rarityThreshold o.minSamples (xs ++ [value]) value := fun hrare =>
      hshare hrare.2
    rw [if_neg hshare, ← htotal]
    exact ⟨hkept fun hrare => absurd hrare hnot, fun event => by simp [FirstRare, hnot]⟩

end Tally

end RareEventObserver

/-! ## Runs -/

/-- An observer, with what it has reported since it was new or reset. -/
structure Watch (F Time : Type) where
  observer : RareEventObserver F
  told : List (RareEvent F Time)

/-- One call. -/
def Watch.call [Field F] [LinearOrder F] (w : Watch F Time) : Call String Time → Watch F Time
  | .observe tenant value observedAt =>
    let (report, observer) := w.observer.observe tenant value observedAt
    ⟨observer, w.told ++ report.toList⟩
  | .reset => ⟨w.observer.reset, []⟩

/-- After an observation the observer is the one it leaves. -/
theorem Watch.call_observer [Field F] [LinearOrder F] (w : Watch F Time) (tenant : TenantId)
    (value : String) (observedAt : Time) :
    (w.call (.observe tenant value observedAt)).observer =
      (w.observer.observe tenant value observedAt).2 := rfl

/-- An observation adds its report, if it makes one, to what was told. -/
theorem Watch.call_told [Field F] [LinearOrder F] (w : Watch F Time) (tenant : TenantId)
    (value : String) (observedAt : Time) :
    (w.call (.observe tenant value observedAt)).told =
      w.told ++ (w.observer.observe tenant value observedAt).1.toList := rfl

/-- The observations since the construction or the last reset. -/
def observations (calls : List (Call String Time)) : List (TenantId × String × Time) :=
  Run.run (fun seen call =>
    match call with
    | .observe tenant value observedAt => seen ++ [(tenant, value, observedAt)]
    | .reset => []) [] calls

/-- Their values. -/
def valuesOf (seen : List (TenantId × String × Time)) : List String := seen.map fun e => e.2.1

section Runs

variable [Field F] [LinearOrder F]

open RareEventObserver (FirstRare Tally tally_new)

/-- The report of the last of the observations. -/
def reportOf (seen : List (TenantId × String × Time)) (last : TenantId × String × Time) :
    RareEvent F Time where
  tenant := last.1
  value := last.2.1
  score := share (valuesOf seen ++ [last.2.1]) last.2.1
  observedAt := last.2.2
  reason := "frequency below rarity_threshold"

/-- The reports of observations: each is of the first observation at which a value is rare, and each
value that was rare has one. -/
structure Told (threshold : F) (minSamples : Nat) (seen : List (TenantId × String × Time))
    (w : Watch F Time) : Prop where
  samplesSeen : w.observer.samplesSeen = seen.length
  vocabularySize : w.observer.vocabularySize = (valuesOf seen).toFinset.card
  once : (w.told.map RareEvent.value).Nodup
  complete : ∀ value, value ∈ w.told.map RareEvent.value ↔
    WasRare threshold minSamples (valuesOf seen) value
  first : ∀ event ∈ w.told, ∃ earlier last, earlier ++ [last] <+: seen ∧
    FirstRare threshold minSamples (valuesOf earlier) last.2.1 ∧ event = reportOf earlier last

variable {threshold : F} {minSamples : Nat} {seen : List (TenantId × String × Time)}
  {w : Watch F Time}

theorem valuesOf_concat (seen : List (TenantId × String × Time))
    (last : TenantId × String × Time) : valuesOf (seen ++ [last]) = valuesOf seen ++ [last.2.1] :=
  List.map_append

/-- The distinct values are those that have a count. -/
theorem vocabularySize_of_tally {xs : List String} {o : RareEventObserver F}
    (h : Tally threshold minSamples xs o) : o.vocabularySize = xs.toFinset.card := by
  rw [RareEventObserver.vocabularySize]
  congr 1
  ext value
  rw [Finmap.mem_keys, ← Finmap.lookup_isSome, h.counts, List.mem_toFinset]
  split_ifs with hmem <;> simp [hmem]

/-- An observation, with what was told before. -/
theorem told_observe (htally : Tally threshold minSamples (valuesOf seen) w.observer)
    (htold : Told threshold minSamples seen w) (last : TenantId × String × Time) :
    Tally threshold minSamples (valuesOf (seen ++ [last]))
        (w.call (.observe last.1 last.2.1 last.2.2)).observer ∧
      Told threshold minSamples (seen ++ [last]) (w.call (.observe last.1 last.2.1 last.2.2)) := by
  obtain ⟨hnext, hreport⟩ := htally.observe last.1 last.2.1 last.2.2
  rw [← valuesOf_concat, ← Watch.call_observer] at hnext
  have hearlier : ∀ event ∈ w.told, ∃ earlier last', earlier ++ [last'] <+: seen ++ [last] ∧
      FirstRare threshold minSamples (valuesOf earlier) last'.2.1 ∧
        event = reportOf earlier last' := fun event hevent => by
    obtain ⟨earlier, last', hprefix, hfirst⟩ := htold.first event hevent
    exact ⟨earlier, last', hprefix.trans (List.prefix_append seen [last]), hfirst⟩
  have hsize : (w.call (.observe last.1 last.2.1 last.2.2)).observer.samplesSeen =
      (seen ++ [last]).length := by
    rw [RareEventObserver.samplesSeen, hnext.total, valuesOf, List.length_map]
  refine ⟨hnext, ?_⟩
  cases hevent : (w.observer.observe last.1 last.2.1 last.2.2).1 with
  | none =>
    have hnot : ¬ FirstRare threshold minSamples (valuesOf seen) last.2.1 := fun hfirst => by
      cases hevent.symm.trans ((hreport (reportOf seen last)).mpr ⟨hfirst, rfl⟩)
    have hsame : (w.call (.observe last.1 last.2.1 last.2.2)).told = w.told := by
      rw [Watch.call_told, hevent, Option.toList_none, List.append_nil]
    exact
      { samplesSeen := hsize
        vocabularySize := vocabularySize_of_tally hnext
        once := by rw [hsame]; exact htold.once
        complete := fun value => by
          rw [hsame, valuesOf_concat, wasRare_concat, htold.complete]
          refine ⟨.inl, ?_⟩
          rintro (hwas | ⟨rfl, hrare⟩)
          · exact hwas
          · exact by_contra fun hwas => hnot ⟨hrare, hwas⟩
        first := by rw [hsame]; exact hearlier }
  | some event =>
    obtain ⟨hfirst, rfl⟩ := (hreport event).mp hevent
    have hsame : (w.call (.observe last.1 last.2.1 last.2.2)).told =
        w.told ++ [reportOf seen last] := by
      rw [Watch.call_told, hevent]
      rfl
    exact
      { samplesSeen := hsize
        vocabularySize := vocabularySize_of_tally hnext
        once := by
          rw [hsame, List.map_append, List.map_singleton, List.nodup_append]
          refine ⟨htold.once, List.nodup_singleton _, ?_⟩
          rintro value hvalue _ hlast rfl
          obtain rfl := List.mem_singleton.mp hlast
          exact hfirst.2 ((htold.complete _).mp hvalue)
        complete := fun value => by
          rw [hsame, List.map_append, List.map_singleton, List.mem_append, List.mem_singleton,
            htold.complete, valuesOf_concat, wasRare_concat]
          refine or_congr_right ⟨?_, fun hvalue => hvalue.1.symm⟩
          rintro rfl
          exact ⟨rfl, hfirst.1⟩
        first := by
          rw [hsame]
          intro event hevent
          rcases List.mem_append.mp hevent with hold | hnew
          · exact hearlier event hold
          · exact ⟨seen, last, List.prefix_rfl, hfirst, List.mem_singleton.mp hnew⟩ }

/-- Since its construction or the last reset the observer has reported each value that was rare at
one of its observations after the warm-up, once, at the first such observation. -/
theorem rareEvents_told (threshold : F) (minSamples : Nat) (calls : List (Call String Time)) :
    Told threshold minSamples (observations calls)
      (Run.run Watch.call ⟨.new threshold minSamples, []⟩ calls) := by
  have hnil (o : RareEventObserver F) (h : Tally threshold minSamples [] o) :
      Told threshold minSamples [] (⟨o, []⟩ : Watch F Time) :=
    { samplesSeen := h.total
      vocabularySize := vocabularySize_of_tally h
      once := List.nodup_nil
      complete := fun value =>
        iff_of_false List.not_mem_nil (not_wasRare_nil threshold minSamples value)
      first := fun _ hevent => absurd hevent List.not_mem_nil }
  suffices h : Tally threshold minSamples (valuesOf (observations calls))
      (Run.run Watch.call ⟨.new threshold minSamples, []⟩ calls : Watch F Time).observer ∧
    Told threshold minSamples (observations calls)
      (Run.run Watch.call ⟨.new threshold minSamples, []⟩ calls) from h.2
  induction calls using List.reverseRecOn with
  | nil => exact ⟨tally_new threshold minSamples, hnil _ (tally_new threshold minSamples)⟩
  | append_singleton calls call ih =>
    obtain ⟨htally, htold⟩ := ih
    rw [observations, Run.run_append, Run.run_append, ← observations]
    cases call with
    | observe tenant value observedAt =>
      exact told_observe htally htold (tenant, value, observedAt)
    | reset => exact ⟨htally.reset, hnil _ htally.reset⟩

end Runs

end Kaleidoscope.Augur
