import Kaleidoscope.Aegis.Validator
import Kaleidoscope.Library.Sample
import Mathlib.Analysis.Real.Sqrt
import Mathlib.Data.Sign.Basic

/-!
# The z-score observer

The observer keeps a mean and a sum of squared deviations by Welford's update and scores each
observation against what came before it. Numbers are those of any ordered field with a root.
-/

namespace Kaleidoscope.Augur

open Aegis

variable {F Time : Type}

/-- `Anomaly`. -/
structure Anomaly (F Time : Type) where
  tenant : TenantId
  value : F
  score : F
  observedAt : Time
  reason : String
  deriving DecidableEq

/-- `ZScoreObserver`. -/
structure ZScoreObserver (F : Type) where
  threshold : F
  minSamples : Nat
  samples : Nat
  mean : F
  m2 : F
  deriving DecidableEq

namespace ZScoreObserver

variable [Field F]

/-- `ZScoreObserver::new`. -/
def new (threshold : F) (minSamples : Nat) : ZScoreObserver F where
  threshold
  minSamples := max minSamples 2
  samples := 0
  mean := 0
  m2 := 0

/-- `stddev`. -/
def stddev (sqrt : F → F) (o : ZScoreObserver F) : F :=
  if o.samples < 2 then 0 else sqrt (o.m2 / (o.samples - 1))

/-- The score of a value against the current baseline. -/
def zScore [LinearOrder F] (sqrt : F → F) (o : ZScoreObserver F) (value : F) : F :=
  if 2 ≤ o.samples then
    let sd := o.stddev sqrt
    if 0 < sd then (value - o.mean) / sd else 0
  else 0

/-- Welford's update. -/
def update (o : ZScoreObserver F) (value : F) : ZScoreObserver F :=
  let samples := o.samples + 1
  let delta := value - o.mean
  let mean := o.mean + delta / samples
  let delta2 := value - mean
  { o with samples, mean, m2 := o.m2 + delta * delta2 }

/-- `observe`. -/
def observe [LinearOrder F] (sqrt : F → F) (o : ZScoreObserver F) (tenant : TenantId) (value : F)
    (observedAt : Time) : Option (Anomaly F Time) × ZScoreObserver F :=
  let z := o.zScore sqrt value
  let o := o.update value
  if o.samples < o.minSamples then (none, o)
  else if o.threshold ≤ |z| then
    (some { tenant, value, score := z, observedAt, reason := "z-score >= threshold" }, o)
  else (none, o)

/-- `samples_seen`. -/
def samplesSeen (o : ZScoreObserver F) : Nat := o.samples

/-- `reset`. -/
def reset (o : ZScoreObserver F) : ZScoreObserver F := { o with samples := 0, mean := 0, m2 := 0 }

end ZScoreObserver

/-! ## Runs -/

/-- A call of the observer. -/
inductive Call (F Time : Type) where
  | observe (tenant : TenantId) (value : F) (observedAt : Time)
  | reset

/-- What the observer is after a call. -/
def ZScoreObserver.call [Field F] [LinearOrder F] (sqrt : F → F) (o : ZScoreObserver F) :
    Call F Time → ZScoreObserver F
  | .observe tenant value observedAt => (o.observe sqrt tenant value observedAt).2
  | .reset => o.reset

/-- What the observer is after calls. -/
def ZScoreObserver.run [Field F] [LinearOrder F] (sqrt : F → F) (o : ZScoreObserver F)
    (calls : List (Call F Time)) : ZScoreObserver F := calls.foldl (call sqrt) o

/-- The values observed since the construction or the last reset. -/
def sinceReset (calls : List (Call F Time)) : List F :=
  calls.foldl (fun xs call =>
    match call with
    | .observe _ value _ => xs ++ [value]
    | .reset => []) []

/-! ## The baseline -/

namespace ZScoreObserver

section Baseline

variable [Field F]

/-- The observer is that of a sample. -/
structure Baseline (threshold : F) (minSamples : Nat) (xs : List F) (o : ZScoreObserver F) :
    Prop where
  threshold : o.threshold = threshold
  minSamples : o.minSamples = max minSamples 2
  samples : o.samples = xs.length
  mean : o.mean = Sample.mean xs
  m2 : o.m2 = Sample.squares xs

variable {threshold : F} {minSamples : Nat} {xs : List F} {o : ZScoreObserver F}

theorem observe_snd [LinearOrder F] (sqrt : F → F) (o : ZScoreObserver F) (tenant : TenantId)
    (value : F) (observedAt : Time) :
    (o.observe sqrt tenant value observedAt).2 = o.update value := by
  simp only [observe]
  split_ifs <;> rfl

theorem baseline_new (threshold : F) (minSamples : Nat) :
    Baseline threshold minSamples [] (new threshold minSamples) where
  threshold := rfl
  minSamples := rfl
  samples := rfl
  mean := Sample.mean_nil.symm
  m2 := rfl

theorem Baseline.reset (h : Baseline threshold minSamples xs o) :
    Baseline threshold minSamples [] o.reset where
  threshold := h.threshold
  minSamples := h.minSamples
  samples := rfl
  mean := Sample.mean_nil.symm
  m2 := rfl

/-- Welford's update adds an element to the sample. -/
theorem Baseline.update [CharZero F] (h : Baseline threshold minSamples xs o) (value : F) :
    Baseline threshold minSamples (xs ++ [value]) (o.update value) where
  threshold := h.threshold
  minSamples := h.minSamples
  samples := by simp [ZScoreObserver.update, h.samples]
  mean := by
    rw [Sample.mean_concat, ZScoreObserver.update, h.mean, h.samples, Nat.cast_succ]
  m2 := by
    rw [Sample.squares_concat, Sample.mean_concat, ZScoreObserver.update, h.m2, h.mean, h.samples,
      Nat.cast_succ]

/-- After any calls the observer is that of the values since the last reset. -/
theorem baseline_run [LinearOrder F] [CharZero F] (sqrt : F → F) (threshold : F) (minSamples : Nat)
    (calls : List (Call F Time)) :
    Baseline threshold minSamples (sinceReset calls)
      ((new threshold minSamples).run sqrt calls) := by
  induction calls using List.reverseRecOn with
  | nil => exact baseline_new threshold minSamples
  | append_singleton calls c ih =>
    rw [run, List.foldl_concat, sinceReset, List.foldl_concat]
    cases c with
    | observe tenant value observedAt =>
      rw [call, observe_snd]
      exact ih.update value
    | reset => exact ih.reset

end Baseline

/-! ## Scores -/

section Scores

variable {threshold : ℝ} {minSamples : Nat} {xs : List ℝ} {o : ZScoreObserver ℝ}

theorem Baseline.stddev (h : Baseline threshold minSamples xs o) (hlength : 2 ≤ xs.length) :
    o.stddev Real.sqrt = √(Sample.variance xs) := by
  rw [ZScoreObserver.stddev, if_neg (by rw [h.samples]; omega), h.m2, h.samples, Sample.variance]

theorem Baseline.zScore (h : Baseline threshold minSamples xs o) (value : ℝ) :
    o.zScore Real.sqrt value =
      if 2 ≤ xs.length ∧ 0 < Sample.variance xs then
        (value - Sample.mean xs) / √(Sample.variance xs)
      else 0 := by
  rw [ZScoreObserver.zScore, h.samples]
  by_cases hlength : 2 ≤ xs.length
  · simp only [hlength, if_true, true_and, h.stddev hlength, Real.sqrt_pos, h.mean]
  · simp only [hlength, if_false, false_and]

/-- A score reaches a positive threshold if its square does. -/
theorem threshold_le_abs_div_sqrt {t d v : ℝ} (ht : 0 < t) (hv : 0 < v) :
    t ≤ |d / √v| ↔ t ^ 2 * v ≤ d ^ 2 := by
  have hroot : 0 < √v := Real.sqrt_pos.mpr hv
  calc t ≤ |d / √v| ↔ t * √v ≤ |d| := by
        rw [abs_div, abs_of_pos hroot, le_div_iff₀ hroot]
    _ ↔ (t * √v) ^ 2 ≤ d ^ 2 := by
        rw [sq_le_sq, abs_of_pos (mul_pos ht hroot)]
    _ ↔ t ^ 2 * v ≤ d ^ 2 := by
        rw [mul_pow, Real.sq_sqrt hv.le]

/-- An observation is reported if the warm-up is over and its score reaches the threshold. -/
theorem Baseline.observe_eq_some (h : Baseline threshold minSamples xs o) (tenant : TenantId)
    (value : ℝ) (observedAt : Time) (anomaly : Anomaly ℝ Time) :
    (o.observe Real.sqrt tenant value observedAt).1 = some anomaly ↔
      max minSamples 2 ≤ xs.length + 1 ∧ threshold ≤ |o.zScore Real.sqrt value| ∧
        anomaly =
          ⟨tenant, value, o.zScore Real.sqrt value, observedAt, "z-score >= threshold"⟩ := by
  have hu := h.update value
  have hsamples : (o.update value).samples = xs.length + 1 := by simp [hu.samples]
  simp only [observe, hsamples, hu.minSamples, hu.threshold]
  by_cases hwarm : xs.length + 1 < max minSamples 2
  · simp [hwarm, Nat.not_le.mpr hwarm]
  · rw [if_neg hwarm]
    by_cases hz : threshold ≤ |o.zScore Real.sqrt value|
    · simp only [hz, if_true, Option.some.injEq, Nat.not_lt.mp hwarm, true_and]
      exact eq_comm
    · simp [hz]

/-- The score reaches the threshold if there was a deviation, and the new one is that many times
as large. -/
theorem Baseline.threshold_le_abs_zScore (h : Baseline threshold minSamples xs o)
    (ht : 0 < threshold) (value : ℝ) :
    threshold ≤ |o.zScore Real.sqrt value| ↔
      3 ≤ xs.length + 1 ∧ 0 < Sample.variance xs ∧
        threshold ^ 2 * Sample.variance xs ≤ (value - Sample.mean xs) ^ 2 := by
  rw [h.zScore]
  by_cases hlength : 2 ≤ xs.length
  · by_cases hv : 0 < Sample.variance xs
    · rw [if_pos ⟨hlength, hv⟩, threshold_le_abs_div_sqrt ht hv]
      have : 3 ≤ xs.length + 1 := Nat.succ_le_succ hlength
      simp [this, hv]
    · simp [hv, ht]
  · have : ¬3 ≤ xs.length + 1 := fun h3 => hlength (Nat.le_of_succ_le_succ h3)
    simp [hlength, this, ht]

/-- The online observer agrees with the definitions over the whole sample since its construction or
its last reset. -/
theorem zScore_batch (minSamples : Nat) {threshold : ℝ} (ht : 0 < threshold)
    (calls : List (Call ℝ Time)) :
    let o := (new threshold minSamples).run Real.sqrt calls
    let xs := sinceReset calls
    o.mean = Sample.mean xs ∧ o.m2 = Sample.squares xs ∧
    ∀ (tenant : TenantId) (value : ℝ) (observedAt : Time),
      ((o.observe Real.sqrt tenant value observedAt).1.isSome ↔
        max minSamples 2 ≤ xs.length + 1 ∧ 3 ≤ xs.length + 1 ∧ 0 < Sample.variance xs ∧
          threshold ^ 2 * Sample.variance xs ≤ (value - Sample.mean xs) ^ 2) ∧
      ∀ anomaly, (o.observe Real.sqrt tenant value observedAt).1 = some anomaly →
        anomaly.value = value ∧
          SignType.sign anomaly.score = SignType.sign (value - Sample.mean xs) := by
  intro o xs
  have h : Baseline threshold minSamples xs o := baseline_run Real.sqrt threshold minSamples calls
  refine ⟨h.mean, h.m2, fun tenant value observedAt => ⟨?_, fun anomaly hanomaly => ?_⟩⟩
  · rw [Option.isSome_iff_exists, ← h.threshold_le_abs_zScore ht value]
    simp [h.observe_eq_some tenant value observedAt]
  · obtain ⟨-, hz, rfl⟩ := (h.observe_eq_some tenant value observedAt anomaly).mp hanomaly
    obtain ⟨h3, hv, -⟩ := (h.threshold_le_abs_zScore ht value).mp hz
    refine ⟨rfl, ?_⟩
    rw [h.zScore, if_pos ⟨Nat.le_of_succ_le_succ h3, hv⟩, div_eq_mul_inv, sign_mul,
      sign_pos (inv_pos.mpr (Real.sqrt_pos.mpr hv)), mul_one]

/-- The third observation is reported where it is far from the first two. -/
theorem third_reported :
    (((new 2 3).run Real.sqrt [.observe ⟨"acme"⟩ 1 (0 : Nat), .observe ⟨"acme"⟩ 3 1]).observe
      Real.sqrt ⟨"acme"⟩ 10 2).1.isSome := by
  have h := (zScore_batch 3 (two_pos : (0 : ℝ) < 2)
    [.observe ⟨"acme"⟩ 1 (0 : Nat), .observe ⟨"acme"⟩ 3 1]).2.2 ⟨"acme"⟩ 10 2
  refine h.1.mpr ?_
  norm_num [sinceReset, Sample.variance, Sample.squares, Sample.squaresFrom, Sample.mean]

end Scores

end ZScoreObserver

end Kaleidoscope.Augur
