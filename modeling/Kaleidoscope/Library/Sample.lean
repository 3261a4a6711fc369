import Mathlib.Algebra.BigOperators.Group.List.Basic
import Mathlib.Algebra.Field.Basic
import Mathlib.Algebra.CharZero.Defs
import Mathlib.Tactic.FieldSimp
import Mathlib.Tactic.Ring

/-!
# The mean and the squared deviations of a sample

Both are defined from the whole sample. They can also be kept while it grows, one element at a time.
-/

namespace Sample

variable {F : Type*} [Field F]

/-- The arithmetic mean. -/
def mean (xs : List F) : F := xs.sum / xs.length

/-- The sum of the squared deviations from a point. -/
def squaresFrom (c : F) (xs : List F) : F := (xs.map fun x => (x - c) ^ 2).sum

/-- The sum of the squared deviations from the mean. -/
def squares (xs : List F) : F := squaresFrom (mean xs) xs

/-- The sample variance. -/
def variance (xs : List F) : F := squares xs / (xs.length - 1)

@[simp] theorem mean_nil : mean ([] : List F) = 0 := by simp [mean]

@[simp] theorem squares_nil : squares ([] : List F) = 0 := rfl

@[simp] theorem squaresFrom_append (c : F) (xs ys : List F) :
    squaresFrom c (xs ++ ys) = squaresFrom c xs + squaresFrom c ys := by
  simp [squaresFrom]

@[simp] theorem squaresFrom_singleton (c x : F) : squaresFrom c [x] = (x - c) ^ 2 := by
  simp [squaresFrom]

/-- The deviations from one point in terms of those from another. -/
theorem squaresFrom_eq (c d : F) (xs : List F) :
    squaresFrom d xs =
      squaresFrom c xs + 2 * (c - d) * (xs.sum - xs.length * c) + xs.length * (c - d) ^ 2 := by
  induction xs with
  | nil => simp [squaresFrom]
  | cons x xs ih =>
    have hcons (e : F) : squaresFrom e (x :: xs) = (x - e) ^ 2 + squaresFrom e xs := rfl
    rw [hcons, hcons, ih, List.sum_cons, List.length_cons]
    push_cast
    ring

variable [CharZero F]

theorem length_mul_mean (xs : List F) : xs.length * mean xs = xs.sum := by
  cases xs with
  | nil => simp
  | cons x xs =>
    have hlength : ((x :: xs).length : F) ≠ 0 := by
      rw [List.length_cons]
      exact Nat.cast_ne_zero.mpr (Nat.succ_ne_zero _)
    rw [mean, mul_div_cancel₀ _ hlength]

/-- The mean moves by the part of the new element in its deviation. -/
theorem mean_concat (xs : List F) (x : F) :
    mean (xs ++ [x]) = mean xs + (x - mean xs) / (xs.length + 1) := by
  have hlength : (xs.length : F) + 1 ≠ 0 := Nat.cast_add_one_ne_zero _
  have hsum : (xs ++ [x]).sum = xs.length * mean xs + x := by
    rw [List.sum_append, length_mul_mean, List.sum_singleton]
  rw [mean, hsum, List.length_append, List.length_singleton]
  push_cast
  field_simp
  ring

/-- From the old mean the deviations add up to nothing, so only the number of elements counts. -/
theorem squaresFrom_mean (d : F) (xs : List F) :
    squaresFrom d xs = squares xs + xs.length * (mean xs - d) ^ 2 := by
  rw [squaresFrom_eq (mean xs) d, length_mul_mean, sub_self, mul_zero, add_zero]
  rfl

/-- The squared deviations grow by the product of the deviations of the new element from the mean
before and after it. -/
theorem squares_concat (xs : List F) (x : F) :
    squares (xs ++ [x]) = squares xs + (x - mean xs) * (x - mean (xs ++ [x])) := by
  have hlength : (xs.length : F) + 1 ≠ 0 := Nat.cast_add_one_ne_zero _
  rw [squares, squaresFrom_append, squaresFrom_singleton, squaresFrom_mean, mean_concat]
  field_simp
  ring

end Sample
