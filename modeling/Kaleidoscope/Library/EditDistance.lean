import Mathlib.Algebra.Order.Group.Nat
import Mathlib.Data.List.Basic
import Mathlib.Order.MinMax

/-!
# Edit distance

The distance is defined by recursion from the front. Edit scripts can be read from both ends, so it
is also the distance from the back, which tables of distances fill row by row.
-/

namespace EditDistance

variable {α : Type*} [DecidableEq α]

/-- The number of deletions, insertions and substitutions it takes to make one list of another. -/
def dist : List α → List α → Nat
  | [], b => b.length
  | a, [] => a.length
  | x :: a, y :: b =>
    min (min (dist a (y :: b) + 1) (dist (x :: a) b + 1)) (dist a b + if x = y then 0 else 1)

@[simp] theorem dist_nil_left (b : List α) : dist [] b = b.length := by
  rw [dist.eq_def]

@[simp] theorem dist_nil_right (a : List α) : dist a [] = a.length := by
  cases a <;> simp [dist]

theorem dist_cons_cons (x y : α) (a b : List α) :
    dist (x :: a) (y :: b) =
      min (min (dist a (y :: b) + 1) (dist (x :: a) b + 1))
        (dist a b + if x = y then 0 else 1) := by
  rw [dist.eq_def]

/-! ## Scripts -/

/-- One list is made of another with that many edits. -/
inductive Edits : List α → List α → Nat → Prop
  | done : Edits [] [] 0
  | delete {x : α} {a b : List α} {n : Nat} : Edits a b n → Edits (x :: a) b (n + 1)
  | insert {y : α} {a b : List α} {n : Nat} : Edits a b n → Edits a (y :: b) (n + 1)
  | substitute {x y : α} {a b : List α} {n : Nat} :
      Edits a b n → Edits (x :: a) (y :: b) (n + if x = y then 0 else 1)

namespace Edits

theorem deleteAll (a : List α) : Edits a [] a.length := by
  induction a with
  | nil => exact done
  | cons x a ih => exact ih.delete

theorem insertAll (b : List α) : Edits [] b b.length := by
  induction b with
  | nil => exact done
  | cons y b ih => exact ih.insert

/-- A script can go on at the end. -/
theorem append {a b a' b' : List α} {n n' : Nat} (h : Edits a b n) (h' : Edits a' b' n') :
    Edits (a ++ a') (b ++ b') (n + n') := by
  induction h with
  | done => simpa using h'
  | delete _ ih => rw [Nat.add_right_comm]; exact ih.delete
  | insert _ ih => rw [Nat.add_right_comm]; exact ih.insert
  | substitute _ ih => rw [Nat.add_right_comm]; exact ih.substitute

/-- A script can be read backwards. -/
theorem reverse {a b : List α} {n : Nat} (h : Edits a b n) : Edits a.reverse b.reverse n := by
  induction h with
  | done => exact done
  | @delete x a b n _ ih => simpa using ih.append (deleteAll [x])
  | @insert y a b n _ ih => simpa using ih.append (insertAll [y])
  | @substitute x y a b n _ ih =>
    have hlast : Edits [x] [y] (if x = y then 0 else 1) := by
      simpa using (done (α := α)).substitute (x := x) (y := y)
    simpa using ih.append hlast

end Edits

/-- The distance is reached by a script. -/
theorem edits_dist (a b : List α) : Edits a b (dist a b) := by
  fun_induction dist a b with
  | case1 b => exact .insertAll b
  | case2 a => exact .deleteAll a
  | case3 x a y b ihdelete ihinsert ihsubstitute =>
    rcases min_choice (min (dist a (y :: b) + 1) (dist (x :: a) b + 1))
      (dist a b + if x = y then 0 else 1) with h | h
    · rw [h]
      rcases min_choice (dist a (y :: b) + 1) (dist (x :: a) b + 1) with h | h
      · rw [h]
        exact ihdelete.delete
      · rw [h]
        exact ihinsert.insert
    · rw [h]
      exact ihsubstitute.substitute

theorem dist_cons_left_le (x : α) (a b : List α) : dist (x :: a) b ≤ dist a b + 1 := by
  cases b with
  | nil => simp
  | cons y b =>
    rw [dist_cons_cons]
    exact (min_le_left _ _).trans (min_le_left _ _)

theorem dist_cons_right_le (y : α) (a b : List α) : dist a (y :: b) ≤ dist a b + 1 := by
  cases a with
  | nil => simp
  | cons x a =>
    rw [dist_cons_cons]
    exact (min_le_left _ _).trans (min_le_right _ _)

/-- No script is shorter. -/
theorem dist_le_of_edits {a b : List α} {n : Nat} (h : Edits a b n) : dist a b ≤ n := by
  induction h with
  | done => simp
  | delete _ ih => exact (dist_cons_left_le _ _ _).trans (Nat.succ_le_succ ih)
  | insert _ ih => exact (dist_cons_right_le _ _ _).trans (Nat.succ_le_succ ih)
  | substitute _ ih =>
    rw [dist_cons_cons]
    exact (min_le_right _ _).trans (Nat.add_le_add_right ih _)

/-- From both ends the distance is the same. -/
theorem dist_reverse (a b : List α) : dist a.reverse b.reverse = dist a b := by
  refine le_antisymm (dist_le_of_edits (edits_dist a b).reverse) (dist_le_of_edits ?_)
  simpa using (edits_dist a.reverse b.reverse).reverse

/-! ## Tables -/

/-- The distance between the first elements of two lists, from the back. -/
def entry (a b : List α) (i j : Nat) : Nat := dist (a.take i).reverse (b.take j).reverse

theorem entry_zero_left (a : List α) {b : List α} {j : Nat} (h : j ≤ b.length) :
    entry a b 0 j = j := by
  simp [entry, h]

theorem entry_zero_right {a : List α} (b : List α) {i : Nat} (h : i ≤ a.length) :
    entry a b i 0 = i := by
  simp [entry, h]

/-- An entry is made of the three before it. -/
theorem entry_succ_succ {a b : List α} {i j : Nat} (hi : i < a.length) (hj : j < b.length) :
    entry a b (i + 1) (j + 1) =
      min (min (entry a b i (j + 1) + 1) (entry a b (i + 1) j + 1))
        (entry a b i j + if a[i] = b[j] then 0 else 1) := by
  have htake {l : List α} {k : Nat} (hk : k < l.length) :
      (l.take (k + 1)).reverse = l[k] :: (l.take k).reverse := by
    rw [List.take_succ_eq_append_getElem hk, List.reverse_append]
    rfl
  rw [entry, entry, entry, entry, htake hi, htake hj, dist_cons_cons]

/-- The last entry is the distance. -/
theorem entry_length (a b : List α) : entry a b a.length b.length = dist a b := by
  rw [entry, List.take_length, List.take_length, dist_reverse]

end EditDistance
