import Mathlib.Tactic

/-!
# Lists between separators

Lists are written one after the other with a separator of two different values between them. The
written list does not tell them apart from lists that have the separator inside: it tells them only
as far as they are cut at every separator.
-/

namespace Separated

variable {α : Type} [DecidableEq α] (a b : α)

/-- A list, cut at every `a` that a `b` follows. -/
def cut : List α → List (List α)
  | [] => [[]]
  | [x] => [[x]]
  | x :: y :: l => if x = a ∧ y = b then [] :: cut l else (cut (y :: l)).modifyHead (x :: ·)

variable {a b}

theorem cut_of_sep (l : List α) : cut a b (a :: b :: l) = [] :: cut a b l := by
  rw [cut, if_pos ⟨rfl, rfl⟩]

theorem cut_of_not {x y : α} (h : ¬(x = a ∧ y = b)) (l : List α) :
    cut a b (x :: y :: l) = (cut a b (y :: l)).modifyHead (x :: ·) := by
  rw [cut, if_neg h]

theorem cut_ne_nil (l : List α) : cut a b l ≠ [] := by
  fun_induction cut a b l with
  | case1 => exact List.cons_ne_nil _ _
  | case2 x => exact List.cons_ne_nil _ _
  | case3 x y l h ih => exact List.cons_ne_nil _ _
  | case4 x y l h ih =>
    rw [Ne, List.modifyHead_eq_nil_iff]
    exact ih

/-- The pieces of a list, written with the separator again, are the list. -/
theorem intercalate_cut (l : List α) : [a, b].intercalate (cut a b l) = l := by
  fun_induction cut a b l with
  | case1 => rfl
  | case2 x => rfl
  | case3 x y l h ih =>
    obtain ⟨rfl, rfl⟩ := h
    rw [List.intercalate_cons_of_ne_nil (cut_ne_nil l), ih]
    rfl
  | case4 x y l h ih =>
    obtain ⟨piece, pieces, hcut⟩ := List.exists_cons_of_ne_nil
      (cut_ne_nil (a := a) (b := b) (y :: l))
    rw [hcut] at ih ⊢
    rw [List.modifyHead_cons, ← ih]
    cases pieces with
    | nil => rfl
    | cons next pieces => rfl

/-- A separator cuts, whatever stands before and behind it. -/
theorem cut_append (hab : a ≠ b) (s t : List α) :
    cut a b (s ++ a :: b :: t) = cut a b s ++ cut a b t := by
  fun_induction cut a b s with
  | case1 => exact cut_of_sep t
  | case2 x =>
    have hx : ¬(x = a ∧ a = b) := fun h => hab h.2
    rw [List.singleton_append, cut_of_not hx, cut_of_sep]
    rfl
  | case3 x y l h ih =>
    obtain ⟨rfl, rfl⟩ := h
    rw [List.cons_append, List.cons_append, cut_of_sep, ih]
    rfl
  | case4 x y l h ih =>
    rw [List.cons_append, List.cons_append, cut_of_not h, ← List.cons_append, ih]
    obtain ⟨piece, pieces, hcut⟩ := List.exists_cons_of_ne_nil
      (cut_ne_nil (a := a) (b := b) (y :: l))
    rw [hcut]
    rfl

/-- What is cut of a written list: the pieces of its members. -/
theorem cut_intercalate (hab : a ≠ b) {ls : List (List α)} (h : ls ≠ []) :
    cut a b ([a, b].intercalate ls) = ls.flatMap (cut a b) := by
  induction ls with
  | nil => exact absurd rfl h
  | cons l ls ih =>
    cases ls with
    | nil => rw [List.intercalate_singleton, List.flatMap_singleton]
    | cons l' ls =>
      rw [List.intercalate_cons_of_ne_nil (List.cons_ne_nil _ _), List.append_assoc]
      refine (cut_append hab l ([a, b].intercalate (l' :: ls))).trans ?_
      rw [ih (List.cons_ne_nil _ _)]
      rfl

/-- Written lists tell as much as their pieces do. -/
theorem intercalate_eq_iff (hab : a ≠ b) {ls ls' : List (List α)} (h : ls ≠ []) (h' : ls' ≠ []) :
    [a, b].intercalate ls = [a, b].intercalate ls' ↔
      ls.flatMap (cut a b) = ls'.flatMap (cut a b) := by
  rw [← cut_intercalate hab h, ← cut_intercalate hab h']
  constructor
  · exact congrArg _
  · intro hcut
    have := congrArg [a, b].intercalate hcut
    rwa [intercalate_cut, intercalate_cut] at this

end Separated
