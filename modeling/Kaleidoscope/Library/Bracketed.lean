import Mathlib.Tactic

/-!
# Streams that open and close in turn

A stream alternates when its elements open and close in turn, an opening one first. Such a
stream is open or closed after its last element, and the next one must change that.
-/

namespace Bracketed

variable {α : Type} (opens : α → Bool)

/-- The elements open and close in turn, an opening one first. -/
def Alternates (l : List α) : Prop := ∀ i (hi : i < l.length), opens l[i] = decide (i % 2 = 0)

instance (l : List α) : Decidable (Alternates opens l) :=
  inferInstanceAs (Decidable (∀ i, ∀ hi : i < l.length, opens l[i] = decide (i % 2 = 0)))

/-- Whether the last element opens. -/
def isOpen (l : List α) : Bool := (l.getLast?.map opens).getD false

@[simp] theorem alternates_nil : Alternates opens [] := fun i hi => absurd hi (Nat.not_lt_zero i)

@[simp] theorem isOpen_nil : isOpen opens [] = false := rfl

@[simp] theorem isOpen_snoc (l : List α) (a : α) : isOpen opens (l ++ [a]) = opens a := by
  simp [isOpen]

variable {opens}

/-- An alternating stream is open after an odd number of elements. -/
theorem Alternates.isOpen_eq {l : List α} (h : Alternates opens l) :
    isOpen opens l = decide (l.length % 2 = 1) := by
  cases l using List.reverseRecOn with
  | nil => rfl
  | append_singleton l a =>
    have ha := h l.length (by simp)
    rw [List.getElem_concat_length rfl] at ha
    rw [isOpen_snoc, ha, List.length_append, List.length_singleton, decide_eq_decide]
    omega

/-- A stream that alternates goes on with the element that changes it. -/
theorem alternates_snoc {l : List α} {a : α} :
    Alternates opens (l ++ [a]) ↔ Alternates opens l ∧ opens a = !isOpen opens l := by
  have hlast (hl : Alternates opens l) :
      (opens a = !isOpen opens l) ↔ opens a = decide (l.length % 2 = 0) := by
    rw [hl.isOpen_eq]
    have hparity : (!decide (l.length % 2 = 1)) = decide (l.length % 2 = 0) := by
      rw [← decide_not, decide_eq_decide]
      omega
    rw [hparity]
  constructor
  · intro h
    have hl : Alternates opens l := by
      intro i hi
      have := h i (by simp; omega)
      rwa [List.getElem_append_left hi] at this
    refine ⟨hl, (hlast hl).mpr ?_⟩
    have := h l.length (by simp)
    rwa [List.getElem_concat_length rfl] at this
  · rintro ⟨hl, ha⟩ i hi
    rw [List.length_append, List.length_singleton] at hi
    by_cases hlt : i < l.length
    · rw [List.getElem_append_left hlt]
      exact hl i hlt
    · obtain rfl : i = l.length := by omega
      rw [List.getElem_concat_length rfl]
      exact (hlast hl).mp ha

end Bracketed
