import Mathlib.Algebra.Order.Round
import Mathlib.Tactic

/-!
# Rounding to the nearest integer, ties to even
-/

namespace RoundEven

variable {K : Type*} [Field K] [LinearOrder K] [IsStrictOrderedRing K] [FloorRing K]

/-- The nearest integer, the even one of two. -/
def roundEven (q : K) : ℤ :=
  if 2 * Int.fract q < 1 ∨ 2 * Int.fract q = 1 ∧ Even ⌊q⌋ then ⌊q⌋ else ⌊q⌋ + 1

/-- Twice the distance to the nearest integer is at most one. -/
theorem abs_sub_roundEven_le (q : K) : 2 * |q - roundEven q| ≤ 1 := by
  have hfloor : q = ⌊q⌋ + Int.fract q := (Int.floor_add_fract q).symm
  have hnonneg := Int.fract_nonneg q
  have hlt := Int.fract_lt_one q
  rw [roundEven]
  split_ifs with h
  · have habs : |q - ⌊q⌋| = Int.fract q := by
      rw [Int.self_sub_floor, abs_of_nonneg hnonneg]
    rw [habs]
    exact h.elim le_of_lt fun h => h.1.le
  · have hhalf : 1 ≤ 2 * Int.fract q := by
      by_contra hless
      exact h (.inl (not_le.mp hless))
    have habs : |q - ((⌊q⌋ + 1 : ℤ) : K)| = 1 - Int.fract q := by
      rw [abs_of_nonpos (by push_cast; linarith)]
      push_cast
      linarith
    rw [habs]
    linarith

/-- At a tie the nearest integer is even. -/
theorem even_roundEven {q : K} (h : 2 * |q - roundEven q| = 1) : Even (roundEven q) := by
  have hfloor : q = ⌊q⌋ + Int.fract q := (Int.floor_add_fract q).symm
  have hnonneg := Int.fract_nonneg q
  have hlt := Int.fract_lt_one q
  rw [roundEven] at h ⊢
  split_ifs at h ⊢ with hdown
  · rw [Int.self_sub_floor, abs_of_nonneg hnonneg] at h
    rcases hdown with hdown | hdown
    · exact absurd h hdown.ne
    · exact hdown.2
  · have habs : |q - ((⌊q⌋ + 1 : ℤ) : K)| = 1 - Int.fract q := by
      rw [abs_of_nonpos (by push_cast; linarith)]
      push_cast
      linarith
    rw [habs] at h
    have hodd : ¬ Even ⌊q⌋ := fun heven => hdown (.inr ⟨by linarith, heven⟩)
    exact (Int.not_even_iff_odd.mp hodd).add_one

/-- What rounds to an integer. -/
theorem roundEven_eq_iff {q : K} {n : ℤ} :
    roundEven q = n ↔ 2 * |q - n| < 1 ∨ 2 * |q - n| = 1 ∧ Even n := by
  constructor
  · rintro rfl
    exact (abs_sub_roundEven_le q).lt_or_eq.imp_right fun h => ⟨h, even_roundEven h⟩
  · intro h
    by_contra hne
    have hle := abs_sub_roundEven_le q
    -- both are half away from `q`, so they are neighbours, and not both even
    have hfar : (1 : K) ≤ |((roundEven q : ℤ) : K) - n| := by
      exact_mod_cast Int.one_le_abs (sub_ne_zero.mpr hne)
    have htriangle : |((roundEven q : ℤ) : K) - n| ≤ |q - roundEven q| + |q - n| := by
      rw [abs_sub_comm q (roundEven q : K)]
      exact abs_sub_le _ _ _
    obtain ⟨hhalf, heven⟩ : 2 * |q - n| = 1 ∧ Even n := by
      rcases h with h | h
      · linarith
      · exact h
    have hround : 2 * |q - roundEven q| = 1 := by linarith
    obtain ⟨a, ha⟩ := even_roundEven hround
    obtain ⟨b, hb⟩ := heven
    have hone : |roundEven q - n| ≤ 1 := by
      have hcast : |((roundEven q : ℤ) : K) - n| ≤ 1 := by linarith
      exact_mod_cast hcast
    obtain ⟨hlow, hhigh⟩ := abs_le.mp hone
    omega

@[simp] theorem roundEven_intCast (n : ℤ) : roundEven (n : K) = n :=
  roundEven_eq_iff.mpr (.inl (by simp))

@[simp] theorem roundEven_zero : roundEven (0 : K) = 0 := by
  rw [← Int.cast_zero, roundEven_intCast]

theorem roundEven_neg (q : K) : roundEven (-q) = -roundEven q := by
  have habs : |-q - ((-roundEven q : ℤ) : K)| = |q - roundEven q| := by
    rw [← abs_neg]
    push_cast
    congr 1
    ring
  rw [roundEven_eq_iff, habs, even_neg]
  exact roundEven_eq_iff.mp rfl

/-- Rounding keeps the order. -/
theorem roundEven_mono {q q' : K} (h : q ≤ q') : roundEven q ≤ roundEven q' := by
  by_contra hlt
  have hstep : ((roundEven q' : ℤ) : K) + 1 ≤ roundEven q := by
    exact_mod_cast not_le.mp hlt
  have hle := abs_sub_roundEven_le q
  have hle' := abs_sub_roundEven_le q'
  have hlow := neg_le_of_abs_le (le_refl |q - roundEven q|)
  have hhigh := le_of_abs_le (le_refl |q' - roundEven q'|)
  have heq : q = q' := by linarith
  subst heq
  exact hlt le_rfl

theorem roundEven_nonneg {q : K} (h : 0 ≤ q) : 0 ≤ roundEven q := by
  have hmono := roundEven_mono h
  rwa [roundEven_zero] at hmono

/-- Half above an even number is rounded down to it. -/
theorem lt_roundEven_iff {n : ℤ} (hn : Even n) {q : K} : n < roundEven q ↔ n + 1 / 2 < q := by
  constructor
  · intro h
    by_contra hle
    have htie : roundEven ((n : K) + 1 / 2) = n := by
      refine roundEven_eq_iff.mpr (.inr ⟨?_, hn⟩)
      rw [add_sub_cancel_left, abs_of_pos (by norm_num)]
      norm_num
    have hmono := roundEven_mono (not_lt.mp hle)
    rw [htie] at hmono
    exact absurd h (not_lt.mpr hmono)
  · intro h
    have hclose := abs_sub_roundEven_le q
    have hhigh := le_of_abs_le (le_refl |q - roundEven q|)
    have hlt : (n : K) < roundEven q := by linarith
    exact_mod_cast hlt

/-- Half below an even number is rounded up to it. -/
theorem roundEven_lt_iff {n : ℤ} (hn : Even n) {q : K} : roundEven q < n ↔ q < n - 1 / 2 := by
  rw [← neg_lt_neg_iff, ← roundEven_neg, lt_roundEven_iff hn.neg]
  push_cast
  constructor <;> intro h <;> linarith

/-- Numbers that are more than one apart are rounded to different numbers. -/
theorem roundEven_lt_roundEven {q q' : K} (h : q + 1 < q') : roundEven q < roundEven q' := by
  have hclose := abs_sub_roundEven_le q
  have hclose' := abs_sub_roundEven_le q'
  have hlow := neg_le_of_abs_le (le_refl |q - roundEven q|)
  have hhigh := le_of_abs_le (le_refl |q' - roundEven q'|)
  have hlt : ((roundEven q : ℤ) : K) < roundEven q' := by linarith
  exact_mod_cast hlt

end RoundEven
