import Kaleidoscope.Library.RoundEven
import Mathlib.Data.Int.Log

/-!
# Doubles as rational numbers

A finite double is a multiple of a power of two, its unit in the last place, with a significand of
at most 53 bits. A number is rounded to the nearest one, of two to the one whose significand is
even.
-/

namespace Binary64

open RoundEven

/-- The exponent of the last place at a number. -/
def lastPlace (q : ℚ) : ℤ := if q = 0 then -1074 else max (Int.log 2 |q| - 52) (-1074)

/-- The unit in the last place. -/
def ulp (q : ℚ) : ℚ := 2 ^ lastPlace q

/-- The nearest double, if exponents had no upper bound. -/
def nearest (q : ℚ) : ℚ := roundEven (q / ulp q) * ulp q

theorem ulp_pos (q : ℚ) : 0 < ulp q := zpow_pos (by norm_num) _

theorem ulp_ne_zero (q : ℚ) : ulp q ≠ 0 := (ulp_pos q).ne'

theorem le_lastPlace (q : ℚ) : -1074 ≤ lastPlace q := by
  rw [lastPlace]
  split_ifs
  · exact le_rfl
  · exact le_max_right _ _

@[simp] theorem lastPlace_neg (q : ℚ) : lastPlace (-q) = lastPlace q := by
  simp only [lastPlace, neg_eq_zero, abs_neg]

@[simp] theorem ulp_neg (q : ℚ) : ulp (-q) = ulp q := by rw [ulp, ulp, lastPlace_neg]

@[simp] theorem nearest_neg (q : ℚ) : nearest (-q) = -nearest q := by
  rw [nearest, nearest, ulp_neg, neg_div, roundEven_neg]
  push_cast
  ring

@[simp] theorem nearest_zero : nearest 0 = 0 := by
  rw [nearest, zero_div, roundEven_zero, Int.cast_zero, zero_mul]

/-- The significand has at most 53 bits. -/
theorem abs_lt_ulp (q : ℚ) : |q| < 2 ^ 53 * ulp q := by
  by_cases hq : q = 0
  · rw [hq, abs_zero]
    exact mul_pos (by norm_num) (ulp_pos 0)
  · have hplace : Int.log 2 |q| + 1 ≤ 53 + lastPlace q := by
      rw [lastPlace, if_neg hq]
      omega
    calc |q| < (2 : ℕ) ^ (Int.log 2 |q| + 1) := Int.lt_zpow_succ_log_self (by norm_num) _
      _ ≤ 2 ^ (53 + lastPlace q) := by
        rw [Nat.cast_ofNat]
        exact zpow_le_zpow_right₀ (by norm_num) hplace
      _ = 2 ^ 53 * ulp q := by
        rw [zpow_add₀ (by norm_num), ulp]
        norm_num

/-- It has 53 bits unless the exponent is the least. -/
theorem ulp_le_abs {q : ℚ} (h : -1074 < lastPlace q) : 2 ^ 52 * ulp q ≤ |q| := by
  by_cases hq : q = 0
  · rw [hq, lastPlace, if_pos rfl] at h
    exact absurd h (lt_irrefl _)
  · have hplace : 52 + lastPlace q = Int.log 2 |q| := by
      rw [lastPlace, if_neg hq] at h ⊢
      omega
    calc 2 ^ 52 * ulp q
      _ = 2 ^ (52 + lastPlace q) := by
        rw [zpow_add₀ (by norm_num), ulp]
        norm_num
      _ = (2 : ℕ) ^ Int.log 2 |q| := by rw [hplace, Nat.cast_ofNat]
      _ ≤ |q| := Int.zpow_log_le_self (by norm_num) (abs_pos.mpr hq)

/-- A larger number has no smaller unit. -/
theorem lastPlace_mono {a b : ℚ} (h : |a| ≤ |b|) : lastPlace a ≤ lastPlace b := by
  by_cases ha : a = 0
  · rw [ha, lastPlace, if_pos rfl]
    exact le_lastPlace b
  · have hpos : 0 < |a| := abs_pos.mpr ha
    have hb : b ≠ 0 := abs_pos.mp (hpos.trans_le h)
    rw [lastPlace, lastPlace, if_neg ha, if_neg hb]
    have hlog := Int.log_mono_right (b := 2) hpos h
    omega

/-- The nearest double is at most half a unit away. -/
theorem abs_sub_nearest_le (q : ℚ) : 2 * |q - nearest q| ≤ ulp q := by
  have hscaled : q - nearest q = (q / ulp q - roundEven (q / ulp q)) * ulp q := by
    rw [nearest, sub_mul, div_mul_cancel₀ _ (ulp_ne_zero q)]
  rw [hscaled, abs_mul, abs_of_pos (ulp_pos q), ← mul_assoc]
  exact mul_le_of_le_one_left (ulp_pos q).le (abs_sub_roundEven_le _)

/-- A multiple of the unit is its own nearest double. -/
theorem nearest_of_eq_mul {q : ℚ} {n : ℤ} (h : q = n * ulp q) : nearest q = q := by
  have hdiv : q / ulp q = n := by
    rw [div_eq_iff (ulp_ne_zero q)]
    exact h
  rw [nearest, hdiv, roundEven_intCast, ← h]

/-- A power of two is a multiple of a smaller one. -/
theorem exists_zpow_eq_mul {s t : ℤ} (h : s ≤ t) : ∃ n : ℤ, (2 : ℚ) ^ t = n * 2 ^ s := by
  refine ⟨2 ^ (t - s).toNat, ?_⟩
  have hsplit : ((t - s).toNat : ℤ) + s = t := by omega
  rw [← hsplit, zpow_add₀ (by norm_num), zpow_natCast, hsplit]
  push_cast
  rfl

/-- Significands up to `2 ^ 53` make doubles. -/
theorem nearest_of_significand {n s : ℤ} (hs : -1074 ≤ s) (hn : |n| ≤ 2 ^ 53) :
    nearest (n * 2 ^ s) = n * 2 ^ s := by
  obtain ⟨q, hq⟩ : ∃ q : ℚ, q = n * 2 ^ s := ⟨_, rfl⟩
  have hpow : (0 : ℚ) < 2 ^ s := zpow_pos (by norm_num) s
  have habs : |q| ≤ 2 ^ 53 * 2 ^ s := by
    rw [hq, abs_mul, abs_of_pos hpow]
    exact mul_le_mul_of_nonneg_right (by exact_mod_cast hn) hpow.le
  rw [← hq]
  rcases le_or_gt (lastPlace q) s with hle | hgt
  · obtain ⟨m, hm⟩ := exists_zpow_eq_mul hle
    refine nearest_of_eq_mul (n := n * m) ?_
    rw [ulp, Int.cast_mul, mul_assoc, ← hm, hq]
  · -- the significand is `2 ^ 53`, which is `2 ^ 52` of the next unit
    have hlow : 2 ^ 52 * ulp q ≤ |q| := ulp_le_abs (hs.trans_lt hgt)
    have hulp : 2 * 2 ^ s ≤ ulp q := by
      have hstep : (2 : ℚ) ^ (1 + s) ≤ 2 ^ lastPlace q :=
        zpow_le_zpow_right₀ (by norm_num) (by omega)
      rwa [zpow_add₀ (by norm_num), zpow_one] at hstep
    have heq : |q| = 2 ^ 52 * ulp q := le_antisymm (by linarith) hlow
    rcases abs_choice q with hsign | hsign
    · refine nearest_of_eq_mul (n := 2 ^ 52) ?_
      push_cast
      linarith
    · refine nearest_of_eq_mul (n := -2 ^ 52) ?_
      push_cast
      linarith

/-- The nearest double is a double. -/
@[simp] theorem nearest_nearest (q : ℚ) : nearest (nearest q) = nearest q := by
  refine nearest_of_significand (le_lastPlace q) ?_
  have hlt := abs_lt_ulp q
  have hdiv : |q / ulp q| ≤ ((2 ^ 53 : ℤ) : ℚ) := by
    rw [abs_div, abs_of_pos (ulp_pos q), div_le_iff₀ (ulp_pos q)]
    push_cast
    exact hlt.le
  obtain ⟨hlow, hhigh⟩ := abs_le.mp hdiv
  have hup := roundEven_mono hhigh
  have hdown := roundEven_mono hlow
  rw [← Int.cast_neg, roundEven_intCast] at hdown
  rw [roundEven_intCast] at hup
  exact abs_le.mpr ⟨hdown, hup⟩

theorem nearest_nonneg {q : ℚ} (h : 0 ≤ q) : 0 ≤ nearest q := by
  refine mul_nonneg ?_ (ulp_pos q).le
  exact_mod_cast roundEven_nonneg (div_nonneg h (ulp_pos q).le)

/-- Rounding keeps the order. -/
theorem nearest_mono {a b : ℚ} (ha : 0 ≤ a) (h : a ≤ b) : nearest a ≤ nearest b := by
  have hb := ha.trans h
  have hplace : lastPlace a ≤ lastPlace b := by
    refine lastPlace_mono ?_
    rwa [abs_of_nonneg ha, abs_of_nonneg hb]
  rcases hplace.eq_or_lt with heq | hlt
  · have hulp : ulp a = ulp b := by rw [ulp, ulp, heq]
    rw [nearest, nearest, hulp]
    refine mul_le_mul_of_nonneg_right ?_ (ulp_pos b).le
    exact_mod_cast roundEven_mono (div_le_div_of_nonneg_right h (ulp_pos b).le)
  · -- a power of two lies between them
    have hlow : 2 ^ 52 * ulp b ≤ b := by
      have hlow := ulp_le_abs ((le_lastPlace a).trans_lt hlt)
      rwa [abs_of_nonneg hb] at hlow
    have hulp : 2 * ulp a ≤ ulp b := by
      have hstep : (2 : ℚ) ^ (1 + lastPlace a) ≤ 2 ^ lastPlace b :=
        zpow_le_zpow_right₀ (by norm_num) (by omega)
      rwa [zpow_add₀ (by norm_num), zpow_one] at hstep
    have hhigh : a / ulp a ≤ ((2 ^ 53 : ℤ) : ℚ) := by
      have hlt := abs_lt_ulp a
      rw [abs_of_nonneg ha] at hlt
      rw [div_le_iff₀ (ulp_pos a)]
      push_cast
      exact hlt.le
    have hfloor : ((2 ^ 52 : ℤ) : ℚ) ≤ b / ulp b := by
      rw [le_div_iff₀ (ulp_pos b)]
      push_cast
      exact hlow
    have hra := roundEven_mono hhigh
    have hrb := roundEven_mono hfloor
    rw [roundEven_intCast] at hra hrb
    have hra' : ((roundEven (a / ulp a) : ℤ) : ℚ) ≤ 2 ^ 53 := by exact_mod_cast hra
    have hrb' : (2 : ℚ) ^ 52 ≤ ((roundEven (b / ulp b) : ℤ) : ℚ) := by exact_mod_cast hrb
    calc nearest a ≤ 2 ^ 53 * ulp a := mul_le_mul_of_nonneg_right hra' (ulp_pos a).le
      _ ≤ 2 ^ 52 * ulp b := by linarith
      _ ≤ nearest b := mul_le_mul_of_nonneg_right hrb' (ulp_pos b).le

/-- What lies between two numbers that round to the same double rounds to it. -/
theorem nearest_between {a b c x : ℚ} (hpos : 0 ≤ a) (ha : nearest a = x) (hc : nearest c = x)
    (hab : a ≤ b) (hbc : b ≤ c) : nearest b = x :=
  le_antisymm (hc ▸ nearest_mono (hpos.trans hab) hbc) (ha ▸ nearest_mono hpos hab)

section Bits

/-- The number that a bit pattern stands for, if it is finite. -/
def value (bits : UInt64) : ℚ :=
  let exponent : ℕ := bits.toNat / 2 ^ 52 % 2 ^ 11
  let fraction : ℕ := bits.toNat % 2 ^ 52
  let magnitude : ℚ :=
    if exponent = 0 then fraction * 2 ^ (-1074 : ℤ)
    else ((2 ^ 52 + fraction : ℕ) : ℚ) * 2 ^ (exponent - 1075 : ℤ)
  if bits.toNat / 2 ^ 63 = 0 then magnitude else -magnitude

/-- The magnitude of a double as a bit pattern: a significand of 53 bits carries into the
exponent. -/
def magnitudeBits (x : ℚ) : ℕ := (lastPlace x + 1074).toNat * 2 ^ 52 + ⌊|x| / ulp x⌋₊

/-- The bit pattern of a double. -/
def encode (x : ℚ) : UInt64 := .ofNat ((if x < 0 then 2 ^ 63 else 0) + magnitudeBits x)

/-- The exponent and the significand of a double. -/
theorem exists_fields {x : ℚ} (h : nearest x = x) (hlt : |x| < 2 ^ 1024) :
    ∃ e m : ℕ, lastPlace x = e - 1074 ∧ |x| = m * ulp x ∧ magnitudeBits x = e * 2 ^ 52 + m ∧
      e ≤ 2045 ∧ m < 2 ^ 53 ∧ (0 < e → 2 ^ 52 ≤ m) := by
  obtain ⟨e, he⟩ : ∃ e : ℕ, lastPlace x = e - 1074 := by
    have hle := le_lastPlace x
    exact ⟨(lastPlace x + 1074).toNat, by omega⟩
  obtain ⟨m, habs⟩ : ∃ m : ℕ, |x| = m * ulp x := by
    refine ⟨(roundEven (x / ulp x)).natAbs, ?_⟩
    rw [Nat.cast_natAbs, Int.cast_abs]
    nth_rewrite 1 [← h]
    rw [nearest, abs_mul, abs_of_pos (ulp_pos x)]
  refine ⟨e, m, he, habs, ?_, ?_, ?_, fun hpos => ?_⟩
  · rw [magnitudeBits, habs, mul_div_cancel_right₀ _ (ulp_ne_zero x), Nat.floor_natCast, he]
    congr 2
    omega
  · by_contra hgt
    have hle := (ulp_le_abs (q := x) (by omega)).trans_lt hlt
    have hulp : (2 : ℚ) ^ (972 : ℤ) ≤ ulp x := zpow_le_zpow_right₀ (by norm_num) (by omega)
    have hsplit : (2 : ℚ) ^ 1024 = 2 ^ 52 * 2 ^ (972 : ℤ) := by
      rw [zpow_ofNat, ← pow_add]
    rw [hsplit] at hle
    linarith
  · have hlt := abs_lt_ulp x
    rw [habs] at hlt
    exact_mod_cast lt_of_mul_lt_mul_right hlt (ulp_pos x).le
  · have hle := ulp_le_abs (q := x) (by omega)
    rw [habs] at hle
    exact_mod_cast le_of_mul_le_mul_right hle (ulp_pos x)

/-- The sign does not reach into the exponent. -/
theorem toNat_encode {x : ℚ} (h : nearest x = x) (hlt : |x| < 2 ^ 1024) :
    (encode x).toNat = (if x < 0 then 2 ^ 63 else 0) + magnitudeBits x ∧
      magnitudeBits x < 2 ^ 63 := by
  obtain ⟨e, m, -, -, hmagnitude, he, hm, -⟩ := exists_fields h hlt
  have hsmall : magnitudeBits x < 2 ^ 63 := by omega
  refine ⟨?_, hsmall⟩
  rw [encode, UInt64.toNat_ofNat']
  split_ifs <;> omega

theorem sign_encode {x : ℚ} (h : nearest x = x) (hlt : |x| < 2 ^ 1024) :
    (encode x).toNat / 2 ^ 63 = if x < 0 then 1 else 0 := by
  obtain ⟨hbits, hsmall⟩ := toNat_encode h hlt
  rw [hbits]
  split_ifs <;> omega

/-- A double is read back from its bits. -/
theorem value_encode {x : ℚ} (h : nearest x = x) (hlt : |x| < 2 ^ 1024) :
    value (encode x) = x := by
  obtain ⟨e, m, he, habs, hmagnitude, -, hm, hnormal⟩ := exists_fields h hlt
  obtain ⟨hbits, hsmall⟩ := toNat_encode h hlt
  have hexp : (encode x).toNat / 2 ^ 52 % 2 ^ 11 = magnitudeBits x / 2 ^ 52 := by
    rw [hbits]
    split_ifs <;> omega
  have hfraction : (encode x).toNat % 2 ^ 52 = magnitudeBits x % 2 ^ 52 := by
    rw [hbits]
    split_ifs <;> omega
  have hvalue : (if magnitudeBits x / 2 ^ 52 = 0 then
      ((magnitudeBits x % 2 ^ 52 : ℕ) : ℚ) * 2 ^ (-1074 : ℤ)
      else ((2 ^ 52 + magnitudeBits x % 2 ^ 52 : ℕ) : ℚ) *
        2 ^ (((magnitudeBits x / 2 ^ 52 : ℕ) : ℤ) - 1075)) = |x| := by
    rw [habs, ulp, he, hmagnitude]
    by_cases hcarry : 2 ^ 52 ≤ m
    · have hquot : (e * 2 ^ 52 + m) / 2 ^ 52 = e + 1 := by omega
      have hrest : 2 ^ 52 + (e * 2 ^ 52 + m) % 2 ^ 52 = m := by omega
      rw [hquot, hrest, if_neg (Nat.succ_ne_zero e)]
      congr 2
      push_cast
      ring
    · have hzero : e = 0 := by
        by_contra hne
        exact hcarry (hnormal (Nat.pos_of_ne_zero hne))
      subst hzero
      have hquot : (0 * 2 ^ 52 + m) / 2 ^ 52 = 0 := by omega
      have hrest : (0 * 2 ^ 52 + m) % 2 ^ 52 = m := by omega
      rw [hquot, hrest, if_pos rfl]
      norm_num
  rw [value, sign_encode h hlt, hexp, hfraction]
  simp only [hvalue]
  split_ifs with hneg hone hone
  · cases hone
  · rw [abs_of_neg hneg, neg_neg]
  · exact abs_of_nonneg (not_lt.mp hneg)
  · exact absurd rfl hone

end Bits

end Binary64
