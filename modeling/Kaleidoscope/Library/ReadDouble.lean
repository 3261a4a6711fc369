import Kaleidoscope.Library.Decimal
import Kaleidoscope.Library.ShortestDecimal
import Mathlib.Data.List.TakeWhile

/-!
# Reading doubles

A decimal literal is read as the double that is nearest to it. What a double is printed as is read
as that double.
-/

namespace Binary64

open Decimal (IsDigits)
open Utf8

section Fields

/-- The digits of the binary form of a finite double. -/
def significand (bits : UInt64) : ℕ :=
  if bits.toNat / 2 ^ 52 % 2 ^ 11 = 0 then bits.toNat % 2 ^ 52
  else 2 ^ 52 + bits.toNat % 2 ^ 52

/-- The power of two of the last one. -/
def scale (bits : UInt64) : ℤ :=
  if bits.toNat / 2 ^ 52 % 2 ^ 11 = 0 then -1074
  else (bits.toNat / 2 ^ 52 % 2 ^ 11 : ℕ) - 1075

/-- A bit pattern of a number. -/
def IsFinite (bits : UInt64) : Prop := bits.toNat / 2 ^ 52 % 2 ^ 11 ≠ 2047

instance (bits : UInt64) : Decidable (IsFinite bits) := inferInstanceAs (Decidable (_ ≠ _))

/-- A bit pattern with a sign. -/
def isNegative (bits : UInt64) : Bool := bits.toNat / 2 ^ 63 ≠ 0

variable (bits : UInt64)

theorem significand_lt : significand bits < 2 ^ 53 := by
  rw [significand]
  split_ifs <;> omega

theorem le_scale : -1074 ≤ scale bits := by
  rw [scale]
  split_ifs <;> omega

theorem le_significand (h : -1074 < scale bits) : 2 ^ 52 ≤ significand bits := by
  rw [scale] at h
  rw [significand]
  split_ifs at h ⊢ <;> omega

theorem abs_value : |value bits| = significand bits * 2 ^ scale bits := by
  have hmagnitude : 0 ≤ (significand bits : ℚ) * 2 ^ scale bits := by positivity
  have hvalue : value bits = if bits.toNat / 2 ^ 63 = 0
      then (significand bits : ℚ) * 2 ^ scale bits
      else -((significand bits : ℚ) * 2 ^ scale bits) := by
    simp only [value, significand, scale]
    split_ifs <;> rfl
  rw [hvalue]
  split_ifs
  · exact abs_of_nonneg hmagnitude
  · rw [abs_neg, abs_of_nonneg hmagnitude]

theorem nearest_abs_value : nearest |value bits| = |value bits| := by
  have hlt := significand_lt bits
  rw [abs_value]
  refine nearest_of_significand (n := significand bits) (le_scale bits) ?_
  rw [abs_of_nonneg (by positivity)]
  omega

/-- The last place of a number is known from its binary form. -/
theorem lastPlace_mul_zpow {m : ℕ} {s : ℤ} (hs : -1074 ≤ s) (hm : m < 2 ^ 53)
    (hnormal : -1074 < s → 2 ^ 52 ≤ m) : lastPlace (m * 2 ^ s) = s := by
  have hpow : (0 : ℚ) < 2 ^ s := zpow_pos (by norm_num) s
  rcases Nat.eq_zero_or_pos m with rfl | hpos
  · rw [lastPlace, if_pos (by simp)]
    by_contra hne
    have := hnormal (lt_of_le_of_ne hs hne)
    omega
  · have hq : (0 : ℚ) < m * 2 ^ s := by positivity
    have hhigh : (m : ℚ) * 2 ^ s < (2 : ℕ) ^ (53 + s) := by
      rw [Nat.cast_ofNat, zpow_add₀ (by norm_num)]
      refine mul_lt_mul_of_pos_right ?_ hpow
      exact_mod_cast hm
    have hlog := (Int.lt_zpow_iff_log_lt (by norm_num) hq).mp hhigh
    rw [lastPlace, if_neg hq.ne', abs_of_pos hq]
    rcases hs.eq_or_lt with rfl | hlt
    · omega
    · have hlow : ((2 : ℕ) : ℚ) ^ (52 + s) ≤ m * 2 ^ s := by
        rw [Nat.cast_ofNat, zpow_add₀ (by norm_num)]
        refine mul_le_mul_of_nonneg_right ?_ hpow.le
        exact_mod_cast hnormal hlt
      have hlow := (Int.zpow_le_iff_le_log (by norm_num) hq).mp hlow
      omega

/-- The magnitude of a double has its bits without the sign. -/
theorem magnitudeBits_abs_value : magnitudeBits |value bits| = bits.toNat % 2 ^ 63 := by
  have hplace : lastPlace |value bits| = scale bits := by
    rw [abs_value]
    exact lastPlace_mul_zpow (le_scale bits) (significand_lt bits) (le_significand bits)
  have hdigits : |value bits| / ulp |value bits| = significand bits := by
    rw [ulp, hplace, abs_value, mul_div_cancel_right₀ _ (zpow_pos (by norm_num) _).ne']
  rw [magnitudeBits, abs_abs, hdigits, Nat.floor_natCast, hplace, scale, significand]
  by_cases hfield : bits.toNat / 2 ^ 52 % 2 ^ 11 = 0
  · rw [if_pos hfield, if_pos hfield]
    omega
  · rw [if_neg hfield, if_neg hfield]
    omega

variable {bits}

theorem abs_value_lt (h : IsFinite bits) : |value bits| < 2 ^ 1024 := by
  have hscale : scale bits ≤ 971 := by
    rw [IsFinite] at h
    rw [scale]
    split_ifs <;> omega
  rw [abs_value]
  calc (significand bits : ℚ) * 2 ^ scale bits
    _ < 2 ^ 53 * 2 ^ scale bits := by
      refine mul_lt_mul_of_pos_right ?_ (zpow_pos (by norm_num) _)
      exact_mod_cast significand_lt bits
    _ ≤ 2 ^ 53 * 2 ^ (971 : ℤ) := by
      refine mul_le_mul_of_nonneg_left ?_ (by norm_num)
      exact zpow_le_zpow_right₀ (by norm_num) hscale
    _ = 2 ^ 1024 := by rw [zpow_ofNat, ← pow_add]

/-- The bits of the double nearest to a magnitude, unless it is infinite. -/
def ofMagnitude (negative : Bool) (q : ℚ) : Option UInt64 :=
  if 2 ^ 1024 ≤ nearest q then none
  else some (.ofNat ((if negative then 2 ^ 63 else 0) + magnitudeBits (nearest q)))

/-- A number whose nearest double is the magnitude of one. -/
theorem ofMagnitude_of_nearest (h : IsFinite bits) {q : ℚ} (hq : nearest q = |value bits|) :
    ofMagnitude (isNegative bits) q = some bits := by
  have hlt := bits.toNat_lt
  rw [ofMagnitude, hq, if_neg (not_le.mpr (abs_value_lt h)), magnitudeBits_abs_value, isNegative]
  refine congrArg some (UInt64.toNat_inj.mp ?_)
  rw [UInt64.toNat_ofNat']
  by_cases hsign : bits.toNat / 2 ^ 63 = 0
  · rw [if_neg (by simpa using hsign)]
    omega
  · rw [if_pos (by simpa using hsign)]
    omega

end Fields

section Shortest

/-- A double is a decimal of less than 800 digits. -/
theorem exists_decimal {m : ℕ} {s : ℤ} (hpos : 0 < m) (hm : m < 2 ^ 53) (hs : -1074 ≤ s)
    (hs' : s ≤ 971) :
    ∃ (d : ℕ) (q : ℤ), (d : ℚ) * 10 ^ q = m * 2 ^ s ∧ (10 : ℚ) ^ q ≤ m * 2 ^ s ∧
      (m : ℚ) * 2 ^ s < 10 ^ (q + 800) := by
  have hone : (1 : ℚ) ≤ m := by exact_mod_cast hpos
  have hhigh : (m : ℚ) < 2 ^ 53 := by exact_mod_cast hm
  rcases le_or_gt 0 s with hnat | hneg
  · obtain ⟨k, rfl⟩ := Int.eq_ofNat_of_zero_le hnat
    refine ⟨m * 2 ^ k, 0, by simp, ?_, ?_⟩
    · rw [zpow_zero, zpow_natCast]
      exact one_le_mul_of_one_le_of_one_le hone (one_le_pow₀ (by norm_num))
    · calc (m : ℚ) * 2 ^ (k : ℤ)
        _ < 2 ^ 53 * 2 ^ (971 : ℤ) := by
          refine mul_lt_mul hhigh ?_ (zpow_pos (by norm_num) _) (by norm_num)
          exact zpow_le_zpow_right₀ (by norm_num) hs'
        _ ≤ 10 ^ ((0 : ℤ) + 800) := by
          have hle : 2 ^ 53 * 2 ^ 971 ≤ 10 ^ 800 := by decide +kernel
          rw [zero_add, zpow_ofNat, zpow_ofNat]
          exact_mod_cast hle
  · obtain ⟨k, hk⟩ := Int.eq_ofNat_of_zero_le (a := -s) (by omega)
    obtain rfl : s = -(k : ℤ) := by omega
    have hten : (10 : ℚ) ^ (-(k : ℤ)) * 5 ^ k = 2 ^ (-(k : ℤ)) := by
      rw [zpow_neg, zpow_neg, zpow_natCast, zpow_natCast,
        show (10 : ℚ) = 2 * 5 by norm_num, mul_pow]
      field_simp
    have hunit : (0 : ℚ) < 10 ^ (-(k : ℤ)) := zpow_pos (by norm_num) _
    refine ⟨m * 5 ^ k, -(k : ℤ), ?_, ?_, ?_⟩
    · rw [← hten]
      push_cast
      ring
    · rw [← hten, mul_left_comm]
      refine le_mul_of_one_le_right hunit.le ?_
      exact one_le_mul_of_one_le_of_one_le hone (one_le_pow₀ (by norm_num))
    · rw [← hten, mul_left_comm, zpow_add₀ (by norm_num)]
      refine mul_lt_mul_of_pos_left ?_ hunit
      calc (m : ℚ) * 5 ^ k
        _ < 2 ^ 53 * 5 ^ 1074 := by
          refine mul_lt_mul hhigh ?_ (by positivity) (by norm_num)
          exact pow_le_pow_right₀ (by norm_num) (by omega)
        _ ≤ 10 ^ (800 : ℤ) := by
          have hle : 2 ^ 53 * 5 ^ 1074 ≤ 10 ^ 800 := by decide +kernel
          rw [zpow_ofNat]
          exact_mod_cast hle

/-- The shortest decimal of a double reads back. -/
theorem nearest_shortest {bits : UInt64} (h : IsFinite bits) (hne : |value bits| ≠ 0) :
    nearest ((shortest |value bits|).1 * 10 ^ (shortest |value bits|).2) = |value bits| := by
  have hx : 0 < |value bits| := lt_of_le_of_ne (abs_nonneg _) hne.symm
  have hpos : 0 < significand bits := by
    rw [Nat.pos_iff_ne_zero]
    intro hzero
    rw [abs_value, hzero, Nat.cast_zero, zero_mul] at hne
    exact hne rfl
  have hscale : scale bits ≤ 971 := by
    rw [IsFinite] at h
    rw [scale]
    split_ifs <;> omega
  obtain ⟨d, q, hdecimal, hle, hlt⟩ :=
    exists_decimal hpos (significand_lt bits) (le_scale bits) hscale
  rw [← abs_value] at hdecimal hle hlt
  have hle := (Int.zpow_le_iff_le_log (b := 10) (by norm_num) hx).mp hle
  have hlt := (Int.lt_zpow_iff_log_lt (b := 10) (by norm_num) hx).mp hlt
  have hreads : nearest ((d : ℚ) * 10 ^ q) = |value bits| := by
    rw [hdecimal, nearest_abs_value]
  obtain ⟨d', q', hshortest, hcandidate, -⟩ :=
    shortest_spec hx (nearest_abs_value bits) hreads hle hlt
  rw [hshortest]
  exact (of_candidate hx hcandidate).1

end Shortest

section Text

/-- The exponent at the start of what follows a decimal number; none is one of zero. -/
def exponentPart : Text → ℤ
  | [] => 0
  | c :: t =>
    if c = 'e' ∨ c = 'E' then
      match t with
      | '+' :: u => Decimal.value (u.takeWhile Char.isDigit)
      | '-' :: u => -Decimal.value (u.takeWhile Char.isDigit)
      | u => Decimal.value (u.takeWhile Char.isDigit)
    else 0

/-- The number of the longest decimal literal at the start of a text. -/
def decimalLiteral (t : Text) : Option ℚ :=
  let whole := t.takeWhile Char.isDigit
  let (decimals, rest) :=
    match t.dropWhile Char.isDigit with
    | '.' :: u => (u.takeWhile Char.isDigit, u.dropWhile Char.isDigit)
    | u => ([], u)
  if whole = [] ∧ decimals = [] then none
  else some ((Decimal.value (whole ++ decimals) : ℚ) *
    10 ^ (exponentPart rest - decimals.length))

theorem takeWhile_isDigits {t : Text} (h : IsDigits t) : t.takeWhile Char.isDigit = t :=
  List.takeWhile_eq_self_iff.mpr h

theorem dropWhile_isDigits {t : Text} (h : IsDigits t) : t.dropWhile Char.isDigit = [] :=
  List.dropWhile_eq_nil_iff.mpr h

/-- A whole number. -/
theorem decimalLiteral_whole {whole : Text} (h : IsDigits whole) (hne : whole ≠ []) :
    decimalLiteral whole = some (Decimal.value whole) := by
  simp [decimalLiteral, takeWhile_isDigits h, dropWhile_isDigits h, hne, exponentPart]

/-- A number with decimals. -/
theorem decimalLiteral_point {whole decimals : Text} (hwhole : IsDigits whole)
    (hdecimals : IsDigits decimals) (hne : whole ≠ []) :
    decimalLiteral (whole ++ '.' :: decimals) =
      some ((Decimal.value (whole ++ decimals) : ℚ) * 10 ^ (-(decimals.length : ℤ))) := by
  have htake : (whole ++ '.' :: decimals).takeWhile Char.isDigit = whole := by
    rw [List.takeWhile_append_of_pos hwhole, List.takeWhile_cons_of_neg (by decide),
      List.append_nil]
  have hdrop : (whole ++ '.' :: decimals).dropWhile Char.isDigit = '.' :: decimals := by
    rw [List.dropWhile_append_of_pos hwhole, List.dropWhile_cons_of_neg (by decide)]
  simp [decimalLiteral, htake, hdrop, takeWhile_isDigits hdecimals, dropWhile_isDigits hdecimals,
    hne, exponentPart]

theorem value_append (s t : Text) :
    Decimal.value (s ++ t) = Decimal.value s * 10 ^ t.length + Decimal.value t := by
  rw [Decimal.value, Nat.ofDigitChars_append, Nat.ofDigitChars_eq_ofDigitChars_zero,
    Nat.mul_comm, Decimal.value, Decimal.value]

/-- The decimals of a fraction are those of it. -/
theorem value_decimals {places fractional : ℕ} (h : fractional < 10 ^ places) :
    Decimal.value (Duration.decimals places fractional) * 10 ^ places =
      fractional * 10 ^ (Duration.decimals places fractional).length := by
  induction places generalizing fractional with
  | zero =>
    obtain rfl : fractional = 0 := by omega
    rfl
  | succ places ih =>
    rw [Duration.decimals]
    split_ifs with hzero
    · simp [hzero]
    · have hpos : 0 < 10 ^ places := by positivity
      have hdigit : fractional / 10 ^ places < 10 := by
        rw [pow_succ] at h
        exact Nat.div_lt_of_lt_mul h
      have hrest := ih (Nat.mod_lt fractional hpos)
      have hsplit := Nat.div_add_mod fractional (10 ^ places)
      obtain ⟨tail, htail⟩ : ∃ tail, Duration.decimals places (fractional % 10 ^ places) = tail :=
        ⟨_, rfl⟩
      rw [htail] at hrest ⊢
      rw [← List.singleton_append, value_append, List.length_append, Decimal.value,
        Nat.ofDigitChars_cons_digitChar_of_lt_ten hdigit, Nat.ofDigitChars_nil]
      simp only [Nat.mul_zero, Nat.zero_add, List.length_singleton]
      calc (fractional / 10 ^ places * 10 ^ tail.length + Decimal.value tail) * 10 ^ (places + 1)
        _ = fractional / 10 ^ places * 10 ^ tail.length * 10 ^ (places + 1) +
            Decimal.value tail * 10 ^ places * 10 := by ring
        _ = (10 ^ places * (fractional / 10 ^ places) + fractional % 10 ^ places) *
            10 ^ (1 + tail.length) := by
          rw [hrest]
          ring
        _ = fractional * 10 ^ (1 + tail.length) := by rw [hsplit]

/-- A decimal without an exponent is read as its number. -/
theorem decimalLiteral_positional (digits : ℕ) (q : ℤ) :
    decimalLiteral (positional digits q).toList = some ((digits : ℚ) * 10 ^ q) := by
  have hrepr (n : ℕ) : IsDigits n.repr.toList := fun c hc => by
    rw [Nat.toList_repr] at hc
    exact Nat.isDigit_of_mem_toDigits (by decide) le_rfl hc
  have hvalue (n : ℕ) : Decimal.value n.repr.toList = n := by
    rw [Nat.toList_repr, Decimal.value, Nat.ofDigitChars_ten_toDigits]
  have hne (n : ℕ) : n.repr.toList ≠ [] := by
    rw [Nat.toList_repr]
    exact Nat.toDigits_ne_nil
  cases q with
  | ofNat q =>
    rw [positional]
    change decimalLiteral (digits * 10 ^ q).repr.toList = _
    rw [decimalLiteral_whole (hrepr _) (hne _), hvalue]
    simp
  | negSucc n =>
    obtain ⟨places, hplaces⟩ : ∃ places, n + 1 = places := ⟨_, rfl⟩
    have hq : Int.negSucc n = -(places : ℤ) := by omega
    have hpos : 0 < 10 ^ places := by positivity
    have hten : (10 : ℚ) ^ places ≠ 0 := by positivity
    have hsplit := Nat.div_add_mod digits (10 ^ places)
    rw [positional, hplaces, hq, Duration.fmtDecimal]
    split_ifs with hzero
    · rw [String.append_empty, decimalLiteral_whole (hrepr _) (hne _), hvalue]
      rw [hzero, Nat.add_zero] at hsplit
      refine congrArg some ?_
      rw [zpow_neg, zpow_natCast, eq_mul_inv_iff_mul_eq₀ hten, mul_comm]
      exact_mod_cast hsplit
    · obtain ⟨decimals, hdecimals⟩ :
          ∃ decimals, Duration.decimals places (digits % 10 ^ places) = decimals := ⟨_, rfl⟩
      have hdigits : IsDigits decimals := fun c hc =>
        Duration.isDigit_of_mem_decimals (Nat.mod_lt digits hpos) (hdecimals ▸ hc)
      have hfraction := value_decimals (Nat.mod_lt digits hpos)
      rw [hdecimals] at hfraction
      have htext : ((digits / 10 ^ places).repr ++ "." ++ String.ofList decimals ++ "").toList =
          (digits / 10 ^ places).repr.toList ++ '.' :: decimals := by simp
      rw [hdecimals, htext, decimalLiteral_point (hrepr _) hdigits (hne _), value_append, hvalue]
      refine congrArg some ?_
      have hlength : (10 : ℚ) ^ decimals.length ≠ 0 := by positivity
      rw [zpow_neg, zpow_neg, zpow_natCast, zpow_natCast, ← div_eq_mul_inv, ← div_eq_mul_inv,
        div_eq_div_iff hlength hten]
      have hcross : (digits / 10 ^ places * 10 ^ decimals.length + Decimal.value decimals) *
          10 ^ places = digits * 10 ^ decimals.length := by
        rw [Nat.add_mul, hfraction]
        nth_rewrite 3 [← hsplit]
        ring
      exact_mod_cast hcross

/-- A decimal without an exponent starts with a digit. -/
theorem exists_digit_positional (digits : ℕ) (q : ℤ) :
    ∃ c t, (positional digits q).toList = c :: t ∧ c.isDigit = true := by
  have hrepr (n : ℕ) (s : Text) : ∃ c t, n.repr.toList ++ s = c :: t ∧ c.isDigit = true := by
    rw [Nat.toList_repr]
    obtain ⟨c, t, ht⟩ := List.exists_cons_of_ne_nil (Nat.toDigits_ne_nil (b := 10) (n := n))
    refine ⟨c, t ++ s, by rw [ht, List.cons_append], ?_⟩
    exact Nat.isDigit_of_mem_toDigits (by decide) le_rfl (ht ▸ List.mem_cons_self)
  cases q with
  | ofNat q =>
    change ∃ c t, (digits * 10 ^ q).repr.toList = c :: t ∧ c.isDigit = true
    simpa using hrepr (digits * 10 ^ q) []
  | negSucc n =>
    rw [positional, Duration.fmtDecimal]
    split_ifs
    · simpa using hrepr (digits / 10 ^ (n + 1)) []
    · simpa using hrepr (digits / 10 ^ (n + 1))
        ('.' :: Duration.decimals (n + 1) (digits % 10 ^ (n + 1)))

/-- What a finite double is printed as: its sign, and a literal that the double is the nearest
to. -/
theorem exists_display {bits : UInt64} (h : IsFinite bits) :
    ∃ c t q, (display bits).toList = (if isNegative bits then ['-'] else []) ++ c :: t ∧
      c.isDigit = true ∧ decimalLiteral (c :: t) = some q ∧ nearest q = |value bits| := by
  have hsign : (if bits.toNat / 2 ^ 63 = 0 then "" else "-").toList =
      if isNegative bits then ['-'] else [] := by
    by_cases hpos : bits.toNat / 2 ^ 63 = 0
    · rw [isNegative, if_pos hpos, if_neg (by simpa using hpos)]
      rfl
    · rw [isNegative, if_neg hpos, if_pos (by simpa using hpos)]
      rfl
  by_cases hzero : |value bits| = 0
  · have hliteral : decimalLiteral ['0'] = some 0 := by
      have hdigit : IsDigits ['0'] := fun c hc => by
        rw [List.mem_singleton.mp hc]
        decide
      rw [decimalLiteral_whole hdigit (List.cons_ne_nil _ _)]
      rfl
    refine ⟨'0', [], 0, ?_, by decide, hliteral, by rw [nearest_zero, hzero]⟩
    simp only [display, hzero, if_true, String.toList_append, hsign]
    rfl
  · obtain ⟨c, t, htext, hdigit⟩ :=
      exists_digit_positional (shortest |value bits|).1 (shortest |value bits|).2
    refine ⟨c, t, _, ?_, hdigit, ?_, nearest_shortest h hzero⟩
    · simp only [display, if_neg hzero, String.toList_append, hsign, htext]
    · rw [← htext, decimalLiteral_positional]

end Text

end Binary64
