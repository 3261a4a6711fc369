import Kaleidoscope.Library.ReadDouble

/-!
# Parsing doubles

A text that is a number from its first character to its last is read as the double nearest to it;
the texts of infinity and of what is not a number are read as well. What a double is printed as
parses to that double, and is the numeral of at most one integer.
-/

namespace Binary64

open Decimal (IsDigits)
open Utf8

/-- What a text of a number is read as. -/
inductive Parsed where
  | finite (x : ℚ)
  | infinite (negative : Bool)
  | nan
  deriving DecidableEq

/-- Digits to the end, at least one. -/
def digitsToEnd (t : Text) : Option ℕ :=
  if t ≠ [] ∧ t.all Char.isDigit then some (Decimal.value t) else none

/-- What follows the digits of a number: nothing, or its exponent. -/
def exponentToEnd : Text → Option ℤ
  | [] => some 0
  | c :: t =>
    if c = 'e' ∨ c = 'E' then
      match t with
      | '+' :: u => (digitsToEnd u).map fun n => (n : ℤ)
      | '-' :: u => (digitsToEnd u).map fun n => -(n : ℤ)
      | u => (digitsToEnd u).map fun n => (n : ℤ)
    else none

/-- The number that a text is, without a sign. -/
def literalToEnd (t : Text) : Option ℚ :=
  let whole := t.takeWhile Char.isDigit
  let (decimals, rest) :=
    match t.dropWhile Char.isDigit with
    | '.' :: u => (u.takeWhile Char.isDigit, u.dropWhile Char.isDigit)
    | u => ([], u)
  if whole = [] ∧ decimals = [] then none
  else (exponentToEnd rest).map fun e : ℤ =>
    (Decimal.value (whole ++ decimals) : ℚ) * 10 ^ (e - decimals.length)

/-- The double nearest to a number with a sign. -/
def rounded (negative : Bool) (q : ℚ) : Parsed :=
  if nearest q < 2 ^ 1024 then .finite (if negative then -nearest q else nearest q)
  else .infinite negative

/-- `str::parse::<f64>`. -/
def parse (t : Text) : Option Parsed :=
  let negative : Bool := t.head? = some '-'
  let unsigned := if negative ∨ t.head? = some '+' then t.tail else t
  match literalToEnd unsigned with
  | some q => some (rounded negative q)
  | none =>
    let name := unsigned.map Char.toLower
    if name = "inf".toList ∨ name = "infinity".toList then some (.infinite negative)
    else if name = "nan".toList then some .nan
    else none

/-- Digits, with or without decimals. -/
inductive Positional : Text → Prop
  | whole {whole : Text} (digits : IsDigits whole) (ne : whole ≠ []) : Positional whole
  | point {whole decimals : Text} (digits : IsDigits whole) (ne : whole ≠ [])
      (rest : IsDigits decimals) : Positional (whole ++ '.' :: decimals)

theorem isDigits_repr (n : ℕ) : IsDigits n.repr.toList := fun c hc => by
  rw [Nat.toList_repr] at hc
  exact Nat.isDigit_of_mem_toDigits (by decide) le_rfl hc

theorem repr_toList_ne_nil (n : ℕ) : n.repr.toList ≠ [] := by
  rw [Nat.toList_repr]
  exact Nat.toDigits_ne_nil

theorem positional_positional (digits : ℕ) (q : ℤ) : Positional (positional digits q).toList := by
  cases q with
  | ofNat q => exact .whole (isDigits_repr _) (repr_toList_ne_nil _)
  | negSucc n =>
    have hpos : 0 < 10 ^ (n + 1) := by positivity
    rw [positional, Duration.fmtDecimal]
    split_ifs
    · rw [String.append_empty]
      exact .whole (isDigits_repr _) (repr_toList_ne_nil _)
    · obtain ⟨decimals, hdecimals⟩ : ∃ decimals,
          Duration.decimals (n + 1) (digits % 10 ^ (n + 1)) = decimals := ⟨_, rfl⟩
      have hdigits : IsDigits decimals := fun c hc =>
        Duration.isDigit_of_mem_decimals (Nat.mod_lt digits hpos) (hdecimals ▸ hc)
      have htext : ((digits / 10 ^ (n + 1)).repr ++ "." ++ String.ofList decimals ++ "").toList =
          (digits / 10 ^ (n + 1)).repr.toList ++ '.' :: decimals := by simp
      rw [hdecimals, htext]
      exact .point (isDigits_repr _) (repr_toList_ne_nil _) hdigits

/-- A positional text is a literal to its end. -/
theorem Positional.literalToEnd_eq {t : Text} (h : Positional t) :
    literalToEnd t = decimalLiteral t := by
  cases h with
  | whole digits ne =>
    rw [decimalLiteral_whole digits ne]
    simp [literalToEnd, takeWhile_isDigits digits, dropWhile_isDigits digits, ne,
      exponentToEnd]
  | @point whole decimals digits ne rest =>
    have htake : (whole ++ '.' :: decimals).takeWhile Char.isDigit = whole := by
      rw [List.takeWhile_append_of_pos digits, List.takeWhile_cons_of_neg (by decide),
        List.append_nil]
    have hdrop : (whole ++ '.' :: decimals).dropWhile Char.isDigit = '.' :: decimals := by
      rw [List.dropWhile_append_of_pos digits, List.dropWhile_cons_of_neg (by decide)]
    rw [decimalLiteral_point digits rest ne]
    simp [literalToEnd, htake, hdrop, takeWhile_isDigits rest, dropWhile_isDigits rest,
      ne, exponentToEnd]

/-- A positional text starts with a digit, and so with no sign. -/
theorem Positional.exists_digit {t : Text} (h : Positional t) :
    ∃ c u, t = c :: u ∧ c.isDigit = true := by
  have hdigit {whole : Text} (digits : IsDigits whole) (ne : whole ≠ []) (u : Text) :
      ∃ c v, whole ++ u = c :: v ∧ c.isDigit = true := by
    obtain ⟨c, v, rfl⟩ := List.exists_cons_of_ne_nil ne
    exact ⟨c, v ++ u, rfl, digits c List.mem_cons_self⟩
  cases h with
  | whole digits ne => simpa using hdigit digits ne []
  | point digits ne rest => exact hdigit digits ne _

/-- What a finite double is printed as: its sign and a positional text. -/
theorem exists_positional_display {bits : UInt64} (h : IsFinite bits) :
    ∃ t q, (display bits).toList = (if isNegative bits then ['-'] else []) ++ t ∧
      Positional t ∧ decimalLiteral t = some q ∧ nearest q = |value bits| := by
  obtain ⟨c, t, q, htext, -, hliteral, hnearest⟩ := exists_display h
  refine ⟨c :: t, q, htext, ?_, hliteral, hnearest⟩
  have hsign : (if bits.toNat / 2 ^ 63 = 0 then "" else "-").toList =
      if isNegative bits then ['-'] else [] := by
    by_cases hpos : bits.toNat / 2 ^ 63 = 0
    · rw [isNegative, if_pos hpos, if_neg (by simpa using hpos)]
      rfl
    · rw [isNegative, if_neg hpos, if_pos (by simpa using hpos)]
      rfl
  rw [← hsign] at htext
  by_cases hzero : |value bits| = 0
  · simp only [display, hzero, if_true, String.toList_append] at htext
    rw [← List.append_cancel_left htext]
    exact .whole (fun c hc => by rw [List.mem_singleton.mp hc]; decide) (by decide)
  · simp only [display, if_neg hzero, String.toList_append] at htext
    rw [← List.append_cancel_left htext]
    exact positional_positional _ _

theorem value_eq_sign_abs (bits : UInt64) :
    (if isNegative bits then -|value bits| else |value bits|) = value bits := by
  rw [abs_value]
  simp only [isNegative, value, significand, scale]
  split_ifs <;> simp_all

/-- A literal that starts with a digit, with or without a minus sign. -/
theorem parse_signed {c : Char} {u : Text} {q : ℚ} (hdigit : c.isDigit = true)
    (h : literalToEnd (c :: u) = some q) (negative : Bool) :
    parse ((if negative then ['-'] else []) ++ c :: u) = some (rounded negative q) := by
  cases negative with
  | true => simp [parse, h]
  | false =>
    have hminus : c ≠ '-' := by
      rintro rfl
      exact absurd hdigit (by decide)
    have hplus : c ≠ '+' := by
      rintro rfl
      exact absurd hdigit (by decide)
    simp [parse, hminus, hplus, h]

/-- A double parses from what it is printed as. -/
theorem parse_display {bits : UInt64} (h : IsFinite bits) :
    parse (display bits).toList = some (.finite (value bits)) := by
  obtain ⟨t, q, htext, hpositional, hliteral, hnearest⟩ := exists_positional_display h
  obtain ⟨c, u, rfl, hdigit⟩ := hpositional.exists_digit
  rw [htext, parse_signed hdigit (hpositional.literalToEnd_eq.trans hliteral), rounded, hnearest,
    if_pos (abs_value_lt h), value_eq_sign_abs]

/-- The bits of a double are those of a finite number. -/
theorem isFinite_encode {x : ℚ} (h : nearest x = x) (hlt : |x| < 2 ^ 1024) :
    IsFinite (encode x) := by
  obtain ⟨e, m, -, -, hmagnitude, he, hm, -⟩ := exists_fields h hlt
  obtain ⟨hbits, -⟩ := toNat_encode h hlt
  rw [IsFinite, hbits]
  split_ifs <;> omega

/-- A double parses from its text. -/
theorem parse_display_encode {x : ℚ} (h : nearest x = x) (hlt : |x| < 2 ^ 1024) :
    parse (display (encode x)).toList = some (.finite x) := by
  rw [parse_display (isFinite_encode h hlt), value_encode h hlt]

/-! ## Integers that are printed as doubles -/

theorem isNegative_ofInt {v : ℤ} (hv : |v| ≤ 2 ^ 63) : isNegative (ofInt v) = decide (v < 0) := by
  have hneg : nearest v < 0 ↔ v < 0 := by
    rw [← neg_pos, ← nearest_neg, ← Int.cast_neg, nearest_pos_iff, neg_pos]
  rw [isNegative, ofInt, sign_encode (nearest_nearest _) (abs_nearest_lt hv)]
  by_cases h : v < 0 <;> simp [hneg, h]

/-- The numeral of an integer: its sign, and the literal of its magnitude. -/
theorem exists_toString_int (v : ℤ) :
    ∃ c t, (toString v).toList = (if decide (v < 0) then ['-'] else []) ++ c :: t ∧
      c.isDigit = true ∧ decimalLiteral (c :: t) = some (v.natAbs : ℚ) := by
  have hliteral (n : ℕ) : ∃ c t, (toString n).toList = c :: t ∧ c.isDigit = true ∧
      decimalLiteral (c :: t) = some (n : ℚ) := by
    obtain ⟨c, t, htext, hdigit⟩ := exists_digit_positional n 0
    have hpositional : positional n 0 = toString n := by
      change toString (n * 10 ^ 0) = toString n
      rw [pow_zero, mul_one]
    rw [hpositional] at htext
    refine ⟨c, t, htext, hdigit, ?_⟩
    rw [← htext, ← hpositional, decimalLiteral_positional, zpow_zero, mul_one]
  obtain ⟨c, t, htext, hdigit, hvalue⟩ := hliteral v.natAbs
  refine ⟨c, t, ?_, hdigit, hvalue⟩
  rw [← htext]
  rcases lt_or_ge v 0 with hneg | hpos
  · obtain ⟨n, rfl⟩ : ∃ n : ℕ, v = -(n + 1 : ℕ) := ⟨v.natAbs - 1, by omega⟩
    have hstring : toString (-((n + 1 : ℕ) : ℤ)) = "-" ++ toString (n + 1) := rfl
    rw [hstring, decide_eq_true hneg, Int.natAbs_neg, Int.natAbs_natCast, String.toList_append]
    rfl
  · obtain ⟨n, rfl⟩ : ∃ n : ℕ, v = n := ⟨v.natAbs, by omega⟩
    rw [decide_eq_false (by omega), Int.natAbs_natCast]
    rfl

/-- A finite double is printed as an integer of 64 bits exactly if it is the double of that integer
and the integer is the roundest. -/
theorem display_eq_iff {bits : UInt64} (h : IsFinite bits) {v : ℤ} (hv : |v| ≤ 2 ^ 63) :
    display bits = toString v ↔ bits = ofInt v ∧ Roundest v := by
  constructor
  · intro heq
    obtain ⟨c, t, q, htext, hdigit, hliteral, hnearest⟩ := exists_display h
    obtain ⟨c', t', htext', hdigit', hliteral'⟩ := exists_toString_int v
    rw [heq, htext'] at htext
    have hdash {d : Char} (hd : d.isDigit = true) : d ≠ '-' := fun hd' => by
      rw [hd'] at hd
      exact absurd hd (by decide)
    have hsame : isNegative bits = decide (v < 0) ∧ c :: t = c' :: t' := by
      cases hs : isNegative bits <;> cases hs' : decide (v < 0) <;> rw [hs, hs'] at htext
      · exact ⟨rfl, htext.symm⟩
      · exact absurd (List.cons.inj htext).1.symm (hdash hdigit)
      · exact absurd (List.cons.inj htext).1 (hdash hdigit')
      · exact ⟨rfl, (List.cons.inj htext).2.symm⟩
    obtain ⟨hsign, hdigits⟩ := hsame
    rw [hdigits, hliteral'] at hliteral
    cases hliteral
    have hlt := abs_nearest_lt hv
    have hvalue : nearest (v.natAbs : ℚ) = |value (ofInt v)| := by
      rw [ofInt, value_encode (nearest_nearest _) hlt, abs_nearest_eq]
    have hfinite : IsFinite (ofInt v) := isFinite_encode (nearest_nearest _) hlt
    have hofInt := ofMagnitude_of_nearest hfinite hvalue
    rw [isNegative_ofInt hv, ← hsign, ofMagnitude_of_nearest h hnearest] at hofInt
    obtain rfl := Option.some.inj hofInt
    exact ⟨rfl, (display_ofInt_eq_iff hv).mp heq⟩
  · rintro ⟨rfl, hround⟩
    exact (display_ofInt_eq_iff hv).mpr hround

/-! ## Whole numbers and doubles -/

theorem nearest_natCast {n : ℕ} (h : n ≤ 2 ^ 53) : nearest (n : ℚ) = n := by
  have habs : |(n : ℤ)| ≤ 2 ^ 53 := by
    rw [Nat.abs_cast]
    exact_mod_cast h
  exact_mod_cast nearest_intCast habs

/-- Rounding stays between two whole numbers when the gap to the upper one is wide enough. -/
theorem floor_nearest {q : ℚ} {n : ℕ} (hn : n ≤ 2 ^ 53) (hlow : (n : ℚ) ≤ q)
    (hgap : 2 * q + ulp q < 2 * (n + 1)) : ⌊nearest q⌋₊ = n := by
  have hnonneg : (0 : ℚ) ≤ n := n.cast_nonneg
  have hle : (n : ℚ) ≤ nearest q := nearest_natCast hn ▸ nearest_mono hnonneg hlow
  have hnear := (le_abs_self (nearest q - q)).trans_eq (abs_sub_comm _ _)
  have hround := abs_sub_nearest_le q
  refine (Nat.floor_eq_iff (hnonneg.trans hle)).mpr ⟨hle, ?_⟩
  linarith

/-- A number far enough from zero keeps its sign. -/
theorem nearest_pos {q : ℚ} {s : ℤ} (hs : -1074 ≤ s) (h : 2 ^ s ≤ q) : 0 < nearest q := by
  have hpow : (0 : ℚ) < 2 ^ s := zpow_pos (by norm_num) s
  have hself : nearest ((2 : ℚ) ^ s) = 2 ^ s := by
    simpa using nearest_of_significand (n := 1) hs (by norm_num)
  calc (0 : ℚ) < 2 ^ s := hpow
    _ = nearest (2 ^ s) := hself.symm
    _ ≤ nearest q := nearest_mono hpow.le h

/-- The unit of a double below a power of two. -/
theorem lastPlace_le {x : ℚ} {e : ℤ} (he : -1021 ≤ e) (h : |x| < 2 ^ e) : lastPlace x ≤ e - 53 := by
  rw [lastPlace]
  split_ifs with hzero
  · omega
  · have hlog : Int.log 2 |x| < e :=
      (Int.lt_zpow_iff_log_lt (by norm_num) (abs_pos.mpr hzero)).mp (by exact_mod_cast h)
    omega

/-- A whole number is a multiple of the unit of every double below `2 ^ 53`. -/
theorem exists_natCast_eq_mul_ulp {x : ℚ} (hlt : |x| < 2 ^ 53) (k : ℕ) :
    ∃ m : ℕ, (k : ℚ) = m * ulp x := by
  have hplace : lastPlace x ≤ 0 := lastPlace_le (e := 53) (by norm_num) (by exact_mod_cast hlt)
  refine ⟨k * 2 ^ (-lastPlace x).toNat, ?_⟩
  have hsum : ((-lastPlace x).toNat : ℤ) + lastPlace x = 0 := by omega
  rw [ulp, Nat.cast_mul, Nat.cast_pow, Nat.cast_ofNat, mul_assoc, ← zpow_natCast,
    ← zpow_add₀ (by norm_num), hsum, zpow_zero, mul_one]

/-- Taking a whole number from a larger double is exact. -/
theorem nearest_sub_natCast {x : ℚ} (h : nearest x = x) (hlt : |x| < 2 ^ 53) {k : ℕ}
    (hk : (k : ℚ) ≤ x) : nearest (x - k) = x - k := by
  have hbig : |x| < 2 ^ 1024 := hlt.trans (pow_lt_pow_right₀ (by norm_num) (by norm_num))
  obtain ⟨e, n, -, habs, -, -, hn, -⟩ := exists_fields h hbig
  obtain ⟨m, hm⟩ := exists_natCast_eq_mul_ulp hlt k
  have hx : x = n * ulp x := by
    rwa [abs_of_nonneg (k.cast_nonneg.trans hk)] at habs
  have hle : m ≤ n := by
    have hmul : (m : ℚ) * ulp x ≤ n * ulp x := hx ▸ hm ▸ hk
    exact_mod_cast le_of_mul_le_mul_right hmul (ulp_pos x)
  have hdiff : x - k = ((n - m : ℕ) : ℤ) * 2 ^ lastPlace x := by
    rw [Int.cast_natCast, Nat.cast_sub hle, sub_mul, hm]
    nth_rewrite 1 [hx]
    rfl
  rw [hdiff]
  refine nearest_of_significand (le_lastPlace x) ?_
  rw [Nat.abs_cast]
  exact_mod_cast (Nat.sub_le n m).trans hn.le

/-- A double less than a whole number stays below it when the number is taken from it. -/
theorem nearest_sub_natCast_neg {x : ℚ} (h : nearest x = x) (hlt : |x| < 2 ^ 53) {k : ℕ}
    (hpos : 0 ≤ x) (hk : x < k) : nearest (x - k) < 0 := by
  have hbig : |x| < 2 ^ 1024 := hlt.trans (pow_lt_pow_right₀ (by norm_num) (by norm_num))
  obtain ⟨e, n, -, habs, -, -, hn, -⟩ := exists_fields h hbig
  obtain ⟨m, hm⟩ := exists_natCast_eq_mul_ulp hlt k
  have hx : x = n * ulp x := by
    rwa [abs_of_nonneg hpos] at habs
  have hlt : n < m := by
    have hmul : (n : ℚ) * ulp x < m * ulp x := hx ▸ hm ▸ hk
    exact_mod_cast lt_of_mul_lt_mul_right hmul (ulp_pos x).le
  have hunit : 2 ^ lastPlace x ≤ k - x := by
    have hone : (n : ℚ) + 1 ≤ m := by exact_mod_cast hlt
    calc (2 : ℚ) ^ lastPlace x = (n + 1) * ulp x - n * ulp x := by rw [ulp]; ring
      _ ≤ m * ulp x - n * ulp x := by
        gcongr
        exact (ulp_pos x).le
      _ = k - x := by rw [← hm, ← hx]
  have hneg := nearest_pos (le_lastPlace x) hunit
  rw [← neg_sub, nearest_neg]
  linarith

end Binary64
