import Kaleidoscope.Beacon.Slo
import Kaleidoscope.Library.Decimal
import Kaleidoscope.Library.ShortestDecimal
import Mathlib.Data.List.DropRight

/-!
# The limits of burn-rate rules

The target of an objective and the thresholds of the table are taken as the numbers that they are
written as. A limit is printed with ten decimals and read back by the backend.
-/

namespace Kaleidoscope.Beacon

open Decimal RoundEven Utf8

/-- The number that a double is written as. -/
def written (bits : UInt64) : ℚ :=
  let decimal := Binary64.shortest (Binary64.value bits)
  decimal.1 * 10 ^ decimal.2

/-- A number in units of the tenth decimal. -/
def scaled (x : ℚ) : ℕ := (roundEven (|x| * 10 ^ 10)).toNat

/-- `{:.10}`. -/
def fixed10 (x : ℚ) : String :=
  let sign : Text := if x < 0 then ['-'] else []
  .ofList (sign ++ Nat.toDigits 10 (scaled x / 10 ^ 10) ++ '.' :: fixed 10 (scaled x % 10 ^ 10))

/-- The text of the product of the budget that a target leaves and a threshold. -/
def limitText (target : ℚ) (threshold : UInt64) : String :=
  formatThreshold (fixed10 ((1 - target) * written threshold))

/-- A decimal number of a query, as the backend reads it. -/
def readNumber (text : String) : ℚ :=
  let whole := text.toList.takeWhile (· ≠ '.')
  let decimals := (text.toList.dropWhile (· ≠ '.')).drop 1
  value whole + value decimals / 10 ^ decimals.length

/-- The limit that a rule compares the error ratio with. -/
def limit (target : ℚ) (threshold : UInt64) : ℚ := readNumber (limitText target threshold)

/-- The rules that an objective declares, with the arithmetic of exact numbers. -/
def burnRateRules (target : ℚ) (slo : Slo) : List Rule :=
  synthesiseSlo (fun _ threshold => fixed10 ((1 - target) * written threshold)) slo

/-- Each rule compares the error ratio of both windows with its limit. -/
theorem queries_burnRateRules (target : ℚ) (slo : Slo) :
    (burnRateRules target slo).map Rule.query = mwmbrTable.map fun row =>
      buildQuery slo.sliGoodEvents slo.sliTotalEvents (limitText target row.threshold)
        row.longWindow row.shortWindow := by
  rw [burnRateRules, synthesiseSlo, List.map_map]
  rfl

section Trimming

theorem trimEndMatches_eq (c : Char) (s : Text) : trimEndMatches c s = s.rdropWhile (· == c) := rfl

/-- Nothing is trimmed off before a character that stays. -/
theorem trimEndMatches_append_cons {c d : Char} (hne : d ≠ c) (s t : Text) :
    trimEndMatches c (s ++ d :: t) = s ++ d :: trimEndMatches c t := by
  induction t using List.reverseRecOn with
  | nil =>
    rw [trimEndMatches_eq, List.rdropWhile_concat_neg _ _ _ (by simpa using hne)]
    rfl
  | append_singleton t e ih =>
    by_cases he : e = c
    · rw [← List.cons_append, ← List.append_assoc, trimEndMatches_eq,
        List.rdropWhile_concat_pos _ _ _ (by simpa using he), ← trimEndMatches_eq, ih,
        trimEndMatches_eq _ (t ++ [e]), List.rdropWhile_concat_pos _ _ _ (by simpa using he)]
      rfl
    · rw [← List.cons_append, ← List.append_assoc, trimEndMatches_eq,
        List.rdropWhile_concat_neg _ _ _ (by simpa using he), trimEndMatches_eq,
        List.rdropWhile_concat_neg _ _ _ (by simpa using he), List.append_assoc, List.cons_append]

/-- What is trimmed off. -/
theorem exists_trimEndMatches (c : Char) (s : Text) :
    ∃ n, s = trimEndMatches c s ++ List.replicate n c := by
  induction s using List.reverseRecOn with
  | nil => exact ⟨0, rfl⟩
  | append_singleton s d ih =>
    by_cases hd : d = c
    · obtain ⟨n, hn⟩ := ih
      refine ⟨n + 1, ?_⟩
      rw [trimEndMatches_eq, List.rdropWhile_concat_pos _ _ _ (by simpa using hd),
        ← trimEndMatches_eq, List.replicate_succ', ← List.append_assoc, ← hn, hd]
    · refine ⟨0, ?_⟩
      rw [trimEndMatches_eq, List.rdropWhile_concat_neg _ _ _ (by simpa using hd)]
      simp

/-- Nothing is trimmed off a text without the character. -/
theorem trimEndMatches_of_notMem {c : Char} {s : Text} (h : c ∉ s) : trimEndMatches c s = s := by
  obtain ⟨n, hn⟩ := exists_trimEndMatches c s
  cases n with
  | zero => simpa using hn.symm
  | succ n =>
    refine absurd ?_ h
    rw [hn]
    exact List.mem_append_right _ (List.mem_replicate.mpr ⟨Nat.succ_ne_zero n, rfl⟩)

/-- Zeros at the end multiply by powers of ten. -/
theorem value_append_zeros (t : Text) (n : ℕ) :
    value (t ++ List.replicate n '0') = value t * 10 ^ n := by
  induction n with
  | zero => simp
  | succ n ih =>
    rw [List.replicate_succ', ← List.append_assoc, value_concat, ih, pow_succ]
    rw [Nat.sub_self, Nat.add_zero, Nat.mul_assoc]

/-- A numeral is read up to its point. -/
theorem readNumber_point {whole decimals : Text} (hwhole : '.' ∉ whole) :
    readNumber (.ofList (whole ++ '.' :: decimals)) =
      value whole + value decimals / 10 ^ decimals.length := by
  have hpos : ∀ c ∈ whole, decide (c ≠ '.') = true := fun c hc =>
    decide_eq_true fun h => hwhole (h ▸ hc)
  simp only [readNumber, String.toList_ofList, List.takeWhile_append_of_pos hpos,
    List.dropWhile_append_of_pos hpos]
  simp

theorem readNumber_whole {whole : Text} (hwhole : '.' ∉ whole) :
    readNumber (.ofList whole) = value whole := by
  have hpos : ∀ c ∈ whole, decide (c ≠ '.') = true := fun c hc =>
    decide_eq_true fun h => hwhole (h ▸ hc)
  have htake : whole.takeWhile (fun c => decide (c ≠ '.')) = whole :=
    List.takeWhile_eq_self_iff.mpr hpos
  have hdrop : whole.dropWhile (fun c => decide (c ≠ '.')) = [] :=
    List.dropWhile_eq_nil_iff.mpr hpos
  simp only [readNumber, String.toList_ofList, htake, hdrop]
  simp

theorem point_notMem {t : Text} (h : IsDigits t) : '.' ∉ t := fun hmem =>
  absurd (h '.' hmem) (by decide)

/-- A limit is printed as the number that it is rounded to. -/
theorem readNumber_formatThreshold {x : ℚ} (hx : 0 ≤ x) :
    readNumber (formatThreshold (fixed10 x)) = scaled x / 10 ^ 10 := by
  obtain ⟨whole, hwhole⟩ : ∃ whole, Nat.toDigits 10 (scaled x / 10 ^ 10) = whole := ⟨_, rfl⟩
  have hdigits : IsDigits whole := fun c hc =>
    Nat.isDigit_of_mem_toDigits (by decide) le_rfl (hwhole ▸ hc)
  have hvalue : value whole = scaled x / 10 ^ 10 := by
    rw [value, ← hwhole, Nat.ofDigitChars_ten_toDigits]
  have hnonempty : whole ≠ [] := hwhole ▸ Nat.toDigits_ne_nil
  have hlength : (fixed 10 (scaled x % 10 ^ 10)).length = 10 :=
    length_fixed (by decide) (Nat.mod_lt _ (by decide))
  obtain ⟨n, hn⟩ := exists_trimEndMatches '0' (fixed 10 (scaled x % 10 ^ 10))
  have hraw : (fixed10 x).toList = whole ++ '.' :: fixed 10 (scaled x % 10 ^ 10) := by
    rw [fixed10, if_neg (not_lt.mpr hx), String.toList_ofList, hwhole, List.nil_append]
  have hzeros := trimEndMatches_append_cons (c := '0') (d := '.') (by decide) whole
    (fixed 10 (scaled x % 10 ^ 10))
  generalize trimEndMatches '0' (fixed 10 (scaled x % 10 ^ 10)) = decimals at hn hzeros
  have hdecimals : value decimals * 10 ^ n = scaled x % 10 ^ 10 := by
    rw [← value_append_zeros, ← hn, value_fixed]
  have hsum : decimals.length + n = 10 := by
    rw [← hlength, hn, List.length_append, List.length_replicate]
  have hsplit : (scaled x : ℚ) = (scaled x / 10 ^ 10 : ℕ) * 10 ^ 10 + (scaled x % 10 ^ 10 : ℕ) := by
    exact_mod_cast (Nat.div_add_mod' _ _).symm
  have hpow : (10 : ℚ) ^ n ≠ 0 := by positivity
  rw [formatThreshold, hraw, hzeros]
  rcases List.eq_nil_or_concat' decimals with rfl | ⟨most, last, rfl⟩
  · -- the point goes with the last zero
    have hpoint : trimEndMatches '.' (whole ++ ['.']) = whole := by
      rw [trimEndMatches_eq, List.rdropWhile_concat_pos _ _ _ rfl, ← trimEndMatches_eq,
        trimEndMatches_of_notMem (point_notMem hdigits)]
    have hwholes : scaled x % 10 ^ 10 = 0 := by simpa using hdecimals.symm
    rw [hpoint, if_neg hnonempty, readNumber_whole (point_notMem hdigits), hvalue, hsplit, hwholes]
    ring
  · have hlast : last ≠ '.' := by
      rintro rfl
      refine point_notMem (isDigits_fixed 10 (scaled x % 10 ^ 10)) ?_
      rw [hn]
      simp
    have hpoint : trimEndMatches '.' (whole ++ '.' :: (most ++ [last])) =
        whole ++ '.' :: (most ++ [last]) := by
      rw [← List.cons_append, ← List.append_assoc, trimEndMatches_eq,
        List.rdropWhile_concat_neg _ _ _ (by simpa using hlast)]
    have hten : (10 : ℚ) ^ 10 = 10 ^ (most ++ [last]).length * 10 ^ n := by rw [← pow_add, hsum]
    have hfraction : (value (most ++ [last]) : ℚ) / 10 ^ (most ++ [last]).length =
        (scaled x % 10 ^ 10 : ℕ) / 10 ^ 10 := by
      rw [← hdecimals, hten, Nat.cast_mul, Nat.cast_pow, Nat.cast_ofNat,
        mul_div_mul_right _ _ hpow]
    rw [hpoint, if_neg (by simp), readNumber_point (point_notMem hdigits), hvalue, hfraction,
      hsplit]
    ring

end Trimming

/-- The thresholds of the table are 14.4, 6, 3 and 1. -/
theorem written_mwmbrTable :
    mwmbrTable.map (fun row => written row.threshold) = [72 / 5, 6, 3, 1] := by decide +kernel

theorem written_page : ∀ row ∈ mwmbrTable, row.pageOrTicket = "page" →
    6 ≤ written row.threshold := by decide +kernel

theorem written_ticket : ∀ row ∈ mwmbrTable, row.pageOrTicket = "ticket" →
    1 ≤ written row.threshold ∧ written row.threshold ≤ 3 := by decide +kernel

/-- The rules of an objective are of use: no limit is zero, none is out of reach of an error ratio,
and the limits of pages are larger than those of tickets. -/
structure Usable (target : ℚ) (slo : Slo) : Prop where
  queries : (burnRateRules target slo).map Rule.query = mwmbrTable.map fun row =>
    buildQuery slo.sliGoodEvents slo.sliTotalEvents (limitText target row.threshold) row.longWindow
      row.shortWindow
  reachable : ∀ row ∈ mwmbrTable, 0 < limit target row.threshold ∧ limit target row.threshold < 1
  pages : ∀ page ∈ mwmbrTable, ∀ ticket ∈ mwmbrTable, page.pageOrTicket = "page" →
    ticket.pageOrTicket = "ticket" → limit target ticket.threshold < limit target page.threshold

/-- A limit in units of the tenth decimal. -/
theorem limit_eq {target : ℚ} (h : target < 1) {bits : UInt64} {threshold : ℚ}
    (hwritten : written bits = threshold) (hpos : 0 < threshold) :
    limit target bits = roundEven ((1 - target) * threshold * 10 ^ 10) / 10 ^ 10 := by
  have hproduct : 0 ≤ (1 - target) * threshold := (mul_pos (sub_pos.mpr h) hpos).le
  have hround := roundEven_nonneg (mul_nonneg hproduct (by norm_num : (0 : ℚ) ≤ 10 ^ 10))
  rw [limit, limitText, hwritten, readNumber_formatThreshold hproduct, scaled,
    abs_of_nonneg hproduct]
  congr 1
  exact_mod_cast Int.toNat_of_nonneg hround

section Bounds

variable {target : ℚ} {bits : UInt64} {threshold : ℚ}

theorem limit_pos_iff (h : target < 1) (hwritten : written bits = threshold)
    (hpos : 0 < threshold) : 0 < limit target bits ↔ 5 / 10 ^ 11 < (1 - target) * threshold := by
  have hround := lt_roundEven_iff (n := 0) (by decide) (q := (1 - target) * threshold * 10 ^ 10)
  rw [limit_eq h hwritten hpos, lt_div_iff₀ (by norm_num), zero_mul]
  rw [Int.cast_zero, zero_add] at hround
  rw [Int.cast_pos, hround]
  constructor <;> intro h <;> linarith

theorem limit_lt_one_iff (h : target < 1) (hwritten : written bits = threshold)
    (hpos : 0 < threshold) :
    limit target bits < 1 ↔ (1 - target) * threshold < 1 - 5 / 10 ^ 11 := by
  have hround := roundEven_lt_iff (n := 10 ^ 10) (by decide)
    (q := (1 - target) * threshold * 10 ^ 10)
  rw [limit_eq h hwritten hpos, div_lt_one (by norm_num)]
  have hcast : ((roundEven ((1 - target) * threshold * 10 ^ 10) : ℤ) : ℚ) < 10 ^ 10 ↔
      roundEven ((1 - target) * threshold * 10 ^ 10) < 10 ^ 10 := by
    exact_mod_cast Iff.rfl
  rw [hcast, hround]
  push_cast
  constructor <;> intro h <;> linarith

/-- A limit is larger than another if its product is more than a unit larger. -/
theorem limit_lt_limit (h : target < 1) (hwritten : written bits = threshold)
    (hpos : 0 < threshold) {bits' : UInt64} {threshold' : ℚ}
    (hwritten' : written bits' = threshold') (hpos' : 0 < threshold')
    (hfar : (1 - target) * threshold + 1 / 10 ^ 10 < (1 - target) * threshold') :
    limit target bits < limit target bits' := by
  have hround : roundEven ((1 - target) * threshold * 10 ^ 10) <
      roundEven ((1 - target) * threshold' * 10 ^ 10) :=
    roundEven_lt_roundEven (by linarith)
  rw [limit_eq h hwritten hpos, limit_eq h hwritten' hpos']
  exact div_lt_div_of_pos_right (by exact_mod_cast hround) (by norm_num)

end Bounds

/-- The rules of an objective are of use if its budget is more than half a unit of the tenth
decimal, and 14.4 times the budget is more than that below one. -/
theorem usable_iff {target : ℚ} (hpos : 0 < target) (hlt : target < 1) (slo : Slo) :
    Usable target slo ↔ 5 / 10 ^ 11 < 1 - target ∧ 72 / 5 * (1 - target) < 1 - 5 / 10 ^ 11 := by
  have hwritten := written_mwmbrTable
  simp only [mwmbrTable, List.map_cons, List.map_nil, List.cons.injEq, and_true] at hwritten
  obtain ⟨hfast, hslow, hday, hdays⟩ := hwritten
  constructor
  · rintro ⟨-, hreach, -⟩
    simp only [mwmbrTable, List.forall_mem_cons] at hreach
    obtain ⟨⟨-, hone⟩, -, -, ⟨hzero, -⟩, -⟩ := hreach
    have hlow := (limit_pos_iff hlt hdays (by norm_num)).mp hzero
    have hhigh := (limit_lt_one_iff hlt hfast (by norm_num)).mp hone
    constructor <;> linarith
  · rintro ⟨hlow, hhigh⟩
    have hreach {bits : UInt64} {threshold : ℚ} (h : written bits = threshold)
        (hone : 1 ≤ threshold) (hmost : threshold ≤ 72 / 5) :
        0 < limit target bits ∧ limit target bits < 1 := by
      rw [limit_pos_iff hlt h (by linarith), limit_lt_one_iff hlt h (by linarith)]
      constructor <;> nlinarith
    refine ⟨queries_burnRateRules target slo, ?_, ?_⟩
    · simp only [mwmbrTable, List.forall_mem_cons]
      exact ⟨hreach hfast (by norm_num) (by norm_num), hreach hslow (by norm_num) (by norm_num),
        hreach hday (by norm_num) (by norm_num), hreach hdays (by norm_num) (by norm_num),
        List.forall_mem_nil _⟩
    · intro page hpage ticket hticket hp ht
      have hhigh := written_page page hpage hp
      obtain ⟨hone, hthree⟩ := written_ticket ticket hticket ht
      exact limit_lt_limit hlt rfl (by linarith) rfl (by linarith) (by nlinarith)

/-- An objective. -/
def checkoutSlo : Slo where
  service := "checkout"
  sliGoodEvents := "http_requests_good"
  sliTotalEvents := "http_requests_total"
  targetAvailability := 0x3FEFF7CED916872B
  errorBudgetPeriod := 30 * 24 * 3600 * 1000000000
  sinks := []
  sourcePath := none

/-- Three nines leave a budget that all four limits can print. -/
theorem three_nines_usable : Usable (999 / 1000) checkoutSlo :=
  (usable_iff (by norm_num) (by norm_num) checkoutSlo).mpr ⟨by norm_num, by norm_num⟩

/-- Eleven nines leave a budget that is printed as zero. -/
theorem eleven_nines_always_fire :
    ¬ ∀ (target : ℚ) (slo : Slo), 0 < target → target < 1 → Usable target slo := by
  intro h
  have hlt : (1 - 1 / 10 ^ 11 : ℚ) < 1 := by norm_num
  have hreach := (h (1 - 1 / 10 ^ 11) checkoutSlo (by norm_num) hlt).reachable
  have hwritten := written_mwmbrTable
  simp only [mwmbrTable, List.map_cons, List.map_nil, List.cons.injEq, and_true] at hwritten
  simp only [mwmbrTable, List.forall_mem_cons] at hreach
  have hpos := (limit_pos_iff hlt hwritten.2.2.2 (by norm_num)).mp hreach.2.2.2.1.1
  norm_num at hpos

example : limitText (1 - 1 / 10 ^ 11) 0x3FF0000000000000 = "0" ∧
    limitText (9 / 10) 0x402CCCCCCCCCCCCD = "1.44" := by decide +kernel

end Kaleidoscope.Beacon
