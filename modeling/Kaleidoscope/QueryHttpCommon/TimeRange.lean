import Kaleidoscope.Library.ParseDouble
import Kaleidoscope.QueryApi.QueryRange
import Kaleidoscope.QueryApi.Selector

/-!
# Time bounds

A bound is a number of seconds or a timestamp, and is cut to a whole second. Numbers are read as
doubles; rounding keeps their order, so a range is not inverted by being read.
-/

namespace Kaleidoscope.QueryHttpCommon

open Binary64 QueryApi Utf8

/-- `EpochField`. -/
inductive EpochField where
  | start
  | stop
  deriving DecidableEq, Repr

/-- `unparseable_reason`. -/
def unparseableReason : EpochField → String
  | .start => "invalid time bounds: start must be RFC3339 (e.g. 2026-06-14T17:00:00Z) or " ++
      "unix seconds"
  | .stop => "invalid time bounds: end must be RFC3339 (e.g. 2026-06-14T17:00:00Z) or " ++
      "unix seconds"

/-- `REASON_INVALID_TIME_RANGE`. -/
def reasonInvalidTimeRange : String := "invalid time bounds: end is earlier than start"

/-- A double as `u64`, which cuts and saturates. -/
def asU64 (x : ℚ) : ℕ := min ⌊x⌋₊ Pulse.u64Max

/-- `parse_epoch_seconds`, over what a timestamp is parsed to. -/
def parseEpochSeconds (rfc3339 : String → Option Int) (raw : String) (field : EpochField) :
    Except String ℕ :=
  let trimmed := trim raw
  match Binary64.parse trimmed with
  | some (.finite x) => if 0 ≤ x then .ok (asU64 x) else .error (unparseableReason field)
  | some _ => .error (unparseableReason field)
  | none =>
    match rfc3339 (String.ofList trimmed) with
    | some seconds =>
      if 0 ≤ seconds then .ok seconds.toNat else .error (unparseableReason field)
    | none => .error (unparseableReason field)

/-- `parse_time_range`. -/
def parseTimeRange (rfc3339 : String → Option Int) (start stop : String) :
    Except String EpochRange := do
  let startSecs ← parseEpochSeconds rfc3339 start .start
  let endSecs ← parseEpochSeconds rfc3339 stop .stop
  if endSecs < startSecs then .error reasonInvalidTimeRange else .ok ⟨startSecs, endSecs⟩

theorem asU64_mono {x y : ℚ} (h : x ≤ y) : asU64 x ≤ asU64 y :=
  min_le_min_right _ (Nat.floor_mono h)

variable {rfc3339 : String → Option Int}

/-! ## Numbers -/

/-- The number that a bound is, its sign aside. -/
def numberOf (raw : String) : Option ℚ := literalToEnd (trim raw)

/-- A literal starts with no sign. -/
theorem head_of_literalToEnd {t : Text} {q : ℚ} (h : literalToEnd t = some q) :
    t.head? ≠ some '-' ∧ t.head? ≠ some '+' := by
  cases t with
  | nil => simp
  | cons c u =>
    constructor
    all_goals
      rintro hhead
      obtain rfl := Option.some.inj hhead
      simp [literalToEnd] at h

theorem literalToEnd_nonneg {t : Text} {q : ℚ} (h : literalToEnd t = some q) : 0 ≤ q := by
  rw [literalToEnd] at h
  split at h
  split_ifs at h
  obtain ⟨e, -, rfl⟩ := Option.map_eq_some_iff.mp h
  positivity

theorem parse_of_literalToEnd {t : Text} {q : ℚ} (h : literalToEnd t = some q) :
    Binary64.parse t = some (rounded false q) := by
  obtain ⟨hminus, hplus⟩ := head_of_literalToEnd h
  simp [Binary64.parse, hminus, hplus, h]

/-- A number within the doubles is the second that its double is in. -/
theorem parseEpochSeconds_number {raw : String} {q : ℚ} (h : numberOf raw = some q)
    (hlt : nearest q < 2 ^ 1024) (field : EpochField) :
    parseEpochSeconds rfc3339 raw field = .ok (asU64 (nearest q)) := by
  have hnonneg : 0 ≤ nearest q := nearest_nonneg (literalToEnd_nonneg h)
  simp [parseEpochSeconds, parse_of_literalToEnd h, rounded, hlt, hnonneg]

/-- A number beyond the doubles is refused. -/
theorem parseEpochSeconds_overflow {raw : String} {q : ℚ} (h : numberOf raw = some q)
    (hge : 2 ^ 1024 ≤ nearest q) (field : EpochField) :
    parseEpochSeconds rfc3339 raw field = .error (unparseableReason field) := by
  simp [parseEpochSeconds, parse_of_literalToEnd h, rounded, not_lt.mpr hge]

/-- Whole seconds that a double holds are read exactly. -/
theorem asU64_nearest_natCast {n : ℕ} (h : n ≤ 2 ^ 53) : asU64 (nearest n) = n := by
  rw [asU64, nearest_natCast h, Nat.floor_natCast, Pulse.u64Max]
  omega

/-- Two numbers in their order are read in their order, each as the second that its double is in;
a number beyond the doubles is refused under the name of its bound. -/
theorem parseTimeRange_numbers {start stop : String} {p q : ℚ} (hstart : numberOf start = some p)
    (hstop : numberOf stop = some q) (hle : p ≤ q) :
    parseTimeRange rfc3339 start stop =
      (if 2 ^ 1024 ≤ nearest p then .error (unparseableReason .start)
      else if 2 ^ 1024 ≤ nearest q then .error (unparseableReason .stop)
      else .ok ⟨asU64 (nearest p), asU64 (nearest q)⟩) ∧
    ∀ m n : ℕ, p = m → q = n → n ≤ 2 ^ 53 →
      parseTimeRange rfc3339 start stop = .ok ⟨m, n⟩ := by
  have hresult : parseTimeRange rfc3339 start stop =
      if 2 ^ 1024 ≤ nearest p then .error (unparseableReason .start)
      else if 2 ^ 1024 ≤ nearest q then .error (unparseableReason .stop)
      else .ok ⟨asU64 (nearest p), asU64 (nearest q)⟩ := by
    rw [parseTimeRange]
    split_ifs with hp hq
    · rw [parseEpochSeconds_overflow hstart hp]
      rfl
    · rw [parseEpochSeconds_number hstart (not_le.mp hp), parseEpochSeconds_overflow hstop hq]
      rfl
    · rw [parseEpochSeconds_number hstart (not_le.mp hp),
        parseEpochSeconds_number hstop (not_le.mp hq)]
      have horder : ¬ asU64 (nearest q) < asU64 (nearest p) :=
        not_lt.mpr (asU64_mono (nearest_mono (literalToEnd_nonneg hstart) hle))
      exact if_neg horder
  refine ⟨hresult, ?_⟩
  rintro m n rfl rfl hn
  have hm : m ≤ 2 ^ 53 := (by exact_mod_cast hle : m ≤ n).trans hn
  have hsmall {k : ℕ} (hk : k ≤ 2 ^ 53) : ¬ 2 ^ 1024 ≤ nearest (k : ℚ) := by
    rw [nearest_natCast hk, not_le]
    calc (k : ℚ) ≤ 2 ^ 53 := by exact_mod_cast hk
      _ < 2 ^ 1024 := pow_lt_pow_right₀ (by norm_num) (by norm_num)
  rw [hresult, if_neg (hsmall hm), if_neg (hsmall hn), asU64_nearest_natCast hm,
    asU64_nearest_natCast hn]

/-- Two texts of numbers, one with an exponent. -/
theorem exponent_read : parseTimeRange (fun _ => none) "1750000000" " 1.7500009e9" =
    .ok ⟨1750000000, 1750000900⟩ :=
  (parseTimeRange_numbers (p := 1750000000) (q := 1750000900) (by decide +kernel)
    (by decide +kernel) (by norm_num)).2 1750000000 1750000900 (by norm_num) (by norm_num)
      (by norm_num)

/-- A text without white space is its own trimmed text. -/
theorem trim_eq_toList {raw : String} (h : ∀ c ∈ raw.toList, isWhiteSpace c = false) :
    trim raw = raw.toList := by
  have hdrop {t : Text} (ht : ∀ c ∈ t, isWhiteSpace c = false) : t.dropWhile isWhiteSpace = t := by
    cases t with
    | nil => rfl
    | cons c u => rw [List.dropWhile_cons_of_neg (by simp [ht c List.mem_cons_self])]
  rw [trim, hdrop h, hdrop fun c hc => h c (List.mem_reverse.mp hc), List.reverse_reverse]

theorem isWhiteSpace_of_isDigit {c : Char} (h : c.isDigit = true) : isWhiteSpace c = false := by
  have hdigits : ∀ n < 58, 48 ≤ n → isWhiteSpace (Char.ofNat n) = false := by decide
  obtain ⟨hlow, hhigh⟩ := Decimal.isDigit_iff.mp h
  rw [← Char.ofNat_toNat c]
  exact hdigits c.toNat (by omega) hlow

/-- The text of a double is read as the second that it is in, and refused below zero. -/
theorem parseEpochSeconds_display {x : ℚ} (h : nearest x = x) (hlt : |x| < 2 ^ 1024)
    (field : EpochField) :
    parseEpochSeconds rfc3339 (display (encode x)) field =
      if 0 ≤ x then .ok (asU64 x) else .error (unparseableReason field) := by
  have hspace : ∀ c ∈ (display (encode x)).toList, isWhiteSpace c = false := by
    obtain ⟨t, q, htext, hpositional, -⟩ := exists_positional_display (isFinite_encode h hlt)
    rw [htext]
    intro c hc
    rcases List.mem_append.mp hc with hsign | hrest
    · split_ifs at hsign
      · rw [List.mem_singleton.mp hsign]
        decide
      · cases hsign
    · cases hpositional with
      | whole digits ne => exact isWhiteSpace_of_isDigit (digits c hrest)
      | point digits ne rest =>
        rcases List.mem_append.mp hrest with hwhole | hpoint
        · exact isWhiteSpace_of_isDigit (digits c hwhole)
        · rcases List.mem_cons.mp hpoint with rfl | hdecimal
          · decide
          · exact isWhiteSpace_of_isDigit (rest c hdecimal)
  rw [parseEpochSeconds, trim_eq_toList hspace, parse_display_encode h hlt]

end Kaleidoscope.QueryHttpCommon
