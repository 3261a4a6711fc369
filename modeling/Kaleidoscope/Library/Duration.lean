import Mathlib.Tactic

/-!
# Durations as text

A duration is written in its greatest unit that is not longer than it, with as many decimals as it
has. No two durations have the same text.
-/

namespace Duration

/-- The decimals of a fraction of so many places, without the zeros at its end. -/
def decimals : Nat → Nat → List Char
  | 0, _ => []
  | places + 1, fractional =>
    if fractional = 0 then []
    else (fractional / 10 ^ places).digitChar :: decimals places (fractional % 10 ^ places)

/-- `fmt_decimal`, without a precision. -/
def fmtDecimal (integer fractional places : Nat) (unit : String) : String :=
  if fractional = 0 then integer.repr ++ unit
  else integer.repr ++ "." ++ String.ofList (decimals places fractional) ++ unit

/-- The unit of a duration and the places of a nanosecond in it. -/
def unitOf (nanos : Nat) : Nat × String :=
  if 10 ^ 9 ≤ nanos then (9, "s")
  else if 10 ^ 6 ≤ nanos then (6, "ms")
  else if 10 ^ 3 ≤ nanos then (3, "µs")
  else (0, "ns")

/-- `{:?}` of a duration of nanoseconds. -/
def debug (nanos : Nat) : String :=
  let (places, unit) := unitOf nanos
  fmtDecimal (nanos / 10 ^ places) (nanos % 10 ^ places) places unit

theorem debug_eq (nanos : Nat) : debug nanos =
    fmtDecimal (nanos / 10 ^ (unitOf nanos).1) (nanos % 10 ^ (unitOf nanos).1) (unitOf nanos).1
      (unitOf nanos).2 := rfl

theorem digitChar_injective {m n : Nat} (hm : m < 10) (hn : n < 10)
    (h : m.digitChar = n.digitChar) : m = n := by
  have hall : ∀ i j : Fin 10, i.val.digitChar = j.val.digitChar → i.val = j.val := by decide
  exact hall ⟨m, hm⟩ ⟨n, hn⟩ h

theorem decimals_zero (places : Nat) : decimals places 0 = [] := by
  cases places <;> rfl

theorem isDigit_of_mem_decimals {places fractional : Nat} (h : fractional < 10 ^ places) {c : Char}
    (hc : c ∈ decimals places fractional) : c.isDigit = true := by
  induction places generalizing fractional with
  | zero => cases hc
  | succ places ih =>
    rw [decimals] at hc
    split_ifs at hc
    · cases hc
    · rcases List.mem_cons.mp hc with rfl | hc
      · rw [Nat.isDigit_digitChar, decide_eq_true_eq]
        exact Nat.div_lt_of_lt_mul (by rwa [pow_succ] at h)
      · exact ih (Nat.mod_lt _ (Nat.pos_of_ne_zero (by positivity))) hc

/-- The decimals tell the fraction. -/
theorem decimals_injective {places m n : Nat} (hm : m < 10 ^ places) (hn : n < 10 ^ places)
    (h : decimals places m = decimals places n) : m = n := by
  induction places generalizing m n with
  | zero => omega
  | succ places ih =>
    have hpos : 0 < 10 ^ places := by positivity
    rw [pow_succ] at hm hn
    rw [decimals, decimals] at h
    split_ifs at h with hm0 hn0 hn0
    · exact hm0.trans hn0.symm
    · obtain ⟨hdigit, hrest⟩ := List.cons.inj h
      have hdiv := digitChar_injective (Nat.div_lt_of_lt_mul hm) (Nat.div_lt_of_lt_mul hn) hdigit
      have hmod := ih (Nat.mod_lt m hpos) (Nat.mod_lt n hpos) hrest
      rw [← Nat.div_add_mod m (10 ^ places), hdiv, hmod, Nat.div_add_mod]

/-- A text whose first sign is no digit. -/
def StartsPlain (t : List Char) : Prop := ∀ c ∈ t.head?, c.isDigit = false

theorem takeWhile_digits {s t : List Char} (hs : ∀ c ∈ s, c.isDigit = true)
    (ht : StartsPlain t) : (s ++ t).takeWhile Char.isDigit = s := by
  have hnil : t.takeWhile Char.isDigit = [] := by
    cases t with
    | nil => rfl
    | cons c t => rw [List.takeWhile_cons, ht c rfl, if_neg Bool.false_ne_true]
  rw [List.takeWhile_append_of_pos hs, hnil, List.append_nil]

/-- Digits end where something else begins. -/
theorem digits_append_inj {s s' t t' : List Char} (hs : ∀ c ∈ s, c.isDigit = true)
    (hs' : ∀ c ∈ s', c.isDigit = true) (ht : StartsPlain t) (ht' : StartsPlain t')
    (h : s ++ t = s' ++ t') : s = s' ∧ t = t' := by
  obtain rfl : s = s' := by
    rw [← takeWhile_digits hs ht, h, takeWhile_digits hs' ht']
  exact ⟨rfl, List.append_cancel_left h⟩

/-- What follows the integer part. -/
def tail (fractional places : Nat) (unit : String) : List Char :=
  if fractional = 0 then unit.toList else '.' :: (decimals places fractional ++ unit.toList)

theorem toList_fmtDecimal (integer fractional places : Nat) (unit : String) :
    (fmtDecimal integer fractional places unit).toList =
      Nat.toDigits 10 integer ++ tail fractional places unit := by
  rw [fmtDecimal, tail]
  split_ifs <;> simp

/-- A unit begins with a letter. -/
def UnitName (unit : String) : Prop := StartsPlain unit.toList ∧ ∀ t, unit.toList ≠ '.' :: t

theorem unitName_unitOf (nanos : Nat) : UnitName (unitOf nanos).2 := by
  rw [unitOf]
  split_ifs <;> exact ⟨by simp [StartsPlain], by simp⟩

/-- A written number tells its integer part, its decimals and its unit. -/
theorem fmtDecimal_inj {m f p n g q : Nat} {u v : String} (hu : UnitName u) (hv : UnitName v)
    (hf : f < 10 ^ p) (hg : g < 10 ^ q) (h : fmtDecimal m f p u = fmtDecimal n g q v) :
    m = n ∧ decimals p f = decimals q g ∧ u = v := by
  have hplain {k r : Nat} {w : String} (hw : UnitName w) : StartsPlain (tail k r w) := by
    rw [tail]
    split_ifs
    · exact hw.1
    · exact fun c hc => by cases hc; rfl
  have hlist := congrArg String.toList h
  rw [toList_fmtDecimal, toList_fmtDecimal] at hlist
  have hdigits (k : Nat) : ∀ c ∈ Nat.toDigits 10 k, c.isDigit = true :=
    fun c => Nat.isDigit_of_mem_toDigits (by decide) le_rfl
  obtain ⟨hint, htail⟩ := digits_append_inj (hdigits m) (hdigits n) (hplain hu) (hplain hv) hlist
  have hinteger : m = n := by
    rw [← Nat.ofDigitChars_ten_toDigits (n := m), hint, Nat.ofDigitChars_ten_toDigits]
  refine ⟨hinteger, ?_⟩
  rw [tail, tail] at htail
  split_ifs at htail with hf0 hg0 hg0
  · rw [hf0, hg0, decimals_zero, decimals_zero]
    exact ⟨rfl, String.toList_injective htail⟩
  · exact absurd htail (hu.2 _)
  · exact absurd htail.symm (hv.2 _)
  · obtain ⟨hdecimals, hunit⟩ := digits_append_inj (fun c => isDigit_of_mem_decimals hf)
      (fun c => isDigit_of_mem_decimals hg) hu.1 hv.1 (List.cons.inj htail).2
    exact ⟨hdecimals, String.toList_injective hunit⟩

/-- The unit tells its places. -/
theorem places_eq_of_unit {m n : Nat} (h : (unitOf m).2 = (unitOf n).2) :
    (unitOf m).1 = (unitOf n).1 := by
  simp only [unitOf] at h ⊢
  split_ifs at h ⊢ <;> first | rfl | exact absurd h (by decide)

/-- No two durations have the same text. -/
theorem debug_injective : Function.Injective debug := by
  intro m n h
  have hpos (k : Nat) : 0 < 10 ^ k := by positivity
  rw [debug_eq, debug_eq] at h
  obtain ⟨hdiv, hdecimals, hunit⟩ := fmtDecimal_inj (unitName_unitOf m) (unitName_unitOf n)
    (Nat.mod_lt m (hpos _)) (Nat.mod_lt n (hpos _)) h
  rw [places_eq_of_unit hunit] at hdiv hdecimals
  have hmod := decimals_injective (Nat.mod_lt m (hpos _)) (Nat.mod_lt n (hpos _)) hdecimals
  rw [← Nat.div_add_mod m (10 ^ (unitOf n).1), hdiv, hmod, Nat.div_add_mod]

example : debug 1500000 = "1.5ms" := by decide +kernel
example : debug 300000000000 = "300s" := by decide +kernel

end Duration
