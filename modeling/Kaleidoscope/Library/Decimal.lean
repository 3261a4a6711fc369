import Kaleidoscope.Library.Utf8

/-!
# Decimal numerals

A number that is written with so many digits is the only one with that text, and every text of as
many digits is that of a number.
-/

namespace Decimal

open Utf8

/-- A text of decimal digits. -/
def IsDigits (t : Text) : Prop := ∀ c ∈ t, c.isDigit = true

/-- The number that digits write. -/
def value (t : Text) : Nat := Nat.ofDigitChars 10 t 0

/-- `{:0width}` of a number. -/
def fixed (width n : Nat) : Text := (Nat.toDigits 10 n).leftpad width '0'

@[simp] theorem value_nil : value [] = 0 := Nat.ofDigitChars_nil

theorem value_cons (c : Char) (t : Text) :
    value (c :: t) = 10 ^ t.length * (c.toNat - '0'.toNat) + value t := by
  rw [value, Nat.ofDigitChars_cons, Nat.ofDigitChars_eq_ofDigitChars_zero, Nat.mul_zero,
    Nat.zero_add, value]

theorem value_concat (t : Text) (c : Char) :
    value (t ++ [c]) = value t * 10 + (c.toNat - '0'.toNat) := by
  rw [value, Nat.ofDigitChars_append, Nat.ofDigitChars_cons, Nat.ofDigitChars_nil, value,
    Nat.mul_comm]

theorem isDigit_iff {c : Char} : c.isDigit = true ↔ 48 ≤ c.toNat ∧ c.toNat ≤ 57 := by
  rw [Char.isDigit, Bool.and_eq_true, decide_eq_true_eq, decide_eq_true_eq]
  exact Iff.rfl

/-- Digits write a number that is less than the power of ten of their length. -/
theorem value_lt {t : Text} (h : IsDigits t) : value t < 10 ^ t.length := by
  induction t with
  | nil => exact Nat.one_pos
  | cons c t ih =>
    have hdigit := isDigit_iff.mp (h c List.mem_cons_self)
    have hrest := ih fun d hd => h d (List.mem_cons_of_mem c hd)
    have hfirst : 10 ^ t.length * (c.toNat - '0'.toNat) ≤ 10 ^ t.length * 9 :=
      Nat.mul_le_mul_left _ (by change c.toNat - 48 ≤ 9; omega)
    rw [value_cons, List.length_cons, pow_succ]
    omega

/-- Texts with the same number of digits write different numbers. -/
theorem value_injective {s t : Text} (hs : IsDigits s) (ht : IsDigits t)
    (hlength : s.length = t.length) (h : value s = value t) : s = t := by
  induction s generalizing t with
  | nil => exact (List.length_eq_zero_iff.mp hlength.symm).symm
  | cons c s ih =>
    obtain ⟨d, t, rfl⟩ := List.exists_cons_of_length_eq_add_one hlength.symm
    have hlength : s.length = t.length := Nat.succ_injective hlength
    have hc := isDigit_iff.mp (hs c List.mem_cons_self)
    have hd := isDigit_iff.mp (ht d List.mem_cons_self)
    have hs : IsDigits s := fun e he => hs e (List.mem_cons_of_mem c he)
    have ht : IsDigits t := fun e he => ht e (List.mem_cons_of_mem d he)
    have hlt := value_lt hs
    have hlt' := value_lt ht
    rw [value_cons, value_cons, hlength] at h
    rw [hlength] at hlt
    have hfirst : c.toNat - '0'.toNat = d.toNat - '0'.toNat := by
      calc
        c.toNat - '0'.toNat =
            (10 ^ t.length * (c.toNat - '0'.toNat) + value s) / 10 ^ t.length := by
          rw [Nat.mul_add_div (by positivity), Nat.div_eq_of_lt hlt, Nat.add_zero]
        _ = d.toNat - '0'.toNat := by
          rw [h, Nat.mul_add_div (by positivity), Nat.div_eq_of_lt hlt', Nat.add_zero]
    have hchar : c = d := by
      apply Char.toNat_inj.mp
      change c.toNat - 48 = d.toNat - 48 at hfirst
      omega
    rw [hchar] at h ⊢
    rw [ih hs ht hlength (Nat.add_left_cancel h)]

theorem isDigits_fixed (width n : Nat) : IsDigits (fixed width n) := by
  intro c hc
  rcases List.mem_append.mp hc with hc | hc
  · rw [List.eq_of_mem_replicate hc]
    rfl
  · exact Nat.isDigit_of_mem_toDigits (by decide) le_rfl hc

@[simp] theorem value_fixed (width n : Nat) : value (fixed width n) = n := by
  rw [value, fixed, List.leftpad, Nat.ofDigitChars_append, Nat.ofDigitChars_replicate_zero,
    Nat.mul_zero, Nat.ofDigitChars_ten_toDigits]

theorem length_fixed {width n : Nat} (hwidth : 0 < width) (h : n < 10 ^ width) :
    (fixed width n).length = width := by
  rw [fixed, List.length_leftpad]
  exact max_eq_left ((Nat.length_toDigits_le_iff (by decide) hwidth).mpr h)

/-- Digits are the text of the number that they write. -/
theorem fixed_value {t : Text} (h : IsDigits t) (hne : t ≠ []) : fixed t.length (value t) = t :=
  value_injective (isDigits_fixed _ _) h
    (length_fixed (List.length_pos_iff.mpr hne) (value_lt h)) (value_fixed _ _)

/-- An ASCII character is encoded by one byte. -/
theorem asBytes_singleton {c : Char} (h : c.toNat < 128) :
    asBytes [c] = [UInt8.ofNat c.toNat] := by
  rw [asBytes_cons, asBytes_nil, List.append_nil, utf8EncodeChar_eq, encodeScalar,
    if_pos (Nat.lt_succ_iff.mp h)]

theorem toNat_ofNat_byte (b : UInt8) : (Char.ofNat b.toNat).toNat = b.toNat := by
  have hvalid : b.toNat.isValidChar := .inl (b.toNat_lt.trans (by decide))
  rw [Char.ofNat, dif_pos hvalid]
  rfl

theorem asBytes_append (s t : Text) : asBytes (s ++ t) = asBytes s ++ asBytes t :=
  List.flatMap_append

/-- Digits are encoded by one byte each. -/
theorem asBytes_digits {t : Text} (h : IsDigits t) :
    asBytes t = t.map fun c => UInt8.ofNat c.toNat := by
  induction t with
  | nil => rfl
  | cons c t ih =>
    have hc := isDigit_iff.mp (h c List.mem_cons_self)
    have hrest := ih fun d hd => h d (List.mem_cons_of_mem c hd)
    have hfirst := asBytes_singleton (c := c) (by omega)
    rw [asBytes_cons, asBytes_nil, List.append_nil] at hfirst
    rw [asBytes_cons, hfirst, hrest]
    rfl

end Decimal
