import Kaleidoscope.Library.Utf8

/-!
# Lowercase hexadecimal text

Two digits for every byte, the high one first.
-/

namespace Hex

open Utf8

/-- `char::from_digit` in base 16. -/
def fromDigit (n : Nat) : Char := Nat.digitChar n

/-- `char::to_digit` in base 16: letters of either case. -/
def toDigit (c : Char) : Option Nat :=
  if '0' ≤ c ∧ c ≤ '9' then some (c.toNat - '0'.toNat)
  else if 'a' ≤ c ∧ c ≤ 'f' then some (c.toNat - 'a'.toNat + 10)
  else if 'A' ≤ c ∧ c ≤ 'F' then some (c.toNat - 'A'.toNat + 10)
  else none

/-- The two digits of a byte. -/
def digits (b : UInt8) : List Char := [fromDigit (b.toNat / 16), fromDigit (b.toNat % 16)]

/-- The text of bytes. -/
def lower (bytes : Bytes) : String := String.ofList (bytes.flatMap digits)

@[simp] theorem toList_lower (bytes : Bytes) : (lower bytes).toList = bytes.flatMap digits := by
  simp [lower]

theorem length_lower (bytes : Bytes) : (lower bytes).toList.length = 2 * bytes.length := by
  rw [toList_lower]
  induction bytes with
  | nil => rfl
  | cons b bytes ih =>
    rw [List.flatMap_cons, List.length_append, ih, List.length_cons]
    change 2 + _ = _
    omega

/-- The digits that are written. -/
def lowercase : List Char :=
  ['0', '1', '2', '3', '4', '5', '6', '7', '8', '9', 'a', 'b', 'c', 'd', 'e', 'f']

theorem fromDigit_mem {n : Nat} (h : n < 16) : fromDigit n ∈ lowercase := by
  have hall : ∀ k : Fin 16, fromDigit k ∈ lowercase := by decide
  exact hall ⟨n, h⟩

private theorem halves_lt (b : UInt8) : b.toNat / 16 < 16 ∧ b.toNat % 16 < 16 := by
  have := b.toNat_lt
  omega

/-- The text of bytes has lowercase digits only. -/
theorem mem_lower {bytes : Bytes} {c : Char} (h : c ∈ (lower bytes).toList) : c ∈ lowercase := by
  rw [toList_lower] at h
  obtain ⟨b, -, hc⟩ := List.mem_flatMap.mp h
  obtain ⟨hhi, hlo⟩ := halves_lt b
  rcases List.mem_pair.mp hc with rfl | rfl
  · exact fromDigit_mem hhi
  · exact fromDigit_mem hlo

/-- The value of the digit at an index. -/
def digitAt (bytes : Bytes) (i : Nat) : Option Nat :=
  bytes[i]?.bind fun b => toDigit (Char.ofNat b.toNat)

/-- Read `n` bytes back, or tell that the length is wrong or where no digit is. -/
def decode {ε : Type} (n : Nat) (wrongLength : ε) (notHex : Nat → ε) (s : String) :
    Except ε (Vector UInt8 n) :=
  let bytes := asBytes s.toList
  if bytes.length = 2 * n then
    Vector.ofFnM fun i => do
      let hi ← (digitAt bytes (2 * i.val)).elim (.error (notHex (2 * i.val))) .ok
      let lo ← (digitAt bytes (2 * i.val + 1)).elim (.error (notHex (2 * i.val + 1))) .ok
      return UInt8.ofNat (hi <<< 4 ||| lo)
  else .error wrongLength

private theorem ofFnM_mapError {α ε δ : Type} {n : Nat} (g : ε → δ) (f : Fin n → Except ε α) :
    (Vector.ofFnM f).mapError g = Vector.ofFnM fun i => (f i).mapError g := by
  induction n with
  | zero => rw [Vector.ofFnM_zero, Vector.ofFnM_zero]; rfl
  | succ n ih =>
    rw [Vector.ofFnM_succ, Vector.ofFnM_succ, ← ih]
    cases Vector.ofFnM fun i : Fin n => f i.castSucc with
    | error e => rfl
    | ok as => cases f (Fin.last n) <;> rfl

/-- Which text reports a failure makes no difference to what is read. -/
theorem decode_mapError {ε δ : Type} (g : ε → δ) (n : Nat) (wrongLength : ε) (notHex : Nat → ε)
    (s : String) : (decode n wrongLength notHex s).mapError g =
      decode n (g wrongLength) (fun i => g (notHex i)) s := by
  simp only [decode]
  split_ifs
  · rw [ofFnM_mapError]
    congr 1
    funext i
    cases digitAt (asBytes s.toList) (2 * i) with
    | none => rfl
    | some hi => cases digitAt (asBytes s.toList) (2 * i + 1) <;> rfl
  · rfl

/-- The digits of a byte make up the byte. -/
theorem ofNat_halves (b : UInt8) :
    UInt8.ofNat ((b.toNat / 16) <<< 4 ||| b.toNat % 16) = b := by
  have hlo : b.toNat % 16 < 2 ^ 4 := (halves_lt b).2
  have hsum : (b.toNat / 16) <<< 4 + b.toNat % 16 = b.toNat := by
    rw [Nat.shiftLeft_eq]
    omega
  rw [← Nat.shiftLeft_add_eq_or_of_lt hlo, hsum, UInt8.ofNat_toNat]

/-- A digit is one byte, which is read as the digit. -/
theorem utf8EncodeChar_fromDigit {n : Nat} (h : n < 16) :
    ∃ b : UInt8, String.utf8EncodeChar (fromDigit n) = [b] ∧
      toDigit (Char.ofNat b.toNat) = some n := by
  have hall : ∀ k : Fin 16,
      String.utf8EncodeChar (fromDigit k) = [UInt8.ofNat (fromDigit k).toNat] ∧
        toDigit (Char.ofNat (UInt8.ofNat (fromDigit k).toNat).toNat) = some k.val := by decide
  exact ⟨_, hall ⟨n, h⟩⟩

/-- A byte is written as two bytes, which are read as its digits. -/
theorem asBytes_digits (b : UInt8) :
    ∃ hi lo : UInt8, asBytes (digits b) = [hi, lo] ∧
      toDigit (Char.ofNat hi.toNat) = some (b.toNat / 16) ∧
        toDigit (Char.ofNat lo.toNat) = some (b.toNat % 16) := by
  obtain ⟨hhi, hlo⟩ := halves_lt b
  obtain ⟨hi, hhi, hhi'⟩ := utf8EncodeChar_fromDigit hhi
  obtain ⟨lo, hlo, hlo'⟩ := utf8EncodeChar_fromDigit hlo
  exact ⟨hi, lo, by simp [digits, hhi, hlo], hhi', hlo'⟩

private theorem asBytes_lower_cons (b : UInt8) (bytes : Bytes) :
    asBytes (lower (b :: bytes)).toList = asBytes (digits b) ++ asBytes (lower bytes).toList := by
  simp only [toList_lower, List.flatMap_cons, asBytes, List.flatMap_append]

theorem length_asBytes_lower (bytes : Bytes) :
    (asBytes (lower bytes).toList).length = 2 * bytes.length := by
  induction bytes with
  | nil => rfl
  | cons b bytes ih =>
    obtain ⟨hi, lo, hdigits, -, -⟩ := asBytes_digits b
    rw [asBytes_lower_cons, hdigits, List.length_append, ih, List.length_cons, List.length_cons]
    simp only [List.length_cons, List.length_nil]
    omega

/-- The digits at an even and at the next index are those of one byte. -/
theorem digitAt_lower {bytes : Bytes} {i : Nat} {b : UInt8} (h : bytes[i]? = some b) :
    digitAt (asBytes (lower bytes).toList) (2 * i) = some (b.toNat / 16) ∧
      digitAt (asBytes (lower bytes).toList) (2 * i + 1) = some (b.toNat % 16) := by
  induction bytes generalizing i with
  | nil => simp at h
  | cons a bytes ih =>
    obtain ⟨hi, lo, hdigits, hhi, hlo⟩ := asBytes_digits a
    rw [asBytes_lower_cons, hdigits]
    cases i with
    | zero =>
      obtain rfl : a = b := by simpa using h
      exact ⟨by simpa [digitAt] using hhi, by simpa [digitAt] using hlo⟩
    | succ i => simpa [digitAt, Nat.mul_add] using ih (by simpa using h)

/-- What was written is read back. -/
theorem decode_lower {ε : Type} {n : Nat} (wrongLength : ε) (notHex : Nat → ε)
    (bytes : Vector UInt8 n) :
    decode n wrongLength notHex (lower bytes.toList) = .ok bytes := by
  have hlength : (asBytes (lower bytes.toList).toList).length = 2 * n := by
    rw [length_asBytes_lower, Vector.length_toList]
  have hbyte : ∀ i : Fin n, bytes.toList[i.val]? = some bytes[i] := fun i => by simp
  simp only [decode, hlength, if_true, (digitAt_lower (hbyte _)).1, (digitAt_lower (hbyte _)).2,
    Option.elim_some]
  change Vector.ofFnM (fun i => pure (UInt8.ofNat _)) = pure bytes
  simp only [ofNat_halves]
  rw [Vector.ofFnM_pure]
  congr 1
  ext i hi
  simp

end Hex
