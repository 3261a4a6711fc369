import Kaleidoscope.Library.Utf8
import Kaleidoscope.Sluice.Queue

/-!
# The hexadecimal form of payloads
-/

namespace Kaleidoscope.Sluice

open Utf8

/-- `hex_char`, on a nibble. -/
def hexChar (nibble : UInt8) : Char :=
  if nibble ≤ 9 then Char.ofNat ('0'.toNat + nibble.toNat)
  else Char.ofNat ('a'.toNat + nibble.toNat - 10)

/-- `encode_hex`. -/
def encodeHex (bytes : List UInt8) : String :=
  String.ofList (bytes.flatMap fun b : UInt8 => [hexChar (b >>> 4 &&& 0x0f), hexChar (b &&& 0x0f)])

/-- A character inside `{:?}` of a character or of a text, between these quotes; beyond Latin-1
every character is printed as it is. -/
def escapeDebug (quote c : Char) : String :=
  let unprintable := c.toNat < 0x20 || (0x7f ≤ c.toNat && c.toNat ≤ 0xa0) || c.toNat = 0xad
  if c.toNat = 0 then "\\0"
  else if c = '\t' then "\\t"
  else if c = '\r' then "\\r"
  else if c = '\n' then "\\n"
  else if c = quote then "\\" ++ String.singleton quote
  else if c = '\\' then "\\\\"
  else if unprintable then "\\u\x7b" ++ String.ofList (Nat.toDigits 16 c.toNat) ++ "\x7d"
  else String.singleton c

/-- `{:?}` of a byte as a character. -/
def debugChar (b : UInt8) : String := "'" ++ escapeDebug '\'' (Char.ofNat b.toNat) ++ "'"

/-- `{:?}` of a text. -/
def debugText (t : Text) : String := "\"" ++ String.join (t.map (escapeDebug '"')) ++ "\""

example : debugText ['"', 'a', '\''] = "\"\\\"a'\"" := by decide

/-- `hex_value`. -/
def hexValue (b : UInt8) : Except EnqueueError UInt8 :=
  if 0x30 ≤ b && b ≤ 0x39 then .ok (b - 0x30)
  else if 0x61 ≤ b && b ≤ 0x66 then .ok (b - 0x61 + 10)
  else if 0x41 ≤ b && b ≤ 0x46 then .ok (b - 0x41 + 10)
  else .error (.persistenceFailed ("bad hex digit: " ++ debugChar b))

/-- The loop of `decode_hex` over pairs of digits. -/
def decodePairs : Bytes → Except EnqueueError (List UInt8)
  | hi :: lo :: rest => do
    let hi ← hexValue hi
    let lo ← hexValue lo
    let out ← decodePairs rest
    return (hi <<< 4 ||| lo) :: out
  | _ => .ok []

/-- `decode_hex`. -/
def decodeHex (s : String) : Except EnqueueError (List UInt8) :=
  let bytes := asBytes s.toList
  if bytes.length % 2 ≠ 0 then
    .error (.persistenceFailed s!"odd hex length: {bytes.length}")
  else decodePairs bytes

/-- The digit of a nibble is ASCII and has its value. -/
private theorem decode_nibble (n : UInt8) (h : n.toNat < 16) :
    ∃ d, String.utf8EncodeChar (hexChar n) = [d] ∧ (hexValue d).toOption = some n := by
  have hall : ∀ k : Fin 16, ∃ d ∈ (String.utf8EncodeChar (hexChar (UInt8.ofNat k))).head?,
      String.utf8EncodeChar (hexChar (UInt8.ofNat k)) = [d] ∧
        (hexValue d).toOption = some (UInt8.ofNat k) := by decide
  obtain ⟨d, -, hd⟩ := hall ⟨n.toNat, h⟩
  rw [UInt8.ofNat_toNat] at hd
  exact ⟨d, hd⟩

private theorem toOption_eq_some {ε α : Type} {x : Except ε α} {a : α}
    (h : x.toOption = some a) : x = .ok a := by
  cases x with
  | error e => cases h
  | ok b => exact congrArg Except.ok (Option.some.inj h)

/-- The two digits of a byte decode to it. -/
theorem decode_byte (b : UInt8) :
    ∃ hi lo h l, String.utf8EncodeChar (hexChar (b >>> 4 &&& 0x0f)) = [hi] ∧
      String.utf8EncodeChar (hexChar (b &&& 0x0f)) = [lo] ∧
      hexValue hi = .ok h ∧ hexValue lo = .ok l ∧ h <<< 4 ||| l = b := by
  have hall : ∀ k : Fin 256, (UInt8.ofNat k >>> 4 &&& 0x0f).toNat < 16 ∧
      (UInt8.ofNat k &&& 0x0f).toNat < 16 ∧
      (UInt8.ofNat k >>> 4 &&& 0x0f) <<< 4 ||| (UInt8.ofNat k &&& 0x0f) = UInt8.ofNat k := by
    decide +kernel
  have hb := hall ⟨b.toNat, b.toNat_lt⟩
  rw [UInt8.ofNat_toNat] at hb
  obtain ⟨hi, hhi, hvhi⟩ := decode_nibble _ hb.1
  obtain ⟨lo, hlo, hvlo⟩ := decode_nibble _ hb.2.1
  exact ⟨hi, lo, _, _, hhi, hlo, toOption_eq_some hvhi, toOption_eq_some hvlo, hb.2.2⟩

/-- Decoding the encoded payload gives it back. -/
theorem decodeHex_encodeHex (bytes : List UInt8) : decodeHex (encodeHex bytes) = .ok bytes := by
  have h : ∃ bs, asBytes (encodeHex bytes).toList = bs ∧ bs.length % 2 = 0 ∧
      decodePairs bs = .ok bytes := by
    rw [encodeHex, String.toList_ofList]
    induction bytes with
    | nil => exact ⟨[], rfl, rfl, rfl⟩
    | cons b bytes ih =>
      obtain ⟨bs, hbs, hlen, hdec⟩ := ih
      obtain ⟨hi, lo, h, l, hhi, hlo, hh, hl, hb⟩ := decode_byte b
      refine ⟨hi :: lo :: bs, ?_, ?_, ?_⟩
      · simp [hhi, hlo, ← hbs]
      · simp only [List.length_cons]
        omega
      · simp only [decodePairs, hh, hl, hdec]
        exact congrArg (fun b => Except.ok (b :: bytes)) hb
  obtain ⟨bs, hbs, hlen, hdec⟩ := h
  simp only [decodeHex, hbs, hlen, ne_eq, not_true_eq_false, if_false, hdec]

end Kaleidoscope.Sluice
