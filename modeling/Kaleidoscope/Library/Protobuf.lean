import Kaleidoscope.Library.Utf8

/-!
# Protocol buffers on the wire

A message is a series of fields, each a key with the field number and the wire type, then a
payload. What was written reads back, field by field, and every payload of a field is shorter
than the message.
-/

namespace Protobuf

open Utf8

section Varint

/-- A number in groups of seven bits, the lowest first, in at most so many bytes. -/
def writeVarint : Nat → Nat → Bytes
  | 0, _ => []
  | count + 1, n =>
    if n < 128 then [UInt8.ofNat n]
    else UInt8.ofNat (n % 128 + 128) :: writeVarint count (n / 128)

/-- Read a number of at most so many bytes. The last byte there is room for may only be zero or
one, as it is the 64th bit of ten groups. -/
def readVarint : Nat → Bytes → Option (Nat × Bytes)
  | 0, _ => none
  | _ + 1, [] => none
  | count + 1, b :: rest =>
    if b.toNat < 128 then
      if count = 0 ∧ 2 ≤ b.toNat then none else some (b.toNat, rest)
    else (readVarint count rest).map fun read => (b.toNat - 128 + 128 * read.1, read.2)

/-- What was written reads back, and what follows it is left. -/
theorem readVarint_writeVarint (count n : Nat) (rest : Bytes) (h : n < 2 * 128 ^ count) :
    readVarint (count + 1) (writeVarint (count + 1) n ++ rest) = some (n, rest) := by
  induction count generalizing n with
  | zero =>
    have hn : n < 2 := by simpa using h
    have hbyte : (UInt8.ofNat n).toNat = n := by simp; omega
    rw [writeVarint, if_pos (by omega), List.singleton_append, readVarint, hbyte,
      if_pos (by omega), if_neg (by omega)]
  | succ count ih =>
    rw [writeVarint]
    split_ifs with hsmall
    · have hbyte : (UInt8.ofNat n).toNat = n := by simp; omega
      rw [List.singleton_append, readVarint, hbyte, if_pos hsmall, if_neg (by omega)]
    · have hbyte : (UInt8.ofNat (n % 128 + 128)).toNat = n % 128 + 128 := by simp; omega
      have hdiv : n / 128 < 2 * 128 ^ count := by
        rw [Nat.div_lt_iff_lt_mul (by omega), mul_assoc, ← pow_succ]
        exact h
      rw [List.cons_append, readVarint, hbyte, if_neg (by omega), ih (n / 128) hdiv,
        Option.map_some, Option.some.injEq, Prod.mk.injEq]
      exact ⟨by omega, rfl⟩

/-- Reading a number takes at least one byte. -/
theorem length_of_readVarint {count : Nat} {bytes : Bytes} {read : Nat × Bytes}
    (h : readVarint count bytes = some read) : read.2.length < bytes.length := by
  induction count generalizing bytes read with
  | zero => cases h
  | succ count ih =>
    cases bytes with
    | nil => cases h
    | cons b rest =>
      rw [readVarint] at h
      split_ifs at h
      · cases h
        exact Nat.lt_succ_self _
      · obtain ⟨later, hlater, rfl⟩ := Option.map_eq_some_iff.mp h
        have hshorter : later.2.length < rest.length := ih hlater
        exact Nat.lt_succ_of_lt hshorter

theorem writeVarint_ne_nil (count n : Nat) : writeVarint (count + 1) n ≠ [] := by
  rw [writeVarint]
  split_ifs <;> simp

end Varint

/-- The payload of a field by its wire type; what a group holds does not matter. -/
inductive Wire where
  | varint (n : Nat)
  | fixed64 (bytes : Bytes)
  | delimited (bytes : Bytes)
  | group
  | fixed32 (bytes : Bytes)
  deriving DecidableEq

/-- The code of a wire type. -/
def Wire.code : Wire → Nat
  | .varint _ => 0
  | .fixed64 _ => 1
  | .delimited _ => 2
  | .group => 3
  | .fixed32 _ => 5

/-- The bytes of a payload. -/
def Wire.payload : Wire → Bytes
  | .varint n => writeVarint 10 n
  | .fixed64 bytes => bytes
  | .delimited bytes => writeVarint 10 bytes.length ++ bytes
  | .group => []
  | .fixed32 bytes => bytes

/-- A field with its number. -/
abbrev WireField := Nat × Wire

/-- The bytes of a field. -/
def writeField (field : WireField) : Bytes :=
  writeVarint 10 (8 * field.1 + field.2.code) ++ field.2.payload

/-- The first so many bytes, if there are as many. -/
def takeBytes (n : Nat) (bytes : Bytes) : Option (Bytes × Bytes) :=
  if n ≤ bytes.length then some (bytes.take n, bytes.drop n) else none

/-- The number and the wire type of the next field. -/
def readKey (bytes : Bytes) : Option (Nat × Nat × Bytes) :=
  (readVarint 10 bytes).bind fun (key, rest) =>
    if key < 2 ^ 32 ∧ key % 8 ≤ 5 ∧ 1 ≤ key / 8 then some (key / 8, key % 8, rest) else none

/-- The payload of a field that is no group. -/
def readWire (code : Nat) (bytes : Bytes) : Option (Wire × Bytes) :=
  match code with
  | 0 => (readVarint 10 bytes).map fun (n, rest) => (.varint n, rest)
  | 1 => (takeBytes 8 bytes).map fun (payload, rest) => (.fixed64 payload, rest)
  | 2 => (readVarint 10 bytes).bind fun (n, rest) =>
    (takeBytes n rest).map fun (payload, rest) => (.delimited payload, rest)
  | 5 => (takeBytes 4 bytes).map fun (payload, rest) => (.fixed32 payload, rest)
  | _ => none

/-- What follows the end of a group. -/
def skipGroup : Nat → Nat → Bytes → Option Bytes
  | 0, _, _ => none
  | fuel + 1, number, bytes =>
    (readKey bytes).bind fun (inner, code, rest) =>
      if code = 4 then if inner = number then some rest else none
      else if code = 3 then (skipGroup fuel inner rest).bind (skipGroup fuel number)
      else (readWire code rest).bind fun (_, rest) => skipGroup fuel number rest

/-- The fields of a message, in at most so many steps. -/
def readFields : Nat → Bytes → Option (List WireField)
  | _, [] => some []
  | 0, _ :: _ => none
  | fuel + 1, b :: bytes =>
    (readKey (b :: bytes)).bind fun (number, code, rest) =>
      (if code = 3 then (skipGroup rest.length number rest).map fun rest => (.group, rest)
        else readWire code rest).bind fun (wire, rest) =>
          (readFields fuel rest).map ((number, wire) :: ·)

/-- The fields of a message. -/
def parse (bytes : Bytes) : Option (List WireField) := readFields bytes.length bytes

/-- A field that can be written: its number has 29 bits, and its payload fits its type. -/
def WireField.WellFormed (field : WireField) : Prop :=
  1 ≤ field.1 ∧ field.1 < 2 ^ 29 ∧
    match field.2 with
    | .varint n => n < 2 ^ 64
    | .fixed64 bytes => bytes.length = 8
    | .delimited bytes => bytes.length < 2 ^ 64
    | .group => False
    | .fixed32 bytes => bytes.length = 4

theorem takeBytes_append (bytes rest : Bytes) :
    takeBytes bytes.length (bytes ++ rest) = some (bytes, rest) := by
  rw [takeBytes, if_pos (by simp), List.take_left, List.drop_left]

theorem readVarint_ten {n : Nat} (h : n < 2 ^ 64) (rest : Bytes) :
    readVarint 10 (writeVarint 10 n ++ rest) = some (n, rest) :=
  readVarint_writeVarint 9 n rest (by omega)

theorem readKey_writeField {field : WireField} (h : field.WellFormed) (rest : Bytes) :
    readKey (writeField field ++ rest) =
      some (field.1, field.2.code, field.2.payload ++ rest) := by
  obtain ⟨hpos, hlt, -⟩ := h
  have hcode : field.2.code ≤ 5 := by
    cases field.2 <;> simp [Wire.code]
  rw [readKey, writeField, List.append_assoc, readVarint_ten (by omega)]
  simp only [Option.bind_some]
  rw [if_pos (by omega)]
  congr 2
  · omega
  · congr 1
    omega

/-- A payload reads back. -/
theorem readWire_payload {field : WireField} (h : field.WellFormed) (rest : Bytes) :
    field.2.code ≠ 3 ∧ readWire field.2.code (field.2.payload ++ rest) = some (field.2, rest) := by
  obtain ⟨number, wire⟩ := field
  obtain ⟨-, -, hwire⟩ := h
  cases wire with
  | varint n => simp [Wire.code, Wire.payload, readWire, readVarint_ten hwire]
  | fixed64 bytes =>
    have hlen : bytes.length = 8 := hwire
    simp only [Wire.code, Wire.payload, readWire, ← hlen, takeBytes_append]
    exact ⟨by decide, rfl⟩
  | delimited bytes =>
    simp only [Wire.code, Wire.payload, readWire, List.append_assoc, readVarint_ten hwire,
      Option.bind_some, takeBytes_append]
    exact ⟨by decide, rfl⟩
  | group => exact absurd hwire id
  | fixed32 bytes =>
    have hlen : bytes.length = 4 := hwire
    simp only [Wire.code, Wire.payload, readWire, ← hlen, takeBytes_append]
    exact ⟨by decide, rfl⟩

theorem writeField_ne_nil (field : WireField) : writeField field ≠ [] := by
  rw [writeField]
  exact List.append_ne_nil_of_left_ne_nil (writeVarint_ne_nil 9 _) _

/-- The fields that were written read back. -/
theorem parse_flatMap_writeField {fields : List WireField} (h : ∀ f ∈ fields, f.WellFormed) :
    parse (fields.flatMap writeField) = some fields := by
  have hread (fuel : Nat) (hfuel : fields.length ≤ fuel) :
      readFields fuel (fields.flatMap writeField) = some fields := by
    induction fields generalizing fuel with
    | nil => cases fuel <;> rfl
    | cons field fields ih =>
      obtain ⟨hfield, hfields⟩ := List.forall_mem_cons.mp h
      obtain ⟨fuel, rfl⟩ := Nat.exists_eq_add_of_lt (Nat.lt_of_lt_of_le (Nat.succ_pos _) hfuel)
      obtain ⟨b, bytes, hbytes⟩ := List.exists_cons_of_ne_nil
        (List.append_ne_nil_of_left_ne_nil (writeField_ne_nil field) (fields.flatMap writeField))
      obtain ⟨hcode, hwire⟩ := readWire_payload hfield (fields.flatMap writeField)
      rw [List.flatMap_cons, hbytes, Nat.zero_add, readFields, ← hbytes,
        readKey_writeField hfield]
      simp only [Option.bind_some, if_neg hcode, hwire]
      rw [ih hfields fuel (by simpa using hfuel), Option.map_some]
  refine hread _ ?_
  clear hread
  induction fields with
  | nil => exact Nat.le_refl 0
  | cons field fields ih =>
    have hpos := List.length_pos_iff.mpr (writeField_ne_nil field)
    have hrest := ih (List.forall_mem_cons.mp h).2
    rw [List.flatMap_cons, List.length_append, List.length_cons]
    omega

theorem length_of_takeBytes {n : Nat} {bytes : Bytes} {taken : Bytes × Bytes}
    (h : takeBytes n bytes = some taken) :
    taken.1.length + taken.2.length = bytes.length := by
  rw [takeBytes] at h
  split_ifs at h with hn
  cases h
  simp only [List.length_take, List.length_drop]
  omega

/-- Reading a key takes at least one byte. -/
theorem length_of_readKey {bytes : Bytes} {number code : Nat} {rest : Bytes}
    (h : readKey bytes = some (number, code, rest)) : rest.length < bytes.length := by
  obtain ⟨⟨key, rest'⟩, hkey, hbind⟩ := Option.bind_eq_some_iff.mp h
  have hshorter := length_of_readVarint hkey
  simp only at hbind
  split_ifs at hbind
  cases hbind
  exact hshorter

/-- A payload that was read is no longer than what it was read from. -/
theorem length_of_readWire {code : Nat} {bytes : Bytes} {wire : Wire} {rest : Bytes}
    (h : readWire code bytes = some (wire, rest)) :
    rest.length ≤ bytes.length ∧ ∀ payload, wire = .delimited payload →
      payload.length ≤ bytes.length := by
  unfold readWire at h
  split at h
  · obtain ⟨⟨n, rest'⟩, hread, heq⟩ := Option.map_eq_some_iff.mp h
    cases heq
    exact ⟨(length_of_readVarint hread).le, fun _ he => nomatch he⟩
  · obtain ⟨⟨payload, rest'⟩, hread, heq⟩ := Option.map_eq_some_iff.mp h
    cases heq
    have := length_of_takeBytes hread
    exact ⟨by simp only at this; omega, fun _ he => nomatch he⟩
  · obtain ⟨⟨n, rest'⟩, hread, hbind⟩ := Option.bind_eq_some_iff.mp h
    obtain ⟨⟨payload, rest''⟩, htake, heq⟩ := Option.map_eq_some_iff.mp hbind
    cases heq
    have hvarint := length_of_readVarint hread
    have := length_of_takeBytes htake
    simp only at this hvarint
    refine ⟨by omega, ?_⟩
    rintro _ ⟨⟩
    omega
  · obtain ⟨⟨payload, rest'⟩, hread, heq⟩ := Option.map_eq_some_iff.mp h
    cases heq
    have := length_of_takeBytes hread
    exact ⟨by simp only at this; omega, fun _ he => nomatch he⟩
  · cases h

theorem length_of_skipGroup {fuel number : Nat} {bytes rest : Bytes}
    (h : skipGroup fuel number bytes = some rest) : rest.length < bytes.length := by
  induction fuel generalizing number bytes rest with
  | zero => cases h
  | succ fuel ih =>
    obtain ⟨⟨inner, code, later⟩, hkey, hbind⟩ := Option.bind_eq_some_iff.mp h
    have hlater := length_of_readKey hkey
    simp only at hbind
    split_ifs at hbind
    · cases hbind
      exact hlater
    · obtain ⟨after, hskip, hrest⟩ := Option.bind_eq_some_iff.mp hbind
      have hskipShort := ih hskip
      have hrestShort := ih hrest
      omega
    · obtain ⟨⟨wire, after⟩, hwire, hrest⟩ := Option.bind_eq_some_iff.mp hbind
      have hwireShort := (length_of_readWire hwire).1
      have hrestShort : rest.length < after.length := ih hrest
      omega

/-- Every delimited payload of a message is shorter than the message. -/
theorem length_of_mem_parse {bytes : Bytes} {fields : List WireField}
    (h : parse bytes = some fields) {number : Nat} {payload : Bytes}
    (hmem : (number, Wire.delimited payload) ∈ fields) :
    payload.length < bytes.length := by
  have hread (fuel : Nat) (bytes : Bytes) (fields : List WireField)
      (h : readFields fuel bytes = some fields)
      (hmem : (number, Wire.delimited payload) ∈ fields) : payload.length < bytes.length := by
    induction fuel generalizing bytes fields with
    | zero =>
      cases bytes with
      | nil => cases h; cases hmem
      | cons b bytes => cases h
    | succ fuel ih =>
      cases bytes with
      | nil => cases h; cases hmem
      | cons b bytes =>
        obtain ⟨⟨n, code, rest⟩, hkey, hbind⟩ := Option.bind_eq_some_iff.mp h
        obtain ⟨⟨wire, after⟩, hwire, hrest⟩ := Option.bind_eq_some_iff.mp hbind
        obtain ⟨later, hlater, rfl⟩ := Option.map_eq_some_iff.mp hrest
        have hkeyShort := length_of_readKey hkey
        have hafter : after.length ≤ rest.length ∧
            ∀ p, wire = .delimited p → p.length ≤ rest.length := by
          split_ifs at hwire
          · obtain ⟨after', hskip, heq⟩ := Option.map_eq_some_iff.mp hwire
            cases heq
            exact ⟨(length_of_skipGroup hskip).le, fun _ he => nomatch he⟩
          · exact length_of_readWire hwire
        rcases List.mem_cons.mp hmem with heq | hmem
        · obtain ⟨-, rfl⟩ := Prod.mk.inj heq
          have := hafter.2 payload rfl
          omega
        · have := ih after later hlater hmem
          omega
  exact hread _ _ _ h hmem

end Protobuf
