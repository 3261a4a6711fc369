import Kaleidoscope.Library.Protobuf

/-!
# Typed messages

A schema declares the fields of each message type. A message is the list of its fields as they
stand on the wire. Decoding skips the fields that a type does not declare, and fails on a declared
field with another wire type or with a payload that its kind cannot read.
-/

namespace Protobuf

open Utf8

/-- The integers that travel as varints. -/
inductive Integer where
  | bool
  | int32
  | uint32
  | sint32
  | int64
  | uint64
  deriving DecidableEq

/-- The varint of the value that a varint decodes to. -/
def Integer.read (n : Nat) : Integer → Nat
  | .bool => min n 1
  | .int32 => if n % 2 ^ 32 < 2 ^ 31 then n % 2 ^ 32 else n % 2 ^ 32 + (2 ^ 64 - 2 ^ 32)
  | .uint32 => n % 2 ^ 32
  | .sint32 => n % 2 ^ 32
  | .int64 => n
  | .uint64 => n

/-- What a field holds. -/
inductive Kind (Name : Type) where
  | varint (integer : Integer)
  | fixed64
  | fixed32
  | string
  | bytes
  | message (name : Name)
  /-- Repeated fields in one payload, or one by one. -/
  | packedFixed64
  | packedVarint

/-- The value of a field; packed fields are the bytes of their payload. -/
inductive Value where
  | varint (n : Nat)
  | fixed64 (bytes : Bytes)
  | fixed32 (bytes : Bytes)
  | blob (bytes : Bytes)
  | message (fields : List (Nat × Value))

/-- The fields of a message, in their order on the wire. -/
abbrev Fields := List (Nat × Value)

mutual

/-- A value on the wire. -/
def Value.wire : Value → Wire
  | .varint n => .varint n
  | .fixed64 bytes => .fixed64 bytes
  | .fixed32 bytes => .fixed32 bytes
  | .blob bytes => .delimited bytes
  | .message fields => .delimited (encode fields)

/-- `encode_to_vec`. -/
def encode : List (Nat × Value) → Bytes
  | [] => []
  | (number, value) :: fields => writeField (number, value.wire) ++ encode fields

end

/-- The wire fields of a message. -/
def wireFields (fields : Fields) : List WireField := fields.map fun f => (f.1, f.2.wire)

@[simp] theorem wireFields_cons (number : Nat) (value : Value) (fields : Fields) :
    wireFields ((number, value) :: fields) = (number, value.wire) :: wireFields fields := rfl

theorem encode_eq_flatMap (fields : Fields) :
    encode fields = (wireFields fields).flatMap writeField := by
  induction fields with
  | nil => rw [encode]; rfl
  | cons field fields ih =>
    obtain ⟨number, value⟩ := field
    rw [encode, ih]
    rfl

section Decode

variable {Name : Type} (schema : Name → Nat → Option (Kind Name))

/-- Whether the bytes are a series of varints, in at most so many steps. -/
def readVarints : Nat → Bytes → Bool
  | _, [] => true
  | 0, _ :: _ => false
  | fuel + 1, b :: bytes =>
    match readVarint 10 (b :: bytes) with
    | some (_, rest) => readVarints fuel rest
    | none => false

/-- Read a value of a kind; messages within are read as told. -/
def readKind (sub : Name → Bytes → Option Fields) : Kind Name → Wire → Option Value
  | .varint integer, .varint n => some (.varint (integer.read n))
  | .fixed64, .fixed64 bytes => some (.fixed64 bytes)
  | .fixed32, .fixed32 bytes => some (.fixed32 bytes)
  | .string, .delimited bytes => (fromUtf8 bytes).map fun _ => .blob bytes
  | .bytes, .delimited bytes => some (.blob bytes)
  | .message name, .delimited bytes => (sub name bytes).map .message
  | .packedFixed64, .delimited bytes => if 8 ∣ bytes.length then some (.blob bytes) else none
  | .packedFixed64, .fixed64 bytes => some (.blob bytes)
  | .packedVarint, .delimited bytes =>
    if readVarints bytes.length bytes then some (.blob bytes) else none
  | .packedVarint, .varint n => some (.blob (writeVarint 10 n))
  | _, _ => none

/-- The declared fields among those on the wire. -/
def gather (sub : Name → Bytes → Option Fields) (name : Name) : List WireField → Option Fields
  | [] => some []
  | (number, wire) :: fields =>
    match schema name number with
    | none => gather sub name fields
    | some kind =>
      (readKind sub kind wire).bind fun value =>
        (gather sub name fields).map ((number, value) :: ·)

/-- Decode a message whose nesting is at most so deep. -/
def readMessage : Nat → Name → Bytes → Option Fields
  | 0, _, _ => none
  | fuel + 1, name, bytes => (parse bytes).bind (gather schema (readMessage fuel) name)

/-- `decode`. -/
def decode (name : Name) (bytes : Bytes) : Option Fields :=
  readMessage schema (bytes.length + 1) name bytes

variable {schema}

theorem readKind_congr {sub sub' : Name → Bytes → Option Fields} {kind : Kind Name} {wire : Wire}
    (h : ∀ name bytes, wire = .delimited bytes → sub name bytes = sub' name bytes) :
    readKind sub kind wire = readKind sub' kind wire := by
  cases kind with
  | message name =>
    cases wire with
    | delimited bytes => simp only [readKind, h name bytes rfl]
    | _ => rfl
  | _ => cases wire <;> rfl

theorem gather_congr {sub sub' : Name → Bytes → Option Fields} {name : Name}
    {fields : List WireField}
    (h : ∀ number bytes, (number, Wire.delimited bytes) ∈ fields →
      ∀ name, sub name bytes = sub' name bytes) :
    gather schema sub name fields = gather schema sub' name fields := by
  induction fields with
  | nil => rfl
  | cons field fields ih =>
    obtain ⟨number, wire⟩ := field
    have hfields := ih fun number bytes hmem => h number bytes (List.mem_cons_of_mem _ hmem)
    have hwire (kind : Kind Name) : readKind sub kind wire = readKind sub' kind wire :=
      readKind_congr fun name bytes he => h number bytes (he ▸ List.mem_cons_self) name
    simp only [gather, hfields, hwire]

/-- Enough steps are enough. -/
theorem readMessage_congr {fuel fuel' : Nat} {name : Name} {bytes : Bytes}
    (h : bytes.length < fuel) (h' : bytes.length < fuel') :
    readMessage schema fuel name bytes = readMessage schema fuel' name bytes := by
  induction fuel generalizing fuel' name bytes with
  | zero => exact absurd h (Nat.not_lt_zero _)
  | succ fuel ih =>
    obtain ⟨fuel', rfl⟩ := Nat.exists_eq_succ_of_ne_zero (Nat.ne_zero_of_lt h')
    rw [readMessage, readMessage]
    cases hparse : parse bytes with
    | none => rfl
    | some fields =>
      refine gather_congr fun number payload hmem name => ?_
      have hshort := length_of_mem_parse hparse hmem
      exact ih (by omega) (by omega)

/-- A message is decoded field by field, with the messages within decoded likewise. -/
theorem decode_eq (name : Name) (bytes : Bytes) :
    decode schema name bytes = (parse bytes).bind (gather schema (decode schema) name) := by
  rw [decode, readMessage]
  cases hparse : parse bytes with
  | none => rfl
  | some fields =>
    refine gather_congr fun number payload hmem name => ?_
    have hshort := length_of_mem_parse hparse hmem
    exact readMessage_congr hshort (Nat.lt_succ_self _)

end Decode

section Typed

variable {Name : Type} (schema : Name → Nat → Option (Kind Name))

mutual

/-- Whether a value is one of a kind, as it is written. -/
def Value.hasKind : Value → Kind Name → Bool
  | .varint n, .varint integer => decide (n < 2 ^ 64 ∧ integer.read n = n)
  | .fixed64 bytes, .fixed64 => decide (bytes.length = 8)
  | .fixed32 bytes, .fixed32 => decide (bytes.length = 4)
  | .blob bytes, .string => (fromUtf8 bytes).isSome
  | .blob _, .bytes => true
  | .blob bytes, .packedFixed64 => decide (8 ∣ bytes.length)
  | .blob bytes, .packedVarint => readVarints bytes.length bytes
  | .message fields, .message name => typed fields name
  | _, _ => false

/-- Whether the fields are declared fields of a message type, with values of their kinds. -/
def typed : List (Nat × Value) → Name → Bool
  | [], _ => true
  | (number, value) :: fields, name =>
    decide (1 ≤ number ∧ number < 2 ^ 29) &&
      (match schema name number with
        | some kind => value.hasKind kind
        | none => false) &&
      typed fields name

end

variable {schema}

theorem typed_cons {number : Nat} {value : Value} {fields : Fields} {name : Name} :
    typed schema ((number, value) :: fields) name = true ↔
      (1 ≤ number ∧ number < 2 ^ 29) ∧
        (∃ kind, schema name number = some kind ∧ value.hasKind schema kind = true) ∧
        typed schema fields name = true := by
  rw [typed, Bool.and_eq_true, Bool.and_eq_true, decide_eq_true_iff, and_assoc]
  cases hkind : schema name number <;> simp

theorem typed_iff {fields : Fields} {name : Name} :
    typed schema fields name = true ↔ ∀ f ∈ fields, (1 ≤ f.1 ∧ f.1 < 2 ^ 29) ∧
      ∃ kind, schema name f.1 = some kind ∧ f.2.hasKind schema kind = true := by
  induction fields with
  | nil => simp [typed]
  | cons field fields ih =>
    rw [typed_cons, ih, List.forall_mem_cons]
    exact and_assoc.symm

/-- A payload within an encoding is no longer than the encoding. -/
theorem length_of_mem_encode {fields : Fields} {field : Nat × Value} (hmem : field ∈ fields)
    {payload : Bytes} (hwire : field.2.wire = .delimited payload) :
    payload.length ≤ (encode fields).length := by
  have hfield : payload.length ≤ (writeField (field.1, field.2.wire)).length := by
    rw [hwire, writeField, Wire.payload, List.length_append, List.length_append]
    omega
  have hwritten : writeField (field.1, field.2.wire) ∈ (wireFields fields).map writeField :=
    List.mem_map_of_mem (List.mem_map_of_mem hmem)
  rw [encode_eq_flatMap, List.flatMap_def]
  exact hfield.trans (List.sublist_flatten_of_mem hwritten).length_le

/-- A typed field can be written. -/
theorem Value.wellFormed {value : Value} {kind : Kind Name} (h : value.hasKind schema kind = true)
    {number : Nat} (hnumber : 1 ≤ number ∧ number < 2 ^ 29)
    (hlen : ∀ payload, value.wire = .delimited payload → payload.length < 2 ^ 64) :
    WireField.WellFormed (number, value.wire) := by
  refine ⟨hnumber.1, hnumber.2, ?_⟩
  cases value with
  | varint n => cases kind <;> simp_all [Value.hasKind, Value.wire]
  | fixed64 bytes => cases kind <;> simp_all [Value.hasKind, Value.wire]
  | fixed32 bytes => cases kind <;> simp_all [Value.hasKind, Value.wire]
  | blob bytes => exact hlen _ (by rw [Value.wire])
  | message fields => exact hlen _ (by rw [Value.wire])

/-- The fields of a typed message read back from its encoding. -/
theorem parse_encode {fields : Fields} {name : Name} (h : typed schema fields name = true)
    (hlen : (encode fields).length < 2 ^ 64) :
    parse (encode fields) = some (wireFields fields) := by
  rw [encode_eq_flatMap]
  refine parse_flatMap_writeField fun field hmem => ?_
  obtain ⟨field, hfield, rfl⟩ := List.mem_map.mp hmem
  obtain ⟨hnumber, kind, -, hkind⟩ := typed_iff.mp h field hfield
  refine Value.wellFormed hkind hnumber fun payload hwire => ?_
  exact (length_of_mem_encode hfield hwire).trans_lt hlen

mutual

/-- A typed value reads back. -/
theorem readKind_wire : ∀ (value : Value) (kind : Kind Name), value.hasKind schema kind = true →
    (∀ payload, value.wire = .delimited payload → payload.length < 2 ^ 64) →
      readKind (decode schema) kind value.wire = some value
  | .varint n, kind, h, _ => by
    cases kind <;> simp_all [Value.hasKind, Value.wire, readKind]
  | .fixed64 bytes, kind, h, _ => by
    cases kind <;> simp_all [Value.hasKind, Value.wire, readKind]
  | .fixed32 bytes, kind, h, _ => by
    cases kind <;> simp_all [Value.hasKind, Value.wire, readKind]
  | .blob bytes, kind, h, _ => by
    cases kind with
    | string =>
      obtain ⟨text, htext⟩ := Option.isSome_iff_exists.mp h
      simp [Value.wire, readKind, htext]
    | _ => simp_all [Value.hasKind, Value.wire, readKind]
  | .message fields, kind, h, hlen => by
    cases kind with
    | message name =>
      have hfields : (encode fields).length < 2 ^ 64 := hlen _ (by rw [Value.wire])
      rw [Value.hasKind] at h
      rw [Value.wire, readKind, decode_eq, parse_encode h hfields, Option.bind_some,
        gather_wireFields fields name h fun f hmem payload hwire =>
          (length_of_mem_encode hmem hwire).trans_lt hfields, Option.map_some]
    | _ => simp [Value.hasKind] at h

/-- The declared fields of a typed message are all its fields. -/
theorem gather_wireFields : ∀ (fields : List (Nat × Value)) (name : Name),
    typed schema fields name = true →
    (∀ f ∈ fields, ∀ payload, f.2.wire = .delimited payload → payload.length < 2 ^ 64) →
      gather schema (decode schema) name (wireFields fields) = some fields
  | [], _, _, _ => rfl
  | (number, value) :: fields, name, h, hlen => by
    obtain ⟨-, ⟨kind, hschema, hkind⟩, htyped⟩ := typed_cons.mp h
    have hvalue := readKind_wire value kind hkind (hlen _ List.mem_cons_self)
    have hfields := gather_wireFields fields name htyped
      fun f hmem => hlen f (List.mem_cons_of_mem _ hmem)
    rw [wireFields_cons, gather, hschema]
    simp only [hvalue, Option.bind_some, hfields, Option.map_some]

end

/-- Decoding undoes encoding. -/
theorem decode_encode {fields : Fields} {name : Name} (h : typed schema fields name = true)
    (hlen : (encode fields).length < 2 ^ 64) :
    decode schema name (encode fields) = some fields := by
  rw [decode_eq, parse_encode h hlen, Option.bind_some]
  exact gather_wireFields fields name h fun f hmem payload hwire =>
    (length_of_mem_encode hmem hwire).trans_lt hlen

end Typed

section Readable

variable {Name : Type} (schema : Name → Nat → Option (Kind Name))

mutual

/-- Whether a field of a kind reads a value: messages are compared field by field. -/
def Value.readableAs : Value → Kind Name → Bool
  | .message fields, .message name => readableAs fields name
  | value, kind => (readKind (decode schema) kind value.wire).isSome

/-- Whether a message type reads all those fields that it declares. -/
def readableAs : List (Nat × Value) → Name → Bool
  | [], _ => true
  | (number, value) :: fields, name =>
    (match schema name number with
      | some kind => value.readableAs kind
      | none => true) &&
      readableAs fields name

end

/-- The messages in the fields of a number. -/
def submessages (child : Nat) (fields : Fields) : List Fields :=
  fields.filterMap fun
    | (number, .message sub) => if number = child then some sub else none
    | _ => none

variable {schema}

theorem readableAs_iff {fields : Fields} {name : Name} :
    readableAs schema fields name = true ↔ ∀ f ∈ fields, ∀ kind,
      schema name f.1 = some kind → f.2.readableAs schema kind = true := by
  induction fields with
  | nil => simp [readableAs]
  | cons field fields ih =>
    rw [readableAs, Bool.and_eq_true, ih, List.forall_mem_cons]
    cases hkind : schema name field.1 <;> simp

theorem mem_submessages {child : Nat} {fields sub : Fields} :
    sub ∈ submessages child fields ↔ (child, .message sub) ∈ fields := by
  rw [submessages, List.mem_filterMap]
  constructor
  · rintro ⟨⟨number, value⟩, hmem, heq⟩
    cases value with
    | message fields' =>
      simp only at heq
      split_ifs at heq with hnumber
      cases heq
      exact hnumber ▸ hmem
    | _ => cases heq
  · intro hmem
    exact ⟨_, hmem, if_pos rfl⟩

mutual

/-- A written value is read as another kind when that kind reads it. -/
theorem isSome_readKind : ∀ (value : Value) (kind kind' : Kind Name),
    value.hasKind schema kind = true →
    (∀ payload, value.wire = .delimited payload → payload.length < 2 ^ 64) →
      (readKind (decode schema) kind' value.wire).isSome = value.readableAs schema kind'
  | .varint n, _, kind', _, _ => by rw [Value.readableAs]; nofun
  | .fixed64 bytes, _, kind', _, _ => by rw [Value.readableAs]; nofun
  | .fixed32 bytes, _, kind', _, _ => by rw [Value.readableAs]; nofun
  | .blob bytes, _, kind', _, _ => by rw [Value.readableAs]; nofun
  | .message fields, kind, kind', h, hlen => by
    cases kind' with
    | message name' =>
      cases kind with
      | message name =>
        have hfields : (encode fields).length < 2 ^ 64 := hlen _ (by rw [Value.wire])
        rw [Value.hasKind] at h
        rw [Value.readableAs, Value.wire, readKind, Option.isSome_map, decode_eq,
          parse_encode h hfields, Option.bind_some]
        exact isSome_gather fields name name' h fun f hmem payload hwire =>
          (length_of_mem_encode hmem hwire).trans_lt hfields
      | _ => simp [Value.hasKind] at h
    | _ => rw [Value.readableAs]; nofun

/-- Fields are gathered for another type when that type reads them. -/
theorem isSome_gather : ∀ (fields : List (Nat × Value)) (name name' : Name),
    typed schema fields name = true →
    (∀ f ∈ fields, ∀ payload, f.2.wire = .delimited payload → payload.length < 2 ^ 64) →
      (gather schema (decode schema) name' (wireFields fields)).isSome =
        readableAs schema fields name'
  | [], _, _, _, _ => rfl
  | (number, value) :: fields, name, name', h, hlen => by
    obtain ⟨-, ⟨kind, -, hkind⟩, htyped⟩ := typed_cons.mp h
    have hfields := isSome_gather fields name name' htyped
      fun f hmem => hlen f (List.mem_cons_of_mem _ hmem)
    rw [readableAs, wireFields_cons, gather]
    cases hschema : schema name' number with
    | none => simpa using hfields
    | some kind' =>
      have hvalue := isSome_readKind value kind kind' hkind (hlen _ List.mem_cons_self)
      simp only [← hvalue, ← hfields]
      cases readKind (decode schema) kind' value.wire <;> simp

end

/-- The encoding of a message is accepted as another type when that type reads its fields. -/
theorem isSome_decode_encode {fields : Fields} {name : Name} (h : typed schema fields name = true)
    (hlen : (encode fields).length < 2 ^ 64) (name' : Name) :
    (decode schema name' (encode fields)).isSome = readableAs schema fields name' := by
  rw [decode_eq, parse_encode h hlen, Option.bind_some]
  exact isSome_gather fields name name' h fun f hmem payload hwire =>
    (length_of_mem_encode hmem hwire).trans_lt hlen

/-- A written value is read as its own kind. -/
theorem Value.readableAs_of_hasKind {value : Value} {kind : Kind Name}
    (h : value.hasKind schema kind = true)
    (hlen : ∀ payload, value.wire = .delimited payload → payload.length < 2 ^ 64) :
    value.readableAs schema kind = true := by
  rw [← isSome_readKind value kind kind h hlen, readKind_wire value kind h hlen, Option.isSome_some]

theorem typed_submessage {name sub : Name} {child : Nat} {fields inner : Fields}
    (hchild : schema name child = some (.message sub)) (h : typed schema fields name = true)
    (hmem : inner ∈ submessages child fields) : typed schema inner sub = true := by
  obtain ⟨-, kind, hkind, hvalue⟩ := typed_iff.mp h _ (mem_submessages.mp hmem)
  obtain rfl : kind = .message sub := Option.some.inj (hkind.symm.trans hchild)
  rwa [Value.hasKind] at hvalue

theorem length_submessage {child : Nat} {fields inner : Fields}
    (hmem : inner ∈ submessages child fields) :
    (encode inner).length ≤ (encode fields).length :=
  length_of_mem_encode (mem_submessages.mp hmem) (by rw [Value.wire])

/-- Where two types differ in the type of one inner message only, one reads what was written as the
other exactly when its inner type reads the inner messages. -/
theorem readableAs_sibling {name name' sub sub' : Name} {child : Nat} {fields : Fields}
    (hchild : schema name child = some (.message sub))
    (hchild' : schema name' child = some (.message sub'))
    (hother : ∀ number, number ≠ child → schema name' number = schema name number)
    (h : typed schema fields name = true) (hlen : (encode fields).length < 2 ^ 64) :
    readableAs schema fields name' = true ↔
      ∀ inner ∈ submessages child fields, readableAs schema inner sub' = true := by
  rw [readableAs_iff]
  constructor
  · intro hread inner hmem
    have := hread _ (mem_submessages.mp hmem) _ hchild'
    rwa [Value.readableAs] at this
  · rintro hread ⟨number, value⟩ hmem kind hkind
    obtain ⟨-, kind', hkind', hvalue⟩ := typed_iff.mp h _ hmem
    by_cases hnumber : number = child
    · subst hnumber
      obtain rfl : kind = .message sub' := Option.some.inj (hkind.symm.trans hchild')
      obtain rfl : kind' = .message sub := Option.some.inj (hkind'.symm.trans hchild)
      cases value with
      | message inner =>
        rw [Value.readableAs]
        exact hread inner (mem_submessages.mpr hmem)
      | _ => simp [Value.hasKind] at hvalue
    · obtain rfl : kind = kind' := Option.some.inj
        ((hkind.symm.trans (hother number hnumber)).trans hkind')
      exact Value.readableAs_of_hasKind hvalue fun payload hwire =>
        (length_of_mem_encode hmem hwire).trans_lt hlen

/-- The code of the wire type that a kind is written with. -/
def Kind.written : Kind Name → Nat
  | .varint _ => 0
  | .fixed64 => 1
  | .fixed32 => 5
  | _ => 2

/-- The codes of the wire types that a kind accepts. -/
def Kind.accepted : Kind Name → List Nat
  | .packedFixed64 => [2, 1]
  | .packedVarint => [2, 0]
  | kind => [kind.written]

theorem Value.code_wire {value : Value} {kind : Kind Name} (h : value.hasKind schema kind = true) :
    value.wire.code = kind.written := by
  cases value <;> cases kind <;> simp_all [Value.hasKind, Value.wire, Wire.code, Kind.written]

theorem code_of_isSome_readKind {sub : Name → Bytes → Option Fields} {kind : Kind Name}
    {wire : Wire} (h : (readKind sub kind wire).isSome = true) : wire.code ∈ kind.accepted := by
  cases kind <;> cases wire <;> simp_all [readKind, Wire.code, Kind.accepted, Kind.written]

/-- A value is not read as a kind that does not accept the wire type it is written with. -/
theorem Value.readableAs_eq_false {value : Value} {kind kind' : Kind Name}
    (h : value.hasKind schema kind = true)
    (hlen : ∀ payload, value.wire = .delimited payload → payload.length < 2 ^ 64)
    (hclash : kind.written ∉ kind'.accepted) : value.readableAs schema kind' = false := by
  rw [← Bool.not_eq_true, ← isSome_readKind value kind kind' h hlen, ← Value.code_wire h] at *
  exact fun hread => hclash (code_of_isSome_readKind hread)

end Readable

end Protobuf
