import Kaleidoscope.Library.Utf8

/-!
# The JSON encoding of records

`serde_json` is outside the repository. A record type comes with the two functions
the stores call, `to_string` and `from_str`, and a snapshot type with `to_writer`
and `from_reader`. What the stores rely on is stated for one record at a time.
-/

namespace Kaleidoscope

open Utf8

/-- `serde_json::to_string` and `serde_json::from_str` at a record type; an error is
its rendered message. -/
structure LineSerde (ρ : Type) where
  /-- The compact JSON text of a record. -/
  toString : ρ → Except String Text
  /-- The record a text decodes to. -/
  fromStr : Text → Except String ρ

/-- `serde_json::to_writer` and `serde_json::from_reader` at a snapshot type. -/
structure FileSerde (κ : Type) where
  /-- The bytes of a snapshot. -/
  toWriter : κ → Except String Bytes
  /-- The snapshot the bytes decode to. -/
  fromReader : Bytes → Except String κ

variable {ρ κ : Type}

/-- The encoding of a record as the stores rely on it: a nonempty text on one line
that decodes back, none of whose proper prefixes, as recovery reads them, decodes. -/
structure LineSerde.Faithful (c : LineSerde ρ) (r : ρ) : Prop where
  decodes : ∀ t, c.toString r = .ok t → c.fromStr t = .ok r
  oneLine : ∀ t, c.toString r = .ok t → t ≠ [] ∧ '\n' ∉ t ∧ '\r' ∉ t
  prefixFails : ∀ t, c.toString r = .ok t → ∀ q, q <+: asBytes t → q ≠ asBytes t →
    ∃ e, c.fromStr (fromUtf8Lossy q) = .error e

/-- The encoding of a snapshot decodes back to it. -/
def FileSerde.Faithful (c : FileSerde κ) (k : κ) : Prop :=
  ∀ bs, c.toWriter k = .ok bs → c.fromReader bs = .ok k

end Kaleidoscope
