import Kaleidoscope.Otlp.Validate

/-!
# Whether a request is taken for another signal

A validator accepts a request of another signal when its item type reads every item, which happens
whenever the items leave unset what would tell them apart.
-/

namespace Kaleidoscope.Otlp

open Protobuf Utf8

section

variable {Inner : Type} {descriptors : Descriptors Inner} {prost : Prost Inner}
  {signal : SignalType}

theorem Request.number_eq_one (r : Request descriptors signal) {field : Nat × Value}
    (hmem : field ∈ r.fields) : field.1 = 1 := by
  obtain ⟨number, value⟩ := field
  obtain ⟨⟨hpos, -⟩, kind, hkind, -⟩ := typed_iff.mp r.isTyped _ hmem
  match number, hpos, hkind with
  | 1, _, _ => rfl

theorem Request.fields_ne_nil {r : Request descriptors signal} (h : r.items ≠ []) :
    r.fields ≠ [] := by
  intro hnil
  rw [Request.items, hnil] at h
  exact h rfl

theorem Request.encode_ne_nil {r : Request descriptors signal} (h : r.fields ≠ []) :
    encode r.fields ≠ [] := by
  obtain ⟨field, fields, hfields⟩ := List.exists_cons_of_ne_nil h
  rw [hfields, encode_eq_flatMap]
  exact List.append_ne_nil_of_left_ne_nil (writeField_ne_nil _) _

/-- The first tag of a request is that of its resources. -/
theorem Request.firstTag (r : Request descriptors signal) (h : r.fields ≠ []) :
    firstTagReferencesResourceField prost (encode r.fields) = .ok () := by
  obtain ⟨⟨number, value⟩, fields, hfields⟩ := List.exists_cons_of_ne_nil h
  have hmem : (number, value) ∈ r.fields := hfields ▸ List.mem_cons_self
  obtain ⟨hnumber, kind, -, hvalue⟩ := typed_iff.mp r.isTyped _ hmem
  have hone : number = 1 := r.number_eq_one hmem
  have hwell : WireField.WellFormed (number, value.wire) :=
    Value.wellFormed hvalue hnumber fun payload hwire =>
      (length_of_mem_encode hmem hwire).trans_lt r.fits
  rw [firstTagReferencesResourceField, decodeKey, hfields, encode, readKey_writeField hwell]
  simp only [Except.bind]
  exact if_neg (not_not.mpr hone)

/-- The strict decoder of a signal on a request of any signal. -/
theorem Request.decodeStrict_eq (r : Request descriptors signal) (h : r.fields ≠ [])
    (other : SignalType) :
    decodeStrict descriptors prost other (encode r.fields) =
      decodeMessage descriptors prost (.request other) (encode r.fields) := by
  rw [decodeStrict, r.firstTag h]
  rfl

/-- A request decodes as its own signal to itself. -/
theorem Request.decodeStrict_self (r : Request descriptors signal) (h : r.fields ≠ []) :
    decodeStrict descriptors prost signal (encode r.fields) = .ok r.fields := by
  rw [r.decodeStrict_eq h, decodeMessage, decode_encode r.isTyped r.fits]

/-- A request decodes as another signal when the items of that signal can be read so. -/
theorem Request.signalDecodesBytes_iff (r : Request descriptors signal) (h : r.fields ≠ [])
    (other : SignalType) :
    signalDecodesBytes descriptors prost other (encode r.fields) = true ↔
      ∀ item ∈ r.items, readableAs descriptors.schema item (.item other) = true := by
  rw [signalDecodesBytes, r.decodeStrict_eq h, ← r.readableAs_iff,
    ← isSome_decode_encode r.isTyped r.fits, decodeMessage]
  cases decode descriptors.schema (.request other) (encode r.fields) <;> simp [Except.isOk,
    Except.toBool]

/-- Some item of a request cannot be read as an item of another signal. -/
def Request.TellsFrom (r : Request descriptors signal) (other : SignalType) : Prop :=
  ∃ item ∈ r.items, readableAs descriptors.schema item (.item other) = false

theorem Request.tellsFrom_iff (r : Request descriptors signal) (h : r.fields ≠ [])
    (prost : Prost Inner) (other : SignalType) :
    r.TellsFrom other ↔ signalDecodesBytes descriptors prost other (encode r.fields) = false := by
  rw [← Bool.not_eq_true, r.signalDecodesBytes_iff h]
  simp only [Request.TellsFrom, not_forall, Bool.not_eq_true, exists_prop]

/-- A validator that does not decode a request rejects it. -/
theorem decodeSignal_error_of_not_decodes {other : SignalType} {bytes : Bytes} (framing : Framing)
    (h : signalDecodesBytes descriptors prost other bytes = false) :
    ∃ prostErr, decodeSignal descriptors prost other bytes framing =
      .error (rejectWithSignalMismatchFallback descriptors prost bytes framing other prostErr) := by
  rw [signalDecodesBytes] at h
  rw [decodeSignal]
  cases hdecode : decodeStrict descriptors prost other bytes with
  | ok record =>
    rw [hdecode] at h
    cases h
  | error prostErr => exact ⟨prostErr, rfl⟩

/-- A validator that decodes a request accepts it. -/
theorem decodeSignal_ok_of_decodes {other : SignalType} {bytes : Bytes} (framing : Framing)
    (h : signalDecodesBytes descriptors prost other bytes = true) :
    ∃ record, decodeSignal descriptors prost other bytes framing = .ok record := by
  rw [signalDecodesBytes] at h
  rw [decodeSignal]
  cases hdecode : decodeStrict descriptors prost other bytes with
  | ok record => exact ⟨record, rfl⟩
  | error prostErr =>
    rw [hdecode] at h
    cases h

/-- No validator takes a request for its signal and the request's own validator returns it, exactly
when some item tells the request from each other signal. -/
theorem Request.rejected_elsewhere_iff (r : Request descriptors signal) (hitems : r.items ≠ [])
    (framing : Framing) :
    ((∀ other, other ≠ signal →
        validate descriptors prost other (encode r.fields) framing =
          .error (signalMismatchViolation signal other framing)) ∧
      validate descriptors prost signal (encode r.fields) framing = .ok r.fields) ↔
      ∀ other, other ≠ signal → r.TellsFrom other := by
  have hfields := Request.fields_ne_nil hitems
  have hbytes := Request.encode_ne_nil hfields
  have hself : decodeSignal descriptors prost signal (encode r.fields) framing = .ok r.fields := by
    rw [decodeSignal, r.decodeStrict_self hfields]
  simp only [validate_of_ne_nil hbytes]
  constructor
  · rintro ⟨hreject, -⟩ other hother
    rw [r.tellsFrom_iff hfields prost, ← Bool.not_eq_true]
    intro hdecodes
    obtain ⟨record, hrecord⟩ := decodeSignal_ok_of_decodes framing hdecodes
    rw [hreject other hother] at hrecord
    cases hrecord
  · intro htells
    refine ⟨fun other hother => ?_, hself⟩
    obtain ⟨prostErr, herror⟩ := decodeSignal_error_of_not_decodes framing
      ((r.tellsFrom_iff hfields prost other).mp (htells other hother))
    have hfirst : firstAlternativeSignalThatDecodes descriptors prost (encode r.fields) other =
        some signal := by
      refine firstAlternativeSignalThatDecodes_of_unique hother.symm ?_ fun third _ hthird => ?_
      · rw [signalDecodesBytes, r.decodeStrict_self hfields]
        rfl
      · exact (r.tellsFrom_iff hfields prost third).mp (htells third hthird)
    rw [herror, rejectWithSignalMismatchFallback, hfirst]

end

end Kaleidoscope.Otlp
