import Kaleidoscope.Library.BufWriter
import Kaleidoscope.Wal.Serde

/-!
# Appending a record to the write-ahead log

Every file-backed store has the same `append_wal`: serialise the record, write its
text and a newline through the buffered writer, flush, fsync. The ways in which one
call can fail are a parameter of the call.
-/

namespace Kaleidoscope

open Utf8

/-- How the file behaves during one `append_wal`. -/
inductive Fault where
  /-- Every write and the fsync succeed. -/
  | none
  /-- The file accepts this many more bytes; the write after them fails. -/
  | write (accepted : Nat) (error : String)
  /-- All the bytes are written and the fsync fails. -/
  | fsync (error : String)
  deriving DecidableEq, Repr

/-- The device the buffered writer sees under a fault. -/
def Fault.device : Fault → Device
  | .none => Option.none
  | .write n e => some (n, e)
  | .fsync _ => Option.none

/-- `format!("io: {e}")`. -/
def io {ε : Type} (persistenceFailed : String → ε) (e : String) : ε :=
  persistenceFailed ("io: " ++ e)

/-- `format!("parse: {e}")`. -/
def parse {ε : Type} (persistenceFailed : String → ε) (e : String) : ε :=
  persistenceFailed ("parse: " ++ e)

/-- The bytes one record occupies in the log: its text and a newline. -/
def wireLine (t : Text) : Bytes := asBytes t ++ [10]

@[simp] theorem length_wireLine (t : Text) : (wireLine t).length = (asBytes t).length + 1 := by
  simp [wireLine]

variable {ρ ε : Type}

/-- `append_wal`: the record, a newline, a flush and an fsync, each of which may fail. -/
def appendWal (c : LineSerde ρ) (persistenceFailed : String → ε) (wal : BufWriter) (record : ρ)
    (fault : Fault) : Except ε Unit × BufWriter :=
  match c.toString record with
  | .error e => (.error (parse persistenceFailed e), wal)
  | .ok line =>
    match wal.writeAll (asBytes line) fault.device with
    | ⟨.error e, wal, _⟩ => (.error (io persistenceFailed e), wal)
    | ⟨.ok _, wal, d⟩ =>
      match wal.writeAll [10] d with
      | ⟨.error e, wal, _⟩ => (.error (io persistenceFailed e), wal)
      | ⟨.ok _, wal, d⟩ =>
        match wal.flushBuf d with
        | ⟨.error e, wal, _⟩ => (.error (io persistenceFailed e), wal)
        | ⟨.ok _, wal, _⟩ =>
          match fault with
          | .fsync e => (.error (io persistenceFailed e), wal)
          | _ => (.ok (), wal)

/-- What an append that fails after `n` bytes leaves in the buffer. A line as large as
the buffer is written directly, so a failure inside it leaves nothing behind. -/
def residue (t : Text) (n : Nat) : Bytes :=
  if BufWriter.capacity ≤ (asBytes t).length ∧ n < (asBytes t).length then []
  else (wireLine t).drop n

/-- The outcome of an append to a writer with an empty buffer, fault by fault. -/
def appendOutcome (persistenceFailed : String → ε) (file : Bytes) (t : Text) :
    Fault → Except ε Unit × BufWriter
  | .none => (.ok (), ⟨file ++ wireLine t, []⟩)
  | .fsync e => (.error (io persistenceFailed e), ⟨file ++ wireLine t, []⟩)
  | .write n e =>
    if (wireLine t).length ≤ n then (.ok (), ⟨file ++ wireLine t, []⟩)
    else (.error (io persistenceFailed e), ⟨file ++ (wireLine t).take n, residue t n⟩)

/-- A record that does not serialise leaves the writer alone. -/
theorem appendWal_error (c : LineSerde ρ) (persistenceFailed : String → ε) (wal : BufWriter)
    {r : ρ} {e : String} (h : c.toString r = .error e) (fault : Fault) :
    appendWal c persistenceFailed wal r fault = (.error (parse persistenceFailed e), wal) := by
  simp only [appendWal, h]

private theorem appendWal_small (c : LineSerde ρ) (persistenceFailed : String → ε) (file : Bytes)
    {r : ρ} {t : Text} (h : c.toString r = .ok t) (fault : Fault)
    (hs : (asBytes t).length < BufWriter.capacity) :
    appendWal c persistenceFailed ⟨file, []⟩ r fault =
      appendOutcome persistenceFailed file t fault := by
  have hres (n : Nat) : residue t n = (wireLine t).drop n := by
    rw [residue, if_neg]
    omega
  simp only [appendWal, h, BufWriter.writeAll_new_of_lt _ _ hs, BufWriter.writeAll_byte _ _ _ hs]
  cases fault with
  | none => simp [Fault.device, appendOutcome, wireLine]
  | fsync e => simp [Fault.device, appendOutcome, wireLine]
  | write n e =>
    simp only [Fault.device, appendOutcome, hres]
    split_ifs with hn
    · rw [BufWriter.flushBuf_of_le _ _ (by simpa [wireLine] using hn)]
      rfl
    · rw [BufWriter.flushBuf_of_lt _ _ (by simpa [wireLine] using hn)]
      rfl

private theorem appendWal_large (c : LineSerde ρ) (persistenceFailed : String → ε) (file : Bytes)
    {r : ρ} {t : Text} (h : c.toString r = .ok t) (fault : Fault)
    (hl : BufWriter.capacity ≤ (asBytes t).length) :
    appendWal c persistenceFailed ⟨file, []⟩ r fault =
      appendOutcome persistenceFailed file t fault := by
  have hbyte (f : Bytes) (d : Device) := @BufWriter.writeAll_byte f [] 10 d (by decide)
  simp only [List.nil_append] at hbyte
  simp only [appendWal, h, BufWriter.writeAll_new_of_le _ _ hl, BufWriter.writeDirect, if_pos hl]
  cases fault with
  | none => simp [Fault.device, appendOutcome, wireLine, Device.writeAll, hbyte]
  | fsync e => simp [Fault.device, appendOutcome, wireLine, Device.writeAll, hbyte]
  | write n e =>
    simp only [Fault.device, appendOutcome, Device.writeAll, length_wireLine]
    by_cases hn : (asBytes t).length ≤ n
    · -- the whole text reached the file; the newline is flushed separately
      have hres : residue t n = (wireLine t).drop n := by
        rw [residue, if_neg]
        omega
      simp only [if_pos hn, hbyte]
      split_ifs with hm
      · rw [BufWriter.flushBuf_of_le _ _ (by simp only [List.length_singleton]; omega)]
        simp [wireLine]
      · obtain rfl : n = (asBytes t).length := by omega
        rw [BufWriter.flushBuf_of_lt _ _ (by simp), hres]
        simp [wireLine]
    · have hres : residue t n = [] := by
        rw [residue, if_pos]
        omega
      rw [if_neg hn, if_neg (by omega), hres, wireLine,
        List.take_append_of_le_length (by omega)]

/-- The specification of `append_wal` on a writer whose buffer is empty. -/
theorem appendWal_new (c : LineSerde ρ) (persistenceFailed : String → ε) (file : Bytes)
    {r : ρ} {t : Text} (h : c.toString r = .ok t) (fault : Fault) :
    appendWal c persistenceFailed ⟨file, []⟩ r fault =
      appendOutcome persistenceFailed file t fault := by
  rcases Nat.lt_or_ge (asBytes t).length BufWriter.capacity with hs | hl
  · exact appendWal_small c persistenceFailed file h fault hs
  · exact appendWal_large c persistenceFailed file h fault hl

/-- An append only adds to the file, and one that succeeds adds the buffer and the line. -/
theorem appendWal_spec (c : LineSerde ρ) (persistenceFailed : String → ε) (wal : BufWriter)
    (r : ρ) (fault : Fault) :
    wal.file <+: (appendWal c persistenceFailed wal r fault).2.file ∧
      ((appendWal c persistenceFailed wal r fault).1 = .ok () →
        ∃ t, c.toString r = .ok t ∧
          (appendWal c persistenceFailed wal r fault).2 = ⟨wal.drop ++ wireLine t, []⟩) := by
  unfold appendWal
  cases ht : c.toString r with
  | error e => exact ⟨List.prefix_rfl, nofun⟩
  | ok t =>
    dsimp only
    rcases hline : wal.writeAll (asBytes t) fault.device with ⟨_ | ⟨⟩, w, d⟩
    · exact ⟨(BufWriter.writeAll_spec hline).1, nofun⟩
    dsimp only
    obtain ⟨htext, hwritten⟩ := BufWriter.writeAll_spec hline
    rcases hend : w.writeAll [10] d with ⟨_ | ⟨⟩, w', d'⟩
    · exact ⟨htext.trans (BufWriter.writeAll_spec hend).1, nofun⟩
    dsimp only
    obtain ⟨hnewline, hended⟩ := BufWriter.writeAll_spec hend
    rcases hlast : w'.flushBuf d' with ⟨_ | ⟨⟩, w'', d''⟩
    · exact ⟨(htext.trans hnewline).trans (BufWriter.flushBuf_spec hlast).1, nofun⟩
    dsimp only
    obtain ⟨hflush, hsent⟩ := BufWriter.flushBuf_spec hlast
    have hextends := (htext.trans hnewline).trans hflush
    have hlogged : w'' = ⟨wal.drop ++ wireLine t, []⟩ := by
      rw [hsent rfl, hended rfl, hwritten rfl, wireLine, BufWriter.drop_eq, List.append_assoc]
    cases fault with
    | fsync e => exact ⟨hextends, nofun⟩
    | none => exact ⟨hextends, fun _ => ⟨t, rfl, hlogged⟩⟩
    | write n e => exact ⟨hextends, fun _ => ⟨t, rfl, hlogged⟩⟩

/-- A write that fails at the first byte of a line that bypasses the buffer changes nothing. -/
theorem appendWal_of_bypass (c : LineSerde ρ) (persistenceFailed : String → ε) (file : Bytes)
    {r : ρ} {t : Text} (h : c.toString r = .ok t) (hcap : BufWriter.capacity ≤ (asBytes t).length)
    (e : String) : appendWal c persistenceFailed ⟨file, []⟩ r (.write 0 e) =
      (.error (io persistenceFailed e), ⟨file, []⟩) := by
  have hpos : 0 < (asBytes t).length := lt_of_lt_of_le (by decide) hcap
  rw [appendWal_new c _ _ h, appendOutcome, if_neg (by simp), residue, if_pos ⟨hcap, hpos⟩]
  simp

/-- A fault under which the append of this text still succeeds. -/
def Fault.Accepts (t : Text) : Fault → Prop
  | .none => True
  | .write n _ => (wireLine t).length ≤ n
  | .fsync _ => False

/-- A fault that cannot leave a byte of the record behind: one the append survives, or a
write that fails before the first byte of a line that bypasses the buffer. -/
def Fault.LeavesNothing (t : Text) (fault : Fault) : Prop :=
  fault.Accepts t ∨ ∃ e, fault = .write 0 e ∧ BufWriter.capacity ≤ (asBytes t).length

instance (t : Text) (fault : Fault) : Decidable (fault.Accepts t) := by
  cases fault <;> unfold Fault.Accepts <;> infer_instance

instance (t : Text) (fault : Fault) : Decidable (fault.LeavesNothing t) :=
  match fault with
  | .write 0 e => decidable_of_iff (BufWriter.capacity ≤ (asBytes t).length)
      ⟨fun h => Or.inr ⟨e, rfl, h⟩, fun h => h.elim (fun h => by simp [Fault.Accepts] at h)
        fun ⟨_, _, h⟩ => h⟩
  | .write (n + 1) e => decidable_of_iff (Fault.Accepts t (.write (n + 1) e))
      ⟨Or.inl, fun h => h.resolve_right fun ⟨_, he, _⟩ => by simp at he⟩
  | .none => isTrue (Or.inl trivial)
  | .fsync e => isFalse fun h => h.elim id fun ⟨_, he, _⟩ => by simp at he

theorem appendOutcome_of_accepts (persistenceFailed : String → ε) (file : Bytes) {t : Text}
    {fault : Fault} (h : fault.Accepts t) :
    appendOutcome persistenceFailed file t fault = (.ok (), ⟨file ++ wireLine t, []⟩) := by
  cases fault with
  | none => rfl
  | fsync e => exact absurd h id
  | write n e => exact if_pos h

/-- Under a fault that leaves nothing, an append from an empty buffer either writes the
whole line and succeeds, or fails and changes neither file nor buffer. -/
theorem appendWal_of_leavesNothing (c : LineSerde ρ) (persistenceFailed : String → ε)
    (file : Bytes) (r : ρ) {fault : Fault}
    (h : ∀ t, c.toString r = .ok t → fault.LeavesNothing t) :
    (∃ t, c.toString r = .ok t ∧ fault.Accepts t ∧
      appendWal c persistenceFailed ⟨file, []⟩ r fault = (.ok (), ⟨file ++ wireLine t, []⟩)) ∨
    ∃ e, appendWal c persistenceFailed ⟨file, []⟩ r fault = (.error e, ⟨file, []⟩) := by
  cases ht : c.toString r with
  | error e => exact Or.inr ⟨_, appendWal_error c _ _ ht fault⟩
  | ok t =>
    rcases h t ht with ha | ⟨e, rfl, hcap⟩
    · rw [appendWal_new c _ _ ht]
      exact Or.inl ⟨t, rfl, ha, appendOutcome_of_accepts _ _ ha⟩
    · exact Or.inr ⟨_, appendWal_of_bypass c _ file ht hcap e⟩

end Kaleidoscope
