import Kaleidoscope.Library.Utf8

/-!
# Buffered writes to an append-only file

The buffered writer of the standard library over a file opened for appending. A
device accepts a number of bytes and then fails every write; a failed flush drops
from the buffer exactly the bytes that reached the file, and a write as large as
the buffer goes to the file directly.
-/

open Utf8

/-- What a file still accepts: everything, or a number of bytes and then this error. -/
abbrev Device := Option (Nat × String)

/-- Write a byte string to the file: the bytes that reach it, the error if any, and
the device afterwards. -/
def Device.writeAll (d : Device) (bs : Bytes) : Bytes × Option String × Device :=
  match d with
  | none => (bs, none, none)
  | some (n, e) =>
    if bs.length ≤ n then (bs, none, some (n - bs.length, e)) else (bs.take n, some e, some (0, e))

/-- Without an error all the bytes reach the file. -/
theorem Device.sent_eq {d d' : Device} {bs sent : Bytes}
    (h : d.writeAll bs = (sent, none, d')) : sent = bs := by
  cases d with
  | none => exact (congrArg Prod.fst h).symm
  | some limit =>
    simp only [Device.writeAll] at h
    split_ifs at h with hroom
    · exact (congrArg Prod.fst h).symm
    · cases h

/-- A buffered writer: the bytes in the file and those still in the buffer. -/
structure BufWriter where
  /-- The bytes that have reached the file. -/
  file : Bytes
  /-- The bytes accepted by the writer and not yet written to the file. -/
  buf : Bytes
  deriving DecidableEq, Repr

namespace BufWriter

/-- The default capacity of a buffered writer. -/
def capacity : Nat := 8 * 1024

/-- A writer with an empty buffer. -/
def new (file : Bytes) : BufWriter := ⟨file, []⟩

/-- The result of a call on the writer, with the writer and the device it leaves. -/
structure Step where
  result : Except String Unit
  writer : BufWriter
  device : Device

/-- Write the buffer to the file; on failure the unwritten part stays in the buffer. -/
def flushBuf (w : BufWriter) (d : Device) : Step :=
  match d.writeAll w.buf with
  | (sent, none, d) => ⟨.ok (), ⟨w.file ++ sent, []⟩, d⟩
  | (sent, some e, d) => ⟨.error e, ⟨w.file ++ sent, w.buf.drop sent.length⟩, d⟩

/-- Take the bytes into the buffer, or write them directly when they do not fit. -/
def writeDirect (w : BufWriter) (bs : Bytes) (d : Device) : Step :=
  if capacity ≤ bs.length then
    match d.writeAll bs with
    | (sent, none, d) => ⟨.ok (), ⟨w.file ++ sent, w.buf⟩, d⟩
    | (sent, some e, d) => ⟨.error e, ⟨w.file ++ sent, w.buf⟩, d⟩
  else ⟨.ok (), ⟨w.file, w.buf ++ bs⟩, d⟩

/-- Accept all the bytes, flushing first when the spare capacity is too small. -/
def writeAll (w : BufWriter) (bs : Bytes) (d : Device) : Step :=
  if bs.length < capacity - w.buf.length then ⟨.ok (), ⟨w.file, w.buf ++ bs⟩, d⟩
  else if capacity - w.buf.length < bs.length then
    match w.flushBuf d with
    | ⟨.error e, w, d⟩ => ⟨.error e, w, d⟩
    | ⟨.ok _, w, d⟩ => w.writeDirect bs d
  else w.writeDirect bs d

/-- Dropping a writer flushes it and ignores the result. -/
def drop (w : BufWriter) : Bytes := (w.flushBuf none).writer.file

@[simp] theorem flushBuf_none (w : BufWriter) :
    w.flushBuf none = ⟨.ok (), ⟨w.file ++ w.buf, []⟩, none⟩ := rfl

@[simp] theorem drop_eq (w : BufWriter) : w.drop = w.file ++ w.buf := rfl

/-- A device that accepts the whole buffer empties it. -/
theorem flushBuf_of_le (w : BufWriter) {n : Nat} (e : String) (h : w.buf.length ≤ n) :
    w.flushBuf (some (n, e)) =
      ⟨.ok (), ⟨w.file ++ w.buf, []⟩, some (n - w.buf.length, e)⟩ := by
  simp only [flushBuf, Device.writeAll, if_pos h]

/-- A device that fails inside the buffer leaves the rest of it behind. -/
theorem flushBuf_of_lt (w : BufWriter) {n : Nat} (e : String) (h : n < w.buf.length) :
    w.flushBuf (some (n, e)) =
      ⟨.error e, ⟨w.file ++ w.buf.take n, w.buf.drop n⟩, some (0, e)⟩ := by
  simp only [flushBuf, Device.writeAll, if_neg (Nat.not_le.mpr h), List.length_take,
    Nat.min_eq_left h.le]

/-- Flushing an empty buffer touches nothing. -/
@[simp] theorem flushBuf_new (f : Bytes) (d : Device) :
    flushBuf ⟨f, []⟩ d = ⟨.ok (), ⟨f, []⟩, d⟩ := by
  cases d with
  | none => simp
  | some p => simp [flushBuf, Device.writeAll]

theorem writeAll_new_of_lt (f : Bytes) {bs : Bytes} (d : Device) (h : bs.length < capacity) :
    writeAll ⟨f, []⟩ bs d = ⟨.ok (), ⟨f, bs⟩, d⟩ := by
  simp only [writeAll, List.length_nil, Nat.sub_zero, if_pos h, List.nil_append]

/-- A write as large as the buffer reaches the file directly. -/
theorem writeAll_new_of_le (f : Bytes) {bs : Bytes} (d : Device) (h : capacity ≤ bs.length) :
    writeAll ⟨f, []⟩ bs d = writeDirect ⟨f, []⟩ bs d := by
  have hlt : ¬ bs.length < capacity - 0 := by omega
  simp only [writeAll, List.length_nil, if_neg hlt, flushBuf_new]
  split_ifs <;> rfl

/-- One more byte always fits behind a buffered line that is short of the capacity. -/
theorem writeAll_byte (f : Bytes) {buf : Bytes} (b : UInt8) (d : Device)
    (h : buf.length < capacity) : writeAll ⟨f, buf⟩ [b] d = ⟨.ok (), ⟨f, buf ++ [b]⟩, d⟩ := by
  have hcap : ¬ capacity ≤ [b].length := by simp [capacity]
  simp only [writeAll, List.length_singleton]
  split_ifs with h₁ h₂
  · rfl
  · omega
  · simp only [writeDirect, if_neg hcap]

/-- A file without a fault takes every write. -/
theorem writeAll_none (w : BufWriter) (bs : Bytes) :
    (w.writeAll bs none).result = .ok () ∧ (w.writeAll bs none).device = none := by
  have hdirect (w : BufWriter) :
      (w.writeDirect bs none).result = .ok () ∧ (w.writeDirect bs none).device = none := by
    rw [writeDirect]
    split_ifs
    · exact ⟨rfl, rfl⟩
    · exact ⟨rfl, rfl⟩
  rw [writeAll]
  split_ifs
  · exact ⟨rfl, rfl⟩
  · exact hdirect _
  · exact hdirect w

section Specification

variable {w w' : BufWriter} {bs : Bytes} {d d' : Device} {result : Except String Unit}

/-- A flush only adds to the file, and one that succeeds adds the buffer. -/
theorem flushBuf_spec (h : w.flushBuf d = ⟨result, w', d'⟩) :
    w.file <+: w'.file ∧ (result = .ok () → w' = ⟨w.file ++ w.buf, []⟩) := by
  cases d with
  | none =>
    cases h
    exact ⟨List.prefix_append _ _, fun _ => rfl⟩
  | some limit =>
    obtain ⟨n, e⟩ := limit
    rcases Nat.lt_or_ge n w.buf.length with hlt | hle
    · rw [flushBuf_of_lt w e hlt] at h
      cases h
      exact ⟨List.prefix_append _ _, nofun⟩
    · rw [flushBuf_of_le w e hle] at h
      cases h
      exact ⟨List.prefix_append _ _, fun _ => rfl⟩

theorem writeDirect_spec (hroom : capacity ≤ bs.length → w.buf = [])
    (h : w.writeDirect bs d = ⟨result, w', d'⟩) :
    w.file <+: w'.file ∧ (result = .ok () → w'.file ++ w'.buf = w.file ++ w.buf ++ bs) := by
  rw [writeDirect] at h
  split_ifs at h with hcap
  · obtain ⟨file, buf⟩ := w
    obtain rfl : buf = [] := hroom hcap
    rcases hsent : d.writeAll bs with ⟨sent, _ | e, rest⟩ <;> rw [hsent] at h <;> cases h
    · obtain rfl := Device.sent_eq hsent
      exact ⟨List.prefix_append _ _, fun _ => by simp⟩
    · exact ⟨List.prefix_append _ _, nofun⟩
  · cases h
    exact ⟨List.prefix_rfl, fun _ => (List.append_assoc _ _ _).symm⟩

/-- A write only adds to the file, and one that succeeds adds its bytes behind the buffer. -/
theorem writeAll_spec (h : w.writeAll bs d = ⟨result, w', d'⟩) :
    w.file <+: w'.file ∧ (result = .ok () → w'.file ++ w'.buf = w.file ++ w.buf ++ bs) := by
  rw [writeAll] at h
  split_ifs at h with hroom hfull
  · cases h
    exact ⟨List.prefix_rfl, fun _ => (List.append_assoc _ _ _).symm⟩
  · rcases hflush : w.flushBuf d with ⟨_ | ⟨⟩, flushed, rest⟩ <;> rw [hflush] at h
    · cases h
      exact ⟨(flushBuf_spec hflush).1, nofun⟩
    · obtain ⟨hextends, hsent⟩ := flushBuf_spec hflush
      obtain rfl := hsent rfl
      obtain ⟨hdirect, hok⟩ := writeDirect_spec (fun _ => rfl) h
      exact ⟨hextends.trans hdirect, by simpa using hok⟩
  · refine writeDirect_spec (fun hcap => List.eq_nil_of_length_eq_zero ?_) h
    have hpos : 0 < capacity := by decide
    omega

end Specification

end BufWriter
