import Kaleidoscope.Wal.Recovery

/-!
# The file-backed pillars

The file-backed stores share one skeleton: `open` loads the snapshot and replays the
log over it, an operation appends one record and then changes memory, and `snapshot`
writes the state to a temporary file, renames it onto the snapshot and truncates the
log. A pillar is that skeleton with a store's own types and closures filled in.
-/

namespace Kaleidoscope

open Utf8

/-- The files under the base path of a store. -/
structure Files where
  /-- `{base}.snapshot`. -/
  snapshot : Option Bytes
  /-- `{base}.snapshot.tmp`, which no store ever reads. -/
  tmp : Option Bytes
  /-- `{base}.wal`. -/
  wal : Option Bytes
  deriving DecidableEq, Repr

/-- A base path under which nothing was ever written. -/
def Files.none : Files := ⟨Option.none, Option.none, Option.none⟩

/-- The effects of `snapshot` on the files, in the order in which it performs them. -/
inductive DiskOp where
  /-- One byte of the buffered writer reaches the log. -/
  | flushWal (b : UInt8)
  /-- The temporary file is created or truncated. -/
  | createTmp
  /-- One byte of the snapshot reaches the temporary file. -/
  | writeTmp (b : UInt8)
  /-- The temporary file is renamed onto the snapshot. -/
  | renameTmp
  /-- The log is truncated. -/
  | truncateWal
  deriving DecidableEq, Repr

/-- One effect on the files. -/
def Files.exec (f : Files) : DiskOp → Files
  | .flushWal b => { f with wal := some (f.wal.getD [] ++ [b]) }
  | .createTmp => { f with tmp := some [] }
  | .writeTmp b => { f with tmp := some (f.tmp.getD [] ++ [b]) }
  | .renameTmp => { f with snapshot := f.tmp, tmp := Option.none }
  | .truncateWal => { f with wal := some [] }

/-- `atomic_write_snapshot`: the temporary file, complete, before the rename. -/
def atomicWriteSnapshot (bytes : Bytes) : List DiskOp :=
  .createTmp :: bytes.map .writeTmp ++ [.renameTmp]

/-- Everything `snapshot` does to the files once the snapshot is serialised: flush the
log, write the snapshot atomically, truncate the log. -/
def snapshotOps (buf bytes : Bytes) : List DiskOp :=
  buf.map .flushWal ++ atomicWriteSnapshot bytes ++ [.truncateWal]

/-- An open store: what is in memory, the snapshot files and the writer of the log. -/
structure Store (σ : Type) where
  state : σ
  snapshot : Option Bytes
  tmp : Option Bytes
  wal : BufWriter

namespace Store

variable {σ : Type}

/-- The files as they are on disk: what is still in the buffer is not among them. -/
def files (s : Store σ) : Files := ⟨s.snapshot, s.tmp, some s.wal.file⟩

/-- Dropping the store drops the writer, which flushes its buffer. -/
def drop (s : Store σ) : Files := ⟨s.snapshot, s.tmp, some s.wal.drop⟩

end Store

/-- The replay loop a store uses, with the text of its parse error. -/
inductive ReplayLoop (ε : Type) where
  /-- `replay_wal_tolerating_torn_tail`; the error has the line number and the cause. -/
  | tornTail (onParseError : Nat → String → ε)
  /-- `BufReader::lines`; the error also has the line. -/
  | lines (onParseError : Nat → Text → String → ε)

/-- Whether a replay loop forgives a torn tail. -/
def ReplayLoop.Tolerant {ε : Type} : ReplayLoop ε → Prop
  | .tornTail _ => True
  | .lines _ => False

/-- The skeleton of a file-backed store over its state `σ`, log record `ρ`, snapshot
`κ`, error `ε` and the order `ω` in which a snapshot visits its hash maps. -/
structure Pillar (σ ρ κ ε ω : Type) where
  /-- The JSON of a log record. -/
  walSerde : LineSerde ρ
  /-- The JSON of a snapshot. -/
  snapSerde : FileSerde κ
  /-- The `PersistenceFailed` variant of the store's error. -/
  persistenceFailed : String → ε
  /-- The state of a store without files. -/
  empty : σ
  /-- The state a decoded snapshot stands for. -/
  restore : κ → Except ε σ
  /-- The effect of one log record during replay. -/
  apply : σ → ρ → Except ε σ
  /-- The replay loop. -/
  replayLoop : ReplayLoop ε
  /-- What `open` does to the state after the replay. -/
  settle : σ → σ
  /-- The snapshot of a state. -/
  capture : ω → σ → κ

namespace Pillar

variable {σ ρ κ ε ω : Type} (P : Pillar σ ρ κ ε ω)

/-- Replay of the bytes of the log over a state. -/
def replay (walBytes : Bytes) (s : σ) : Except ε σ :=
  match P.replayLoop with
  | .tornTail onParseError =>
    replayWalToleratingTornTail P.walSerde P.apply onParseError walBytes s
  | .lines onParseError =>
    replayWalStrictly P.walSerde P.apply P.persistenceFailed onParseError walBytes s

/-- The state `open` starts the replay from. -/
def loadSnapshot (f : Files) : Except ε σ :=
  match f.snapshot with
  | none => .ok P.empty
  | some bytes =>
    match P.snapSerde.fromReader bytes with
    | .error e => .error (parse P.persistenceFailed e)
    | .ok snap => P.restore snap

/-- `open_with_fsync_backend`: load the snapshot if present, replay the log if present,
then open the log for appending. -/
def openWithFsyncBackend (f : Files) : Except ε (Store σ) :=
  match P.loadSnapshot f with
  | .error e => .error e
  | .ok s =>
    let replayed : Except ε σ :=
      match f.wal with
      | none => .ok s
      | some walBytes => P.replay walBytes s
    match replayed with
    | .error e => .error e
    | .ok s => .ok ⟨P.settle s, f.snapshot, f.tmp, BufWriter.new (f.wal.getD [])⟩

/-- What `snapshot` does to the files of a store. A snapshot that does not serialise
leaves a temporary file behind and nothing else. -/
def snapshotPlan (order : ω) (s : Store σ) : List DiskOp :=
  match P.snapSerde.toWriter (P.capture order s.state) with
  | .ok bytes => snapshotOps s.wal.buf bytes
  | .error _ => s.wal.buf.map .flushWal ++ [.createTmp]

/-- `snapshot`. -/
def snapshot (order : ω) (s : Store σ) : Except ε Unit × Store σ :=
  let f := (P.snapshotPlan order s).foldl Files.exec s.files
  let store := ⟨s.state, f.snapshot, f.tmp, BufWriter.new (f.wal.getD [])⟩
  match P.snapSerde.toWriter (P.capture order s.state) with
  | .ok _ => (.ok (), store)
  | .error e => (.error (io P.persistenceFailed e), store)

/-- The files a crash leaves that interrupts `snapshot` after `k` of its effects. -/
def snapshotCrash (order : ω) (s : Store σ) (k : Nat) : Files :=
  ((P.snapshotPlan order s).take k).foldl Files.exec s.files

end Pillar

theorem foldl_exec_flushWal (f : Files) (buf : Bytes) (h : f.wal.isSome) :
    (buf.map DiskOp.flushWal).foldl Files.exec f =
      { f with wal := some (f.wal.getD [] ++ buf) } := by
  obtain ⟨w, hw⟩ := Option.isSome_iff_exists.mp h
  induction buf generalizing f w with
  | nil => cases f; subst hw; simp
  | cons b buf ih =>
    rw [List.map_cons, List.foldl_cons, ih _ (by simp [Files.exec]) (w ++ [b])]
    · simp [Files.exec]
    · simp [Files.exec, hw]

theorem foldl_exec_writeTmp (f : Files) (bytes : Bytes) (h : f.tmp.isSome) :
    (bytes.map DiskOp.writeTmp).foldl Files.exec f =
      { f with tmp := some (f.tmp.getD [] ++ bytes) } := by
  obtain ⟨t, ht⟩ := Option.isSome_iff_exists.mp h
  induction bytes generalizing f t with
  | nil => cases f; subst ht; simp
  | cons b bytes ih =>
    rw [List.map_cons, List.foldl_cons, ih _ (by simp [Files.exec]) (t ++ [b])]
    · simp [Files.exec]
    · simp [Files.exec, ht]

/-- The effects on the temporary file alone. -/
private def writingTmp (bytes : Bytes) : List DiskOp := .createTmp :: bytes.map .writeTmp

private theorem foldl_exec_writingTmp (f : Files) (bytes : Bytes) :
    (writingTmp bytes).foldl Files.exec f = { f with tmp := some bytes } := by
  rw [writingTmp, List.foldl_cons, foldl_exec_writeTmp _ _ rfl]
  simp [Files.exec]

private theorem snapshotOps_nil (bytes : Bytes) :
    snapshotOps [] bytes = writingTmp bytes ++ [.renameTmp, .truncateWal] := by
  simp [snapshotOps, atomicWriteSnapshot, writingTmp]

/-- How far a crash inside `snapshot` got, for a store with nothing in its buffer. -/
inductive SnapshotStage where
  /-- Before the rename. -/
  | unrenamed
  /-- Between the rename and the truncation of the log. -/
  | renamed
  /-- After the truncation. -/
  | truncated
  deriving DecidableEq, Repr

/-- The stage reached after `k` effects when the snapshot has `len` bytes. -/
def SnapshotStage.ofStep (len k : Nat) : SnapshotStage :=
  if k ≤ len + 1 then .unrenamed else if k ≤ len + 2 then .renamed else .truncated

/-- The snapshot and the log at a stage. -/
def SnapshotStage.leaves (snapshot : Option Bytes) (wal bytes : Bytes) :
    SnapshotStage → Option Bytes × Bytes
  | .unrenamed => (snapshot, wal)
  | .renamed => (some bytes, wal)
  | .truncated => (some bytes, [])

/-- Up to the temporary file, the pair of files a crash inside `snapshot` leaves is
determined by its stage. -/
theorem foldl_exec_take_snapshotOps (f : Files) (wal bytes : Bytes) (hw : f.wal = some wal)
    (k : Nat) :
    let g := ((snapshotOps [] bytes).take k).foldl Files.exec f
    (g.snapshot, g.wal) =
      (((SnapshotStage.ofStep bytes.length k).leaves f.snapshot wal bytes).1,
        some ((SnapshotStage.ofStep bytes.length k).leaves f.snapshot wal bytes).2) := by
  have hlen : (writingTmp bytes).length = bytes.length + 1 := by simp [writingTmp]
  dsimp only
  rw [snapshotOps_nil, SnapshotStage.ofStep]
  split_ifs with h₁ h₂
  · rw [List.take_append_of_le_length (by omega)]
    -- only the temporary file has been touched
    cases k with
    | zero => simp [SnapshotStage.leaves, hw]
    | succ k =>
      rw [writingTmp, List.take_succ_cons, List.foldl_cons, ← List.map_take,
        foldl_exec_writeTmp _ _ rfl]
      simp [Files.exec, SnapshotStage.leaves, hw]
  · obtain rfl : k = (writingTmp bytes).length + 1 := by omega
    rw [List.take_length_add_append, List.foldl_append, foldl_exec_writingTmp]
    simp [Files.exec, SnapshotStage.leaves, hw]
  · rw [List.take_of_length_le (by simp; omega), List.foldl_append, foldl_exec_writingTmp]
    simp [Files.exec, SnapshotStage.leaves]

namespace Pillar

variable {σ ρ κ ε ω : Type} (P : Pillar σ ρ κ ε ω)

/-- An empty log replays to nothing. -/
@[simp] theorem replay_nil (s : σ) : P.replay [] s = .ok s := by
  unfold replay
  cases P.replayLoop <;> rfl

/-- `open` reads the snapshot and the log and nothing else; a missing log is an empty one. -/
theorem openWithFsyncBackend_eq (f : Files) :
    P.openWithFsyncBackend f =
      ((P.loadSnapshot f).bind (P.replay (f.wal.getD []))).map fun s =>
        ⟨P.settle s, f.snapshot, f.tmp, BufWriter.new (f.wal.getD [])⟩ := by
  rw [openWithFsyncBackend]
  rcases P.loadSnapshot f with e | s
  · rfl
  · simp only [Except.bind]
    cases f.wal with
    | none => rw [Option.getD_none, replay_nil]; rfl
    | some wal =>
      simp only [Option.getD_some]
      rcases P.replay wal s with e | s <;> rfl

/-- The state of an opened store is what its snapshot and its log replay to. -/
theorem state_of_open {f : Files} {s : Store σ} (h : P.openWithFsyncBackend f = .ok s) :
    ((P.loadSnapshot f).bind (P.replay (f.wal.getD []))).map P.settle = .ok s.state := by
  rw [openWithFsyncBackend_eq] at h
  cases hr : (P.loadSnapshot f).bind (P.replay (f.wal.getD [])) with
  | error e => rw [hr] at h; cases h
  | ok s' => rw [hr] at h; cases h; rfl

/-- Replay of a log applies its records in order. -/
theorem replay_eq_foldlM {b : Bytes} {rs : List ρ}
    (hlog : Logged P.walSerde P.replayLoop.Tolerant b rs) (s : σ) :
    P.replay b s = rs.foldlM P.apply s := by
  unfold replay
  cases hl : P.replayLoop with
  | tornTail onParseError => exact replayWalToleratingTornTail_logged _ _ hlog s
  | lines onParseError =>
    rw [hl] at hlog
    exact replayWalStrictly_logged _ _ _ hlog s

/-- A store opened from a log alone is what its records make of the empty state. -/
theorem state_of_encodes {f : Files} {rs : List ρ} {s : Store σ} (hsnap : f.snapshot = none)
    (hlog : Encodes P.walSerde rs (f.wal.getD [])) (h : P.openWithFsyncBackend f = .ok s) :
    (rs.foldlM P.apply P.empty).map P.settle = .ok s.state := by
  have hstate := P.state_of_open h
  rw [loadSnapshot, hsnap] at hstate
  rw [← P.replay_eq_foldlM (.terminated hlog)]
  exact hstate

/-- A snapshot does not change memory. -/
theorem state_snapshot (order : ω) (s : Store σ) : (P.snapshot order s).2.state = s.state := by
  rw [snapshot]
  cases P.snapSerde.toWriter (P.capture order s.state) <;> rfl

/-- A successful snapshot replaces the snapshot file and empties the log. -/
theorem snapshot_of_ok {order : ω} {s : Store σ} {bytes : Bytes}
    (h : P.snapSerde.toWriter (P.capture order s.state) = .ok bytes) :
    P.snapshot order s = (.ok (), ⟨s.state, some bytes, none, BufWriter.new []⟩) := by
  have hops : snapshotOps s.wal.buf bytes =
      s.wal.buf.map DiskOp.flushWal ++ writingTmp bytes ++ [.renameTmp, .truncateWal] := by
    simp [snapshotOps, atomicWriteSnapshot, writingTmp]
  simp only [snapshot, snapshotPlan, h, hops, List.foldl_append,
    foldl_exec_flushWal _ _ (show s.files.wal.isSome from rfl), foldl_exec_writingTmp]
  rfl

/-- The files a crash inside `snapshot` leaves behind. -/
theorem snapshotCrash_of_ok {order : ω} {s : Store σ} {bytes : Bytes} (hb : s.wal.buf = [])
    (h : P.snapSerde.toWriter (P.capture order s.state) = .ok bytes) (k : Nat) :
    let left := (SnapshotStage.ofStep bytes.length k).leaves s.snapshot s.wal.file bytes
    (P.snapshotCrash order s k).snapshot = left.1 ∧
      (P.snapshotCrash order s k).wal = some left.2 := by
  have hk := foldl_exec_take_snapshotOps s.files s.wal.file bytes rfl k
  simp only [Prod.mk.injEq] at hk
  simp only [snapshotCrash, snapshotPlan, h, hb]
  exact hk

/-- A snapshot that does not serialise leaves the snapshot, the log and memory alone. -/
theorem snapshot_of_error {order : ω} {s : Store σ} {e : String} (hb : s.wal.buf = [])
    (h : P.snapSerde.toWriter (P.capture order s.state) = .error e) :
    P.snapshot order s =
      (.error (io P.persistenceFailed e), ⟨s.state, s.snapshot, some [], s.wal⟩) := by
  have hwal : BufWriter.new s.wal.file = s.wal := by rw [BufWriter.new, ← hb]
  simp only [snapshot, snapshotPlan, h, hb, List.map_nil, List.nil_append, List.foldl_cons,
    List.foldl_nil, Files.exec, Store.files, Option.getD_some, hwal]

/-- Neither does a crash inside it. -/
theorem snapshotCrash_of_error {order : ω} {s : Store σ} {e : String} (hb : s.wal.buf = [])
    (h : P.snapSerde.toWriter (P.capture order s.state) = .error e) (k : Nat) :
    (P.snapshotCrash order s k).snapshot = s.snapshot ∧
      (P.snapshotCrash order s k).wal = some s.wal.file := by
  simp only [snapshotCrash, snapshotPlan, h, hb, List.map_nil, List.nil_append]
  cases k <;> simp [Files.exec, Store.files]

/-- The stage a crash inside `snapshot` reaches. -/
def snapshotStage (order : ω) (s : Store σ) (k : Nat) : SnapshotStage :=
  match P.snapSerde.toWriter (P.capture order s.state) with
  | .ok bytes => .ofStep bytes.length k
  | .error _ => .unrenamed

/-- A crash inside `snapshot` leaves the old snapshot and the log, the new snapshot and
the log, or the new snapshot and no log. -/
theorem snapshotCrash_cases (order : ω) {s : Store σ} (hb : s.wal.buf = []) (k : Nat) :
    (P.snapshotStage order s k = .unrenamed ∧
      (P.snapshotCrash order s k).snapshot = s.snapshot ∧
      (P.snapshotCrash order s k).wal = some s.wal.file) ∨
    ∃ bytes, P.snapSerde.toWriter (P.capture order s.state) = .ok bytes ∧
      (P.snapshotCrash order s k).snapshot = some bytes ∧
      ((P.snapshotStage order s k = .renamed ∧
          (P.snapshotCrash order s k).wal = some s.wal.file) ∨
        (P.snapshotStage order s k = .truncated ∧
          (P.snapshotCrash order s k).wal = some [])) := by
  unfold snapshotStage
  cases h : P.snapSerde.toWriter (P.capture order s.state) with
  | error e => exact Or.inl ⟨rfl, P.snapshotCrash_of_error hb h k⟩
  | ok bytes =>
    obtain ⟨hsnap, hwal⟩ := P.snapshotCrash_of_ok hb h k
    cases hs : SnapshotStage.ofStep bytes.length k <;>
      simp only [hs, SnapshotStage.leaves] at hsnap hwal
    · exact Or.inl ⟨hs, hsnap, hwal⟩
    · exact Or.inr ⟨bytes, rfl, hsnap, Or.inl ⟨hs, hwal⟩⟩
    · exact Or.inr ⟨bytes, rfl, hsnap, Or.inr ⟨hs, hwal⟩⟩

end Pillar

end Kaleidoscope
