import Kaleidoscope.Wal.World

/-!
# What an opened store keeps

A property of states that every log record keeps holds of what a store replays, whatever the bytes
of its files are. What a line brings that was added to a terminated log is never lost again: it is
in memory, and in the log or the snapshot, whatever happens to the store.
-/

namespace Kaleidoscope

open Utf8

variable {ρ σ κ ε ω : Type} {p q : σ → Prop}

theorem replayParts_keeps {c : LineSerde ρ} {apply : σ → ρ → Except ε σ}
    (happly : ∀ s record s', p s → apply s record = .ok s' → p s')
    (onParseError : Nat → String → ε) (last : Nat) (terminated : Bool) (parts : List Text)
    (index : Nat) {s s' : σ} (hs : p s)
    (h : replayParts c apply onParseError last terminated index parts s = .ok s') : p s' := by
  induction parts generalizing index s with
  | nil =>
    cases h
    exact hs
  | cons line rest ih =>
    rw [replayParts] at h
    by_cases hnil : line = []
    · rw [if_pos hnil] at h
      exact ih _ hs h
    · rw [if_neg hnil] at h
      split at h
      · split at h
        · exact ih _ (happly _ _ _ hs ‹_›) h
        · cases h
      · split_ifs at h
        cases h
        exact hs

theorem replayLines_keeps {c : LineSerde ρ} {apply : σ → ρ → Except ε σ}
    (happly : ∀ s record s', p s → apply s record = .ok s' → p s')
    (persistenceFailed : String → ε) (onParseError : Nat → Text → String → ε)
    (lines : List (Option Text)) (index : Nat) {s s' : σ} (hs : p s)
    (h : replayLines c apply persistenceFailed onParseError index lines s = .ok s') : p s' := by
  induction lines generalizing index s with
  | nil =>
    cases h
    exact hs
  | cons line rest ih =>
    cases line with
    | none => cases h
    | some line =>
      rw [replayLines] at h
      by_cases hnil : line = []
      · rw [if_pos hnil] at h
        exact ih _ hs h
      · rw [if_neg hnil] at h
        split at h
        · split at h
          · exact ih _ (happly _ _ _ hs ‹_›) h
          · cases h
        · cases h

/-- A replay that succeeds has read every line that another follows. -/
theorem replayParts_through {c : LineSerde ρ} {apply : σ → ρ → Except ε σ}
    (husual : ∀ s record s', q s → apply s record = .ok s' → q s')
    (happly : ∀ s record s', p s → apply s record = .ok s' → p s') {line : Text} (hne : line ≠ [])
    (hline : ∀ s record s', q s → c.fromStr line = .ok record → apply s record = .ok s' → p s')
    (onParseError : Nat → String → ε) {last : Nat} (terminated : Bool) (before : List Text)
    {rest : List Text} (hrest : rest ≠ []) {index : Nat}
    (hlast : last = index + before.length + rest.length) {s s' : σ} (hs : q s)
    (h : replayParts c apply onParseError last terminated index (before ++ line :: rest) s =
      .ok s') : p s' := by
  have hpos := List.length_pos_of_ne_nil hrest
  induction before generalizing index s with
  | nil =>
    have hinner : ¬ (index = last ∧ ¬ terminated = true) := fun hend => by
      rw [List.length_nil] at hlast
      omega
    rw [List.nil_append, replayParts, if_neg hne] at h
    split at h
    · next record hrecord =>
      split at h
      · next s₁ hs₁ => exact replayParts_keeps happly _ _ _ _ _ (hline s record s₁ hs hrecord hs₁) h
      · cases h
    · rw [if_neg hinner] at h
      cases h
  | cons part before ih =>
    rw [List.length_cons] at hlast
    have hinner : ¬ (index = last ∧ ¬ terminated = true) := fun hend => by omega
    have hnext : last = index + 1 + before.length + rest.length := by omega
    rw [List.cons_append, replayParts] at h
    by_cases hnil : part = []
    · rw [if_pos hnil] at h
      exact ih hnext hs h
    · rw [if_neg hnil] at h
      split at h
      · split at h
        · next hs' => exact ih hnext (husual _ _ _ hs hs') h
        · cases h
      · rw [if_neg hinner] at h
        cases h

namespace Pillar

variable (P : Pillar σ ρ κ ε ω)

theorem replay_keeps (happly : ∀ s record s', p s → P.apply s record = .ok s' → p s')
    {walBytes : Bytes} {s s' : σ} (hs : p s) (h : P.replay walBytes s = .ok s') : p s' := by
  rw [replay] at h
  split at h
  · rw [replayWalToleratingTornTail] at h
    split_ifs at h with hnil
    · cases h
      exact hs
    · exact replayParts_keeps happly _ _ _ _ _ hs h
  · exact replayLines_keeps happly _ _ _ _ hs h

/-- So a replay that succeeds has read a line that was added to a terminated log. -/
theorem replay_through (htail : P.replayLoop.Tolerant)
    (husual : ∀ s record s', q s → P.apply s record = .ok s' → q s')
    (happly : ∀ s record s', p s → P.apply s record = .ok s' → p s') {line : Text}
    (hne : line ≠ []) (hnewline : '\n' ∉ line)
    (hline : ∀ s record s', q s → P.walSerde.fromStr line = .ok record →
      P.apply s record = .ok s' → p s')
    {log walBytes : Bytes} (hlog : Terminated log) (hstarts : log ++ wireLine line <+: walBytes)
    {s s' : σ} (hs : q s) (h : P.replay walBytes s = .ok s') : p s' := by
  obtain ⟨rest, rfl⟩ := hstarts
  have h10 : (10 : UInt8) ∉ asBytes line := newline_notMem_asBytes hnewline
  have hparts : ∃ before : List Text, (fromUtf8Lossy (log ++ wireLine line ++ rest)).splitOn '\n' =
      before ++ line :: (rest.splitOn 10).map fromUtf8Lossy := by
    have hown : (wireLine line ++ rest).splitOn 10 = asBytes line :: rest.splitOn 10 := by
      rw [wireLine, List.append_assoc, List.singleton_append, List.splitOn_append_cons_self,
        List.splitOn_eq_singleton h10, List.singleton_append]
    rw [splitOn_fromUtf8Lossy, List.append_assoc]
    rcases hlog with rfl | hends
    · exact ⟨[], by simp [hown]⟩
    · obtain ⟨lines, rfl⟩ := List.getLast?_eq_some_iff.mp hends
      refine ⟨(lines.splitOn 10).map fromUtf8Lossy, ?_⟩
      rw [List.append_assoc, List.singleton_append, List.splitOn_append_cons_self, hown]
      simp
  obtain ⟨before, hparts⟩ := hparts
  have hnil : log ++ wireLine line ++ rest ≠ [] := by simp [wireLine]
  rw [replay] at h
  split at h
  · rw [replayWalToleratingTornTail, if_neg hnil] at h
    simp only [hparts] at h
    refine replayParts_through husual happly hne hline _ _ before (by simp [List.splitOn_ne_nil]) ?_
      hs h
    simp only [List.length_append, List.length_cons]
    omega
  · next hloop =>
    rw [hloop] at htail
    exact absurd htail id

/-- An opened store has settled a state with every property that the empty state and the snapshots
have and the log records keep. -/
theorem open_keeps (hempty : p P.empty) (hrestore : ∀ snap s, P.restore snap = .ok s → p s)
    (happly : ∀ s record s', p s → P.apply s record = .ok s' → p s') {f : Files} {store : Store σ}
    (h : P.openWithFsyncBackend f = .ok store) : ∃ s, p s ∧ store.state = P.settle s := by
  have hstate := P.state_of_open h
  cases hload : P.loadSnapshot f with
  | error e => simp [hload, Except.bind, Except.map] at hstate
  | ok loaded =>
    have hloaded : p loaded := by
      rw [loadSnapshot] at hload
      split at hload
      · cases hload
        exact hempty
      · split at hload
        · cases hload
        · exact hrestore _ _ hload
    rw [hload] at hstate
    cases hreplay : P.replay (f.wal.getD []) loaded with
    | error e => simp [hreplay, Except.bind, Except.map] at hstate
    | ok s =>
      simp only [Except.bind, hreplay, Except.map, Except.ok.injEq] at hstate
      exact ⟨s, P.replay_keeps happly hloaded hreplay, hstate.symm⟩

variable {P}

theorem runSteps_files (steps : List (LogStep σ ρ)) (faults : List Fault) (s : Store σ) :
    (P.runSteps steps faults s).store.snapshot = s.snapshot ∧
      s.wal.file <+: (P.runSteps steps faults s).store.wal.file := by
  induction steps generalizing faults s with
  | nil => exact ⟨rfl, List.prefix_rfl⟩
  | cons step rest ih =>
    have hextends := (appendWal_spec P.walSerde P.persistenceFailed s.wal step.record
      (faults.headD .none)).1
    rw [runSteps]
    rcases happend : appendWal P.walSerde P.persistenceFailed s.wal step.record
      (faults.headD .none) with ⟨e | _, wal⟩ <;> rw [happend] at hextends
    · exact ⟨rfl, hextends⟩
    · obtain ⟨hsnapshot, hrest⟩ := ih faults.tail ⟨step.commit s.state, s.snapshot, s.tmp, wal⟩
      exact ⟨hsnapshot, hextends.trans hrest⟩

theorem crashIn_files (steps : List (LogStep σ ρ)) (done n : ℕ) (s : Store σ) :
    (P.crashIn steps done n s).1.snapshot = s.snapshot ∧
      s.wal.file <+: (P.crashIn steps done n s).1.wal.getD [] := by
  induction steps generalizing done s with
  | nil => exact ⟨rfl, List.prefix_rfl⟩
  | cons step rest ih =>
    cases done with
    | zero =>
      rw [crashIn]
      split
      · exact ⟨rfl, List.prefix_rfl⟩
      · exact ⟨rfl, List.prefix_append _ _⟩
    | succ done =>
      have hextends := (appendWal_spec P.walSerde P.persistenceFailed s.wal step.record .none).1
      rw [crashIn]
      rcases happend : appendWal P.walSerde P.persistenceFailed s.wal step.record .none with
        ⟨e | _, wal⟩ <;> rw [happend] at hextends
      · exact ⟨rfl, hextends⟩
      · obtain ⟨hsnapshot, hrest⟩ := ih done { s with wal := wal }
        exact ⟨hsnapshot, hextends.trans hrest⟩

end Pillar

/-- An effect that leaves the snapshot alone and only adds to the log. -/
def DiskOp.Writes : DiskOp → Prop
  | .flushWal _ | .createTmp | .writeTmp _ => True
  | _ => False

theorem foldl_exec_writes {ops : List DiskOp} (h : ∀ op ∈ ops, op.Writes) (f : Files) :
    (ops.foldl Files.exec f).snapshot = f.snapshot ∧
      f.wal.getD [] <+: (ops.foldl Files.exec f).wal.getD [] := by
  induction ops generalizing f with
  | nil => exact ⟨rfl, List.prefix_rfl⟩
  | cons op ops ih =>
    obtain ⟨hop, hops⟩ := List.forall_mem_cons.mp h
    obtain ⟨hsnapshot, hwal⟩ := ih hops (f.exec op)
    rw [List.foldl_cons]
    cases op with
    | flushWal b => exact ⟨hsnapshot, (List.prefix_append _ [b]).trans hwal⟩
    | createTmp => exact ⟨hsnapshot, hwal⟩
    | writeTmp b => exact ⟨hsnapshot, hwal⟩
    | renameTmp => exact absurd hop id
    | truncateWal => exact absurd hop id

namespace Pillar

variable {P : Pillar σ ρ κ ε ω}

/-- Wherever `snapshot` stops, the snapshot is the old one and the log has at most grown, or the
snapshot is the new one. -/
theorem snapshotCrash_files (order : ω) (s : Store σ) (k : ℕ) :
    ((P.snapshotCrash order s k).snapshot = s.snapshot ∧
      s.wal.file <+: (P.snapshotCrash order s k).wal.getD []) ∨
    ∃ bytes, P.snapSerde.toWriter (P.capture order s.state) = .ok bytes ∧
      (P.snapshotCrash order s k).snapshot = some bytes := by
  cases h : P.snapSerde.toWriter (P.capture order s.state) with
  | error e =>
    refine .inl (foldl_exec_writes (fun op hop => ?_) s.files)
    simp only [snapshotPlan, h] at hop
    rcases List.mem_append.mp (List.mem_of_mem_take hop) with hflush | htmp
    · obtain ⟨b, -, rfl⟩ := List.mem_map.mp hflush
      trivial
    · rw [List.mem_singleton.mp htmp]
      trivial
  | ok bytes =>
    let writes := s.wal.buf.map DiskOp.flushWal ++ .createTmp :: bytes.map .writeTmp
    have hplan : P.snapshotPlan order s = writes ++ [.renameTmp, .truncateWal] := by
      simp [snapshotPlan, h, snapshotOps, atomicWriteSnapshot, writes]
    have hwrites : ∀ op ∈ writes, op.Writes := by
      intro op hop
      simp only [writes, List.mem_append, List.mem_cons, List.mem_map] at hop
      rcases hop with ⟨b, -, rfl⟩ | rfl | ⟨b, -, rfl⟩ <;> trivial
    have htmp : (writes.foldl Files.exec s.files).tmp = some bytes := by
      simp only [writes, List.foldl_append, List.foldl_cons]
      rw [foldl_exec_writeTmp _ _ rfl]
      rfl
    rw [snapshotCrash, hplan]
    rcases Nat.lt_or_ge writes.length k with hlt | hle
    · right
      obtain ⟨j, rfl⟩ : ∃ j, k = writes.length + (j + 1) := ⟨k - writes.length - 1, by omega⟩
      rw [List.take_length_add_append, List.foldl_append, List.take_succ_cons, List.foldl_cons]
      refine ⟨bytes, rfl, ?_⟩
      cases j with
      | zero => exact htmp
      | succ j =>
        rw [List.take_of_length_le (by simp)]
        exact htmp
    · rw [List.take_append_of_le_length hle]
      exact .inl (foldl_exec_writes (fun op hop => hwrites op (List.mem_of_mem_take hop)) s.files)

variable {C : Type} (P) (plan : C → σ → Plan σ ρ) (line : Text) (Usual : σ → Prop)
  (Has : ℕ → σ → Prop)

/-- What a line of the log brings to a state and everything later keeps. The number counts how
often it was read from files on its way to the state; `Usual` holds of every state that is replayed
or restored. -/
structure Lasting : Prop where
  empty : Usual P.empty
  usual : ∀ snap s, P.restore snap = .ok s → Usual s
  kept : ∀ s record s', Usual s → P.apply s record = .ok s' → Usual s'
  replayed : ∀ s record s', Usual s → P.walSerde.fromStr line = .ok record →
    P.apply s record = .ok s' → Has 1 s'
  applied : ∀ n s record s', Has n s → P.apply s record = .ok s' → Has n s'
  settled : ∀ n s, Has n s → Has n (P.settle s)
  prepared : ∀ n c s, Has n s → Has n (plan c s).prepared
  committed : ∀ n c s, ∀ step ∈ (plan c s).steps, ∀ s', Has n s' → Has n (step.commit s')
  restored : ∀ n s order bytes snap s', Has n s →
    P.snapSerde.toWriter (P.capture order s) = .ok bytes →
    P.snapSerde.fromReader bytes = .ok snap → P.restore snap = .ok s' → Has (n + 1) s'

/-- Files have it: behind a terminated part of the log, or in a snapshot that was taken of a state
it had reached through at most so many files. -/
def Stored (k : ℕ) (snapshot : Option Bytes) (walBytes : Bytes) : Prop :=
  (∃ log, Terminated log ∧ log ++ wireLine line <+: walBytes) ∨
  ∃ bytes, snapshot = some bytes ∧ ∃ n ≤ k, ∀ snap s,
    P.snapSerde.fromReader bytes = .ok snap → P.restore snap = .ok s → Has (n + 1) s

/-- The store has it in memory and in its files; a closed store has it in its files. -/
def Retains (k : ℕ) : Node σ → Prop
  | .up s => (∃ n ≤ k, (0 < k → 0 < n) ∧ Has n s.state) ∧
      P.Stored line Has k s.snapshot s.wal.file
  | .down f => P.Stored line Has k f.snapshot (f.wal.getD [])

/-- One event, with the number of times that a closed store was opened. -/
def recount (v : World σ ρ × ℕ) (e : Event C ω) : World σ ρ × ℕ :=
  (P.step plan v.1 e,
    match v.1.node, e with
    | .down f, .openStore => if (P.openWithFsyncBackend f).isOk then v.2 + 1 else v.2
    | _, _ => v.2)

variable {P plan line Usual Has} {k : ℕ}

theorem Stored.mono {k' : ℕ} {snapshot : Option Bytes} {walBytes walBytes' : Bytes}
    (h : P.Stored line Has k snapshot walBytes) (hk : k ≤ k') (hwal : walBytes <+: walBytes') :
    P.Stored line Has k' snapshot walBytes' := by
  rcases h with ⟨log, hlog, hstarts⟩ | ⟨bytes, hsnapshot, n, hn, hread⟩
  · exact .inl ⟨log, hlog, hstarts.trans hwal⟩
  · exact .inr ⟨bytes, hsnapshot, n, hn.trans hk, hread⟩

/-- A store that opens from such files has it in memory. -/
theorem Lasting.opened (h : P.Lasting plan line Usual Has) (htail : P.replayLoop.Tolerant)
    (hne : line ≠ []) (hnewline : '\n' ∉ line) {f : Files}
    (hstored : P.Stored line Has k f.snapshot (f.wal.getD [])) {s : Store σ}
    (hopen : P.openWithFsyncBackend f = .ok s) : ∃ n ≤ k + 1, 0 < n ∧ Has n s.state := by
  have hstate := P.state_of_open hopen
  cases hload : P.loadSnapshot f with
  | error e => simp [hload, Except.bind, Except.map] at hstate
  | ok loaded =>
    have husual : Usual loaded := by
      rw [loadSnapshot] at hload
      split at hload
      · cases hload
        exact h.empty
      · split at hload
        · cases hload
        · exact h.usual _ _ hload
    rw [hload] at hstate
    cases hreplay : P.replay (f.wal.getD []) loaded with
    | error e => simp [hreplay, Except.bind, Except.map] at hstate
    | ok replayed =>
      simp only [Except.bind, hreplay, Except.map, Except.ok.injEq] at hstate
      rw [← hstate]
      rcases hstored with ⟨log, hlog, hstarts⟩ | ⟨bytes, hsnapshot, n, hn, hread⟩
      · exact ⟨1, by omega, one_pos, h.settled 1 _ (P.replay_through htail h.kept (h.applied 1)
          hne hnewline h.replayed hlog hstarts husual hreplay)⟩
      · refine ⟨n + 1, by omega, n.succ_pos, h.settled _ _ (P.replay_keeps (h.applied _) ?_
          hreplay)⟩
        rw [loadSnapshot, hsnapshot] at hload
        dsimp only at hload
        split at hload
        · cases hload
        · next snap hsnap => exact hread snap loaded hsnap hload

/-- Files that a crash inside `snapshot` leaves still have it. -/
theorem Lasting.snapshotCrash (h : P.Lasting plan line Usual Has) {s : Store σ} {n : ℕ} (order : ω)
    (j : ℕ) (hn : n ≤ k) (hhas : Has n s.state)
    (hstored : P.Stored line Has k s.snapshot s.wal.file) :
    P.Stored line Has k (P.snapshotCrash order s j).snapshot
      ((P.snapshotCrash order s j).wal.getD []) := by
  rcases P.snapshotCrash_files order s j with ⟨hsnapshot, hwal⟩ | ⟨bytes, hbytes, hsnapshot⟩
  · rw [hsnapshot]
    exact hstored.mono le_rfl hwal
  · exact .inr ⟨bytes, hsnapshot, n, hn, fun snap s' =>
      h.restored n s.state order bytes snap s' hhas hbytes⟩

/-- Nothing that happens to the store, faults and crashes included, loses it. -/
theorem Lasting.step (h : P.Lasting plan line Usual Has) (htail : P.replayLoop.Tolerant)
    (hne : line ≠ []) (hnewline : '\n' ∉ line) {v : World σ ρ × ℕ}
    (hv : P.Retains line Has v.2 v.1.node) (e : Event C ω) :
    P.Retains line Has (P.recount plan v e).2 (P.recount plan v e).1.node := by
  obtain ⟨⟨node, ledger⟩, k⟩ := v
  cases node with
  | down f =>
    cases e with
    | openStore =>
      simp only [recount, Pillar.step]
      cases hopen : P.openWithFsyncBackend f with
      | error e => exact hv
      | ok s =>
        obtain ⟨n, hn, hpos, hhas⟩ := h.opened htail hne hnewline hv hopen
        have hfiles : s.snapshot = f.snapshot ∧ s.wal.file = f.wal.getD [] := by
          rw [openWithFsyncBackend_eq] at hopen
          cases hload : (P.loadSnapshot f).bind (P.replay (f.wal.getD [])) with
          | error e => rw [hload] at hopen; cases hopen
          | ok s' => rw [hload] at hopen; cases hopen; exact ⟨rfl, rfl⟩
        refine ⟨⟨n, hn, fun _ => hpos, hhas⟩, ?_⟩
        rw [hfiles.1, hfiles.2]
        exact hv.mono (Nat.le_succ k) List.prefix_rfl
    | _ => exact hv
  | up s =>
    obtain ⟨⟨n, hn, hpos, hhas⟩, hstored⟩ := hv
    cases e with
    | openStore => exact ⟨⟨n, hn, hpos, hhas⟩, hstored⟩
    | close => exact hstored.mono le_rfl (List.prefix_append _ _)
    | call c faults =>
      obtain ⟨hsnapshot, hwal⟩ := P.runSteps_files (plan c s.state).steps faults
        { s with state := (plan c s.state).prepared }
      refine ⟨⟨n, hn, hpos, P.runSteps_state (h.prepared n c _ hhas) (h.committed n c s.state)⟩, ?_⟩
      exact hsnapshot ▸ hstored.mono le_rfl hwal
    | crash c done j =>
      obtain ⟨hsnapshot, hwal⟩ := P.crashIn_files (plan c s.state).steps done j s
      change P.Stored line Has k (P.crashIn (plan c s.state).steps done j s).1.snapshot _
      rw [hsnapshot]
      exact hstored.mono le_rfl hwal
    | crashInSnapshot order j => exact h.snapshotCrash order j hn hhas hstored
    | snapshot order =>
      have hfiles := h.snapshotCrash order (P.snapshotPlan order s).length hn hhas hstored
      rw [Pillar.snapshotCrash, List.take_length] at hfiles
      have hstore : (P.snapshot order s).2.snapshot =
          ((P.snapshotPlan order s).foldl Files.exec s.files).snapshot ∧
          (P.snapshot order s).2.wal.file =
            ((P.snapshotPlan order s).foldl Files.exec s.files).wal.getD [] := by
        rw [Pillar.snapshot]
        cases P.snapSerde.toWriter (P.capture order s.state) <;> exact ⟨rfl, rfl⟩
      refine ⟨⟨n, hn, hpos, ?_⟩, ?_⟩
      · rw [P.state_snapshot]
        exact hhas
      · change P.Stored line Has k (P.snapshot order s).2.snapshot (P.snapshot order s).2.wal.file
        rw [hstore.1, hstore.2]
        exact hfiles

/-- So it is after every run. -/
theorem Lasting.run (h : P.Lasting plan line Usual Has) (htail : P.replayLoop.Tolerant)
    (hne : line ≠ []) (hnewline : '\n' ∉ line) {v : World σ ρ × ℕ}
    (hv : P.Retains line Has v.2 v.1.node) (events : List (Event C ω)) :
    P.Retains line Has (Run.run (P.recount plan) v events).2
      (Run.run (P.recount plan) v events).1.node :=
  Run.invariant (fun v : World σ ρ × ℕ => P.Retains line Has v.2 v.1.node)
    (fun _ e hv => h.step htail hne hnewline hv e) hv events

/-- As long as no closed store was opened, it is as it was. -/
theorem Lasting.unopened (h : P.Lasting plan line Usual Has) {v : World σ ρ × ℕ}
    (hv : v.2 = 0 → ∀ s, v.1.node = .up s → Has 0 s.state) (events : List (Event C ω)) :
    (Run.run (P.recount plan) v events).2 = 0 →
      ∀ s, (Run.run (P.recount plan) v events).1.node = .up s → Has 0 s.state := by
  refine Run.invariant (fun v : World σ ρ × ℕ => v.2 = 0 → ∀ s, v.1.node = .up s → Has 0 s.state)
    (fun v e hv hzero s hup => ?_) hv events
  obtain ⟨⟨node, ledger⟩, k⟩ := v
  cases node with
  | down f =>
    cases e with
    | openStore =>
      simp only [recount, Pillar.step] at hzero hup
      cases hopen : P.openWithFsyncBackend f with
      | error e => rw [hopen] at hup; cases hup
      | ok s' => rw [hopen] at hzero; cases hzero
    | _ => cases hup
  | up s' =>
    have hs' : Has 0 s'.state := hv hzero s' rfl
    cases e with
    | openStore =>
      cases hup
      exact hs'
    | call c faults =>
      cases hup
      exact P.runSteps_state (h.prepared 0 c _ hs') (h.committed 0 c s'.state)
    | snapshot order =>
      cases hup
      rw [P.state_snapshot]
      exact hs'
    | _ => cases hup

end Pillar

end Kaleidoscope
