import Kaleidoscope.Wal.Append

/-!
# Replaying the write-ahead log

Two replay loops read the log back. `replay_wal_tolerating_torn_tail` decodes the
whole file lossily and forgives one undecodable final line without its newline; the
queue and the profile store read strict UTF-8 lines and forgive nothing. Both are
specified on what an append, complete or interrupted, can leave in the file.
-/

namespace Kaleidoscope

open Utf8

variable {ρ σ ε : Type}

/-- The loop of `replay_wal_tolerating_torn_tail` over the numbered parts of the log. -/
def replayParts (c : LineSerde ρ) (apply : σ → ρ → Except ε σ) (onParseError : Nat → String → ε)
    (lastIndex : Nat) (endsWithNewline : Bool) : Nat → List Text → σ → Except ε σ
  | _, [], s => .ok s
  | index, line :: rest, s =>
    if line = [] then replayParts c apply onParseError lastIndex endsWithNewline (index + 1) rest s
    else
      match c.fromStr line with
      | .ok record =>
        match apply s record with
        | .ok s => replayParts c apply onParseError lastIndex endsWithNewline (index + 1) rest s
        | .error e => .error e
      | .error error =>
        if index = lastIndex ∧ ¬ endsWithNewline then .ok s
        else .error (onParseError (index + 1) error)

/-- `replay_wal_tolerating_torn_tail`: the state the closures accumulate is passed along. -/
def replayWalToleratingTornTail (c : LineSerde ρ) (apply : σ → ρ → Except ε σ)
    (onParseError : Nat → String → ε) (walBytes : Bytes) (s : σ) : Except ε σ :=
  if walBytes = [] then .ok s
  else
    let endsWithNewline := decide (walBytes.getLast? = some 10)
    let parts := (fromUtf8Lossy walBytes).splitOn '\n'
    replayParts c apply onParseError (parts.length - 1) endsWithNewline 0 parts s

/-- `BufRead::lines` drops a carriage return before the newline. -/
def stripCarriageReturn (t : Text) : Text :=
  if t.getLast? = some '\r' then t.dropLast else t

/-- The lines of the pieces between newlines: every piece but the last was terminated,
and the last one is a line unless it is empty. `none` is a line that is not UTF-8. -/
def linesOfPieces : List Bytes → List (Option Text)
  | [] => []
  | [last] => if last = [] then [] else [fromUtf8 last]
  | line :: rest => (fromUtf8 line).map stripCarriageReturn :: linesOfPieces rest

/-- `BufReader::lines` over the bytes of a file. -/
def bufReaderLines (bs : Bytes) : List (Option Text) := linesOfPieces (bs.splitOn 10)

/-- The replay loop of the stores that read the log line by line. -/
def replayLines (c : LineSerde ρ) (apply : σ → ρ → Except ε σ) (persistenceFailed : String → ε)
    (onParseError : Nat → Text → String → ε) : Nat → List (Option Text) → σ → Except ε σ
  | _, [], s => .ok s
  | _, none :: _, _ => .error (io persistenceFailed "stream did not contain valid UTF-8")
  | index, some line :: rest, s =>
    if line = [] then replayLines c apply persistenceFailed onParseError (index + 1) rest s
    else
      match c.fromStr line with
      | .ok record =>
        match apply s record with
        | .ok s => replayLines c apply persistenceFailed onParseError (index + 1) rest s
        | .error e => .error e
      | .error error => .error (onParseError (index + 1) line error)

/-- The replay of a store that reads its log with `BufReader::lines`. -/
def replayWalStrictly (c : LineSerde ρ) (apply : σ → ρ → Except ε σ)
    (persistenceFailed : String → ε) (onParseError : Nat → Text → String → ε) (walBytes : Bytes)
    (s : σ) : Except ε σ :=
  replayLines c apply persistenceFailed onParseError 0 (bufReaderLines walBytes) s

/-- A record the stores can rely on, with its text. -/
def LineSerde.Writes (c : LineSerde ρ) (r : ρ) (t : Text) : Prop :=
  c.Faithful r ∧ c.toString r = .ok t

theorem LineSerde.Writes.ne_nil {c : LineSerde ρ} {r : ρ} {t : Text} (h : c.Writes r t) :
    t ≠ [] := (h.1.oneLine t h.2).1

theorem LineSerde.Writes.newline_notMem {c : LineSerde ρ} {r : ρ} {t : Text}
    (h : c.Writes r t) : '\n' ∉ t := (h.1.oneLine t h.2).2.1

theorem LineSerde.Writes.fromStr {c : LineSerde ρ} {r : ρ} {t : Text} (h : c.Writes r t) :
    c.fromStr t = .ok r := h.1.decodes t h.2

/-- A log of complete lines. -/
def Encodes (c : LineSerde ρ) (rs : List ρ) (b : Bytes) : Prop :=
  ∃ ts : List Text, List.Forall₂ c.Writes rs ts ∧ b = ts.flatMap wireLine

theorem Encodes.nil (c : LineSerde ρ) : Encodes c [] [] := ⟨[], .nil, rfl⟩

theorem Encodes.snoc {c : LineSerde ρ} {rs : List ρ} {b : Bytes} (h : Encodes c rs b) {r : ρ}
    {t : Text} (hw : c.Writes r t) : Encodes c (rs ++ [r]) (b ++ wireLine t) := by
  obtain ⟨ts, hts, rfl⟩ := h
  exact ⟨ts ++ [t], List.rel_append hts (.cons hw .nil), by simp⟩

/-- An empty log of complete lines is the log of no record. -/
theorem Encodes.eq_nil_iff {c : LineSerde ρ} {rs : List ρ} {b : Bytes} (h : Encodes c rs b) :
    b = [] ↔ rs = [] := by
  obtain ⟨ts, hts, rfl⟩ := h
  cases hts with
  | nil => simp
  | cons hw _ => simp [wireLine]

/-- What interrupted and complete appends can leave in the log file, with the records
that count as logged; `tolerant` says whether a torn tail is among it. -/
inductive Logged (c : LineSerde ρ) (tolerant : Prop) : Bytes → List ρ → Prop where
  /-- Every line is complete. -/
  | terminated {rs b} (h : Encodes c rs b) : Logged c tolerant b rs
  /-- The last append was cut inside the text of its record. -/
  | torn {rs b r t q} (ht : tolerant) (h : Encodes c rs b) (hw : c.Writes r t)
      (hq : q <+: asBytes t) (hne : q ≠ asBytes t) (hnil : q ≠ []) :
      Logged c tolerant (b ++ q) rs
  /-- The last append was cut between the text and the newline. -/
  | unterminated {rs b r t} (h : Encodes c rs b) (hw : c.Writes r t) :
      Logged c tolerant (b ++ asBytes t) (rs ++ [r])

/-- The log file is empty or ends in a newline. -/
def Terminated (b : Bytes) : Prop := b = [] ∨ b.getLast? = some 10

instance (b : Bytes) : Decidable (Terminated b) := by unfold Terminated; infer_instance

theorem Encodes.terminated {c : LineSerde ρ} {rs : List ρ} {b : Bytes} (h : Encodes c rs b) :
    Terminated b := by
  obtain ⟨ts, -, rfl⟩ := h
  cases List.eq_nil_or_concat ts with
  | inl h => subst h; exact Or.inl rfl
  | inr h =>
    obtain ⟨ts, t, rfl⟩ := h
    exact Or.inr (by simp [wireLine])

private theorem not_terminated_append {b q : Bytes} (hq : q ≠ []) (h10 : (10 : UInt8) ∉ q) :
    ¬ Terminated (b ++ q) := by
  rintro (h | h)
  · exact hq (List.append_eq_nil_iff.mp h).2
  · rw [List.getLast?_append_of_ne_nil _ hq] at h
    exact h10 (List.mem_of_getLast? h)

/-- A log whose last append was interrupted does not end in a newline. -/
theorem Logged.encodes {c : LineSerde ρ} {tolerant : Prop} {b : Bytes} {rs : List ρ}
    (h : Logged c tolerant b rs) (ht : Terminated b) : Encodes c rs b := by
  cases h with
  | terminated h => exact h
  | torn _ h hw hq hne hnil =>
    have h10 := fun hm => newline_notMem_asBytes hw.newline_notMem (hq.subset hm)
    exact absurd ht (not_terminated_append hnil h10)
  | unterminated h hw =>
    have hne : asBytes _ ≠ [] := fun he => hw.ne_nil (asBytes_eq_nil_iff.mp he)
    exact absurd ht (not_terminated_append hne (newline_notMem_asBytes hw.newline_notMem))

/-- An append cut after `n` bytes logs its record when its whole text was written. -/
theorem Encodes.cut {c : LineSerde ρ} {tolerant : Prop} {rs : List ρ} {b : Bytes}
    (h : Encodes c rs b) {r : ρ} {t : Text} (hw : c.Writes r t) {n : Nat}
    (hcut : tolerant ∨ n = 0 ∨ (asBytes t).length ≤ n) :
    Logged c tolerant (b ++ (wireLine t).take n)
      (if (asBytes t).length ≤ n then rs ++ [r] else rs) := by
  split_ifs with hn
  · rcases hn.eq_or_lt with rfl | hlt
    · simpa [wireLine] using Logged.unterminated h hw
    · rw [List.take_of_length_le (by simpa using hlt)]
      exact .terminated (h.snoc hw)
  · have htake : (wireLine t).take n = (asBytes t).take n :=
      List.take_append_of_le_length (by omega)
    rw [htake]
    by_cases hnil : (asBytes t).take n = []
    · rw [hnil, List.append_nil]
      exact .terminated h
    · have htol := hcut.resolve_right (by rintro (rfl | h) <;> simp_all)
      refine .torn htol h hw (List.take_prefix _ _) (fun he => hn ?_) hnil
      have := congrArg List.length he
      simp only [List.length_take] at this
      omega

theorem newline_notMem_of_writes {c : LineSerde ρ} {rs : List ρ} {ts : List Text}
    (h : List.Forall₂ c.Writes rs ts) : ∀ t ∈ ts, '\n' ∉ t := by
  induction h with
  | nil => simp
  | cons hw _ ih => exact List.forall_mem_cons.mpr ⟨hw.newline_notMem, ih⟩

theorem splitOn_flatMap_wireLine {ts : List Text} (h : ∀ t ∈ ts, '\n' ∉ t) (tail : Bytes) :
    (ts.flatMap wireLine ++ tail).splitOn 10 = ts.map asBytes ++ tail.splitOn 10 := by
  induction ts with
  | nil => rfl
  | cons t ts ih =>
    have h10 := newline_notMem_asBytes (h t List.mem_cons_self)
    rw [List.flatMap_cons, wireLine, List.append_assoc, List.append_assoc, List.singleton_append,
      List.splitOn_append_cons_self, List.splitOn_eq_singleton h10,
      ih fun t ht => h t (List.mem_cons_of_mem _ ht)]
    rfl

/-- The parts the tolerant replay loops over. -/
theorem parts_flatMap_wireLine {ts : List Text} (h : ∀ t ∈ ts, '\n' ∉ t) {tail : Bytes}
    (ht : (10 : UInt8) ∉ tail) :
    (fromUtf8Lossy (ts.flatMap wireLine ++ tail)).splitOn '\n' = ts ++ [fromUtf8Lossy tail] := by
  rw [splitOn_fromUtf8Lossy, splitOn_flatMap_wireLine h, List.splitOn_eq_singleton ht,
    List.map_append, List.map_map]
  simp [Function.comp_def]

/-- The records a log decodes to, line by line. -/
def LineSerde.records (c : LineSerde ρ) (b : Bytes) : List ρ :=
  (b.splitOn 10).filterMap fun line =>
    if line = [] then none
    else (fromUtf8 line).bind fun t => (c.fromStr t).toOption

/-- A log of complete lines decodes to its records. -/
theorem Encodes.records_eq {c : LineSerde ρ} {rs : List ρ} {b : Bytes} (h : Encodes c rs b) :
    c.records b = rs := by
  obtain ⟨ts, hts, rfl⟩ := h
  have hsplit := splitOn_flatMap_wireLine (newline_notMem_of_writes hts) []
  rw [List.append_nil] at hsplit
  rw [LineSerde.records, hsplit]
  induction hts with
  | nil => rfl
  | @cons r t rs ts hw _ ih =>
    have hne : asBytes t ≠ [] := fun he => hw.ne_nil (asBytes_eq_nil_iff.mp he)
    rw [List.map_cons, List.cons_append, List.filterMap_cons]
    simp only [if_neg hne, fromUtf8_asBytes, Option.bind_some, hw.fromStr]
    refine congrArg _ (ih ?_)
    rw [← splitOn_flatMap_wireLine (newline_notMem_of_writes ‹_›), List.append_nil]

/-- The loop consumes complete lines as it would fold their records. -/
theorem replayParts_append {c : LineSerde ρ} (apply : σ → ρ → Except ε σ)
    (onParseError : Nat → String → ε) (last : Nat) (ends : Bool) {rs : List ρ} {ts : List Text}
    (h : List.Forall₂ c.Writes rs ts) (rest : List Text) (index : Nat) (s : σ) :
    replayParts c apply onParseError last ends index (ts ++ rest) s =
      (rs.foldlM apply s).bind
        (replayParts c apply onParseError last ends (index + ts.length) rest) := by
  induction h generalizing index s with
  | nil => rfl
  | @cons r t rs ts hw _ ih =>
    simp only [List.cons_append, replayParts, if_neg hw.ne_nil, hw.fromStr, List.foldlM_cons,
      List.length_cons]
    cases apply s r with
    | error e => rfl
    | ok s' =>
      dsimp only
      rw [ih, Nat.add_assoc, Nat.add_comm 1]
      rfl

private theorem bind_ok {x : Except ε σ} : (x.bind fun s => .ok s) = x := by cases x <;> rfl

/-- Replay recovers exactly the logged records, past a single torn tail. -/
theorem replayWalToleratingTornTail_logged {c : LineSerde ρ} {tolerant : Prop}
    (apply : σ → ρ → Except ε σ) (onParseError : Nat → String → ε) {b : Bytes} {rs : List ρ}
    (h : Logged c tolerant b rs) (s : σ) :
    replayWalToleratingTornTail c apply onParseError b s = rs.foldlM apply s := by
  cases h with
  | terminated h =>
    obtain ⟨ts, hts, rfl⟩ := h
    by_cases hnil : ts.flatMap wireLine = []
    · have hr := (Encodes.eq_nil_iff ⟨ts, hts, rfl⟩).mp hnil
      simp only [replayWalToleratingTornTail, if_pos hnil, hr]
      rfl
    · have hp := parts_flatMap_wireLine (newline_notMem_of_writes hts) (List.not_mem_nil (a := 10))
      rw [List.append_nil] at hp
      simp only [replayWalToleratingTornTail, if_neg hnil, hp, replayParts_append _ _ _ _ hts]
      simp only [show fromUtf8Lossy [] = [] from rfl, replayParts, if_true]
      exact bind_ok
  | @torn rs b r t q _ h hw hq hne hnil =>
    obtain ⟨ts, hts, rfl⟩ := h
    have h10 : (10 : UInt8) ∉ q := fun hm =>
      newline_notMem_asBytes hw.newline_notMem (hq.subset hm)
    obtain ⟨e, he⟩ := hw.1.prefixFails t hw.2 q hq hne
    have hlast : ¬ (ts.flatMap wireLine ++ q).getLast? = some 10 := by
      rw [List.getLast?_append_of_ne_nil _ hnil]
      exact fun hl => h10 (List.mem_of_getLast? hl)
    simp only [replayWalToleratingTornTail, if_neg (List.append_ne_nil_of_right_ne_nil _ hnil),
      parts_flatMap_wireLine (newline_notMem_of_writes hts) h10, replayParts_append _ _ _ _ hts]
    simp only [replayParts, (fromUtf8Lossy_eq_nil_iff q).not.mpr hnil, if_false, he,
      List.length_append, List.length_singleton, Nat.add_sub_cancel, Nat.zero_add, hlast,
      decide_false, Bool.false_eq_true, not_false_eq_true, and_self, if_true]
    exact bind_ok
  | @unterminated rs b r t h hw =>
    obtain ⟨ts, hts, rfl⟩ := h
    have hne : asBytes t ≠ [] := fun he => hw.ne_nil (asBytes_eq_nil_iff.mp he)
    simp only [replayWalToleratingTornTail, if_neg (List.append_ne_nil_of_right_ne_nil _ hne),
      parts_flatMap_wireLine (newline_notMem_of_writes hts)
        (newline_notMem_asBytes hw.newline_notMem),
      replayParts_append _ _ _ _ hts, List.foldlM_append]
    simp only [fromUtf8Lossy_asBytes, replayParts, if_neg hw.ne_nil, hw.fromStr]
    rcases rs.foldlM apply s with e | s'
    · rfl
    · change (match apply s' r with | .ok s => Except.ok s | .error e => .error e) =
        (apply s' r).bind fun s => .ok s
      rcases apply s' r with e | s'' <;> rfl

/-- A line that does not decode stops the loop, wherever it stands before the last part. -/
theorem replayParts_error (c : LineSerde ρ) (apply : σ → ρ → Except ε σ)
    (onParseError : Nat → String → ε) (last : Nat) {ts : List Text}
    (h : ∃ t ∈ ts, t ≠ [] ∧ ∃ e, c.fromStr t = .error e) (rest : List Text) (index : Nat) (s : σ) :
    ∃ e, replayParts c apply onParseError last true index (ts ++ rest) s = .error e := by
  induction ts generalizing index s with
  | nil =>
    obtain ⟨t, ht, -⟩ := h
    exact absurd ht List.not_mem_nil
  | cons t ts ih =>
    have hrest (hok : ¬ (t ≠ [] ∧ ∃ e, c.fromStr t = .error e)) :
        ∃ t ∈ ts, t ≠ [] ∧ ∃ e, c.fromStr t = .error e := by
      obtain ⟨t', ht', hbad⟩ := h
      rcases List.mem_cons.mp ht' with rfl | ht'
      · exact absurd hbad hok
      · exact ⟨t', ht', hbad⟩
    rw [List.cons_append, replayParts]
    by_cases hnil : t = []
    · rw [if_pos hnil]
      exact ih (hrest fun hbad => hbad.1 hnil) _ _
    · rw [if_neg hnil]
      cases hf : c.fromStr t with
      | error e => exact ⟨onParseError (index + 1) e, if_neg (by simp)⟩
      | ok r =>
        have hts := hrest fun hbad => by simp [hf] at hbad
        dsimp only
        cases apply s r with
        | error e => exact ⟨e, rfl⟩
        | ok s' => exact ih hts _ _

/-- A terminated line that does not decode makes the replay fail. -/
theorem replayWalToleratingTornTail_error (c : LineSerde ρ) (apply : σ → ρ → Except ε σ)
    (onParseError : Nat → String → ε) {ts : List Text} (hlines : ∀ t ∈ ts, '\n' ∉ t)
    (h : ∃ t ∈ ts, t ≠ [] ∧ ∃ e, c.fromStr t = .error e) (s : σ) :
    ∃ e, replayWalToleratingTornTail c apply onParseError (ts.flatMap wireLine) s = .error e := by
  have hparts := parts_flatMap_wireLine hlines (List.not_mem_nil (a := 10))
  rw [List.append_nil] at hparts
  have hne : ts ≠ [] := fun he => by simp [he] at h
  have hlast : (ts.flatMap wireLine).getLast? = some 10 := by
    obtain ⟨ts', t, rfl⟩ := (List.eq_nil_or_concat ts).resolve_left hne
    simp [wireLine]
  have hnil : ts.flatMap wireLine ≠ [] := fun he => by simp [he] at hlast
  simp only [replayWalToleratingTornTail, if_neg hnil, hparts, hlast, decide_true]
  exact replayParts_error c apply onParseError _ h _ _ s

/-- A piece with another after it was terminated by a newline. -/
theorem linesOfPieces_cons (line : Bytes) {rest : List Bytes} (h : rest ≠ []) :
    linesOfPieces (line :: rest) =
      (fromUtf8 line).map stripCarriageReturn :: linesOfPieces rest := by
  cases rest with
  | nil => exact absurd rfl h
  | cons p ps => rfl

private theorem linesOfPieces_append {c : LineSerde ρ} {rs : List ρ} {ts : List Text}
    (h : List.Forall₂ c.Writes rs ts) (tail : Bytes) :
    linesOfPieces (ts.map asBytes ++ [tail]) = ts.map some ++ linesOfPieces [tail] := by
  induction h with
  | nil => rfl
  | @cons r t rs ts hw _ ih =>
    have hcr : stripCarriageReturn t = t := by
      rw [stripCarriageReturn, if_neg]
      exact fun hl => (hw.1.oneLine t hw.2).2.2 (List.mem_of_getLast? hl)
    rw [List.map_cons, List.cons_append, linesOfPieces_cons _ (by simp), ih, fromUtf8_asBytes,
      Option.map_some, hcr]
    rfl

/-- The lines of a log whose bytes after the last newline are `tail`. -/
theorem bufReaderLines_flatMap_wireLine {c : LineSerde ρ} {rs : List ρ} {ts : List Text}
    (h : List.Forall₂ c.Writes rs ts) {tail : Bytes} (ht : (10 : UInt8) ∉ tail) :
    bufReaderLines (ts.flatMap wireLine ++ tail) =
      ts.map some ++ if tail = [] then [] else [fromUtf8 tail] := by
  rw [bufReaderLines, splitOn_flatMap_wireLine (newline_notMem_of_writes h),
    List.splitOn_eq_singleton ht, linesOfPieces_append h]
  rfl

theorem replayLines_append {c : LineSerde ρ} (apply : σ → ρ → Except ε σ)
    (persistenceFailed : String → ε) (onParseError : Nat → Text → String → ε) {rs : List ρ}
    {ts : List Text} (h : List.Forall₂ c.Writes rs ts) (rest : List (Option Text)) (index : Nat)
    (s : σ) :
    replayLines c apply persistenceFailed onParseError index (ts.map some ++ rest) s =
      (rs.foldlM apply s).bind
        (replayLines c apply persistenceFailed onParseError (index + ts.length) rest) := by
  induction h generalizing index s with
  | nil => rfl
  | @cons r t rs ts hw _ ih =>
    simp only [List.map_cons, List.cons_append, replayLines, if_neg hw.ne_nil, hw.fromStr,
      List.foldlM_cons, List.length_cons]
    cases apply s r with
    | error e => rfl
    | ok s' =>
      dsimp only
      rw [ih, Nat.add_assoc, Nat.add_comm 1]
      rfl

/-- Read line by line, a log without a torn tail is recovered exactly. -/
theorem replayWalStrictly_logged {c : LineSerde ρ} (apply : σ → ρ → Except ε σ)
    (persistenceFailed : String → ε) (onParseError : Nat → Text → String → ε) {b : Bytes}
    {rs : List ρ} (h : Logged c False b rs) (s : σ) :
    replayWalStrictly c apply persistenceFailed onParseError b s = rs.foldlM apply s := by
  cases h with
  | terminated h =>
    obtain ⟨ts, hts, rfl⟩ := h
    have hl := bufReaderLines_flatMap_wireLine hts (List.not_mem_nil (a := 10))
    rw [List.append_nil] at hl
    rw [replayWalStrictly, hl, replayLines_append _ _ _ hts, if_pos rfl]
    exact bind_ok
  | torn ht => exact absurd ht id
  | @unterminated rs b r t h hw =>
    obtain ⟨ts, hts, rfl⟩ := h
    have hne : asBytes t ≠ [] := fun he => hw.ne_nil (asBytes_eq_nil_iff.mp he)
    rw [replayWalStrictly,
      bufReaderLines_flatMap_wireLine hts (newline_notMem_asBytes hw.newline_notMem),
      replayLines_append _ _ _ hts, if_neg hne, fromUtf8_asBytes, List.foldlM_append]
    rcases rs.foldlM apply s with e | s'
    · rfl
    · change replayLines c apply persistenceFailed onParseError _ [some t] s' =
        (apply s' r).bind fun s => .ok s
      simp only [replayLines, if_neg hw.ne_nil, hw.fromStr]
      rcases apply s' r with e | s'' <;> rfl

end Kaleidoscope
