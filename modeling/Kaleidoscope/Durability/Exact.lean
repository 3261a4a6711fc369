import Kaleidoscope.Wal.Table
import Kaleidoscope.Cinder.FileBacked

/-!
# Logs byte for byte

What the tolerant replay makes of an arbitrary file, against what the pieces of the file encode. The
closure that applies a record keeps its effect when the replay fails later.
-/

namespace Kaleidoscope.Exact

open Utf8

variable {ρ σ ε : Type}

/-- The loop of `replay_wal_tolerating_torn_tail` with the effects of its closure. -/
def replayPartsEffects (c : LineSerde ρ) (apply : ρ → σ → Except ε Unit × σ)
    (onParseError : Nat → String → ε) (lastIndex : Nat) (endsWithNewline : Bool) :
    Nat → List Text → σ → Except ε Unit × σ
  | _, [], s => (.ok (), s)
  | index, line :: rest, s =>
    if line = [] then
      replayPartsEffects c apply onParseError lastIndex endsWithNewline (index + 1) rest s
    else
      match c.fromStr line with
      | .ok record =>
        match apply record s with
        | (.ok (), s) =>
          replayPartsEffects c apply onParseError lastIndex endsWithNewline (index + 1) rest s
        | (.error e, s) => (.error e, s)
      | .error error =>
        if index = lastIndex ∧ ¬ endsWithNewline then (.ok (), s)
        else (.error (onParseError (index + 1) error), s)

/-- `replay_wal_tolerating_torn_tail` with the effects of its closure. -/
def replayEffects (c : LineSerde ρ) (apply : ρ → σ → Except ε Unit × σ)
    (onParseError : Nat → String → ε) (walBytes : Bytes) (s : σ) : Except ε Unit × σ :=
  if walBytes = [] then (.ok (), s)
  else
    let endsWithNewline := decide (walBytes.getLast? = some 10)
    let parts := (fromUtf8Lossy walBytes).splitOn '\n'
    replayPartsEffects c apply onParseError (parts.length - 1) endsWithNewline 0 parts s

/-- The state that effects leave unless they failed. -/
def stateUnlessFailed (outcome : Except ε Unit × σ) : Except ε σ :=
  outcome.1.map fun _ => outcome.2

/-- The replay that passes the state along is the one with effects, without the state that a failure
leaves. -/
theorem replayWalToleratingTornTail_eq_effects (c : LineSerde ρ) (apply : ρ → σ → Except ε Unit × σ)
    (onParseError : Nat → String → ε) (walBytes : Bytes) (s : σ) :
    replayWalToleratingTornTail c (fun s record => stateUnlessFailed (apply record s)) onParseError
      walBytes s = stateUnlessFailed (replayEffects c apply onParseError walBytes s) := by
  have hloop : ∀ (last : Nat) (ends : Bool) (parts : List Text) (index : Nat) (s : σ),
      replayParts c (fun s record => stateUnlessFailed (apply record s)) onParseError last ends
        index parts s =
      stateUnlessFailed (replayPartsEffects c apply onParseError last ends index parts s) := by
    intro last ends parts
    induction parts with
    | nil => intro index s; rfl
    | cons line rest ih =>
      intro index s
      rw [replayParts, replayPartsEffects]
      by_cases hline : line = []
      · rw [if_pos hline, if_pos hline]
        exact ih _ _
      · rw [if_neg hline, if_neg hline]
        cases c.fromStr line with
        | error e => dsimp only; split_ifs <;> rfl
        | ok record =>
          dsimp only
          rcases apply record s with ⟨_ | _, s'⟩
          · rfl
          · exact ih _ _
  rw [replayWalToleratingTornTail, replayEffects]
  split_ifs
  · rfl
  · exact hloop _ _ _ _ _

/-- A closure that lists the records it is given. -/
def pushRecord (r : ρ) (rs : List ρ) : Except (Nat × String) Unit × List ρ := (.ok (), rs ++ [r])

/-- Replay with the listing closure. -/
def replayed (c : LineSerde ρ) (walBytes : Bytes) : Except (Nat × String) Unit × List ρ :=
  replayEffects c pushRecord Prod.mk walBytes []

/-- A closure that never fails has the effect of the listed records, one after the other. -/
theorem replayEffects_eq_replayed (c : LineSerde ρ) (f : ρ → σ → σ)
    (onParseError : Nat → String → ε) (walBytes : Bytes) (s : σ) :
    replayEffects c (fun r s => (.ok (), f r s)) onParseError walBytes s =
      ((replayed c walBytes).1.mapError fun e => onParseError e.1 e.2,
        (replayed c walBytes).2.foldl (fun s r => f r s) s) := by
  have hloop : ∀ (last : Nat) (ends : Bool) (parts : List Text) (index : Nat) (rs : List ρ),
      replayPartsEffects c (fun r s => (.ok (), f r s)) onParseError last ends index parts
        (rs.foldl (fun s r => f r s) s) =
      ((replayPartsEffects c pushRecord Prod.mk last ends index parts rs).1.mapError
          fun e => onParseError e.1 e.2,
        (replayPartsEffects c pushRecord Prod.mk last ends index parts rs).2.foldl
          (fun s r => f r s) s) := by
    intro last ends parts
    induction parts with
    | nil => intro index rs; rfl
    | cons line rest ih =>
      intro index rs
      rw [replayPartsEffects, replayPartsEffects]
      by_cases hline : line = []
      · simp only [if_pos hline]
        exact ih _ _
      · simp only [if_neg hline]
        cases c.fromStr line with
        | error e => dsimp only; split_ifs <;> rfl
        | ok record =>
          have hstep := ih (index + 1) (rs ++ [record])
          rw [List.foldl_concat] at hstep
          exact hstep
  rw [replayed, replayEffects, replayEffects]
  split_ifs
  · rfl
  · exact hloop _ _ _ _ []

/-! ## What the pieces of a file say -/

variable (c : LineSerde ρ)

/-- A piece is, byte for byte, a text that decodes to a record. -/
def Encoding (piece : Bytes) (r : ρ) : Prop := ∃ t, piece = asBytes t ∧ c.fromStr t = .ok r

/-- The pieces, but for empty ones, encode records. -/
def Encodings (pieces : List Bytes) (rs : List ρ) : Prop :=
  List.Forall₂ (Encoding c) (pieces.filter (· ≠ [])) rs

/-- What the bytes after the last newline add: a record that they encode, or nothing. -/
inductive Tail (last : Bytes) : List ρ → Prop where
  | encoding {r} (h : last ≠ []) (hr : Encoding c last r) : Tail last [r]
  | dropped (h : last ≠ [] → ∀ r, ¬ Encoding c last r) : Tail last []

/-- A log of records: every terminated piece is one, and what follows is an encoding or no
encoding. -/
def Accepts (walBytes : Bytes) (rs : List ρ) : Prop :=
  ∃ complete last front tail, walBytes.splitOn 10 = complete ++ [last] ∧
    Encodings c complete front ∧ Tail c last tail ∧ rs = front ++ tail

/-- A log whose first terminated piece that encodes nothing is on the line `n`, after `rs`. -/
def Refuses (walBytes : Bytes) (n : Nat) (rs : List ρ) : Prop :=
  ∃ before bad after, walBytes.splitOn 10 = before ++ bad :: after ∧ after ≠ [] ∧
    Encodings c before rs ∧ bad ≠ [] ∧ (∀ r, ¬ Encoding c bad r) ∧ n = before.length + 1

/-- Replay accepts the logs of records, with their records, and refuses every other file at the
first bad line, with the records before it. -/
def ReplaysExactly (walBytes : Bytes) : Prop :=
  (∀ rs, replayed c walBytes = (.ok (), rs) ↔ Accepts c walBytes rs) ∧
    ((¬ ∃ rs, Accepts c walBytes rs) →
      ∃ n e rs, Refuses c walBytes n rs ∧ replayed c walBytes = (.error (n, e), rs))

/-- A piece that is not UTF-8 and decodes once its malformed sequences are replaced. -/
def Altered (piece : Bytes) : Prop :=
  (∀ t, piece ≠ asBytes t) ∧ ∃ r, c.fromStr (fromUtf8Lossy piece) = .ok r

/-- No altered piece comes after encodings and empty pieces only. -/
def NoneAltered (walBytes : Bytes) : Prop :=
  ∀ before piece after rs, walBytes.splitOn 10 = before ++ piece :: after →
    Encodings c before rs → ¬ Altered c piece

/-! ## The loop over the pieces -/

variable {c}

theorem Encoding.fromStr {piece : Bytes} {r : ρ} (h : Encoding c piece r) :
    c.fromStr (fromUtf8Lossy piece) = .ok r := by
  obtain ⟨t, rfl, ht⟩ := h
  rwa [fromUtf8Lossy_asBytes]

/-- What the loop decodes is an encoding or altered. -/
theorem encoding_or_altered_or_error (c : LineSerde ρ) (piece : Bytes) :
    (∃ r, Encoding c piece r) ∨ Altered c piece ∨
      ∃ e, c.fromStr (fromUtf8Lossy piece) = .error e := by
  cases hf : c.fromStr (fromUtf8Lossy piece) with
  | error e => exact .inr (.inr ⟨e, rfl⟩)
  | ok r =>
    by_cases ht : ∃ t, piece = asBytes t
    · obtain ⟨t, rfl⟩ := ht
      rw [fromUtf8Lossy_asBytes] at hf
      exact .inl ⟨r, t, rfl, hf⟩
    · exact .inr (.inl ⟨not_exists.mp ht, r, hf⟩)

section Loop

variable (last : Nat) (ends : Bool) (index : Nat) (rest : List Bytes) (rs : List ρ)

/-- The loop over the pieces that follow. -/
def loop (c : LineSerde ρ) : Except (Nat × String) Unit × List ρ :=
  replayPartsEffects c pushRecord Prod.mk last ends index (rest.map fromUtf8Lossy) rs

theorem loop_cons_ok {piece : Bytes} (hpiece : piece ≠ []) {r : ρ}
    (h : c.fromStr (fromUtf8Lossy piece) = .ok r) :
    loop last ends index (piece :: rest) rs c = loop last ends (index + 1) rest (rs ++ [r]) c := by
  rw [loop, List.map_cons, replayPartsEffects,
    if_neg ((fromUtf8Lossy_eq_nil_iff piece).not.mpr hpiece), h]
  rfl

theorem loop_cons_error {piece : Bytes} (hpiece : piece ≠ []) {e : String}
    (h : c.fromStr (fromUtf8Lossy piece) = .error e) :
    loop last ends index (piece :: rest) rs c =
      if index = last ∧ ¬ ends then (.ok (), rs) else (.error (index + 1, e), rs) := by
  rw [loop, List.map_cons, replayPartsEffects,
    if_neg ((fromUtf8Lossy_eq_nil_iff piece).not.mpr hpiece), h]

/-- Encodings and empty pieces are gone through with their records listed. -/
theorem loop_append {before : List Bytes} {front : List ρ} (h : Encodings c before front) :
    loop last ends index (before ++ rest) rs c =
      loop last ends (index + before.length) rest (rs ++ front) c := by
  induction before generalizing index rs front with
  | nil =>
    obtain rfl : front = [] := List.forall₂_nil_left_iff.mp h
    rw [List.append_nil]
    rfl
  | cons piece before ih =>
    rw [List.length_cons, ← Nat.add_assoc, Nat.add_right_comm]
    by_cases hpiece : piece = []
    · subst hpiece
      exact ih _ _ h
    · rw [Encodings, List.filter_cons_of_pos (by simpa using hpiece)] at h
      cases h with
      | cons hr h =>
        rw [List.cons_append, loop_cons_ok _ _ _ _ _ hpiece hr.fromStr, ih _ _ h, List.append_assoc]
        rfl

/-- The listed records stay listed. -/
theorem prefix_loop : rs <+: (loop last ends index rest rs c).2 := by
  induction rest generalizing index rs with
  | nil => exact List.prefix_rfl
  | cons piece rest ih =>
    by_cases hpiece : piece = []
    · subst hpiece
      exact ih _ _
    · cases hf : c.fromStr (fromUtf8Lossy piece) with
      | ok r =>
        rw [loop_cons_ok _ _ _ _ _ hpiece hf]
        exact (List.prefix_append rs [r]).trans (ih _ _)
      | error e =>
        rw [loop_cons_error _ _ _ _ _ hpiece hf]
        split_ifs <;> exact List.prefix_rfl

end Loop

/-- A file with something after its last newline does not end in one. -/
theorem getLast?_ne_newline {walBytes last : Bytes} {complete : List Bytes}
    (h : walBytes.splitOn 10 = complete ++ [last]) (hlast : last ≠ []) :
    walBytes.getLast? ≠ some 10 := by
  intro hends
  obtain ⟨b, rfl⟩ := List.getLast?_eq_some_iff.mp hends
  rw [List.splitOn_append_cons_self, List.splitOn_nil] at h
  exact hlast (List.singleton_inj.mp (List.append_inj_right' h rfl)).symm

/-- The replay is the loop over all pieces. -/
theorem replayed_eq_loop {walBytes : Bytes} {pieces : List Bytes}
    (h : walBytes.splitOn 10 = pieces) :
    replayed c walBytes =
      loop (pieces.length - 1) (decide (walBytes.getLast? = some 10)) 0 pieces [] c := by
  rw [replayed, replayEffects]
  split_ifs with hnil
  · subst hnil
    subst h
    rfl
  · simp only [splitOn_fromUtf8Lossy, h, List.length_map]
    rfl

/-! ## Which files are replayed exactly -/

/-- A file is accepted or refused. -/
theorem accepts_or_refuses (c : LineSerde ρ) (walBytes : Bytes) :
    (∃ rs, Accepts c walBytes rs) ∨ ∃ n rs, Refuses c walBytes n rs := by
  have hpieces : ∀ pieces : List Bytes, (∃ rs, Encodings c pieces rs) ∨
      ∃ before bad after rs, pieces = before ++ bad :: after ∧ Encodings c before rs ∧ bad ≠ [] ∧
        ∀ r, ¬ Encoding c bad r := by
    intro pieces
    induction pieces using List.reverseRecOn with
    | nil => exact .inl ⟨[], .nil⟩
    | append_singleton pieces piece ih =>
      rcases ih with ⟨rs, hrs⟩ | ⟨before, bad, after, rs, rfl, h⟩
      · by_cases hpiece : piece = []
        · subst hpiece
          exact .inl ⟨rs, by simpa [Encodings] using hrs⟩
        · by_cases hr : ∃ r, Encoding c piece r
          · obtain ⟨r, hr⟩ := hr
            refine .inl ⟨rs ++ [r], ?_⟩
            rw [Encodings, List.filter_append, List.filter_cons_of_pos (by simpa using hpiece)]
            exact List.rel_append hrs (.cons hr .nil)
          · exact .inr ⟨pieces, piece, [], rs, rfl, hrs, hpiece, not_exists.mp hr⟩
      · exact .inr ⟨before, bad, after ++ [piece], rs, by simp, h⟩
  obtain ⟨complete, last, hsplit⟩ := (List.eq_nil_or_concat (walBytes.splitOn 10)).resolve_left
    (List.splitOnP_ne_nil _ _)
  rw [List.concat_eq_append] at hsplit
  rcases hpieces complete with ⟨front, hfront⟩ | ⟨before, bad, after, rs, rfl, hbefore, hbad, h⟩
  · by_cases hlast : last ≠ [] ∧ ∃ r, Encoding c last r
    · obtain ⟨hne, r, hr⟩ := hlast
      exact .inl ⟨_, complete, last, front, _, hsplit, hfront, .encoding hne hr, rfl⟩
    · have hdropped : last ≠ [] → ∀ r, ¬ Encoding c last r :=
        fun hne r hr => hlast ⟨hne, r, hr⟩
      exact .inl ⟨_, complete, last, front, _, hsplit, hfront, .dropped hdropped, rfl⟩
  · exact .inr ⟨_, rs, before, bad, after ++ [last], by simp [hsplit], by simp, hbefore, hbad, h,
      rfl⟩

theorem Accepts.replayed_eq {walBytes : Bytes} {rs : List ρ} (h : Accepts c walBytes rs)
    (hnone : NoneAltered c walBytes) : replayed c walBytes = (.ok (), rs) := by
  obtain ⟨complete, last, front, tail, hsplit, hfront, htail, rfl⟩ := h
  rw [replayed_eq_loop hsplit, loop_append _ _ _ _ _ hfront, List.nil_append]
  cases htail with
  | encoding hne hr =>
    rw [loop_cons_ok _ _ _ _ _ hne hr.fromStr]
    rfl
  | dropped hdropped =>
    rw [List.append_nil]
    by_cases hne : last = []
    · subst hne
      rfl
    · rcases encoding_or_altered_or_error c last with ⟨r, hr⟩ | haltered | ⟨e, he⟩
      · exact absurd hr (hdropped hne r)
      · exact absurd haltered (hnone complete last [] front hsplit hfront)
      · rw [loop_cons_error _ _ _ _ _ hne he, if_pos]
        simpa using getLast?_ne_newline hsplit hne

theorem Refuses.replayed_eq {walBytes : Bytes} {n : Nat} {rs : List ρ} (h : Refuses c walBytes n rs)
    (hnone : NoneAltered c walBytes) : ∃ e, replayed c walBytes = (.error (n, e), rs) := by
  obtain ⟨before, bad, after, hsplit, hafter, hbefore, hbad, hr, rfl⟩ := h
  rw [replayed_eq_loop hsplit, loop_append _ _ _ _ _ hbefore, List.nil_append, Nat.zero_add]
  rcases encoding_or_altered_or_error c bad with ⟨r, hbad'⟩ | haltered | ⟨e, he⟩
  · exact absurd hbad' (hr r)
  · exact absurd haltered (hnone before bad after rs hsplit hbefore)
  · refine ⟨e, ?_⟩
    have := List.length_pos_of_ne_nil hafter
    rw [loop_cons_error _ _ _ _ _ hbad he, if_neg]
    rw [List.length_append, List.length_cons]
    omega

theorem Encodings.exists_encoding {pieces : List Bytes} {rs : List ρ} (h : Encodings c pieces rs)
    {piece : Bytes} (hmem : piece ∈ pieces) (hpiece : piece ≠ []) : ∃ r, Encoding c piece r := by
  have hfilter : piece ∈ pieces.filter (· ≠ []) := List.mem_filter.mpr ⟨hmem, by simpa using hpiece⟩
  rw [Encodings] at h
  generalize pieces.filter (· ≠ []) = kept at h hfilter
  induction h with
  | nil => exact absurd hfilter List.not_mem_nil
  | cons hr _ ih =>
    rcases List.mem_cons.mp hfilter with rfl | hfilter
    · exact ⟨_, hr⟩
    · exact ih hfilter

/-- The first piece that encodes nothing is the first. -/
theorem first_bad_unique {before after before' after' : List Bytes} {bad bad' : Bytes}
    {rs rs' : List ρ} (h : before ++ bad :: after = before' ++ bad' :: after')
    (hbefore : Encodings c before rs) (hbad : bad ≠ []) (hr : ∀ r, ¬ Encoding c bad r)
    (hbefore' : Encodings c before' rs') (hbad' : bad' ≠ []) (hr' : ∀ r, ¬ Encoding c bad' r) :
    before = before' := by
  rcases List.append_eq_append_iff.mp h with ⟨_ | ⟨b, m⟩, rfl, hm⟩ | ⟨_ | ⟨b, m⟩, rfl, hm⟩
  · rw [List.append_nil]
  · obtain ⟨rfl, -⟩ := List.cons.inj hm
    obtain ⟨r, hbr⟩ := hbefore'.exists_encoding (by simp) hbad
    exact absurd hbr (hr r)
  · rw [List.append_nil]
  · obtain ⟨rfl, -⟩ := List.cons.inj hm
    obtain ⟨r, hbr⟩ := hbefore.exists_encoding (by simp) hbad'
    exact absurd hbr (hr' r)

theorem Accepts.not_refuses {walBytes : Bytes} {n : Nat} {rs rs' : List ρ}
    (h : Accepts c walBytes rs) : ¬ Refuses c walBytes n rs' := by
  rintro ⟨before, bad, after, hsplit, hafter, -, hbad, hr, -⟩
  obtain ⟨complete, last, front, tail, hsplit', hfront, -⟩ := h
  obtain ⟨after, piece, rfl⟩ := (List.eq_nil_or_concat after).resolve_left hafter
  rw [hsplit', List.concat_eq_append, ← List.cons_append, ← List.append_assoc] at hsplit
  obtain rfl := List.append_inj_left' hsplit rfl
  obtain ⟨r, hbr⟩ := hfront.exists_encoding (by simp) hbad
  exact hr r hbr

theorem Refuses.length_eq {walBytes : Bytes} {n n' : Nat} {rs rs' : List ρ}
    (h : Refuses c walBytes n rs) (h' : Refuses c walBytes n' rs') : rs.length = rs'.length := by
  obtain ⟨before, bad, after, hsplit, -, hbefore, hbad, hr, -⟩ := h
  obtain ⟨before', bad', after', hsplit', -, hbefore', hbad', hr', -⟩ := h'
  obtain rfl := first_bad_unique (hsplit.symm.trans hsplit') hbefore hbad hr hbefore' hbad' hr'
  exact hbefore.length_eq.symm.trans hbefore'.length_eq

/-- An altered piece is applied, and its record stays listed. -/
theorem Altered.prefix_replayed {walBytes piece : Bytes} {before after : List Bytes} {rs : List ρ}
    (h : Altered c piece) (hsplit : walBytes.splitOn 10 = before ++ piece :: after)
    (hbefore : Encodings c before rs) : ∃ r, rs ++ [r] <+: (replayed c walBytes).2 := by
  obtain ⟨hutf8, r, hr⟩ := h
  refine ⟨r, ?_⟩
  rw [replayed_eq_loop hsplit, loop_append _ _ _ _ _ hbefore, loop_cons_ok _ _ _ _ _ (hutf8 []) hr]
  exact prefix_loop _ _ _ _ _

section Corrupted

open Cinder

/-- The log record of a placed object. -/
def placed (item : String) : WalRecord := .place ⟨"acme"⟩ ⟨item⟩ .hot 0

/-- The text of the record of a placed object, for a name of plain characters. -/
def placedText (item : Text) : Text :=
  chars "\x7b\"op\":\"place\",\"tenant\":\"acme\",\"item\":\"" rfl ++ item ++
    chars "\",\"tier\":\"Hot\",\"placed_at\":" rfl ++
    chars "\x7b\"secs_since_epoch\":0,\"nanos_since_epoch\":0\x7d\x7d" rfl

/-- The codec of the records of two objects, `z` and the replacement character. -/
def placedSerde : LineSerde WalRecord where
  toString r :=
    if r = placed "z" then .ok (placedText ['z'])
    else if r = placed "\uFFFD" then .ok (placedText ['\uFFFD'])
    else .error "not in the table"
  fromStr t :=
    if t = placedText ['z'] then .ok (placed "z")
    else if t = placedText ['\uFFFD'] then .ok (placed "\uFFFD")
    else .error "expected value"

/-- The line of the object `z`, its name overwritten by a byte that is not UTF-8. -/
def corruptedLine : Bytes := (wireLine (placedText ['z'])).map fun b => if b = 122 then 255 else b

/-- The corrupted line is applied, for an object that was never placed. -/
theorem corrupted_line_applied : ¬ ReplaysExactly placedSerde corruptedLine := by
  intro h
  have hreplayed : replayed placedSerde corruptedLine = (.ok (), [placed "\uFFFD"]) := by
    decide +kernel
  obtain ⟨complete, last, front, tail, hsplit, hfront, -⟩ := (h.1 _).mp hreplayed
  have hpieces : corruptedLine.splitOn 10 = [corruptedLine.dropLast] ++ [[]] := by decide +kernel
  obtain rfl := List.append_inj_left' (hpieces.symm.trans hsplit) rfl
  obtain ⟨r, t, ht, -⟩ := hfront.exists_encoding List.mem_cons_self (by decide +kernel)
  have hutf8 : fromUtf8 corruptedLine.dropLast = none := by decide +kernel
  rw [ht, fromUtf8_asBytes] at hutf8
  cases hutf8

end Corrupted

/-- Replay is exact on a file exactly if no piece of it, after encodings and empty pieces only, is
altered. -/
theorem replaysExactly_iff (c : LineSerde ρ) (walBytes : Bytes) :
    ReplaysExactly c walBytes ↔ NoneAltered c walBytes := by
  constructor
  · rintro ⟨hok, herror⟩ before piece after rs hsplit hbefore haltered
    obtain ⟨r, hlisted⟩ := haltered.prefix_replayed hsplit hbefore
    have hpiece : ∀ r, ¬ Encoding c piece r := by
      rintro r ⟨t, ht, -⟩
      exact haltered.1 t ht
    by_cases hafter : after = []
    · subst hafter
      have haccepts : Accepts c walBytes rs :=
        ⟨before, piece, rs, [], hsplit, hbefore, .dropped fun _ => hpiece, by simp⟩
      rw [(hok rs).mpr haccepts] at hlisted
      have := hlisted.length_le
      simp at this
    · have hrefuses : Refuses c walBytes (before.length + 1) rs :=
        ⟨before, piece, after, hsplit, hafter, hbefore, haltered.1 [], hpiece, rfl⟩
      have hnot : ¬ ∃ rs, Accepts c walBytes rs := by
        rintro ⟨rs', hrs'⟩
        exact hrs'.not_refuses hrefuses
      obtain ⟨n, e, rs', hrefuses', heq⟩ := herror hnot
      rw [heq] at hlisted
      have hlength := hrefuses.length_eq hrefuses'
      have := hlisted.length_le
      simp only [List.length_append, List.length_singleton] at this
      omega
  · intro hnone
    refine ⟨fun rs => ⟨fun h => ?_, fun h => h.replayed_eq hnone⟩, fun hnot => ?_⟩
    · rcases accepts_or_refuses c walBytes with ⟨rs', hrs'⟩ | ⟨n, rs', hrs'⟩
      · obtain rfl : rs' = rs := by
          have heq := (hrs'.replayed_eq hnone).symm.trans h
          exact (Prod.mk.inj heq).2
        exact hrs'
      · obtain ⟨e, heq⟩ := hrs'.replayed_eq hnone
        rw [heq] at h
        cases h
    · obtain ⟨n, rs, hrs⟩ := (accepts_or_refuses c walBytes).resolve_left hnot
      obtain ⟨e, heq⟩ := hrs.replayed_eq hnone
      exact ⟨n, e, rs, hrs, heq⟩

end Kaleidoscope.Exact
