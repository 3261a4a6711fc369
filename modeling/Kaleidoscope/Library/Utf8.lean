import Kaleidoscope.Library.Traverse

/-!
# UTF-8 text as byte lists

Texts are character lists and encodings are byte lists, encoded by the core
`String.utf8EncodeChar`. The decoder reads one byte at a time and keeps the bytes
of the character begun so far; a byte that cannot extend them ends a malformed
sequence, which counts as one replacement character, and starts a new one. The
strict and the lossy decoders are two readings of the same scan.
-/

namespace Utf8

/-- A byte string. -/
abbrev Bytes := List UInt8

/-- A decoded text. -/
abbrev Text := List Char

/-- The encoding of a text. -/
def asBytes (t : Text) : Bytes := t.flatMap String.utf8EncodeChar

@[simp] theorem asBytes_nil : asBytes [] = [] := rfl

@[simp] theorem asBytes_cons (c : Char) (t : Text) :
    asBytes (c :: t) = String.utf8EncodeChar c ++ asBytes t := rfl

/-- Length of the sequence a lead byte announces; zero when no sequence starts with it. -/
def width (b : UInt8) : Nat :=
  if b.toNat < 0x80 then 1
  else if b.toNat < 0xC2 then 0
  else if b.toNat < 0xE0 then 2
  else if b.toNat < 0xF0 then 3
  else if b.toNat < 0xF5 then 4
  else 0

/-- Byte range test. -/
def between (low high : Nat) (b : UInt8) : Bool :=
  decide (low ≤ b.toNat) && decide (b.toNat ≤ high)

/-- Whether `b₁` may follow the lead byte `b₀`: overlong forms, surrogates and values
above the last code point are excluded here. -/
def second (b₀ b₁ : UInt8) : Bool :=
  if b₀.toNat = 0xE0 then between 0xA0 0xBF b₁
  else if b₀.toNat = 0xED then between 0x80 0x9F b₁
  else if b₀.toNat = 0xF0 then between 0x90 0xBF b₁
  else if b₀.toNat = 0xF4 then between 0x80 0x8F b₁
  else between 0x80 0xBF b₁

/-- The six payload bits of a continuation byte. -/
def payload (b : UInt8) : Nat := b.toNat % 64

/-- What the bytes read since the last character boundary amount to. -/
inductive Sequence where
  /-- The encoding of one character. -/
  | complete (c : Char)
  /-- A proper prefix of such an encoding. -/
  | incomplete
  /-- Neither: the last byte does not continue the ones before it. -/
  | invalid

/-- Classify the bytes since the last character boundary. -/
def classify : Bytes → Sequence
  | [b₀] =>
    match width b₀ with
    | 0 => .invalid
    | 1 => .complete (Char.ofNat b₀.toNat)
    | _ => .incomplete
  | [b₀, b₁] =>
    if second b₀ b₁ then
      if width b₀ = 2 then .complete (Char.ofNat (b₀.toNat % 32 * 64 + payload b₁))
      else .incomplete
    else .invalid
  | [b₀, b₁, b₂] =>
    if second b₀ b₁ ∧ between 0x80 0xBF b₂ then
      if width b₀ = 3 then
        .complete (Char.ofNat (b₀.toNat % 16 * 4096 + payload b₁ * 64 + payload b₂))
      else .incomplete
    else .invalid
  | [b₀, b₁, b₂, b₃] =>
    if width b₀ = 4 ∧ second b₀ b₁ ∧ between 0x80 0xBF b₃ then
      .complete (Char.ofNat
        (b₀.toNat % 8 * 262144 + payload b₁ * 4096 + payload b₂ * 64 + payload b₃))
    else .invalid
  | _ => .invalid

/-- Decode byte by byte; `none` marks one maximal malformed sequence. The first
argument holds the bytes read since the last character boundary. -/
def scan : Bytes → Bytes → List (Option Char)
  | p, [] => if p = [] then [] else [none]
  | p, b :: bs =>
    match classify (p ++ [b]) with
    | .complete c => some c :: scan [] bs
    | .incomplete => scan (p ++ [b]) bs
    | .invalid =>
      if p = [] then none :: scan [] bs
      else
        -- the offending byte is not part of the malformed sequence: it is read again
        match classify [b] with
        | .complete c => none :: some c :: scan [] bs
        | .incomplete => none :: scan [b] bs
        | .invalid => none :: none :: scan [] bs

/-- Every malformed sequence becomes one replacement character. -/
def fromUtf8Lossy (bs : Bytes) : Text := (scan [] bs).map fun c => c.getD '\uFFFD'

/-- Strict decoding fails on any malformed sequence. -/
def fromUtf8 (bs : Bytes) : Option Text := (scan [] bs).mapM id

example : scan [] [0xE2, 0x82, 0xAC, 0x0A, 0xE2, 0x82] = [some '€', some '\n', none] := by decide

theorem classify_ascii {b : UInt8} (hb : b.toNat < 0x80) :
    classify [b] = .complete (Char.ofNat b.toNat) := by
  simp [classify, width, hb]

/-- An ASCII byte never continues a sequence. -/
theorem classify_append_ascii {p : Bytes} (hp : p ≠ []) {b : UInt8} (hb : b.toNat < 0x80) :
    classify (p ++ [b]) = .invalid := by
  have hbetween (l h : Nat) (hl : 0x80 ≤ l) : between l h b = false := by
    simp only [between, Bool.and_eq_false_iff, decide_eq_false_iff_not]
    omega
  have hsecond (a : UInt8) : second a b = false := by
    unfold second
    split_ifs <;> exact hbetween _ _ (by decide)
  match p with
  | [] => exact absurd rfl hp
  | [b₀] => simp [classify, hsecond]
  | [b₀, b₁] => simp [classify, hbetween]
  | [b₀, b₁, b₂] => simp [classify, hbetween]
  | b₀ :: b₁ :: b₂ :: b₃ :: rest => cases rest <;> simp [classify]

/-- An ASCII byte splits the scan: whatever precedes it is closed before it. -/
theorem scan_append_ascii (p bs : Bytes) {b : UInt8} (cs : Bytes) (hb : b.toNat < 0x80) :
    scan p (bs ++ b :: cs) = scan p bs ++ some (Char.ofNat b.toNat) :: scan [] cs := by
  induction bs generalizing p with
  | nil =>
    by_cases hp : p = []
    · subst p
      simp [scan, classify_ascii hb]
    · simp [scan, hp, classify_append_ascii hp hb, classify_ascii hb]
  | cons a bs ih =>
    simp only [List.cons_append, scan]
    split
    · simp only [ih, List.cons_append]
    · exact ih _
    · split_ifs
      · simp only [ih, List.cons_append]
      · split <;> simp only [ih, List.cons_append]

/-- The encoding of a code point, as `String.utf8EncodeChar` computes it. -/
def encodeScalar (v : Nat) : Bytes :=
  if v ≤ 127 then [UInt8.ofNat v]
  else if v ≤ 2047 then [UInt8.ofNat (v / 64 % 32 + 192), UInt8.ofNat (v % 64 + 128)]
  else if v ≤ 65535 then
    [UInt8.ofNat (v / 4096 % 16 + 224), UInt8.ofNat (v / 64 % 64 + 128),
      UInt8.ofNat (v % 64 + 128)]
  else
    [UInt8.ofNat (v / 262144 % 8 + 240), UInt8.ofNat (v / 4096 % 64 + 128),
      UInt8.ofNat (v / 64 % 64 + 128), UInt8.ofNat (v % 64 + 128)]

theorem utf8EncodeChar_eq (c : Char) : String.utf8EncodeChar c = encodeScalar c.toNat := rfl

private theorem scan_oneByte {v : Nat} (h : v ≤ 127) (bs : Bytes) :
    scan [] ([UInt8.ofNat v] ++ bs) = some (Char.ofNat v) :: scan [] bs := by
  have e : (UInt8.ofNat v).toNat = v := by simp only [UInt8.toNat_ofNat']; omega
  have hc := classify_ascii (b := UInt8.ofNat v) (by omega)
  rw [e] at hc
  simp only [List.cons_append, List.nil_append, scan, hc]

private theorem scan_twoBytes {v : Nat} (h₁ : ¬ v ≤ 127) (h₂ : v ≤ 2047) (bs : Bytes) :
    scan [] ([UInt8.ofNat (v / 64 % 32 + 192), UInt8.ofNat (v % 64 + 128)] ++ bs) =
      some (Char.ofNat v) :: scan [] bs := by
  have e₀ : (UInt8.ofNat (v / 64 % 32 + 192)).toNat = v / 64 % 32 + 192 := by
    simp only [UInt8.toNat_ofNat']; omega
  have e₁ : (UInt8.ofNat (v % 64 + 128)).toNat = v % 64 + 128 := by
    simp only [UInt8.toNat_ofNat']; omega
  generalize UInt8.ofNat (v / 64 % 32 + 192) = b₀ at *
  generalize UInt8.ofNat (v % 64 + 128) = b₁ at *
  have hw : width b₀ = 2 := by simp only [width]; split_ifs <;> omega
  have hs : second b₀ b₁ = true := by
    simp only [second, between]
    split_ifs <;> simp <;> omega
  have hv : b₀.toNat % 32 * 64 + payload b₁ = v := by simp only [payload]; omega
  simp [scan, classify, hw, hs, hv]

private theorem scan_threeBytes {v : Nat} (h₂ : ¬ v ≤ 2047) (h₃ : v ≤ 65535)
    (hsur : ¬ (0xD800 ≤ v ∧ v ≤ 0xDFFF)) (bs : Bytes) :
    scan [] ([UInt8.ofNat (v / 4096 % 16 + 224), UInt8.ofNat (v / 64 % 64 + 128),
      UInt8.ofNat (v % 64 + 128)] ++ bs) = some (Char.ofNat v) :: scan [] bs := by
  have e₀ : (UInt8.ofNat (v / 4096 % 16 + 224)).toNat = v / 4096 % 16 + 224 := by
    simp only [UInt8.toNat_ofNat']; omega
  have e₁ : (UInt8.ofNat (v / 64 % 64 + 128)).toNat = v / 64 % 64 + 128 := by
    simp only [UInt8.toNat_ofNat']; omega
  have e₂ : (UInt8.ofNat (v % 64 + 128)).toNat = v % 64 + 128 := by
    simp only [UInt8.toNat_ofNat']; omega
  generalize UInt8.ofNat (v / 4096 % 16 + 224) = b₀ at *
  generalize UInt8.ofNat (v / 64 % 64 + 128) = b₁ at *
  generalize UInt8.ofNat (v % 64 + 128) = b₂ at *
  have hw : width b₀ = 3 := by simp only [width]; split_ifs <;> omega
  have hs : second b₀ b₁ = true := by
    simp only [second, between]
    split_ifs <;> simp <;> omega
  have ht : between 0x80 0xBF b₂ = true := by simp only [between]; simp; omega
  have hv : b₀.toNat % 16 * 4096 + payload b₁ * 64 + payload b₂ = v := by
    simp only [payload]; omega
  simp [scan, classify, hw, hs, ht, hv]

private theorem scan_fourBytes {v : Nat} (h₃ : ¬ v ≤ 65535) (hv : v < 0x110000) (bs : Bytes) :
    scan [] ([UInt8.ofNat (v / 262144 % 8 + 240), UInt8.ofNat (v / 4096 % 64 + 128),
      UInt8.ofNat (v / 64 % 64 + 128), UInt8.ofNat (v % 64 + 128)] ++ bs) =
      some (Char.ofNat v) :: scan [] bs := by
  have e₀ : (UInt8.ofNat (v / 262144 % 8 + 240)).toNat = v / 262144 % 8 + 240 := by
    simp only [UInt8.toNat_ofNat']; omega
  have e₁ : (UInt8.ofNat (v / 4096 % 64 + 128)).toNat = v / 4096 % 64 + 128 := by
    simp only [UInt8.toNat_ofNat']; omega
  have e₂ : (UInt8.ofNat (v / 64 % 64 + 128)).toNat = v / 64 % 64 + 128 := by
    simp only [UInt8.toNat_ofNat']; omega
  have e₃ : (UInt8.ofNat (v % 64 + 128)).toNat = v % 64 + 128 := by
    simp only [UInt8.toNat_ofNat']; omega
  generalize UInt8.ofNat (v / 262144 % 8 + 240) = b₀ at *
  generalize UInt8.ofNat (v / 4096 % 64 + 128) = b₁ at *
  generalize UInt8.ofNat (v / 64 % 64 + 128) = b₂ at *
  generalize UInt8.ofNat (v % 64 + 128) = b₃ at *
  have hw : width b₀ = 4 := by simp only [width]; split_ifs <;> omega
  have hs : second b₀ b₁ = true := by
    simp only [second, between]
    split_ifs <;> simp <;> omega
  have ht : between 0x80 0xBF b₂ = true := by simp only [between]; simp; omega
  have hu : between 0x80 0xBF b₃ = true := by simp only [between]; simp; omega
  have he : b₀.toNat % 8 * 262144 + payload b₁ * 4096 + payload b₂ * 64 + payload b₃ = v := by
    simp only [payload]; omega
  simp [scan, classify, hw, hs, ht, hu, he]

/-- Every character is a Unicode scalar value. -/
theorem toNat_scalar (c : Char) :
    c.toNat < 0x110000 ∧ ¬ (0xD800 ≤ c.toNat ∧ c.toNat ≤ 0xDFFF) := by
  have h := c.valid
  simp only [UInt32.isValidChar, Nat.isValidChar] at h
  change c.val.toNat < _ ∧ ¬ (_ ≤ c.val.toNat ∧ c.val.toNat ≤ _)
  omega

/-- At a character boundary the scan reads back exactly one encoded character. -/
theorem scan_encodeChar (c : Char) (bs : Bytes) :
    scan [] (String.utf8EncodeChar c ++ bs) = some c :: scan [] bs := by
  obtain ⟨hmax, hsur⟩ := toNat_scalar c
  have h : scan [] (encodeScalar c.toNat ++ bs) = some (Char.ofNat c.toNat) :: scan [] bs := by
    rw [encodeScalar]
    split_ifs with h₁ h₂ h₃
    · exact scan_oneByte h₁ bs
    · exact scan_twoBytes h₁ h₂ bs
    · exact scan_threeBytes h₂ h₃ hsur bs
    · exact scan_fourBytes h₃ hmax bs
  rwa [Char.ofNat_toNat] at h

theorem scan_asBytes (t : Text) (bs : Bytes) :
    scan [] (asBytes t ++ bs) = t.map some ++ scan [] bs := by
  induction t with
  | nil => rfl
  | cons c t ih =>
    rw [asBytes_cons, List.append_assoc, scan_encodeChar, ih, List.map_cons, List.cons_append]

@[simp] theorem fromUtf8Lossy_asBytes (t : Text) : fromUtf8Lossy (asBytes t) = t := by
  have h := scan_asBytes t []
  simp only [List.append_nil, scan, if_true] at h
  simp [fromUtf8Lossy, h]

@[simp] theorem fromUtf8_asBytes (t : Text) : fromUtf8 (asBytes t) = some t := by
  have h := scan_asBytes t []
  simp only [List.append_nil, scan, if_true] at h
  rw [fromUtf8, h]
  exact Traverse.mapM_map_self fun _ _ => rfl

/-- The scan of a nonempty byte string is nonempty. -/
theorem scan_eq_nil_iff (p bs : Bytes) : scan p bs = [] ↔ p = [] ∧ bs = [] := by
  induction bs generalizing p with
  | nil => simp [scan]
  | cons b bs ih =>
    simp only [scan]
    split
    · simp
    · rw [ih]; simp
    · split_ifs
      · simp
      · split <;> simp

theorem fromUtf8Lossy_eq_nil_iff (bs : Bytes) : fromUtf8Lossy bs = [] ↔ bs = [] := by
  simp [fromUtf8Lossy, scan_eq_nil_iff]

private theorem ofNat_eq_newline {n : Nat} (h : Char.ofNat n = '\n') : n = 10 := by
  by_cases hv : n.isValidChar
  · rw [Char.ofNat, dif_pos hv] at h
    exact congrArg Char.toNat h
  · rw [Char.ofNat, dif_neg hv] at h
    exact absurd h (by decide)

/-- The lead bytes of each width. -/
private theorem lead_mem (b : UInt8) :
    (width b = 2 → 0xC2 ≤ b.toNat ∧ b.toNat < 0xE0) ∧
      (width b = 3 → 0xE0 ≤ b.toNat ∧ b.toNat < 0xF0) ∧
      (width b = 4 → 0xF0 ≤ b.toNat ∧ b.toNat < 0xF5) := by
  refine ⟨fun h => ?_, fun h => ?_, fun h => ?_⟩
  all_goals
    rw [width] at h
    split_ifs at h <;> omega

/-- A second byte rules out overlong forms. -/
private theorem second_mem {b₀ b₁ : UInt8} (h : second b₀ b₁ = true) :
    (0x80 ≤ b₁.toNat ∧ b₁.toNat ≤ 0xBF) ∧ (b₀.toNat = 0xE0 → 0xA0 ≤ b₁.toNat) ∧
      (b₀.toNat = 0xF0 → 0x90 ≤ b₁.toNat) := by
  simp only [second, between] at h
  split_ifs at h <;> simp only [Bool.and_eq_true, decide_eq_true_eq] at h <;> omega

/-- Only the newline byte decodes to a newline: overlong forms are malformed. -/
theorem classify_newline {p : Bytes} {b : UInt8} (h : classify (p ++ [b]) = .complete '\n') :
    b = 10 := by
  match p with
  | [] =>
    simp only [List.nil_append, classify] at h
    split at h <;> simp only [Sequence.complete.injEq, reduceCtorEq] at h
    exact UInt8.toNat_inj.mp (ofNat_eq_newline h)
  | [b₀] =>
    simp only [List.cons_append, List.nil_append, classify] at h
    split_ifs at h with hs hw
    have hv := ofNat_eq_newline (Sequence.complete.inj h)
    have hlead := (lead_mem b₀).1 hw
    omega
  | [b₀, b₁] =>
    simp only [List.cons_append, List.nil_append, classify] at h
    split_ifs at h with hs hw
    have hv := ofNat_eq_newline (Sequence.complete.inj h)
    have hlead := (lead_mem b₀).2.1 hw
    obtain ⟨hmem, hoverlong, -⟩ := second_mem hs.1
    rw [payload] at hv
    omega
  | [b₀, b₁, b₂] =>
    simp only [List.cons_append, List.nil_append, classify] at h
    split_ifs at h with hs
    have hv := ofNat_eq_newline (Sequence.complete.inj h)
    obtain ⟨hw, hs, -⟩ := hs
    have hlead := (lead_mem b₀).2.2 hw
    obtain ⟨hmem, -, hoverlong⟩ := second_mem hs
    rw [payload] at hv
    omega
  | b₀ :: b₁ :: b₂ :: b₃ :: rest => cases rest <;> simp [classify] at h

/-- A decoded text holds a newline only where the bytes do. -/
theorem newline_notMem_scan {p bs : Bytes} (h : (10 : UInt8) ∉ bs) :
    some '\n' ∉ scan p bs := by
  induction bs generalizing p with
  | nil => cases p <;> simp [scan]
  | cons b bs ih =>
    obtain ⟨hb, hbs⟩ : b ≠ 10 ∧ (10 : UInt8) ∉ bs := by
      simp only [List.mem_cons, not_or] at h
      exact ⟨fun he => h.1 he.symm, h.2⟩
    have hne {q : Bytes} {c : Char} (hq : classify (q ++ [b]) = .complete c) :
        some '\n' ≠ some c := by
      intro he
      cases he
      exact hb (classify_newline hq)
    simp only [scan]
    split
    · next c hc => simp [hne hc, ih hbs]
    · exact ih hbs
    · split_ifs
      · simp [ih hbs]
      · split
        · next c hc => simp [hne (q := []) hc, ih hbs]
        · simp [ih hbs]
        · simp [ih hbs]

theorem newline_notMem_fromUtf8Lossy {bs : Bytes} (h : (10 : UInt8) ∉ bs) :
    '\n' ∉ fromUtf8Lossy bs := by
  intro hm
  obtain ⟨c, hc, he⟩ := List.mem_map.mp hm
  cases c with
  | none => exact absurd he (by decide)
  | some c =>
    obtain rfl : c = '\n' := he
    exact newline_notMem_scan h hc

theorem fromUtf8Lossy_append_newline (bs cs : Bytes) :
    fromUtf8Lossy (bs ++ 10 :: cs) = fromUtf8Lossy bs ++ '\n' :: fromUtf8Lossy cs := by
  rw [fromUtf8Lossy, scan_append_ascii [] bs cs (by decide), List.map_append]
  rfl

/-- Decoding commutes with splitting at newlines, whatever the bytes are. -/
theorem splitOn_fromUtf8Lossy (bs : Bytes) :
    (fromUtf8Lossy bs).splitOn '\n' = (bs.splitOn 10).map fromUtf8Lossy := by
  induction hn : bs.length using Nat.strong_induction_on generalizing bs with
  | _ n ih =>
    by_cases h : (10 : UInt8) ∈ bs
    · obtain ⟨a, c, rfl⟩ := List.append_of_mem h
      simp only [List.length_append, List.length_cons] at hn
      rw [fromUtf8Lossy_append_newline, List.splitOn_append_cons_self,
        List.splitOn_append_cons_self, List.map_append,
        ih a.length (by omega) a rfl, ih c.length (by omega) c rfl]
    · rw [List.splitOn_eq_singleton h, List.splitOn_eq_singleton (newline_notMem_fromUtf8Lossy h)]
      rfl

/-- The newline byte occurs in an encoding only where the text has a newline. -/
theorem newline_notMem_asBytes {t : Text} (h : '\n' ∉ t) : (10 : UInt8) ∉ asBytes t := by
  intro hm
  obtain ⟨a, c, hac⟩ := List.append_of_mem hm
  apply h
  rw [← fromUtf8Lossy_asBytes t, hac, fromUtf8Lossy_append_newline]
  simp

theorem asBytes_eq_nil_iff {t : Text} : asBytes t = [] ↔ t = [] := by
  rw [← fromUtf8Lossy_eq_nil_iff, fromUtf8Lossy_asBytes]

/-- Every character takes at least one byte. -/
theorem length_le_asBytes (t : Text) : t.length ≤ (asBytes t).length := by
  induction t with
  | nil => exact Nat.le_refl 0
  | cons c t ih =>
    have hc : 0 < (String.utf8EncodeChar c).length := by
      rw [String.length_utf8EncodeChar]
      exact c.utf8Size_pos
    rw [asBytes_cons, List.length_append, List.length_cons]
    omega

end Utf8
