import Kaleidoscope.Library.Hex

/-!
# Form-urlencoded texts

The names and values of a query string. Delimiters, escapes and digits are ASCII, so a text is cut
and decoded character by character; only what the escapes stand for is bytes.
-/

namespace UrlEncoded

open Utf8

/-- A character that stands for itself. -/
def Plain (c : Char) : Prop :=
  'a' ≤ c ∧ c ≤ 'z' ∨ 'A' ≤ c ∧ c ≤ 'Z' ∨ '0' ≤ c ∧ c ≤ '9' ∨ c ∈ ['*', '-', '.', '_']

instance : DecidablePred Plain := fun c => inferInstanceAs (Decidable
  ('a' ≤ c ∧ c ≤ 'z' ∨ 'A' ≤ c ∧ c ≤ 'Z' ∨ '0' ≤ c ∧ c ≤ '9' ∨ c ∈ ['*', '-', '.', '_']))

/-- The text of a byte. -/
def encodeByte (b : UInt8) : Text :=
  if b = 0x20 then ['+']
  else if Plain (Char.ofNat b.toNat) then [Char.ofNat b.toNat]
  else '%' :: (Hex.digits b).map Char.toUpper

/-- The text of a name or a value. -/
def encode (t : Text) : Text := (asBytes t).flatMap encodeByte

/-- A pair of a name and a value. -/
def encodePair (pair : Text × Text) : Text := encode pair.1 ++ '=' :: encode pair.2

/-- `URLSearchParams.prototype.toString`. -/
def serialize (pairs : List (Text × Text)) : Text := ['&'].intercalate (pairs.map encodePair)

/-- The bytes that a text with escapes stands for. An incomplete escape stands for itself. -/
def percentDecode : Text → Bytes
  | [] => []
  | '%' :: hi :: lo :: rest =>
    match Hex.toDigit hi, Hex.toDigit lo with
    | some h, some l => UInt8.ofNat (16 * h + l) :: percentDecode rest
    | _, _ => 0x25 :: percentDecode (hi :: lo :: rest)
  | c :: rest => String.utf8EncodeChar c ++ percentDecode rest

/-- A character, with the space that a plus stands for. -/
def plusToSpace (c : Char) : Char := if c = '+' then ' ' else c

/-- The name or value of a text. -/
def decode (t : Text) : Text := fromUtf8Lossy (percentDecode (t.map plusToSpace))

/-- The pair of a text; without a `=` the value is empty. -/
def decodePair (t : Text) : Text × Text :=
  (decode (t.takeWhile (· ≠ '=')), decode ((t.dropWhile (· ≠ '=')).drop 1))

/-- `new URLSearchParams(text)`. -/
def parse (t : Text) : List (Text × Text) :=
  let t := if t.head? = some '?' then t.drop 1 else t
  ((t.splitOn '&').filter (· ≠ [])).map decodePair

/-- `URLSearchParams.prototype.get`: the first value of the name. -/
def get (pairs : List (Text × Text)) (name : Text) : Option Text :=
  (pairs.find? (·.1 = name)).map Prod.snd

/-- The characters that delimit or start an escape. -/
def delimiters : List Char := ['&', '=', '?', '+', '%']

theorem not_plain_of_mem {c : Char} (h : c ∈ delimiters) : ¬Plain c := by
  have hall : ∀ d ∈ delimiters, ¬Plain d := by simp [delimiters, Plain]
  exact hall c h

/-- An uppercase digit. -/
private def upperDigit (n : Nat) : Char := (Hex.fromDigit n).toUpper

private theorem upperDigit_spec {n : Nat} (h : n < 16) :
    upperDigit n ∉ delimiters ∧ Hex.toDigit (upperDigit n) = some n := by
  have hall : ∀ k : Fin 16,
      upperDigit k ∉ delimiters ∧ Hex.toDigit (upperDigit k) = some k.val := by
    decide
  exact hall ⟨n, h⟩

private theorem toNat_of_plain {c : Char} (h : Plain c) : c.toNat < 128 := by
  have hle : ∀ d : Char, c ≤ d → c.toNat ≤ d.toNat := fun d hd => hd
  rcases h with ⟨-, h⟩ | ⟨-, h⟩ | ⟨-, h⟩ | h
  · exact (hle _ h).trans_lt (by decide)
  · exact (hle _ h).trans_lt (by decide)
  · exact (hle _ h).trans_lt (by decide)
  · have hall : ∀ d ∈ ['*', '-', '.', '_'], d.toNat < 128 := by simp
    exact hall c h

private theorem toNat_ofNat_byte (b : UInt8) : (Char.ofNat b.toNat).toNat = b.toNat := by
  have hlt := b.toNat_lt
  have hvalid : b.toNat.isValidChar := Or.inl (by omega)
  rw [Char.ofNat, dif_pos hvalid]
  exact UInt32.toNat_ofNatLT

/-- The texts of a byte: a plus, a plain character or an escape. -/
theorem encodeByte_cases (b : UInt8) :
    b = 0x20 ∧ encodeByte b = ['+'] ∨
    (∃ c, Plain c ∧ String.utf8EncodeChar c = [b] ∧ encodeByte b = [c]) ∨
    encodeByte b = ['%', upperDigit (b.toNat / 16), upperDigit (b.toNat % 16)] := by
  rw [encodeByte]
  split_ifs with hspace hplain
  · exact .inl ⟨hspace, rfl⟩
  · refine .inr (.inl ⟨_, hplain, ?_, rfl⟩)
    have hlt := toNat_of_plain hplain
    rw [toNat_ofNat_byte] at hlt
    rw [utf8EncodeChar_eq, toNat_ofNat_byte, encodeScalar, if_pos (Nat.le_of_lt_succ hlt),
      UInt8.ofNat_toNat]
  · exact .inr (.inr rfl)

private theorem encodeByte_avoids {b : UInt8} {d : Char} (hd : d ∈ ['&', '=', '?']) :
    d ∉ encodeByte b := by
  have hmem : d ∈ delimiters := by
    have hall : ∀ d ∈ ['&', '=', '?'], d ∈ delimiters := by simp [delimiters]
    exact hall d hd
  have hne : d ≠ '+' ∧ d ≠ '%' := by
    have hall : ∀ d ∈ ['&', '=', '?'], d ≠ '+' ∧ d ≠ '%' := by simp
    exact hall d hd
  have hlt := b.toNat_lt
  have hdigit : ∀ n < 16, d ≠ upperDigit n := by
    rintro n hn rfl
    exact (upperDigit_spec hn).1 hmem
  rcases encodeByte_cases b with ⟨-, h⟩ | ⟨c, hc, -, h⟩ | h
  · simp [h, hne.1]
  · rw [h, List.mem_singleton]
    rintro rfl
    exact not_plain_of_mem hmem hc
  · simp [h, hne.2, hdigit (b.toNat / 16) (by omega), hdigit (b.toNat % 16) (by omega)]

/-- No delimiter stands in an encoded text. -/
theorem encode_avoids {t : Text} {d : Char} (hd : d ∈ ['&', '=', '?']) : d ∉ encode t := by
  rw [encode, List.mem_flatMap]
  rintro ⟨b, -, h⟩
  exact encodeByte_avoids hd h

private theorem plusToSpace_of_notMem {c : Char} (h : c ∉ delimiters) : plusToSpace c = c := by
  rw [plusToSpace, if_neg]
  rintro rfl
  exact h (by decide)

private theorem percentDecode_of_ne {c : Char} (h : c ≠ '%') (t : Text) :
    percentDecode (c :: t) = String.utf8EncodeChar c ++ percentDecode t := by
  rw [percentDecode]
  rintro hi lo rest rfl
  exact absurd rfl h

/-- The text of a byte is read back. -/
theorem percentDecode_encodeByte (b : UInt8) (t : Text) :
    percentDecode ((encodeByte b ++ t).map plusToSpace) =
      b :: percentDecode (t.map plusToSpace) := by
  have hlt := b.toNat_lt
  rw [List.map_append]
  rcases encodeByte_cases b with ⟨rfl, h⟩ | ⟨c, hc, hbyte, h⟩ | h
  · rw [h]
    exact percentDecode_of_ne (c := ' ') (by decide) _
  · have hc' : c ∉ delimiters := fun hmem => not_plain_of_mem hmem hc
    rw [h, List.map_singleton, plusToSpace_of_notMem hc', List.singleton_append,
      percentDecode_of_ne, hbyte]
    · rfl
    · rintro rfl
      exact hc' (by decide)
  · obtain ⟨havoid, hhi⟩ := upperDigit_spec (n := b.toNat / 16) (by omega)
    obtain ⟨havoid', hlo⟩ := upperDigit_spec (n := b.toNat % 16) (by omega)
    rw [h]
    simp only [List.map_cons, List.map_nil, List.cons_append, List.nil_append,
      plusToSpace_of_notMem havoid, plusToSpace_of_notMem havoid']
    change percentDecode ('%' :: _ :: _ :: _) = _
    rw [percentDecode]
    simp only [hhi, hlo]
    congr 1
    rw [show 16 * (b.toNat / 16) + b.toNat % 16 = b.toNat by omega, UInt8.ofNat_toNat]

theorem percentDecode_encode (bs : Bytes) :
    percentDecode ((bs.flatMap encodeByte).map plusToSpace) = bs := by
  induction bs with
  | nil => rfl
  | cons b bs ih => rw [List.flatMap_cons, percentDecode_encodeByte, ih]

/-- A name or a value is read back. -/
theorem decode_encode (t : Text) : decode (encode t) = t := by
  rw [decode, encode, percentDecode_encode, fromUtf8Lossy_asBytes]

/-- A pair is read back: the first `=` is the one between the two. -/
theorem decodePair_encodePair (pair : Text × Text) : decodePair (encodePair pair) = pair := by
  have hname : ∀ c ∈ encode pair.1, decide (c ≠ '=') = true := by
    intro c hc
    rw [decide_eq_true_iff]
    rintro rfl
    exact encode_avoids (by decide) hc
  rw [decodePair, encodePair, List.takeWhile_append_of_pos hname,
    List.dropWhile_append_of_pos hname]
  simp [decode_encode]

private theorem encodePair_avoids {pair : Text × Text} {d : Char} (hd : d ∈ ['&', '?']) :
    d ∉ encodePair pair := by
  have hmem : d ∈ ['&', '=', '?'] ∧ d ≠ '=' := by
    have hall : ∀ d ∈ ['&', '?'], d ∈ ['&', '=', '?'] ∧ d ≠ '=' := by simp
    exact hall d hd
  simp [encodePair, encode_avoids hmem.1, hmem.2]

private theorem splitOn_serialize {pairs : List (Text × Text)} (h : pairs ≠ []) :
    (serialize pairs).splitOn '&' = pairs.map encodePair := by
  refine List.splitOn_intercalate '&' ?_ (by simpa using h)
  intro t ht
  obtain ⟨pair, -, rfl⟩ := List.mem_map.mp ht
  exact encodePair_avoids (by decide)

/-- A written text does not start with a question mark. -/
theorem head?_serialize (pairs : List (Text × Text)) : (serialize pairs).head? ≠ some '?' := by
  intro hhead
  by_cases hnil : pairs = []
  · rw [hnil] at hhead
    exact absurd hhead (by decide)
  obtain ⟨rest, hrest⟩ := List.head?_eq_some_iff.mp hhead
  obtain ⟨piece, pieces, hpieces⟩ := List.exists_cons_of_ne_nil (List.splitOn_ne_nil '&' rest)
  have hsplit := splitOn_serialize hnil
  rw [hrest, List.splitOn_cons_eq_if_modifyHead, if_neg (by decide), hpieces,
    List.modifyHead_cons] at hsplit
  have hmem : '?' :: piece ∈ pairs.map encodePair := by
    rw [← hsplit]
    exact List.mem_cons_self
  obtain ⟨pair, -, hpair⟩ := List.mem_map.mp hmem
  have havoid : '?' ∉ encodePair pair := encodePair_avoids (by decide)
  rw [hpair] at havoid
  exact havoid List.mem_cons_self

/-- The pairs are read back from a written text. -/
theorem parse_serialize {pairs : List (Text × Text)} (h : pairs ≠ []) :
    parse (serialize pairs) = pairs := by
  have hfilter : (pairs.map encodePair).filter (· ≠ []) = pairs.map encodePair := by
    rw [List.filter_eq_self]
    intro t ht
    obtain ⟨pair, -, rfl⟩ := List.mem_map.mp ht
    simp [encodePair]
  have hpair : ∀ pair ∈ pairs, (decodePair ∘ encodePair) pair = pair := fun pair _ =>
    decodePair_encodePair pair
  simp only [parse, if_neg (head?_serialize pairs), splitOn_serialize h, hfilter]
  rw [List.map_map, List.map_congr_left hpair, List.map_id']

end UrlEncoded
