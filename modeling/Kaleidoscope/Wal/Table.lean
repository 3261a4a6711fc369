import Kaleidoscope.Wal.Recovery

/-!
# Tables of JSON texts

A codec of finitely many records, for runs on concrete records. The texts are ASCII, as
`serde_json` writes them for ASCII strings.
-/

namespace Kaleidoscope

open Utf8

/-- The characters of a literal, which the elaborator spells out for the equation. -/
def chars (literal : String) {t : Text} (_ : literal = String.ofList t) : Text := t

/-- Some records with their JSON. -/
structure LineTable (ρ : Type) where
  rows : List (ρ × Text)
  ascii : ∀ e ∈ rows, e.2.all fun c => c.toNat < 128
  oneLine : ∀ e ∈ rows, e.2 ≠ [] ∧ '\n' ∉ e.2 ∧ '\r' ∉ e.2
  /-- No text of the table begins with another. -/
  prefixFree : ∀ e ∈ rows, ∀ e' ∈ rows, e'.2 <+: e.2 → e' = e

/-- A character of ASCII that does not end a line. -/
def plain (c : Char) : Bool := c.toNat < 128 && c ≠ '\n' && c ≠ '\r'

theorem all_plain_replicate (n : ℕ) : (List.replicate n 'a').all plain = true := by
  rw [List.all_eq_true]
  intro c hc
  obtain rfl := List.eq_of_mem_replicate hc
  rfl

/-- The table of one plain text. -/
def LineTable.single {ρ : Type} (r : ρ) (t : Text) (ht : t.all plain = true) (hne : t ≠ []) :
    LineTable ρ where
  rows := [(r, t)]
  ascii e he := by
    obtain rfl := List.mem_singleton.mp he
    simp only [List.all_eq_true, plain, Bool.and_eq_true] at ht ⊢
    exact fun c hc => (ht c hc).1.1
  oneLine e he := by
    obtain rfl := List.mem_singleton.mp he
    have h := List.all_eq_true.mp ht
    exact ⟨hne, fun hc => absurd (h _ hc) (by decide), fun hc => absurd (h _ hc) (by decide)⟩
  prefixFree := by simp

/-- A table with one more plain text, which begins like no other. -/
def LineTable.snoc {ρ : Type} (T : LineTable ρ) (r : ρ) (head rest : Text)
    (ht : (head ++ rest).all plain = true) (hne : head ≠ [])
    (hfree : ∀ e ∈ T.rows, head.length ≤ e.2.length ∧ e.2.take head.length ≠ head) :
    LineTable ρ where
  rows := T.rows ++ [(r, head ++ rest)]
  ascii := List.forall_mem_append.mpr
    ⟨T.ascii, (single r _ ht (List.append_ne_nil_of_left_ne_nil hne rest)).ascii⟩
  oneLine := List.forall_mem_append.mpr
    ⟨T.oneLine, (single r _ ht (List.append_ne_nil_of_left_ne_nil hne rest)).oneLine⟩
  prefixFree e he e' he' hprefix := by
    have htake {u u' : Text} (h : u' <+: u) (hlen : head.length ≤ u'.length) :
        u.take head.length = u'.take head.length := by
      obtain ⟨rest, rfl⟩ := h
      exact List.take_append_of_le_length hlen
    rcases List.mem_append.mp he with he | he <;> rcases List.mem_append.mp he' with he' | he'
    · exact T.prefixFree e he e' he' hprefix
    · obtain rfl := List.mem_singleton.mp he'
      have heq := htake hprefix (by simp)
      rw [List.take_left] at heq
      exact absurd heq (hfree e he).2
    · obtain rfl := List.mem_singleton.mp he
      have heq := htake hprefix (hfree e' he').1
      rw [List.take_left] at heq
      exact absurd heq.symm (hfree e' he').2
    · rw [List.mem_singleton.mp he, List.mem_singleton.mp he']

/-- The bytes of ASCII text, cut anywhere, are those of text. -/
theorem exists_prefix_of_ascii {t : Text} (h : ∀ c ∈ t, c.toNat < 128) {q : Bytes}
    (hq : q <+: asBytes t) : ∃ u, u <+: t ∧ q = asBytes u := by
  induction t generalizing q with
  | nil => exact ⟨[], List.nil_prefix, List.prefix_nil.mp hq⟩
  | cons c t ih =>
    have hc : String.utf8EncodeChar c = [UInt8.ofNat c.toNat] := by
      rw [utf8EncodeChar_eq, encodeScalar, if_pos (Nat.le_of_lt_succ (h c List.mem_cons_self))]
    rw [asBytes_cons, hc, List.singleton_append, List.prefix_cons_iff] at hq
    rcases hq with rfl | ⟨q', rfl, hq'⟩
    · exact ⟨[], List.nil_prefix, rfl⟩
    · obtain ⟨u, hu, rfl⟩ := ih (fun c hc => h c (List.mem_cons_of_mem _ hc)) hq'
      refine ⟨c :: u, (List.prefix_cons_inj c).mpr hu, ?_⟩
      rw [asBytes_cons, hc]
      rfl

namespace LineTable

variable {ρ : Type} [DecidableEq ρ] (T : LineTable ρ)

/-- The codec that knows the rows of the table only. -/
def serde : LineSerde ρ where
  toString r :=
    match T.rows.find? fun e => e.1 = r with
    | some e => .ok e.2
    | none => .error "not in the table"
  fromStr t :=
    match T.rows.find? fun e => e.2 = t with
    | some e => .ok e.1
    | none => .error "expected value"

private theorem mem_of_toString {r : ρ} {t : Text} (h : T.serde.toString r = .ok t) :
    (r, t) ∈ T.rows := by
  simp only [serde] at h
  cases hf : T.rows.find? (fun e => e.1 = r) with
  | none => rw [hf] at h; cases h
  | some e =>
    rw [hf] at h
    cases h
    have he : e.1 = r := by simpa using List.find?_some hf
    rw [← he]
    exact List.mem_of_find?_eq_some hf

theorem mem_of_fromStr {r : ρ} {t : Text} (h : T.serde.fromStr t = .ok r) : (r, t) ∈ T.rows := by
  simp only [serde] at h
  cases hf : T.rows.find? (fun e => e.2 = t) with
  | none => rw [hf] at h; cases h
  | some e =>
    rw [hf] at h
    cases h
    have he : e.2 = t := by simpa using List.find?_some hf
    rw [← he]
    exact List.mem_of_find?_eq_some hf

private theorem fromStr_eq {r : ρ} {t u : Text} (hm : (r, t) ∈ T.rows) (hu : u <+: t) :
    (u = t ∧ T.serde.fromStr u = .ok r) ∨ ∃ e, T.serde.fromStr u = .error e := by
  simp only [serde]
  cases hf : T.rows.find? (fun e => e.2 = u) with
  | none => exact Or.inr ⟨_, rfl⟩
  | some e =>
    have he : e.2 = u := by simpa using List.find?_some hf
    obtain rfl := T.prefixFree _ hm e (List.mem_of_find?_eq_some hf) (he ▸ hu)
    exact Or.inl ⟨he.symm, rfl⟩

theorem toString_single (r : ρ) (t : Text) (ht : t.all plain = true) (hne : t ≠ []) :
    (LineTable.single r t ht hne).serde.toString r = .ok t := by
  simp [serde, single]

theorem toString_snoc {r : ρ} {head rest : Text}
    (ht : (head ++ rest).all plain = true) (hne : head ≠ [])
    (hfree : ∀ e ∈ T.rows, head.length ≤ e.2.length ∧ e.2.take head.length ≠ head)
    (hnew : ∀ e ∈ T.rows, e.1 ≠ r) :
    (T.snoc r head rest ht hne hfree).serde.toString r = .ok (head ++ rest) := by
  have hnone : T.rows.find? (fun e => e.1 = r) = none :=
    List.find?_eq_none.mpr fun e he => by simpa using hnew e he
  simp [serde, snoc, hnone]

/-- A table is a codec the stores can rely on. -/
theorem faithful (r : ρ) : T.serde.Faithful r where
  decodes t ht := by
    rcases T.fromStr_eq (T.mem_of_toString ht) (List.prefix_refl t) with ⟨-, h⟩ | ⟨e, h⟩
    · exact h
    · have hm := T.mem_of_toString ht
      simp only [serde] at h
      cases hf : T.rows.find? (fun e => e.2 = t) with
      | none => exact absurd (List.find?_eq_none.mp hf _ hm) (by simp)
      | some e' => rw [hf] at h; cases h
  oneLine t ht := T.oneLine _ (T.mem_of_toString ht)
  prefixFails t ht q hq hne := by
    have hm := T.mem_of_toString ht
    have hascii : ∀ c ∈ t, c.toNat < 128 := by simpa using T.ascii _ hm
    obtain ⟨u, hu, rfl⟩ := exists_prefix_of_ascii hascii hq
    rw [fromUtf8Lossy_asBytes]
    rcases T.fromStr_eq hm hu with ⟨rfl, -⟩ | h
    · exact absurd rfl hne
    · exact h

/-- The lines of some rows are the log of their records. -/
theorem encodes {rows : List (ρ × Text)} (h : ∀ e ∈ rows, T.serde.toString e.1 = .ok e.2) :
    Encodes T.serde (rows.map Prod.fst) (rows.flatMap fun e => wireLine e.2) := by
  refine ⟨rows.map Prod.snd, ?_, by simp [List.flatMap_map]⟩
  induction rows with
  | nil => exact .nil
  | cons e rows ih =>
    have he : T.serde.Writes e.1 e.2 := ⟨T.faithful e.1, h e List.mem_cons_self⟩
    exact .cons he (ih fun e' he' => h e' (List.mem_cons_of_mem _ he'))

end LineTable

/-- The codec that knows one snapshot only. -/
def FileSerde.single {κ : Type} [DecidableEq κ] (snap : κ) (bytes : Bytes) : FileSerde κ where
  toWriter k := if k = snap then .ok bytes else .error "not the snapshot"
  fromReader b := if b = bytes then .ok snap else .error "expected value"

theorem FileSerde.single_toWriter {κ : Type} [DecidableEq κ] (snap : κ) (bytes : Bytes) :
    (FileSerde.single snap bytes).toWriter snap = .ok bytes := if_pos rfl

theorem FileSerde.single_faithful {κ : Type} [DecidableEq κ] (snap : κ) (bytes : Bytes) (k : κ) :
    (FileSerde.single snap bytes).Faithful k := by
  intro b hb
  simp only [FileSerde.single] at hb ⊢
  split_ifs at hb with hk
  cases hb
  rw [if_pos rfl, hk]

end Kaleidoscope
