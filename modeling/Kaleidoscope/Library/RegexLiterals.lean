import Kaleidoscope.Library.Regex

/-!
# Literal texts as regular expressions

A text is turned into a pattern by a backslash before every character that has a meaning of its own.
Behind the flag for case such a pattern is read as the sequence of the characters of the text.
-/

namespace Regex

/-- `regex_syntax::is_meta_character`. -/
def metaCharacters : List Char :=
  ['\\', '.', '+', '*', '?', '(', ')', '|', '[', ']', '\x7b', '\x7d', '^', '$', '#', '&', '-', '~']

/-- A text with a backslash before every character of a set. -/
def escapeWith (set : List Char) (t : List Char) : List Char :=
  t.flatMap fun c => if c ∈ set then ['\\', c] else [c]

/-- `regex::escape`. -/
def escape (t : List Char) : List Char := escapeWith metaCharacters t

@[simp] theorem escape_nil : escape [] = [] := rfl

theorem escape_cons_of_mem {c : Char} (h : c ∈ metaCharacters) (t : List Char) :
    escape (c :: t) = '\\' :: c :: escape t := by
  simp [escape, escapeWith, h]

theorem escape_cons_of_notMem {c : Char} (h : c ∉ metaCharacters) (t : List Char) :
    escape (c :: t) = c :: escape t := by
  simp [escape, escapeWith, h]

variable {A F : Type}

/-- How a dialect reads characters behind the flag for case: a metacharacter stands for itself
behind a backslash, and any other character where no backslash is before it. Two characters of one
case fold match each other. -/
structure Dialect.Literals (d : Dialect A F) (fold : Char → Char) where
  /-- The flags behind `(?i)`. -/
  insensitive : F
  literal : Char → A
  next_flag : ∀ chars,
    d.next d.flags ('(' :: '?' :: 'i' :: ')' :: chars) = .token (.setFlags insensitive) chars
  next_nil : d.next insensitive [] = .finished
  next_escaped : ∀ {c} chars, c ∈ metaCharacters →
    d.next insensitive ('\\' :: c :: chars) = .token (.atom (literal c)) chars
  next_plain : ∀ {c} chars, c ∉ metaCharacters →
    d.next insensitive (c :: chars) = .token (.atom (literal c)) chars
  denote_literal : ∀ c text i j, d.denote (literal c) text i j ↔
    ∃ x, text[i]? = some x ∧ fold x = fold c ∧ j = i + 1

namespace Dialect.Literals

variable {d : Dialect A F} {fold : Char → Char} (L : d.Literals fold)

/-- The atoms of a text. -/
def atoms (t : List Char) : List (Expr A) := t.map fun c => .atom (L.literal c)

/-- The characters that are left are read one by one. -/
theorem read_escape (items : List (Expr A)) (t : List Char) :
    d.read ⟨⟨[], items⟩, L.insensitive, [], []⟩ (escape t) =
      .ok (concat (items ++ L.atoms t)) := by
  induction t generalizing items with
  | nil =>
    rw [escape_nil, d.read_finished L.next_nil rfl]
    simp [Level.expr, atoms]
  | cons c t ih =>
    have hnext : d.next L.insensitive (escape (c :: t)) =
        .token (.atom (L.literal c)) (escape t) := by
      by_cases hc : c ∈ metaCharacters
      · rw [escape_cons_of_mem hc, L.next_escaped _ hc]
      · rw [escape_cons_of_notMem hc, L.next_plain _ hc]
    rw [d.read_token hnext rfl]
    refine (ih (items ++ [.atom (L.literal c)])).trans ?_
    rw [List.append_assoc]
    rfl

/-- A literal pattern is the sequence of the characters behind the flag. -/
theorem parse_escape (t : List Char) :
    d.parse (String.ofList ('(' :: '?' :: 'i' :: ')' :: escape t)) =
      .ok (concat (.setFlags :: L.atoms t)) := by
  rw [Dialect.parse, String.toList_ofList, d.read_token (L.next_flag _) rfl]
  exact L.read_escape [.setFlags] t

theorem drop_eq_cons_iff {l : List Char} {i : Nat} {y : Char} :
    l[i]? = some y ↔ l.drop i = y :: l.drop (i + 1) := by
  constructor
  · intro h
    obtain ⟨hi, rfl⟩ := List.getElem?_eq_some_iff.mp h
    exact List.drop_eq_getElem_cons hi
  · intro h
    have hhead : (l.drop i)[0]? = some y := by rw [h, List.getElem?_cons_zero]
    rwa [List.getElem?_drop, Nat.add_zero] at hhead

/-- Where the characters match: at every place where the text starts with them. -/
theorem matches_atoms_iff (t text : List Char) (i j : Nat) :
    (concat (L.atoms t)).Matches d.denote text i j ↔
      t.map fold <+: (text.map fold).drop i ∧ j = i + t.length := by
  induction t generalizing i with
  | nil => simp [atoms, concat, Expr.Matches, eq_comm]
  | cons c t ih =>
    change (∃ k, d.denote (L.literal c) text i k ∧
      (concat (L.atoms t)).Matches d.denote text k j) ↔ _
    simp only [L.denote_literal, ih]
    constructor
    · rintro ⟨_, ⟨x, hx, hfold, rfl⟩, hbegins, rfl⟩
      have hdrop : (text.map fold).drop i = fold c :: (text.map fold).drop (i + 1) :=
        drop_eq_cons_iff.mp (by rw [List.getElem?_map, hx, Option.map_some, hfold])
      rw [hdrop, List.map_cons, List.cons_prefix_cons, List.length_cons]
      exact ⟨⟨rfl, hbegins⟩, by omega⟩
    · rintro ⟨hbegins, rfl⟩
      obtain ⟨rest, hrest⟩ := hbegins
      rw [List.map_cons, List.cons_append] at hrest
      have hfirst : (text.map fold)[i]? = some (fold c) := by
        have hhead := congrArg List.head? hrest
        rw [List.head?_cons, List.head?_drop] at hhead
        exact hhead.symm
      have hdrop := drop_eq_cons_iff.mp hfirst
      rw [← hrest, List.cons.injEq] at hdrop
      obtain ⟨x, hx, hfold⟩ := Option.map_eq_some_iff.mp ((List.getElem?_map ..).symm.trans hfirst)
      rw [List.length_cons]
      exact ⟨i + 1, ⟨x, hx, hfold, rfl⟩, ⟨rest, hdrop.2⟩, by omega⟩

/-- A literal pattern is found in the texts that contain the text up to case. -/
theorem search_atoms_iff (t text : List Char) :
    d.Search (concat (.setFlags :: L.atoms t)) text ↔ t.map fold <:+: text.map fold := by
  constructor
  · rintro ⟨i, j, -, -, k, rfl, hmatches⟩
    obtain ⟨hbegins, -⟩ := (L.matches_atoms_iff t text i j).mp hmatches
    exact hbegins.isInfix.trans (List.drop_suffix i _).isInfix
  · rintro ⟨before, after, hparts⟩
    have hlength := congrArg List.length hparts
    simp only [List.length_append, List.length_map] at hlength
    refine ⟨before.length, before.length + t.length, by omega, by omega, before.length, rfl,
      (L.matches_atoms_iff t text _ _).mpr ⟨?_, rfl⟩⟩
    rw [← hparts, List.append_assoc, List.drop_left]
    exact List.prefix_append _ _

end Dialect.Literals

/-! ## A dialect of literals -/

/-- The tokens of the dialect; the flag says whether case is ignored. -/
inductive LiteralToken (f : Bool) : List Char → Token (Bool × Char) Bool → Prop
  | flag : LiteralToken f ['(', '?', 'i', ')'] (.setFlags true)
  | group : LiteralToken f ['(', '?', ':'] (.opening none f)
  | escaped {c : Char} : c ∈ metaCharacters → LiteralToken f ['\\', c] (.atom (f, c))
  | caret : LiteralToken f ['^'] .startText
  | dollar : LiteralToken f ['$'] .endText
  | closing : LiteralToken f [')'] .closing
  | bar : LiteralToken f ['|'] .bar
  | plain {c : Char} : c ∉ metaCharacters → LiteralToken f [c] (.atom (f, c))

/-- What a pattern goes on with. -/
def literalNext (f : Bool) : List Char → Lexed (Bool × Char) Bool
  | [] => .finished
  | '(' :: '?' :: 'i' :: ')' :: chars => .token (.setFlags true) chars
  | '(' :: '?' :: ':' :: chars => .token (.opening none f) chars
  | '\\' :: c :: chars => if c ∈ metaCharacters then .token (.atom (f, c)) chars else .malformed
  | '^' :: chars => .token .startText chars
  | '$' :: chars => .token .endText chars
  | ')' :: chars => .token .closing chars
  | '|' :: chars => .token .bar chars
  | c :: chars => if c ∈ metaCharacters then .malformed else .token (.atom (f, c)) chars

theorem literalNext_eq_token_iff {f : Bool} {chars rest : List Char}
    {t : Token (Bool × Char) Bool} :
    literalNext f chars = .token t rest ↔ ∃ text, LiteralToken f text t ∧ chars = text ++ rest := by
  constructor
  · intro h
    unfold literalNext at h
    split at h
    · cases h
    · cases h
      exact ⟨_, .flag, rfl⟩
    · cases h
      exact ⟨_, .group, rfl⟩
    · split_ifs at h with hc
      cases h
      exact ⟨_, .escaped hc, rfl⟩
    · cases h
      exact ⟨_, .caret, rfl⟩
    · cases h
      exact ⟨_, .dollar, rfl⟩
    · cases h
      exact ⟨_, .closing, rfl⟩
    · cases h
      exact ⟨_, .bar, rfl⟩
    · split_ifs at h with hc
      cases h
      exact ⟨_, .plain hc, rfl⟩
  · rintro ⟨text, htoken, rfl⟩
    cases htoken with
    | escaped hc => exact if_pos hc
    | @plain c hc =>
      have hne : ∀ m ∈ metaCharacters, c ≠ m := fun m hm h => hc (h ▸ hm)
      change literalNext f (c :: rest) = _
      unfold literalNext
      split
      · rename_i heq
        exact nomatch heq
      all_goals
        rename_i heq
        obtain ⟨rfl, rfl⟩ := List.cons.inj heq
      · exact absurd rfl (hne '(' (by decide))
      · exact absurd rfl (hne '(' (by decide))
      · exact absurd rfl (hne '\\' (by decide))
      · exact absurd rfl (hne '^' (by decide))
      · exact absurd rfl (hne '$' (by decide))
      · exact absurd rfl (hne ')' (by decide))
      · exact absurd rfl (hne '|' (by decide))
      · exact if_neg hc
    | _ => rfl

/-- Literals, groups, alternation and anchors, with and without case. -/
def literals : Dialect (Bool × Char) Bool where
  flags := false
  next := literalNext
  denote a text i j :=
    ∃ x, text[i]? = some x ∧ (if a.1 then x.toLower = a.2.toLower else x = a.2) ∧ j = i + 1
  next_caret chars := rfl
  next_dollar chars := rfl
  next_group chars := rfl
  consumes := by
    intro f chars t rest h
    obtain ⟨text, htoken, hchars⟩ := literalNext_eq_token_iff.mp h
    exact ⟨text, by cases htoken <;> exact List.cons_ne_nil _ _, hchars⟩
  closing_text := by
    intro f chars rest h
    obtain ⟨text, htoken, rfl⟩ := literalNext_eq_token_iff.mp h
    cases htoken
    exact ⟨[], rfl⟩
  next_before := by
    intro f chars t rest x h
    obtain ⟨text, htoken, hchars⟩ := literalNext_eq_token_iff.mp h
    refine literalNext_eq_token_iff.mpr ⟨text, htoken, ?_⟩
    exact List.append_cancel_right (hchars.trans (List.append_assoc ..).symm)
  finished_before := by
    intro f chars x h
    obtain ⟨text, htoken, hchars⟩ := literalNext_eq_token_iff.mp h
    cases htoken
    have hnil : chars = [] := by
      have hlength := congrArg List.length hchars
      rw [List.length_append, List.length_append, List.length_cons, List.length_singleton]
        at hlength
      exact List.length_eq_zero_iff.mp (by omega)
    rw [hnil]
    rfl

/-- They are read as literals. -/
def literalsLiterals : literals.Literals Char.toLower where
  insensitive := true
  literal c := (true, c)
  next_flag _ := rfl
  next_nil := rfl
  next_escaped chars hc := if_pos hc
  next_plain chars hc := literalNext_eq_token_iff.mpr ⟨_, .plain hc, rfl⟩
  denote_literal c text i j := Iff.rfl

end Regex
