import Kaleidoscope.QueryApi.Selector

/-!
# The grammar of selectors

`metric_name [ "{" matcher_list "}" ]`, as trees that carry the side conditions of their
tokens. A tree has the text that it derives and the selector that it stands for.
-/

namespace Kaleidoscope.QueryApi

/-- A name token: a first character, then characters of a class. -/
structure Name (continues : Char → Bool) where
  first : Char
  rest : List Char
  starts : isNameStart first = true
  goesOn : ∀ c ∈ rest, continues c = true

/-- The characters of a name. -/
def Name.text {continues : Char → Bool} (name : Name continues) : List Char :=
  name.first :: name.rest

/-- White space around a token. -/
abbrev Space := { space : List Char // ∀ c ∈ space, isAsciiWhitespace c = true }

/-- The characters of an operator. -/
def MatchOp.text : MatchOp → List Char
  | .equal => ['=']
  | .notEqual => ['!', '=']
  | .matches => ['=', '~']
  | .notMatches => ['!', '~']

/-- The escapes of a string literal. -/
inductive Escape where
  | quote
  | backslash
  | newline
  | tab

/-- The letter after the backslash. -/
def Escape.letter : Escape → Char
  | quote => '"'
  | backslash => '\\'
  | newline => 'n'
  | tab => 't'

/-- The character that an escape stands for. -/
def Escape.char : Escape → Char
  | quote => '"'
  | backslash => '\\'
  | newline => '\n'
  | tab => '\t'

/-- What stands between the quotes for one character. -/
inductive LiteralChar where
  | plain (c : Char) (h : c ≠ '"' ∧ c ≠ '\\')
  | escaped (e : Escape)

def LiteralChar.text : LiteralChar → List Char
  | plain c _ => [c]
  | escaped e => ['\\', e.letter]

def LiteralChar.char : LiteralChar → Char
  | plain c _ => c
  | escaped e => e.char

/-- `label_name op string_literal`. -/
structure MatcherTree where
  label : Name isLabelNameContinue
  beforeOp : Space
  op : MatchOp
  afterOp : Space
  literal : List LiteralChar

/-- The text of a string literal, with its quotes. -/
def literalText (literal : List LiteralChar) : List Char :=
  '"' :: (literal.flatMap LiteralChar.text ++ ['"'])

def MatcherTree.text (m : MatcherTree) : List Char :=
  m.label.text ++ (m.beforeOp ++ (m.op.text ++ (m.afterOp ++ literalText m.literal)))

/-- The matcher of a tree, its escapes decoded. -/
def MatcherTree.matcher (m : MatcherTree) : LabelMatcher where
  name := String.ofList m.label.text
  op := m.op
  value := String.ofList (m.literal.map LiteralChar.char)

/-- `matcher_list`: nothing, a last matcher, or a matcher with a comma and what follows it. -/
inductive MatcherList where
  | nothing (space : Space)
  | last (before : Space) (matcher : MatcherTree) (after : Space)
  | more (before : Space) (matcher : MatcherTree) (after : Space) (rest : MatcherList)

def MatcherList.text : MatcherList → List Char
  | nothing space => space
  | last before matcher after => before ++ (matcher.text ++ after)
  | more before matcher after rest => before ++ (matcher.text ++ (after ++ ',' :: rest.text))

def MatcherList.matchers : MatcherList → List LabelMatcher
  | nothing _ => []
  | last _ m _ => [m.matcher]
  | more _ m _ rest => m.matcher :: rest.matchers

/-- The derivation of a selector. -/
structure Derivation where
  name : Name isNameContinue
  matchers : Option MatcherList

def Derivation.text (d : Derivation) : List Char :=
  d.name.text ++ d.matchers.elim [] fun list => '{' :: (list.text ++ ['}'])

/-- The selector that a derivation stands for. -/
def Derivation.selector (d : Derivation) : Selector where
  name := ⟨String.ofList d.name.text⟩
  matchers := d.matchers.elim [] MatcherList.matchers

/-! ## Tokens -/

/-- A class of characters ends before this text. -/
def Stops (p : Char → Bool) (text : List Char) : Prop := ∀ c ∈ text.head?, p c = false

section Stops

variable {p : Char → Bool} {a a' x x' : List Char}

theorem stops_nil : Stops p [] := by
  simp [Stops]

theorem stops_cons {c : Char} : Stops p (c :: x) ↔ p c = false := by
  simp [Stops]

theorem takeWhile_append_stops (ha : ∀ c ∈ a, p c = true) (hx : Stops p x) :
    (a ++ x).takeWhile p = a := by
  rw [List.takeWhile_append_of_pos ha]
  cases x with
  | nil => exact List.append_nil a
  | cons c x => simp [stops_cons.mp hx]

theorem dropWhile_append_stops (ha : ∀ c ∈ a, p c = true) (hx : Stops p x) :
    (a ++ x).dropWhile p = x := by
  rw [List.dropWhile_append_of_pos ha]
  cases x with
  | nil => rfl
  | cons c x => simp [stops_cons.mp hx]

/-- A run of a class of characters is told from what follows it. -/
theorem append_stops_inj (ha : ∀ c ∈ a, p c = true) (ha' : ∀ c ∈ a', p c = true)
    (hx : Stops p x) (hx' : Stops p x') (h : a ++ x = a' ++ x') : a = a' ∧ x = x' := by
  have htake := congrArg (List.takeWhile p) h
  have hdrop := congrArg (List.dropWhile p) h
  rw [takeWhile_append_stops ha hx, takeWhile_append_stops ha' hx'] at htake
  rw [dropWhile_append_stops ha hx, dropWhile_append_stops ha' hx'] at hdrop
  exact ⟨htake, hdrop⟩

/-- The dropped characters are of the class. -/
theorem stops_dropWhile (text : List Char) : Stops p (text.dropWhile p) := by
  intro c hc
  have := List.head?_dropWhile_not p text
  rw [Option.mem_def.mp hc] at this
  simpa using this

end Stops

theorem Name.ext {continues : Char → Bool} {name name' : Name continues}
    (h : name.text = name'.text) : name = name' := by
  obtain ⟨first, rest, _, _⟩ := name
  obtain ⟨first', rest', _, _⟩ := name'
  obtain ⟨rfl, rfl⟩ := List.cons.inj h
  rfl

/-- A name is told from what follows it. -/
theorem Name.text_append_inj {continues : Char → Bool} {name name' : Name continues}
    {x x' : List Char} (hx : Stops continues x) (hx' : Stops continues x')
    (h : name.text ++ x = name'.text ++ x') : name = name' ∧ x = x' := by
  obtain ⟨hfirst, hrest⟩ := List.cons.inj h
  obtain ⟨hrest, hx⟩ := append_stops_inj name.goesOn name'.goesOn hx hx' hrest
  exact ⟨Name.ext (congrArg₂ List.cons hfirst hrest), hx⟩

theorem Space.append_inj {space space' : Space} {x x' : List Char}
    (hx : Stops isAsciiWhitespace x) (hx' : Stops isAsciiWhitespace x')
    (h : space.1 ++ x = space'.1 ++ x') : space = space' ∧ x = x' := by
  obtain ⟨hspace, hx⟩ := append_stops_inj space.2 space'.2 hx hx' h
  exact ⟨Subtype.ext hspace, hx⟩

theorem eq_of_isAsciiWhitespace {c : Char} (h : isAsciiWhitespace c = true) :
    c = ' ' ∨ c = '\t' ∨ c = '\n' ∨ c = '\x0c' ∨ c = '\r' := by
  simpa [isAsciiWhitespace, or_assoc] using h

/-- White space is no part of a name. -/
theorem not_name_of_isAsciiWhitespace {c : Char} (h : isAsciiWhitespace c = true) :
    isNameStart c = false ∧ isLabelNameContinue c = false := by
  rcases eq_of_isAsciiWhitespace h with rfl | rfl | rfl | rfl | rfl <;> decide

theorem stops_space_append {p : Char → Bool} {space : Space} {x : List Char}
    (hp : ∀ c, isAsciiWhitespace c = true → p c = false) (hx : Stops p x) :
    Stops p (space.1 ++ x) := by
  obtain ⟨_ | ⟨c, space⟩, hspace⟩ := space
  · exact hx
  · exact stops_cons.mpr (hp c (hspace c List.mem_cons_self))

/-- An operator neither goes on a name nor is white space. -/
theorem stops_operator (op : MatchOp) (x : List Char) :
    Stops isLabelNameContinue (op.text ++ x) ∧ Stops isAsciiWhitespace (op.text ++ x) := by
  cases op <;> exact ⟨stops_cons.mpr (by decide), stops_cons.mpr (by decide)⟩

theorem stops_literalText {p : Char → Bool} (hp : p '"' = false) (literal : List LiteralChar)
    (x : List Char) : Stops p (literalText literal ++ x) :=
  stops_cons.mpr hp

/-- A matcher does not begin with white space. -/
theorem stops_matcher (m : MatcherTree) (x : List Char) :
    Stops isAsciiWhitespace (m.text ++ x) := by
  refine stops_cons.mpr ?_
  by_contra hc
  have := (not_name_of_isAsciiWhitespace (Bool.eq_true_of_not_eq_false hc)).1
  rw [m.label.starts] at this
  cases this

theorem MatchOp.text_append_inj {op op' : MatchOp} {x x' : List Char}
    (hx : Stops (· = '~') x) (hx' : Stops (· = '~') x') (h : op.text ++ x = op'.text ++ x') :
    op = op' ∧ x = x' := by
  cases op <;> cases op' <;>
    simp only [MatchOp.text, List.cons_append, List.nil_append, List.cons.injEq] at h
  case equal.matches => rw [h.2] at hx; cases stops_cons.mp hx
  case matches.equal => rw [← h.2] at hx'; cases stops_cons.mp hx'
  all_goals first | exact ⟨rfl, h.2⟩ | exact ⟨rfl, h.2.2⟩ | exact absurd h.1 (by decide) |
    exact absurd h.2.1 (by decide)

theorem LiteralChar.text_append_inj {l l' : LiteralChar} {x x' : List Char}
    (h : l.text ++ x = l'.text ++ x') : l = l' ∧ x = x' := by
  cases l with
  | plain c hc =>
    cases l' with
    | plain c' hc' =>
      obtain ⟨rfl, rfl⟩ := List.cons.inj h
      exact ⟨rfl, rfl⟩
    | escaped e' => exact absurd (List.cons.inj h).1 hc.2
  | escaped e =>
    cases l' with
    | plain c' hc' => exact absurd (List.cons.inj h).1.symm hc'.2
    | escaped e' =>
      obtain ⟨hletter, rfl⟩ := List.cons.inj (List.cons.inj h).2
      cases e <;> cases e' <;> first | exact ⟨rfl, rfl⟩ | cases hletter

/-- What stands for a character does not begin with the closing quote. -/
theorem LiteralChar.text_ne_quote (l : LiteralChar) (x x' : List Char) :
    l.text ++ x ≠ '"' :: x' := by
  intro h
  cases l with
  | plain c hc => exact hc.1 (List.cons.inj h).1
  | escaped e => cases (List.cons.inj h).1

theorem literalText_append_inj {l l' : List LiteralChar} {x x' : List Char}
    (h : literalText l ++ x = literalText l' ++ x') : l = l' ∧ x = x' := by
  replace h := (List.cons.inj h).2
  change (l.flatMap LiteralChar.text ++ ['"']) ++ x = (l'.flatMap LiteralChar.text ++ ['"']) ++ x'
    at h
  simp only [List.append_assoc, List.singleton_append] at h
  induction l generalizing l' with
  | nil =>
    cases l' with
    | nil => exact ⟨rfl, (List.cons.inj h).2⟩
    | cons c' l' =>
      rw [List.flatMap_cons, List.append_assoc] at h
      exact absurd h.symm (c'.text_ne_quote _ _)
  | cons c l ih =>
    rw [List.flatMap_cons, List.append_assoc] at h
    cases l' with
    | nil => exact absurd h (c.text_ne_quote _ _)
    | cons c' l' =>
      rw [List.flatMap_cons, List.append_assoc] at h
      obtain ⟨rfl, hrest⟩ := LiteralChar.text_append_inj h
      obtain ⟨rfl, rfl⟩ := ih hrest
      exact ⟨rfl, rfl⟩

/-! ## A text has one derivation -/

theorem MatcherTree.text_append_inj {m m' : MatcherTree} {x x' : List Char}
    (h : m.text ++ x = m'.text ++ x') : m = m' ∧ x = x' := by
  obtain ⟨label, beforeOp, op, afterOp, literal⟩ := m
  obtain ⟨label', beforeOp', op', afterOp', literal'⟩ := m'
  simp only [MatcherTree.text, List.append_assoc] at h
  have hname : ∀ c, isAsciiWhitespace c = true → isLabelNameContinue c = false :=
    fun c hc => (not_name_of_isAsciiWhitespace hc).2
  have htilde : ∀ c, isAsciiWhitespace c = true → decide (c = '~') = false := by
    intro c hc
    rcases eq_of_isAsciiWhitespace hc with rfl | rfl | rfl | rfl | rfl <;> rfl
  obtain ⟨rfl, hbefore⟩ := Name.text_append_inj (stops_space_append hname (stops_operator _ _).1)
    (stops_space_append hname (stops_operator _ _).1) h
  obtain ⟨rfl, hop⟩ := Space.append_inj (stops_operator _ _).2 (stops_operator _ _).2 hbefore
  obtain ⟨rfl, hafter⟩ := MatchOp.text_append_inj
    (stops_space_append htilde (stops_literalText rfl _ _))
    (stops_space_append htilde (stops_literalText rfl _ _)) hop
  obtain ⟨rfl, hliteral⟩ := Space.append_inj (stops_literalText rfl _ _)
    (stops_literalText rfl _ _) hafter
  obtain ⟨rfl, rfl⟩ := literalText_append_inj hliteral
  exact ⟨rfl, rfl⟩

theorem MatcherList.text_injective : Function.Injective MatcherList.text := by
  have hcomma (x : List Char) : Stops isAsciiWhitespace (',' :: x) := stops_cons.mpr rfl
  -- what follows the space before a matcher, and the space after it
  have hnothing {space before : Space} {m : MatcherTree} {x : List Char}
      (h : space.1 = before.1 ++ (m.text ++ x)) : False := by
    have h' := (Space.append_inj stops_nil (stops_matcher m x) ((List.append_nil _).trans h)).2
    cases h'
  have hlast {after after' : Space} {x : List Char} (h : after.1 = after'.1 ++ ',' :: x) :
      False := by
    cases (Space.append_inj stops_nil (hcomma x) ((List.append_nil _).trans h)).2
  have hmatcher {before before' : Space} {m m' : MatcherTree} {x x' : List Char}
      (h : before.1 ++ (m.text ++ x) = before'.1 ++ (m'.text ++ x')) :
      before = before' ∧ m = m' ∧ x = x' := by
    obtain ⟨hbefore, h⟩ := Space.append_inj (stops_matcher m x) (stops_matcher m' x') h
    exact ⟨hbefore, MatcherTree.text_append_inj h⟩
  intro l
  induction l with
  | nothing space =>
    intro l' h
    cases l' with
    | nothing space' => exact congrArg nothing (Subtype.ext h)
    | last => exact absurd h hnothing
    | more => exact absurd h hnothing
  | last before m after =>
    intro l' h
    cases l' with
    | nothing => exact absurd h.symm hnothing
    | last before' m' after' =>
      obtain ⟨rfl, rfl, hafter⟩ := hmatcher h
      rw [Subtype.ext hafter]
    | more before' m' after' rest' =>
      obtain ⟨-, -, h⟩ := hmatcher h
      exact absurd h hlast
  | more before m after rest ih =>
    intro l' h
    cases l' with
    | nothing => exact absurd h.symm hnothing
    | last before' m' after' =>
      obtain ⟨-, -, h⟩ := hmatcher h
      exact absurd h.symm hlast
    | more before' m' after' rest' =>
      obtain ⟨rfl, rfl, hafter⟩ := hmatcher h
      obtain ⟨rfl, hrest⟩ := Space.append_inj (hcomma _) (hcomma _) hafter
      rw [ih (List.cons.inj hrest).2]

/-- The grammar is unambiguous. -/
theorem Derivation.text_injective : Function.Injective Derivation.text := by
  have hstops (matchers : Option MatcherList) : Stops isNameContinue
      (matchers.elim [] fun list => '{' :: (list.text ++ ['}'])) := by
    cases matchers with
    | none => exact stops_nil
    | some list => exact stops_cons.mpr (by decide)
  rintro ⟨name, matchers⟩ ⟨name', matchers'⟩ h
  obtain ⟨rfl, hmatchers⟩ := Name.text_append_inj (hstops matchers) (hstops matchers') h
  cases matchers with
  | none =>
    cases matchers' with
    | none => rfl
    | some => cases hmatchers
  | some list =>
    cases matchers' with
    | none => cases hmatchers
    | some list' =>
      rw [MatcherList.text_injective (List.append_cancel_right (List.cons.inj hmatchers).2)]

end Kaleidoscope.QueryApi
