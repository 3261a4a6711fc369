import Kaleidoscope.Library.Traverse
import Kaleidoscope.QueryApi.Matrix

/-!
# Selectors

A hand-written parser reads a selector from a peekable iterator of characters, which is the list of
the characters left here. The section of the matchers lies between the first opening brace and the
last character, before any quote is looked at.
-/

namespace Kaleidoscope.QueryApi

open Pulse

/-- White space to `str::trim`. -/
def isWhiteSpace (c : Char) : Bool :=
  ('\t' ≤ c && c ≤ '\r') || c = ' ' || c = '\u0085' || c = '\u00a0' || c = '\u1680' ||
    ('\u2000' ≤ c && c ≤ '\u200a') || c = '\u2028' || c = '\u2029' || c = '\u202f' ||
    c = '\u205f' || c = '\u3000'

/-- `str::trim`. -/
def trim (raw : String) : List Char :=
  ((raw.toList.dropWhile isWhiteSpace).reverse.dropWhile isWhiteSpace).reverse

/-- `char::is_ascii_whitespace`. -/
def isAsciiWhitespace (c : Char) : Bool :=
  c = ' ' || c = '\t' || c = '\n' || c = '\x0c' || c = '\r'

/-- `is_name_start`. -/
def isNameStart (c : Char) : Bool := c.isAlpha || c = '_' || c = ':'

/-- `is_name_continue`. -/
def isNameContinue (c : Char) : Bool := c.isAlphanum || c = '_' || c = ':'

/-- `is_label_name_continue`. -/
def isLabelNameContinue (c : Char) : Bool := isNameContinue c || c = '.'

/-- `is_bare_metric_name`. -/
def isBareMetricName : List Char → Bool
  | [] => false
  | first :: rest => isNameStart first && rest.all isNameContinue

/-- `unsupported_reason`. -/
def unsupportedReason : String :=
  "unsupported query: only a bare metric name with optional = / != label " ++
    "matchers is supported at v0 (range vectors, functions, aggregations, " ++
    "and operators are not yet supported)"

def reasonMatcherSyntax : String := "malformed query: unrecognised label matcher syntax"

/-- `skip_whitespace`. -/
def skipWhitespace (chars : List Char) : List Char := chars.dropWhile isAsciiWhitespace

/-- `read_label_name`. -/
def readLabelName : List Char → Except String (String × List Char)
  | [] => .error "malformed query: a matcher is missing its label name"
  | c :: chars =>
    if isNameStart c then
      .ok (String.ofList (c :: chars.takeWhile isLabelNameContinue),
        chars.dropWhile isLabelNameContinue)
    else .error "malformed query: a matcher is missing its label name"

/-- `read_operator`. -/
def readOperator : List Char → Except String (MatchOp × List Char)
  | [] => .error reasonMatcherSyntax
  | c :: chars =>
    if c = '=' then
      if chars.head? = some '~' then .ok (.matches, chars.tail) else .ok (.equal, chars)
    else if c = '!' then
      match chars with
      | [] => .error reasonMatcherSyntax
      | d :: chars =>
        if d = '~' then .ok (.notMatches, chars)
        else if d = '=' then
          if chars.head? = some '~' then .error reasonMatcherSyntax else .ok (.notEqual, chars)
        else .error reasonMatcherSyntax
    else .error reasonMatcherSyntax

/-- What a character after a backslash stands for. -/
def unescape (c : Char) : Option Char :=
  if c = '"' then some '"' else if c = '\\' then some '\\'
  else if c = 'n' then some '\n' else if c = 't' then some '\t' else none

/-- The loop of `read_string_literal`. -/
def readLiteral (value : List Char) : List Char → Except String (String × List Char)
  | [] => .error "malformed query: a matcher string literal is not closed"
  | c :: chars =>
    if c = '"' then .ok (String.ofList value, chars)
    else if c = '\\' then
      match chars with
      | [] => .error "malformed query: unrecognised string escape in a matcher value"
      | d :: chars =>
        match unescape d with
        | some d => readLiteral (value ++ [d]) chars
        | none => .error "malformed query: unrecognised string escape in a matcher value"
    else readLiteral (value ++ [c]) chars

/-- `read_string_literal`. -/
def readStringLiteral : List Char → Except String (String × List Char)
  | [] => .error "malformed query: matcher values must be double-quoted"
  | c :: chars =>
    if c = '"' then readLiteral [] chars
    else .error "malformed query: matcher values must be double-quoted"

/-- `parse_matcher`. -/
def parseMatcher (chars : List Char) : Except String (LabelMatcher × List Char) := do
  let (name, chars) ← readLabelName chars
  let (op, chars) ← readOperator (skipWhitespace chars)
  let (value, chars) ← readStringLiteral (skipWhitespace chars)
  return (⟨name, op, value⟩, chars)

theorem length_readLabelName {chars rest : List Char} {name : String}
    (h : readLabelName chars = .ok (name, rest)) : rest.length < chars.length := by
  cases chars with
  | nil => cases h
  | cons c chars =>
    rw [readLabelName] at h
    split_ifs at h
    obtain ⟨-, rfl⟩ := Prod.mk.inj (Except.ok.inj h)
    exact Nat.lt_succ_of_le (List.dropWhile_suffix _).length_le

theorem length_readOperator {chars rest : List Char} {op : MatchOp}
    (h : readOperator chars = .ok (op, rest)) : rest.length < chars.length := by
  rcases chars with _ | ⟨c, _ | ⟨d, chars⟩⟩ <;> simp only [readOperator] at h
  · cases h
  all_goals
    split_ifs at h
    all_goals
      cases h
      simp

theorem length_readLiteral {chars rest value : List Char} {literal : String}
    (h : readLiteral value chars = .ok (literal, rest)) : rest.length < chars.length := by
  fun_induction readLiteral value chars with
  | case1 => cases h
  | case2 value chars => cases h; exact Nat.lt_succ_self _
  | case3 => cases h
  | case4 value _ _ _ _ _ ih => exact (ih h).trans (by simp)
  | case5 => cases h
  | case6 value c chars _ _ ih => exact (ih h).trans (Nat.lt_succ_self _)

theorem length_readStringLiteral {chars rest : List Char} {literal : String}
    (h : readStringLiteral chars = .ok (literal, rest)) : rest.length < chars.length := by
  cases chars with
  | nil => cases h
  | cons c chars =>
    rw [readStringLiteral] at h
    split_ifs at h
    exact (length_readLiteral h).trans (Nat.lt_succ_self _)

theorem length_skipWhitespace (chars : List Char) : (skipWhitespace chars).length ≤ chars.length :=
  (List.dropWhile_suffix _).length_le

/-- A matcher is read name, operator and value in turn. -/
theorem parseMatcher_eq_ok_iff {chars rest : List Char} {matcher : LabelMatcher} :
    parseMatcher chars = .ok (matcher, rest) ↔ ∃ afterName afterOp,
      readLabelName chars = .ok (matcher.name, afterName) ∧
        readOperator (skipWhitespace afterName) = .ok (matcher.op, afterOp) ∧
        readStringLiteral (skipWhitespace afterOp) = .ok (matcher.value, rest) := by
  simp only [parseMatcher, Traverse.bind_eq_ok_iff, Prod.exists]
  constructor
  · rintro ⟨name, afterName, hname, op, afterOp, hop, value, left, hvalue, h⟩
    cases h
    exact ⟨afterName, afterOp, hname, hop, hvalue⟩
  · rintro ⟨afterName, afterOp, hname, hop, hvalue⟩
    exact ⟨_, afterName, hname, _, afterOp, hop, _, rest, hvalue, rfl⟩

theorem length_parseMatcher {chars rest : List Char} {matcher : LabelMatcher}
    (h : parseMatcher chars = .ok (matcher, rest)) : rest.length < chars.length := by
  obtain ⟨afterName, afterOp, hname, hop, hvalue⟩ := parseMatcher_eq_ok_iff.mp h
  have := length_readLabelName hname
  have := length_readOperator hop
  have := length_readStringLiteral hvalue
  have := length_skipWhitespace afterName
  have := length_skipWhitespace afterOp
  omega

/-- The loop of `parse_matcher_list`. -/
def parseMatcherList (matchers : List LabelMatcher) (inner : List Char) :
    Except String (List LabelMatcher) :=
  if skipWhitespace inner = [] then .ok matchers
  else
    match _hmatcher : parseMatcher (skipWhitespace inner) with
    | .error reason => .error reason
    | .ok (matcher, rest) =>
      match _hrest : skipWhitespace rest with
      | [] => .ok (matchers ++ [matcher])
      | c :: chars =>
        if c = ',' then parseMatcherList (matchers ++ [matcher]) chars
        else .error reasonMatcherSyntax
termination_by inner.length
decreasing_by
  have hmatcher := length_parseMatcher _hmatcher
  have hinner := length_skipWhitespace inner
  have hlength := length_skipWhitespace rest
  rw [_hrest, List.length_cons] at hlength
  omega

/-- `split_at_brace`. -/
def splitAtBrace (trimmed : List Char) : Except String (List Char × Option (List Char)) :=
  match trimmed.dropWhile (· ≠ '{') with
  | [] => .ok (trimmed, none)
  | _ :: afterBrace =>
    if trimmed.getLast? = some '}' then
      .ok (trimmed.takeWhile (· ≠ '{'), some afterBrace.dropLast)
    else .error "malformed query: the label matcher section is not closed"

/-- `parse`. -/
def parse (raw : String) : Except String Selector :=
  let trimmed := trim raw
  if trimmed = [] then .error "unsupported query: expected a bare metric name"
  else
    match splitAtBrace trimmed with
    | .error reason => .error reason
    | .ok (namePart, bracePart) =>
      if isBareMetricName namePart then
        match bracePart with
        | some inner =>
          (parseMatcherList [] inner).map fun matchers => ⟨⟨String.ofList namePart⟩, matchers⟩
        | none => .ok ⟨⟨String.ofList namePart⟩, []⟩
      else .error unsupportedReason

end Kaleidoscope.QueryApi
