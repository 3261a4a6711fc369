import Kaleidoscope.Library.RegexLiterals
import Kaleidoscope.LogQueryApi.Filter

/-!
# The search box of the logs explorer

The text of the box goes to the server as a regular expression, escaped and behind the flag for
case. The set of characters that are escaped is a copy of the server's.
-/

namespace Kaleidoscope.Prism

open Aegis Lumen LogQueryApi QueryApi

/-- `REGEX_META_CHARACTERS`. -/
def regexMetaCharacters : List Char :=
  ['\\', '.', '+', '*', '?', '(', ')', '|', '[', ']', '\x7b', '\x7d', '^', '$', '#', '&', '-', '~']

/-- `escapeRegexLiteral`. -/
def escapeRegexLiteral (literal : String) : String :=
  String.ofList (Regex.escapeWith regexMetaCharacters literal.toList)

/-- `toCaseInsensitiveBodyRegex`. -/
def toCaseInsensitiveBodyRegex (bodyContains : String) : String :=
  "(?i)" ++ escapeRegexLiteral bodyContains

/-- The filters of a `FindLogsRequest`. -/
structure FindLogsFilters where
  bodyContains : Option String
  minSeverity : Option String

/-- `ResolvedFilter`: a parameter with its value, or a message. -/
inductive ResolvedFilter where
  | bodyRegex (value : String)
  | minSeverity (value : String)
  | refused (message : String)
  deriving DecidableEq, Repr

/-- A filter counts where its value is not empty. -/
def supplied (value : Option String) : Option String := value.filter (· ≠ "")

/-- `resolveFilter`. -/
def resolveFilter (request : FindLogsFilters) : ResolvedFilter :=
  match supplied request.bodyContains, supplied request.minSeverity with
  | some _, some _ => .refused "body search and min_severity are mutually exclusive, not both"
  | some bodyContains, none => .bodyRegex (toCaseInsensitiveBodyRegex bodyContains)
  | none, some minSeverity => .minSeverity minSeverity
  | none, none => .refused "supply exactly one of body search or min_severity"

/-- A body contains a text up to a case fold. -/
def containsFolded (fold : Char → Char) (target body : String) : Bool :=
  decide (target.toList.map fold <:+: body.toList.map fold)

/-- The pattern of a text is its escaped text behind the flag. -/
theorem toCaseInsensitiveBodyRegex_eq (s : String) :
    toCaseInsensitiveBodyRegex s =
      String.ofList ('(' :: '?' :: 'i' :: ')' :: Regex.escape s.toList) := by
  have hset : regexMetaCharacters = Regex.metaCharacters := rfl
  rw [toCaseInsensitiveBodyRegex, escapeRegexLiteral, hset]
  exact String.toList_inj.mp (by simp [Regex.escape])

section Search

variable {A F : Type} {d : Regex.Dialect A F} {fold : Char → Char} {compile : Compile}

/-- The server compiles the pattern of a text to the test for the text. -/
theorem parseBodyRegex_literal (L : d.Literals fold) (h : d.Implements compile) {s : String}
    (hlen : (toCaseInsensitiveBodyRegex s).utf8ByteSize ≤ maxBodyRegexLen) :
    parseBodyRegex compile (toCaseInsensitiveBodyRegex s) = .ok (containsFolded fold s) := by
  obtain ⟨test, hcompile, htest⟩ := h.searches (L.parse_escape s.toList)
  have hsame : test = containsFolded fold s := by
    funext body
    rw [Bool.eq_iff_iff, htest, L.search_atoms_iff, containsFolded, decide_eq_true_iff]
  have hne : (toCaseInsensitiveBodyRegex s).isEmpty = false := by
    rw [String.isEmpty_eq_false_iff, toCaseInsensitiveBodyRegex_eq]
    intro hempty
    have hchars := congrArg String.toList hempty
    rw [String.toList_ofList] at hchars
    exact nomatch hchars
  rw [parseBodyRegex, hne, if_neg Bool.false_ne_true, if_neg (not_lt.mpr hlen),
    toCaseInsensitiveBodyRegex_eq, hcompile, hsame]
  rfl

/-- What the explorer asks for: a window and the filter of the body. -/
def searchParamsOf (start end_ pattern : String) : LogsParams :=
  { start := some start, end_ := some end_, bodyRegex := some pattern }

end Search

end Kaleidoscope.Prism
