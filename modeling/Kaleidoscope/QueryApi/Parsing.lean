import Mathlib.Data.List.TakeWhile
import Kaleidoscope.QueryApi.Grammar

/-!
# The parser of selectors and its grammar

Each reader of the parser takes the text of its token off the front of what is left, and succeeds on
nothing else.
-/

namespace Kaleidoscope.QueryApi

/-! ## The parser reads the tokens -/

theorem readLabelName_text (name : Name isLabelNameContinue) {x : List Char}
    (hx : Stops isLabelNameContinue x) :
    readLabelName (name.text ++ x) = .ok (String.ofList name.text, x) := by
  change readLabelName (name.first :: (name.rest ++ x)) = _
  rw [readLabelName, if_pos name.starts, takeWhile_append_stops name.goesOn hx,
    dropWhile_append_stops name.goesOn hx]
  rfl

theorem exists_name_of_readLabelName {chars rest : List Char} {label : String}
    (h : readLabelName chars = .ok (label, rest)) : ∃ name : Name isLabelNameContinue,
      chars = name.text ++ rest ∧ String.ofList name.text = label := by
  cases chars with
  | nil => cases h
  | cons c chars =>
    rw [readLabelName] at h
    split_ifs at h with hstart
    obtain ⟨rfl, rfl⟩ := Prod.mk.inj (Except.ok.inj h)
    exact ⟨⟨c, chars.takeWhile isLabelNameContinue, hstart, fun _ hd => List.mem_takeWhile_imp hd⟩,
      congrArg (c :: ·) List.takeWhile_append_dropWhile.symm, rfl⟩

theorem skipWhitespace_space (space : Space) {x : List Char} (hx : Stops isAsciiWhitespace x) :
    skipWhitespace (space.1 ++ x) = x :=
  dropWhile_append_stops space.2 hx

theorem exists_space (chars : List Char) :
    ∃ space : Space, chars = space.1 ++ skipWhitespace chars :=
  ⟨⟨chars.takeWhile isAsciiWhitespace, fun _ hc => List.mem_takeWhile_imp hc⟩,
    List.takeWhile_append_dropWhile.symm⟩

theorem readOperator_text (op : MatchOp) {x : List Char} (hx : Stops (· = '~') x) :
    readOperator (op.text ++ x) = .ok (op, x) := by
  have hhead : x.head? ≠ some '~' := fun h => by simpa using hx '~' h
  cases op <;> simp [readOperator, MatchOp.text, hhead]

theorem text_of_readOperator {chars rest : List Char} {op : MatchOp}
    (h : readOperator chars = .ok (op, rest)) : chars = op.text ++ rest := by
  rcases chars with _ | ⟨c, _ | ⟨d, chars⟩⟩ <;> simp only [readOperator] at h
  · cases h
  · split_ifs at h <;> cases h <;> simp_all [MatchOp.text]
  · split_ifs at h <;> cases h <;> simp_all [MatchOp.text]

theorem unescape_letter (e : Escape) : unescape e.letter = some e.char := by
  cases e <;> rfl

theorem exists_escape_of_unescape {c d : Char} (h : unescape c = some d) :
    ∃ e : Escape, e.letter = c ∧ e.char = d := by
  rw [unescape] at h
  split_ifs at h with h₁ h₂ h₃ h₄ <;> cases h
  · exact ⟨.quote, h₁.symm, rfl⟩
  · exact ⟨.backslash, h₂.symm, rfl⟩
  · exact ⟨.newline, h₃.symm, rfl⟩
  · exact ⟨.tab, h₄.symm, rfl⟩

theorem readLiteral_quote (value x : List Char) :
    readLiteral value ('"' :: x) = .ok (String.ofList value, x) := by
  rw [readLiteral.eq_def]
  rfl

theorem readLiteral_plain {c : Char} (hc : c ≠ '"' ∧ c ≠ '\\') (value x : List Char) :
    readLiteral value (c :: x) = readLiteral (value ++ [c]) x := by
  rw [readLiteral.eq_def]
  simp only [if_neg hc.1, if_neg hc.2]

theorem readLiteral_escape (e : Escape) (value x : List Char) :
    readLiteral value ('\\' :: e.letter :: x) = readLiteral (value ++ [e.char]) x := by
  rw [readLiteral.eq_def]
  simp only [unescape_letter]
  rfl

theorem readLiteral_text (literal : List LiteralChar) (value x : List Char) :
    readLiteral value (literal.flatMap LiteralChar.text ++ '"' :: x) =
      .ok (String.ofList (value ++ literal.map LiteralChar.char), x) := by
  induction literal generalizing value with
  | nil =>
    rw [List.map_nil, List.append_nil]
    exact readLiteral_quote value x
  | cons l literal ih =>
    rw [List.flatMap_cons, List.append_assoc, List.map_cons, List.append_cons value, ← ih]
    cases l with
    | plain c hc => exact readLiteral_plain hc value _
    | escaped e => exact readLiteral_escape e value _

theorem exists_literal_of_readLiteral {value chars rest : List Char} {decoded : String}
    (h : readLiteral value chars = .ok (decoded, rest)) : ∃ literal : List LiteralChar,
      chars = literal.flatMap LiteralChar.text ++ '"' :: rest ∧
        String.ofList (value ++ literal.map LiteralChar.char) = decoded := by
  fun_induction readLiteral value chars with
  | case1 => cases h
  | case2 value chars =>
    cases h
    exact ⟨[], rfl, by simp⟩
  | case3 => cases h
  | case4 value c chars d hescape _ ih =>
    obtain ⟨literal, rfl, hdecoded⟩ := ih h
    obtain ⟨e, rfl, rfl⟩ := exists_escape_of_unescape hescape
    exact ⟨.escaped e :: literal, rfl, by simpa [LiteralChar.char] using hdecoded⟩
  | case5 => cases h
  | case6 value c chars hquote hbackslash ih =>
    obtain ⟨literal, rfl, hdecoded⟩ := ih h
    exact ⟨.plain c ⟨hquote, hbackslash⟩ :: literal, rfl,
      by simpa [LiteralChar.char] using hdecoded⟩

theorem readStringLiteral_text (literal : List LiteralChar) (x : List Char) :
    readStringLiteral (literalText literal ++ x) =
      .ok (String.ofList (literal.map LiteralChar.char), x) := by
  change readLiteral [] ((literal.flatMap LiteralChar.text ++ ['"']) ++ x) = _
  rw [List.append_assoc]
  exact readLiteral_text literal [] x

theorem exists_literal_of_readStringLiteral {chars rest : List Char} {decoded : String}
    (h : readStringLiteral chars = .ok (decoded, rest)) : ∃ literal : List LiteralChar,
      chars = literalText literal ++ rest ∧
        String.ofList (literal.map LiteralChar.char) = decoded := by
  cases chars with
  | nil => cases h
  | cons c chars =>
    rw [readStringLiteral] at h
    split_ifs at h with hquote
    obtain ⟨literal, rfl, hdecoded⟩ := exists_literal_of_readLiteral h
    refine ⟨literal, ?_, hdecoded⟩
    rw [hquote, literalText, List.cons_append, List.append_assoc]
    rfl

/-! ## The parser accepts the grammar -/

theorem parseMatcher_text (m : MatcherTree) (x : List Char) :
    parseMatcher (m.text ++ x) = .ok (m.matcher, x) := by
  have htilde : ∀ c, isAsciiWhitespace c = true → decide (c = '~') = false := by
    intro c hc
    rcases eq_of_isAsciiWhitespace hc with rfl | rfl | rfl | rfl | rfl <;> rfl
  rw [parseMatcher_eq_ok_iff, MatcherTree.text]
  simp only [List.append_assoc]
  have hstops : Stops isLabelNameContinue
      (m.beforeOp.1 ++ (m.op.text ++ (m.afterOp.1 ++ (literalText m.literal ++ x)))) :=
    stops_space_append (fun c hc => (not_name_of_isAsciiWhitespace hc).2) (stops_operator _ _).1
  refine ⟨_, m.afterOp.1 ++ (literalText m.literal ++ x), readLabelName_text m.label hstops,
    ?_, ?_⟩
  · rw [skipWhitespace_space _ (stops_operator _ _).2]
    exact readOperator_text m.op (stops_space_append htilde (stops_literalText rfl _ _))
  · rw [skipWhitespace_space _ (stops_literalText rfl _ _)]
    exact readStringLiteral_text m.literal x

theorem exists_matcher_of_parseMatcher {chars rest : List Char} {matcher : LabelMatcher}
    (h : parseMatcher chars = .ok (matcher, rest)) :
    ∃ m : MatcherTree, chars = m.text ++ rest ∧ m.matcher = matcher := by
  obtain ⟨name, op, value⟩ := matcher
  obtain ⟨afterName, afterOp, hname, hop, hvalue⟩ := parseMatcher_eq_ok_iff.mp h
  obtain ⟨label, rfl, rfl⟩ := exists_name_of_readLabelName hname
  obtain ⟨literal, hliteral, rfl⟩ := exists_literal_of_readStringLiteral hvalue
  obtain ⟨beforeOp, hbeforeOp⟩ := exists_space afterName
  obtain ⟨afterOpSpace, hafterOp⟩ := exists_space afterOp
  refine ⟨⟨label, beforeOp, op, afterOpSpace, literal⟩, ?_, rfl⟩
  rw [hbeforeOp, text_of_readOperator hop, hafterOp, hliteral, MatcherTree.text]
  simp only [List.append_assoc]

/-- A turn of the loop that reads a matcher. -/
theorem parseMatcherList_of_parseMatcher {matchers : List LabelMatcher} {inner rest : List Char}
    {matcher : LabelMatcher} (h : parseMatcher (skipWhitespace inner) = .ok (matcher, rest)) :
    parseMatcherList matchers inner =
      match skipWhitespace rest with
      | [] => .ok (matchers ++ [matcher])
      | c :: chars =>
        if c = ',' then parseMatcherList (matchers ++ [matcher]) chars
        else .error reasonMatcherSyntax := by
  have hne : skipWhitespace inner ≠ [] := fun hnil => by
    have := length_parseMatcher h
    rw [hnil] at this
    cases this
  rw [parseMatcherList, if_neg hne]
  split
  · next reason herror =>
    rw [h] at herror
    cases herror
  · next matcher' rest' hok =>
    rw [h] at hok
    cases hok
    split
    · next hrest => rw [hrest]
    · next hrest => rw [hrest]

/-- The loop goes through a list of matchers and collects them. -/
theorem parseMatcherList_text (list : MatcherList) (matchers : List LabelMatcher) :
    parseMatcherList matchers list.text = .ok (matchers ++ list.matchers) := by
  induction list generalizing matchers with
  | nothing space =>
    have hskip : skipWhitespace (MatcherList.nothing space).text = [] := by
      rw [MatcherList.text, ← List.append_nil space.1]
      exact skipWhitespace_space space stops_nil
    rw [parseMatcherList, if_pos hskip, MatcherList.matchers, List.append_nil]
  | last before m after =>
    have hmatcher : parseMatcher (skipWhitespace (MatcherList.last before m after).text) =
        .ok (m.matcher, after.1) := by
      rw [MatcherList.text, skipWhitespace_space before (stops_matcher m _)]
      exact parseMatcher_text m after.1
    have hskip : skipWhitespace after.1 = [] := by
      rw [← List.append_nil after.1]
      exact skipWhitespace_space after stops_nil
    rw [parseMatcherList_of_parseMatcher hmatcher, hskip, MatcherList.matchers]
  | more before m after rest ih =>
    have hmatcher : parseMatcher (skipWhitespace (MatcherList.more before m after rest).text) =
        .ok (m.matcher, after.1 ++ ',' :: rest.text) := by
      rw [MatcherList.text, skipWhitespace_space before (stops_matcher m _)]
      exact parseMatcher_text m _
    rw [parseMatcherList_of_parseMatcher hmatcher,
      skipWhitespace_space after (stops_cons.mpr (by decide))]
    simp only [if_true]
    rw [ih, MatcherList.matchers, List.append_assoc, List.singleton_append]

theorem exists_list_of_parseMatcherList {matchers parsed : List LabelMatcher} {inner : List Char}
    (h : parseMatcherList matchers inner = .ok parsed) :
    ∃ list : MatcherList, inner = list.text ∧ parsed = matchers ++ list.matchers := by
  obtain ⟨before, hbefore⟩ := exists_space inner
  by_cases hskip : skipWhitespace inner = []
  · rw [parseMatcherList, if_pos hskip] at h
    cases h
    rw [hskip, List.append_nil] at hbefore
    exact ⟨.nothing before, hbefore, (List.append_nil matchers).symm⟩
  · cases hmatcher : parseMatcher (skipWhitespace inner) with
    | error reason =>
      rw [parseMatcherList, if_neg hskip] at h
      split at h
      · cases h
      · next hok =>
        rw [hmatcher] at hok
        cases hok
    | ok read =>
      obtain ⟨matcher, rest⟩ := read
      rw [parseMatcherList_of_parseMatcher hmatcher] at h
      obtain ⟨m, hm, rfl⟩ := exists_matcher_of_parseMatcher hmatcher
      obtain ⟨after, hafter⟩ := exists_space rest
      have hlength := length_parseMatcher hmatcher
      cases hrest : skipWhitespace rest with
      | nil =>
        rw [hrest] at h hafter
        cases h
        rw [List.append_nil] at hafter
        exact ⟨.last before m after, by rw [hbefore, hm, hafter]; rfl, rfl⟩
      | cons c chars =>
        rw [hrest] at h hafter
        simp only at h
        split_ifs at h with hcomma
        subst hcomma
        have hshorter : chars.length < inner.length := by
          have := length_skipWhitespace inner
          have := congrArg List.length hafter
          rw [List.length_append, List.length_cons] at this
          omega
        obtain ⟨list, rfl, rfl⟩ := exists_list_of_parseMatcherList h
        refine ⟨.more before m after list, ?_, by simp [MatcherList.matchers]⟩
        rw [hbefore, hm, hafter]
        rfl
termination_by inner.length

theorem isBareMetricName_iff {chars : List Char} :
    isBareMetricName chars = true ↔ ∃ name : Name isNameContinue, name.text = chars := by
  constructor
  · intro h
    cases chars with
    | nil => cases h
    | cons first rest =>
      obtain ⟨hstart, hrest⟩ := Bool.and_eq_true_iff.mp h
      exact ⟨⟨first, rest, hstart, List.all_eq_true.mp hrest⟩, rfl⟩
  · rintro ⟨name, rfl⟩
    exact Bool.and_eq_true_iff.mpr ⟨name.starts, List.all_eq_true.mpr name.goesOn⟩

/-- A metric name has no opening brace. -/
theorem Name.ne_brace (name : Name isNameContinue) : ∀ c ∈ name.text, decide (c ≠ '{') = true := by
  intro c hc
  rw [decide_eq_true_iff]
  rintro rfl
  rcases List.mem_cons.mp hc with hc | hc
  · exact absurd (hc ▸ name.starts) (by decide)
  · exact absurd (name.goesOn _ hc) (by decide)

theorem splitAtBrace_text (d : Derivation) :
    splitAtBrace d.text = .ok (d.name.text, d.matchers.map MatcherList.text) := by
  obtain ⟨name, matchers⟩ := d
  cases matchers with
  | none =>
    have hdrop : (name.text ++ []).dropWhile (· ≠ '{') = [] :=
      dropWhile_append_stops name.ne_brace stops_nil
    change splitAtBrace (name.text ++ []) = _
    rw [splitAtBrace, hdrop, List.append_nil]
    rfl
  | some list =>
    have hbrace : Stops (fun c => decide (c ≠ '{')) ('{' :: (list.text ++ ['}'])) :=
      stops_cons.mpr (by decide)
    have hlast : (name.text ++ '{' :: (list.text ++ ['}'])).getLast? = some '}' := by
      rw [← List.cons_append, ← List.append_assoc]
      exact List.getLast?_concat
    change splitAtBrace (name.text ++ '{' :: (list.text ++ ['}'])) = _
    rw [splitAtBrace, dropWhile_append_stops name.ne_brace hbrace,
      takeWhile_append_stops name.ne_brace hbrace]
    simp only [hlast, if_true, List.dropLast_concat]
    rfl

theorem text_of_splitAtBrace {trimmed namePart : List Char} {bracePart : Option (List Char)}
    (h : splitAtBrace trimmed = .ok (namePart, bracePart)) :
    trimmed = namePart ++ bracePart.elim [] fun inner => '{' :: (inner ++ ['}']) := by
  have hsplit : trimmed.takeWhile (· ≠ '{') ++ trimmed.dropWhile (· ≠ '{') = trimmed :=
    List.takeWhile_append_dropWhile
  have hbrace : Stops (· ≠ '{') (trimmed.dropWhile (· ≠ '{')) := stops_dropWhile trimmed
  rw [splitAtBrace] at h
  cases hdrop : trimmed.dropWhile (· ≠ '{') with
  | nil =>
    rw [hdrop] at h
    cases h
    exact (List.append_nil trimmed).symm
  | cons c afterBrace =>
    rw [hdrop] at h hbrace hsplit
    simp only at h
    split_ifs at h with hlast
    cases h
    obtain rfl : c = '{' := by simpa using stops_cons.mp hbrace
    rw [← hsplit, List.getLast?_append_of_ne_nil _ (List.cons_ne_nil _ _)] at hlast
    obtain ⟨front, hfront⟩ := List.getLast?_eq_some_iff.mp hlast
    cases front with
    | nil => cases hfront
    | cons d inner =>
      obtain rfl : afterBrace = inner ++ ['}'] := (List.cons.inj hfront).2
      rw [List.dropLast_concat]
      exact hsplit.symm

theorem parse_of_text {raw : String} {d : Derivation} (h : d.text = trim raw) :
    parse raw = .ok d.selector := by
  have hne : trim raw ≠ [] := by
    rw [← h]
    exact List.cons_ne_nil _ _
  have hname : isBareMetricName d.name.text = true := isBareMetricName_iff.mpr ⟨d.name, rfl⟩
  rw [parse, if_neg hne, ← h, splitAtBrace_text]
  simp only [hname, if_true]
  obtain ⟨name, matchers⟩ := d
  cases matchers with
  | none => rfl
  | some list =>
    change (parseMatcherList [] list.text).map _ = _
    rw [parseMatcherList_text]
    rfl

theorem exists_derivation_of_parse {raw : String} {selector : Selector}
    (h : parse raw = .ok selector) :
    ∃ d : Derivation, d.text = trim raw ∧ d.selector = selector := by
  rw [parse] at h
  split_ifs at h
  cases hsplit : splitAtBrace (trim raw) with
  | error reason => rw [hsplit] at h; cases h
  | ok parts =>
    obtain ⟨namePart, bracePart⟩ := parts
    have htext := text_of_splitAtBrace hsplit
    rw [hsplit] at h
    simp only at h
    split_ifs at h with hname
    obtain ⟨name, rfl⟩ := isBareMetricName_iff.mp hname
    cases bracePart with
    | none =>
      cases h
      exact ⟨⟨name, none⟩, htext.symm, rfl⟩
    | some inner =>
      simp only at h
      cases hlist : parseMatcherList [] inner with
      | error reason => rw [hlist] at h; cases h
      | ok matchers =>
        obtain ⟨list, rfl, rfl⟩ := exists_list_of_parseMatcherList hlist
        rw [hlist] at h
        cases h
        exact ⟨⟨name, some list⟩, htext.symm, rfl⟩

/-- The parser accepts exactly the trimmed texts that the grammar derives, with the selector of the
derivation, and the grammar is unambiguous. -/
theorem parse_iff_derives :
    (∀ raw selector, parse raw = .ok selector ↔
      ∃ d : Derivation, d.text = trim raw ∧ d.selector = selector) ∧
    Function.Injective Derivation.text := by
  refine ⟨fun raw selector => ⟨exists_derivation_of_parse, ?_⟩, Derivation.text_injective⟩
  rintro ⟨d, htext, rfl⟩
  exact parse_of_text htext

end Kaleidoscope.QueryApi
