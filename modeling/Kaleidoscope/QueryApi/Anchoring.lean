import Kaleidoscope.Library.Regex
import Kaleidoscope.Library.Traverse
import Kaleidoscope.QueryApi.Matrix

/-!
# Anchored matchers

A pattern is compiled between `^(?:` and `)$`, so that it has to match a whole value. A pattern
that closes a group which it has not opened gets out of the brackets.
-/

namespace Kaleidoscope.QueryApi

open Pulse Regex

variable {A F : Type} (d : Dialect A F)

/-- What a matcher asks of labels. -/
def LabelMatcher.Holds (matcher : LabelMatcher) (labels : Labels) : Prop :=
  let actual := (labels.get matcher.name).getD ""
  match matcher.op with
  | .equal => actual = matcher.value
  | .notEqual => actual ≠ matcher.value
  | .matches => d.MatchesWhole matcher.value actual
  | .notMatches => ¬d.MatchesWhole matcher.value actual

/-- The filter of matchers tests whole values, and all its patterns are well formed. -/
structure Anchored (matchers : List LabelMatcher) (filter : MatcherFilter) : Prop where
  wellFormed : ∀ matcher ∈ matchers, matcher.op.isRegex = true → d.WellFormed matcher.value
  matcher : List.Forall₂
    (fun matcher compiled => ∀ labels, compiled.isMatch labels = true ↔ matcher.Holds d labels)
    matchers filter.matchers
  row : ∀ metric point, keepRow metric point filter = true ↔
    ∀ matcher ∈ matchers, matcher.Holds d (mergeLabels metric point)

variable {d} {compile : Compile}

/-! ## The compiled matchers -/

theorem forall₂_of_buildFilter {matchers : List LabelMatcher} {filter : MatcherFilter}
    (h : buildFilter compile matchers = .ok filter) :
    List.Forall₂ (fun matcher c => compileMatcher compile matcher = .ok c)
      matchers filter.matchers := by
  rw [buildFilter] at h
  cases hmapM : matchers.mapM (compileMatcher compile) with
  | error reason =>
    rw [hmapM] at h
    cases h
  | ok compiled =>
    rw [hmapM] at h
    cases h
    exact Traverse.forall₂_of_mapM_ok hmapM

/-- A regex matcher carries the test that its anchored pattern compiles to. -/
theorem compileMatcher_regex {matcher : LabelMatcher} {c : CompiledMatcher}
    (hop : matcher.op.isRegex = true) (h : compileMatcher compile matcher = .ok c) :
    ∃ test, compileAnchored compile matcher.value = some test ∧
      c = ⟨matcher.name, matcher.op, matcher.value, some test, hop⟩ := by
  rw [compileMatcher, dif_pos hop] at h
  split at h
  · next test htest =>
    cases h
    exact ⟨test, htest, rfl⟩
  · cases h

/-- A compiled matcher does what the matcher asks, when its pattern does not get out of the
brackets. -/
theorem isMatch_iff_holds (hengine : d.Implements compile) {matcher : LabelMatcher}
    {c : CompiledMatcher} (h : compileMatcher compile matcher = .ok c)
    (hcloses : matcher.op.isRegex = true → ¬d.ClosesUnopened matcher.value) :
    (matcher.op.isRegex = true → d.WellFormed matcher.value) ∧
      ∀ labels, c.isMatch labels = true ↔ matcher.Holds d labels := by
  obtain ⟨name, op, value⟩ := matcher
  cases op with
  | equal =>
    cases h
    refine ⟨fun hop => (by cases hop), fun labels => ?_⟩
    exact beq_iff_eq
  | notEqual =>
    cases h
    refine ⟨fun hop => (by cases hop), fun labels => ?_⟩
    exact bne_iff_ne
  | «matches» =>
    obtain ⟨test, htest, rfl⟩ := compileMatcher_regex rfl h
    obtain ⟨hformed, hwhole⟩ := hengine.anchored htest (hcloses rfl)
    exact ⟨fun _ => hformed, fun labels => hwhole _⟩
  | notMatches =>
    obtain ⟨test, htest, rfl⟩ := compileMatcher_regex rfl h
    obtain ⟨hformed, hwhole⟩ := hengine.anchored htest (hcloses rfl)
    refine ⟨fun _ => hformed, fun labels => ?_⟩
    change (!test ((labels.get name).getD "")) = true ↔ ¬_
    rw [← hwhole, Bool.not_eq_true', Bool.not_eq_true]

/-- Rows are kept by the matchers one by one. -/
theorem all_isMatch_iff {matchers : List LabelMatcher} {compiled : List CompiledMatcher}
    {labels : Labels} (h : List.Forall₂
      (fun matcher c => c.isMatch labels = true ↔ matcher.Holds d labels) matchers compiled) :
    compiled.all (·.isMatch labels) = true ↔ ∀ matcher ∈ matchers, matcher.Holds d labels := by
  induction h with
  | nil => simp
  | cons hmatcher _ ih =>
    simp only [List.all_cons, Bool.and_eq_true, hmatcher, ih, List.forall_mem_cons]

/-- A filter that was built tests whole values exactly if no pattern of its matchers closes a
group that it has not opened. -/
theorem anchored_iff (hengine : d.Implements compile) {matchers : List LabelMatcher}
    {filter : MatcherFilter} (hbuild : buildFilter compile matchers = .ok filter) :
    Anchored d matchers filter ↔
      ∀ matcher ∈ matchers, matcher.op.isRegex = true → ¬d.ClosesUnopened matcher.value := by
  constructor
  · intro h matcher hmatcher hop hcloses
    obtain ⟨r, hr⟩ := h.wellFormed matcher hmatcher hop
    rw [Dialect.ClosesUnopened, hr] at hcloses
    cases hcloses
  · intro hcloses
    have hmatchers := (List.forall₂_and_left matchers filter.matchers).mpr
      ⟨hcloses, forall₂_of_buildFilter hbuild⟩
    have hsound : List.Forall₂ (fun matcher c =>
        (matcher.op.isRegex = true → d.WellFormed matcher.value) ∧
          ∀ labels, c.isMatch labels = true ↔ matcher.Holds d labels)
        matchers filter.matchers :=
      hmatchers.imp fun _ _ h => isMatch_iff_holds hengine h.2 h.1
    obtain ⟨hformed, hholds⟩ := (List.forall₂_and_left matchers filter.matchers).mp hsound
    refine ⟨hformed, hholds, fun metric point => ?_⟩
    exact all_isMatch_iff (hholds.imp fun _ _ h => h (mergeLabels metric point))

theorem buildFilter_of_parse (hengine : d.Implements compile) (name pattern : String)
    {r : Expr A} (h : d.parse ("^(?:" ++ pattern ++ ")$") = .ok r) :
    ∃ test, buildFilter compile [⟨name, .matches, pattern⟩] =
        .ok ⟨[⟨name, .matches, pattern, some test, rfl⟩]⟩ ∧
      ∀ v, test v = true ↔ d.Search r v.toList := by
  obtain ⟨test, htest, hsearch⟩ := hengine.searches h
  refine ⟨test, ?_, hsearch⟩
  have hmatcher : compileMatcher compile ⟨name, .matches, pattern⟩ =
      .ok ⟨name, .matches, pattern, some test, rfl⟩ := by
    have hop : (LabelMatcher.mk name .matches pattern).op.isRegex = true := rfl
    rw [compileMatcher, dif_pos hop]
    simp only [compileAnchored, htest]
  rw [buildFilter, List.mapM_cons, hmatcher]
  rfl

theorem parse_either_anchored : Dialect.plain.parse "^(?:a|b)$" =
    .ok (.cat .startText (.cat (.group (.alt (.cat (.atom 'a') .empty) (.cat (.atom 'b') .empty)))
      (.cat .endText .empty))) := by
  refine (Dialect.plain.read_token rfl rfl).trans ?_
  refine (Dialect.plain.read_token rfl rfl).trans ?_
  refine (Dialect.plain.read_token rfl rfl).trans ?_
  refine (Dialect.plain.read_token rfl rfl).trans ?_
  refine (Dialect.plain.read_token rfl rfl).trans ?_
  refine (Dialect.plain.read_token rfl rfl).trans ?_
  refine (Dialect.plain.read_token rfl rfl).trans ?_
  exact Dialect.plain.read_finished rfl rfl

theorem parse_either : Dialect.plain.parse "a|b" =
    .ok (.alt (.cat (.atom 'a') .empty) (.cat (.atom 'b') .empty)) := by
  refine (Dialect.plain.read_token rfl rfl).trans ?_
  refine (Dialect.plain.read_token rfl rfl).trans ?_
  refine (Dialect.plain.read_token rfl rfl).trans ?_
  exact Dialect.plain.read_finished rfl rfl

/-- A filter of one pattern with a choice. -/
theorem anchored_iff_either : ∃ filter,
    buildFilter Dialect.plain.engine [⟨"code", .matches, "a|b"⟩] = .ok filter ∧
      Anchored Dialect.plain [⟨"code", .matches, "a|b"⟩] filter := by
  obtain ⟨test, hbuild, -⟩ := buildFilter_of_parse Dialect.plain.implements_engine "code" "a|b"
    parse_either_anchored
  refine ⟨_, hbuild, (anchored_iff Dialect.plain.implements_engine hbuild).mpr ?_⟩
  intro matcher hmatcher _ hcloses
  obtain rfl := List.mem_singleton.mp hmatcher
  rw [Dialect.ClosesUnopened, parse_either] at hcloses
  cases hcloses

theorem parse_reopened : Dialect.plain.parse "^(?:a)|(?:b)$" =
    .ok (.alt (.cat .startText (.cat (.group (.cat (.atom 'a') .empty)) .empty))
      (.cat (.group (.cat (.atom 'b') .empty)) (.cat .endText .empty))) := by
  refine (Dialect.plain.read_token rfl rfl).trans ?_
  refine (Dialect.plain.read_token rfl rfl).trans ?_
  refine (Dialect.plain.read_token rfl rfl).trans ?_
  refine (Dialect.plain.read_token rfl rfl).trans ?_
  refine (Dialect.plain.read_token rfl rfl).trans ?_
  refine (Dialect.plain.read_token rfl rfl).trans ?_
  refine (Dialect.plain.read_token rfl rfl).trans ?_
  refine (Dialect.plain.read_token rfl rfl).trans ?_
  refine (Dialect.plain.read_token rfl rfl).trans ?_
  exact Dialect.plain.read_finished rfl rfl

theorem closesUnopened_reopened : Dialect.plain.ClosesUnopened "a)|(?:b" := by
  refine (Dialect.plain.read_token rfl rfl).trans ?_
  exact Dialect.plain.read_error rfl rfl

/-- The pattern `a)|(?:b` is accepted, though it is not well formed, and finds its first branch
in a value that starts with it. -/
theorem closes_the_group : ∃ filter,
    buildFilter Dialect.plain.engine [⟨"code", .matches, "a)|(?:b"⟩] = .ok filter ∧
      ¬Dialect.plain.WellFormed "a)|(?:b" ∧
      (∀ compiled ∈ filter.matchers, compiled.isMatch (.single "code" "ax") = true) ∧
      ¬Anchored Dialect.plain [⟨"code", .matches, "a)|(?:b"⟩] filter := by
  obtain ⟨test, hbuild, hsearch⟩ := buildFilter_of_parse Dialect.plain.implements_engine "code"
    "a)|(?:b" parse_reopened
  have hformed : ¬Dialect.plain.WellFormed "a)|(?:b" := by
    rintro ⟨r, hr⟩
    rw [closesUnopened_reopened] at hr
    cases hr
  refine ⟨_, hbuild, hformed, ?_, fun h => hformed (h.wellFormed _ List.mem_cons_self rfl)⟩
  intro compiled hcompiled
  obtain rfl := List.mem_singleton.mp hcompiled
  refine (hsearch "ax").mpr ⟨0, 1, Nat.zero_le _, by decide, .inl ?_⟩
  exact ⟨0, ⟨rfl, rfl⟩, 1, ⟨1, ⟨rfl, rfl⟩, rfl⟩, rfl⟩

end Kaleidoscope.QueryApi
