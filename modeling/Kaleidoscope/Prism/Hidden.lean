import Kaleidoscope.Prism.Redaction

/-!
# What the redaction hides

The redaction of a text hides every token, as long as no token can come to be from the stars that
are put in. What is not redacted shows: names of labels, and texts in the place of a text.
-/

namespace Kaleidoscope.Prism

open Traverse

variable {N P : Type} {headers : Headers}

/-- A label can hold a value that is redacted or passed on: a text, or a list without an item that
is a token. With tokens, anything else throws. -/
def Redactable (headers : Headers) : Json N → Prop
  | .string _ => True
  | .array items => ∀ s, .string s ∈ items → ¬IsSecret headers s.toList
  | _ => ∀ t, ¬IsSecret headers t

/-- Every label of the series can be redacted. -/
def LabelsRedactable (headers : Headers) (series : List (LabelledSeries N P)) : Prop :=
  ∀ s ∈ series, ∀ label ∈ s.labels, Redactable headers label.2

/-- Nothing that is to be hidden occurs in a name of a label, or in what a label holds in the place
of a text. -/
def LabelsFree (headers : Headers) (series : List (LabelledSeries N P)) : Prop :=
  ∀ s ∈ series, ∀ label ∈ s.labels, Free headers label.1 ∧
    (label.2.isString = false → ∀ text, HasText text label.2 → Free headers text)

/-- What the redaction is for: nothing that is to be hidden is shown, and what has nothing to hide
is passed on. -/
structure Redacted (reader : PromReader N P) (headers : Headers)
    (fetched : Except Thrown Response) (queryMs : Nat) : Prop where
  hidden : ∀ outcome, reader.queryRange headers fetched queryMs = some outcome →
    ∀ text, Displays text outcome → Free headers text
  unchanged : ∀ outcome, reader.queryRange none fetched queryMs = some outcome →
    (∀ text, Displays text outcome → Free headers text) →
      reader.queryRange headers fetched queryMs = some outcome

/-- Labels that the redaction leaves without anything to hide, or that it throws at because there is
something to hide in them. -/
def LabelsHidden (headers : Headers) (series : List (LabelledSeries N P)) (queryMs : Nat) : Prop :=
  LabelsRedactable headers series ∧ LabelsFree headers series ∨
    ¬LabelsRedactable headers series ∧
      ∃ text, Displays text (.success series queryMs) ∧ ¬Free headers text

section Labels

theorem redactable_iff (v : Json N) :
    (∃ v', redactLabelValue (buildRedactionTokens headers) v = some v') ↔
      Redactable headers v := by
  have hnil : buildRedactionTokens headers = [] ↔ ∀ t, ¬IsSecret headers t := by
    rw [List.eq_nil_iff_forall_not_mem]
    simp only [mem_buildRedactionTokens]
  cases v with
  | string s => simp [redactLabelValue, Redactable]
  | array items =>
    simp only [redactLabelValue, Redactable]
    split_ifs with htoken
    · refine iff_of_false (by simp) fun h => ?_
      obtain ⟨item, hitem, hany⟩ := List.any_eq_true.mp htoken
      cases item with
      | string s =>
        exact h s hitem (mem_buildRedactionTokens.mp (by simpa [Json.string?] using hany))
      | _ => simp [Json.string?] at hany
    · refine iff_of_true ⟨_, rfl⟩ fun s hs hsecret => htoken ?_
      refine List.any_eq_true.mpr ⟨.string s, hs, ?_⟩
      simpa [Json.string?] using mem_buildRedactionTokens.mpr hsecret
  | _ =>
    simp only [redactLabelValue, Redactable]
    rw [← hnil]
    split_ifs with h <;> simp [h]

/-- What a label holds after the redaction. -/
theorem redactLabelValue_cases {tokens : List (List Char)} {v v' : Json N}
    (h : redactLabelValue tokens v = some v') :
    (∃ s, v = .string s ∧ v' = .string (redactHeaderValues s tokens)) ∨
      v.isString = false ∧ v' = v := by
  cases v with
  | string s =>
    cases h
    exact .inl ⟨s, rfl, rfl⟩
  | _ =>
    simp only [redactLabelValue] at h
    split_ifs at h
    cases h
    exact .inr ⟨rfl, rfl⟩

theorem redactLabel_eq_some_iff {tokens : List (List Char)} {label label' : String × Json N} :
    redactLabel tokens label = some label' ↔
      label'.1 = label.1 ∧ redactLabelValue tokens label.2 = some label'.2 := by
  obtain ⟨k, v⟩ := label
  obtain ⟨k', v'⟩ := label'
  simp only [redactLabel, Option.map_eq_some_iff, Prod.mk.injEq]
  constructor
  · rintro ⟨w, hw, rfl, rfl⟩
    exact ⟨rfl, hw⟩
  · rintro ⟨rfl, hw⟩
    exact ⟨v', hw, rfl, rfl⟩

theorem redactLabels_eq_some_iff {tokens : List (List Char)} {s s' : LabelledSeries N P} :
    redactLabels tokens s = some s' ↔ s'.points = s.points ∧
      List.Forall₂ (fun label label' => redactLabel tokens label = some label')
        s.labels s'.labels := by
  obtain ⟨labels, points⟩ := s
  obtain ⟨labels', points'⟩ := s'
  simp only [redactLabels, Option.map_eq_some_iff, LabelledSeries.mk.injEq, ← mapM_eq_some_iff]
  constructor
  · rintro ⟨w, hw, rfl, rfl⟩
    exact ⟨rfl, hw⟩
  · rintro ⟨rfl, hw⟩
    exact ⟨labels', hw, rfl, rfl⟩

/-- The labels of series are redacted if each of them can be. -/
theorem exists_redactLabels_iff (series : List (LabelledSeries N P)) :
    (∃ series', series.mapM (redactLabels (buildRedactionTokens headers)) = some series') ↔
      LabelsRedactable headers series := by
  simp only [mapM_eq_some_iff, exists_forall₂_iff, LabelsRedactable]
  refine forall₂_congr fun s _ => ?_
  have hlabel (label : String × Json N) :
      (∃ label', redactLabel (buildRedactionTokens headers) label = some label') ↔
        Redactable headers label.2 := by
    rw [← redactable_iff]
    simp only [redactLabel_eq_some_iff]
    constructor
    · rintro ⟨label', -, h⟩
      exact ⟨label'.2, h⟩
    · rintro ⟨v, h⟩
      exact ⟨(label.1, v), rfl, h⟩
  simp only [← hlabel, ← exists_forall₂_iff, redactLabels_eq_some_iff]
  constructor
  · rintro ⟨s', -, h⟩
    exact ⟨s'.labels, h⟩
  · rintro ⟨labels, h⟩
    exact ⟨⟨labels, s.points⟩, rfl, h⟩

end Labels

section Series

variable {series series' : List (LabelledSeries N P)} {queryMs : Nat}

/-- A label of the redacted series is that of a label of the series, and each of those has one. -/
theorem exists_label {tokens : List (List Char)}
    (h : series.mapM (redactLabels tokens) = some series') :
    (∀ s ∈ series, ∀ label ∈ s.labels, ∃ s' ∈ series', ∃ label' ∈ s'.labels,
        redactLabel tokens label = some label') ∧
      ∀ s' ∈ series', ∀ label' ∈ s'.labels, ∃ s ∈ series, ∃ label ∈ s.labels,
        redactLabel tokens label = some label' := by
  have hall := mapM_eq_some_iff.mp h
  constructor
  · intro s hs label hlabel
    obtain ⟨s', hs', hredact⟩ := exists_mem_right hall hs
    obtain ⟨label', hlabel', h⟩ :=
      exists_mem_right (redactLabels_eq_some_iff.mp hredact).2 hlabel
    exact ⟨s', hs', label', hlabel', h⟩
  · intro s' hs' label' hlabel'
    obtain ⟨s, hs, hredact⟩ := exists_mem_left hall hs'
    obtain ⟨label, hlabel, h⟩ :=
      exists_mem_left (redactLabels_eq_some_iff.mp hredact).2 hlabel'
    exact ⟨s, hs, label, hlabel, h⟩

/-- Redacted series show nothing that is to be hidden if names, and what stands in the place of
texts, do not. -/
theorem free_success_iff
    (hsettled : Covered headers ∨
      ∀ text, Displays text (.success series queryMs) → Free headers text)
    (h : series.mapM (redactLabels (buildRedactionTokens headers)) = some series') :
    (∀ text, Displays text (.success series' queryMs) → Free headers text) ↔
      LabelsFree headers series := by
  obtain ⟨hright, hleft⟩ := exists_label h
  constructor
  · intro hfree s hs label hlabel
    obtain ⟨s', hs', label', hlabel', hredact⟩ := hright s hs label hlabel
    obtain ⟨hname, hvalue⟩ := redactLabel_eq_some_iff.mp hredact
    refine ⟨hfree _ ⟨s', hs', label', hlabel', .inl hname.symm⟩, fun hnot text htext => ?_⟩
    rcases redactLabelValue_cases hvalue with ⟨t, hstring, -⟩ | ⟨-, hsame⟩
    · rw [hstring] at hnot
      cases hnot
    · exact hfree text ⟨s', hs', label', hlabel', .inr (hsame ▸ htext)⟩
  · rintro hfree text ⟨s', hs', label', hlabel', hshown⟩
    obtain ⟨s, hs, label, hlabel, hredact⟩ := hleft s' hs' label' hlabel'
    obtain ⟨hname, hvalue⟩ := redactLabel_eq_some_iff.mp hredact
    obtain ⟨hfreeName, hfreeValue⟩ := hfree s hs label hlabel
    rcases hshown with rfl | htext
    · rw [hname]
      exact hfreeName
    · rcases redactLabelValue_cases hvalue with ⟨t, hstring, hredacted⟩ | ⟨hnot, hsame⟩
      · rw [hredacted] at htext
        cases htext
        refine free_redactHeaderValues (hsettled.imp_right fun hall => ?_)
        exact hall t ⟨s, hs, label, hlabel, .inr (hstring ▸ .string)⟩
      · exact hfreeValue hnot text (hsame ▸ htext)

/-- Series without anything to hide are redacted to themselves. -/
theorem redactLabels_of_free
    (hfree : ∀ text, Displays text (.success series queryMs) → Free headers text)
    (hredactable : LabelsRedactable headers series) :
    series.mapM (redactLabels (buildRedactionTokens headers)) = some series := by
  refine mapM_eq_some_iff.mpr (List.forall₂_same.mpr fun s hs => ?_)
  refine redactLabels_eq_some_iff.mpr ⟨rfl, List.forall₂_same.mpr fun label hlabel => ?_⟩
  refine redactLabel_eq_some_iff.mpr ⟨rfl, ?_⟩
  obtain ⟨v, hv⟩ := (redactable_iff label.2).mpr (hredactable s hs label hlabel)
  rw [hv]
  rcases redactLabelValue_cases hv with ⟨t, hstring, rfl⟩ | ⟨-, rfl⟩
  · have ht : Free headers t := hfree t ⟨s, hs, label, hlabel, .inr (hstring ▸ .string)⟩
    rw [redactHeaderValues_of_free ht, hstring]
  · rfl

end Series

section Outcome

variable {outcome : QueryOutcome (LabelledSeries N P)}

/-- Whether an outcome is one with series. -/
def IsSuccess : QueryOutcome (LabelledSeries N P) → Prop
  | .success _ _ => True
  | _ => False

/-- Without series, every text that is shown is redacted. -/
theorem redactOutcome_of_not_success (h : ¬IsSuccess outcome) (tokens : List (List Char)) :
    ∃ outcome', redactOutcome tokens outcome = some outcome' ∧
      (∀ text, Displays text outcome' → ∃ text', Displays text' outcome ∧
        text = redactHeaderValues text' tokens) ∧
      ((∀ text, Displays text outcome → redactHeaderValues text tokens = text) →
        outcome' = outcome) := by
  cases outcome with
  | success series queryMs => exact absurd trivial h
  | empty queryMs => exact ⟨_, rfl, fun _ h => h.elim, fun _ => rfl⟩
  | parseError backendError queryMs =>
    exact ⟨_, rfl, fun _ h => ⟨_, rfl, h⟩, fun h => by rw [h _ rfl]⟩
  | transportError cause queryMs =>
    cases cause with
    | aborted => exact ⟨_, rfl, fun _ h => (nomatch h), fun _ => rfl⟩
    | _ =>
      refine ⟨_, rfl, fun _ h => ⟨_, rfl, (Option.some.inj h).symm⟩, fun h => ?_⟩
      rw [TransportCause.mapMessage, h _ rfl]
  | configError message queryMs =>
    exact ⟨_, rfl, fun _ h => ⟨_, rfl, h⟩, fun h => by rw [h _ rfl]⟩

end Outcome

section Response

variable {reader : PromReader N P} {fetched : Except Thrown Response} {queryMs : Nat}

/-- An answer without series is redacted as it should be. -/
theorem redacted_of_not_success {plain : QueryOutcome (LabelledSeries N P)}
    (hplain : reader.queryRange none fetched queryMs = some plain) (hsuccess : ¬IsSuccess plain)
    (hsettled : Covered headers ∨ ∀ text, Displays text plain → Free headers text) :
    Redacted reader headers fetched queryMs := by
  have heq := reader.queryRange_eq headers fetched queryMs
  obtain ⟨outcome', hredact, hshows, hsame⟩ :=
    redactOutcome_of_not_success hsuccess (buildRedactionTokens headers)
  rw [hplain, Option.bind_some, hredact] at heq
  refine ⟨fun outcome h => ?_, fun outcome h hall => ?_⟩
  · obtain rfl := Option.some.inj (heq.symm.trans h)
    intro text htext
    obtain ⟨text', htext', rfl⟩ := hshows text htext
    exact free_redactHeaderValues (hsettled.imp_right fun h => h text' htext')
  · obtain rfl := Option.some.inj (hplain.symm.trans h)
    rw [heq, hsame fun text htext => redactHeaderValues_of_free (hall text htext)]

/-- An answer with series is, exactly if their labels are. -/
theorem redacted_success_iff {series : List (LabelledSeries N P)} {ms : Nat}
    (hplain : reader.queryRange none fetched queryMs = some (.success series ms))
    (hsettled : Covered headers ∨ ∀ text, Displays text (.success series ms) → Free headers text) :
    Redacted reader headers fetched queryMs ↔ LabelsHidden headers series ms := by
  have heq := reader.queryRange_eq headers fetched queryMs
  rw [hplain, Option.bind_some, redactOutcome] at heq
  rw [LabelsHidden]
  by_cases hredactable : LabelsRedactable headers series
  · obtain ⟨series', hseries'⟩ := (exists_redactLabels_iff series).mpr hredactable
    rw [hseries'] at heq
    simp only [hredactable, true_and, not_true_eq_false, false_and, or_false]
    rw [← free_success_iff hsettled hseries']
    refine ⟨fun h => h.hidden _ heq, fun hfree => ⟨fun outcome h => ?_, fun outcome h hall => ?_⟩⟩
    · obtain rfl := Option.some.inj (heq.symm.trans h)
      exact hfree
    · obtain rfl := Option.some.inj (hplain.symm.trans h)
      rw [redactLabels_of_free hall hredactable] at hseries'
      obtain rfl := Option.some.inj hseries'
      exact heq
  · -- the redaction throws
    have hnone : series.mapM (redactLabels (buildRedactionTokens headers)) = none :=
      Option.eq_none_iff_forall_ne_some.mpr fun series' h =>
        hredactable ((exists_redactLabels_iff series).mp ⟨series', h⟩)
    rw [hnone] at heq
    simp only [hredactable, false_and, not_false_eq_true, true_and, false_or]
    constructor
    · intro h
      by_contra hfree
      push Not at hfree
      have hsome := h.unchanged _ hplain hfree
      rw [heq] at hsome
      cases hsome
    · rintro ⟨text, htext, hsecret⟩
      refine ⟨fun outcome h => ?_, fun outcome h hall => ?_⟩
      · rw [heq] at h
        cases h
      · obtain rfl := Option.some.inj (hplain.symm.trans h)
        exact absurd (hall text htext) hsecret

end Response

/-- As long as no token can come to be from the stars that are put in, or there is nothing to hide,
a response is redacted as it should be exactly if the labels of its series are. -/
theorem redacted_iff (reader : PromReader N P) (fetched : Except Thrown Response) (queryMs : Nat)
    (hsettled : Covered headers ∨ ∀ outcome, reader.queryRange none fetched queryMs = some outcome →
      ∀ text, Displays text outcome → Free headers text) :
    Redacted reader headers fetched queryMs ↔
      ∀ series ms, reader.queryRange none fetched queryMs = some (.success series ms) →
        LabelsHidden headers series ms := by
  cases hplain : reader.queryRange none fetched queryMs with
  | none =>
    have heq := reader.queryRange_eq headers fetched queryMs
    rw [hplain, Option.bind_none] at heq
    refine iff_of_true ⟨fun outcome h => ?_, fun outcome h => ?_⟩ fun series ms h => nomatch h
    · rw [heq] at h
      cases h
    · rw [hplain] at h
      cases h
  | some plain =>
    have hsettled : Covered headers ∨ ∀ text, Displays text plain → Free headers text :=
      hsettled.imp_right fun h => h plain hplain
    by_cases hsuccess : IsSuccess plain
    · cases plain with
      | success series ms =>
        rw [redacted_success_iff hplain hsettled]
        constructor
        · rintro h series' ms' ⟨⟩
          exact h
        · exact fun h => h series ms rfl
      | _ => cases hsuccess
    · refine iff_of_true (redacted_of_not_success hplain hsuccess hsettled) fun series ms h => ?_
      obtain rfl := Option.some.inj h
      exact absurd trivial hsuccess

section Tenant

/-- A header of one word. -/
def tenantHeaders : Headers := some [("X-Tenant", "acme-secret")]

theorem isSecret_tenantHeaders {t : List Char} :
    IsSecret tenantHeaders t ↔ t = "acme-secret".toList := by
  have hpieces : "acme-secret".toList.splitOnP isSpace = ["acme-secret".toList] := by decide
  constructor
  · rintro ⟨header, hheader, -, rfl | ⟨hpiece, -⟩⟩
    · rw [List.mem_singleton.mp hheader]
    · rw [List.mem_singleton.mp hheader, hpieces] at hpiece
      exact List.mem_singleton.mp hpiece
  · rintro rfl
    exact ⟨_, List.mem_singleton_self _, by decide, .inl rfl⟩

theorem covered_tenantHeaders : Covered tenantHeaders := fun t ht =>
  ⟨t, ht, by
    rw [isSecret_tenantHeaders.mp ht]
    exact ⟨by decide, by decide, by decide⟩, List.infix_rfl⟩

/-- An answer of one series with one label. -/
def labelBody (name value : String) : String :=
  "\x7b\"status\":\"success\",\"data\":\x7b\"resultType\":\"matrix\",\"result\":[" ++
    "\x7b\"metric\":\x7b\"" ++ name ++ "\":\"" ++ value ++ "\"\x7d,\"values\":[]\x7d]\x7d\x7d"

/-- What reads the answer. -/
def labelReader (name value : String) : PromReader Unit Unit where
  json body :=
    if body = labelBody name value then
      .ok (.object [("status", .string "success"), ("data", .object [("resultType",
        .string "matrix"), ("result", .array [.object [("metric", .object [(name, .string value)]),
          ("values", .array [])]])])])
    else .error (.error "SyntaxError" "Unexpected token")
  point _ := some ()

/-- The answer, with its status. -/
def labelAnswer (name value : String) : Except Thrown Response :=
  .ok ⟨⟨true, 200⟩, .ok (labelBody name value)⟩

theorem queryRange_labelAnswer (name value : String) :
    (labelReader name value).queryRange none (labelAnswer name value) 7 =
      some (.success [⟨[(name, .string value)], []⟩] 7) := by
  have hredact : redactLabel [] (name, (.string value : Json Unit)) =
      some (name, .string value) := redactLabel_nil _
  simp [PromReader.queryRange, labelAnswer, PromReader.answered, labelReader, promError?,
    promResult?, Json.member?, Json.elements?, PromReader.parseSeries, redactSeries,
    objectEntries, ownMembers, hredact]

/-- A header value in a label's value is hidden. -/
theorem tenant_value_hidden :
    Redacted (labelReader "tenant" "acme-secret") tenantHeaders
      (labelAnswer "tenant" "acme-secret") 7 := by
  refine (redacted_iff _ _ _ (.inl covered_tenantHeaders)).mpr fun series ms h => .inl ?_
  rw [queryRange_labelAnswer] at h
  cases h
  constructor
  · intro s hs label hlabel
    rw [List.mem_singleton.mp hs] at hlabel
    rw [List.mem_singleton.mp hlabel]
    trivial
  · intro s hs label hlabel
    rw [List.mem_singleton.mp hs] at hlabel
    rw [List.mem_singleton.mp hlabel]
    refine ⟨fun t ht => ?_, fun hnot => nomatch hnot⟩
    rw [isSecret_tenantHeaders.mp ht]
    decide

/-- A header value in a label's name is shown. -/
theorem tenant_name_shown :
    ¬∀ (reader : PromReader Unit Unit) (headers : Headers) (fetched : Except Thrown Response)
      (queryMs : Nat), Redacted reader headers fetched queryMs := by
  intro h
  have hlabels := (redacted_success_iff (queryRange_labelAnswer "acme-secret" "1")
    (.inl covered_tenantHeaders)).mp (h _ _ _ _)
  have hsecret := isSecret_tenantHeaders.mpr rfl
  rcases hlabels with ⟨-, hfree⟩ | ⟨hnot, -⟩
  · exact (hfree _ (List.mem_singleton_self _) _ (List.mem_singleton_self _)).1 _ hsecret
      List.infix_rfl
  · refine hnot fun s hs label hlabel => ?_
    rw [List.mem_singleton.mp hs] at hlabel
    rw [List.mem_singleton.mp hlabel]
    trivial

end Tenant

end Kaleidoscope.Prism
