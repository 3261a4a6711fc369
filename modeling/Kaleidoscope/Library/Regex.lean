import Mathlib.Tactic

/-!
# Regular expressions

The text of a pattern is read token by token, with the groups that are open on a stack. Which
characters make a token, and what a character, a class or an escape matches, is left to a dialect.
A pattern that is put between `^(?:` and `)$` is anchored, unless it closes that group itself.
-/

namespace Regex

/-! ## Expressions -/

/-- A regular expression over atoms. -/
inductive Expr (A : Type) where
  | empty
  | atom (a : A)
  | startText
  | endText
  /-- The place where flags change. -/
  | setFlags
  | cat (r s : Expr A)
  | alt (r s : Expr A)
  | group (r : Expr A)
  | rep (least : Nat) (most : Option Nat) (r : Expr A)

/-- As many passages of a relation as said. -/
def Passes (R : Nat → Nat → Prop) : Nat → Nat → Nat → Prop
  | 0, i, j => i = j
  | n + 1, i, j => ∃ k, R i k ∧ Passes R n k j

/-- An expression matches the part of a text between two positions. -/
def Expr.Matches {A : Type} (denote : A → List Char → Nat → Nat → Prop) (text : List Char) :
    Expr A → Nat → Nat → Prop
  | empty, i, j => i = j
  | atom a, i, j => denote a text i j
  | startText, i, j => i = j ∧ i = 0
  | endText, i, j => i = j ∧ i = text.length
  | setFlags, i, j => i = j
  | cat r s, i, j => ∃ k, r.Matches denote text i k ∧ s.Matches denote text k j
  | alt r s, i, j => r.Matches denote text i j ∨ s.Matches denote text i j
  | group r, i, j => r.Matches denote text i j
  | rep least most r, i, j =>
    ∃ n, least ≤ n ∧ (∀ m ∈ most, n ≤ m) ∧ Passes (r.Matches denote text) n i j

/-! ## Dialects -/

/-- The tokens of a pattern. -/
inductive Token (A F : Type) where
  | atom (a : A)
  | startText
  | endText
  | bar
  /-- A group, with its name and the flags inside. -/
  | opening (name : Option String) (flags : F)
  | setFlags (flags : F)
  | closing
  | rep (least : Nat) (most : Option Nat)

/-- What a pattern goes on with. -/
inductive Lexed (A F : Type) where
  | finished
  | malformed
  | token (t : Token A F) (rest : List Char)

/-- The tokens of a dialect under its flags, and what its atoms match. -/
structure Dialect (A F : Type) where
  /-- The flags that a pattern starts with. -/
  flags : F
  next : F → List Char → Lexed A F
  denote : A → List Char → Nat → Nat → Prop
  next_caret : ∀ chars, next flags ('^' :: chars) = .token .startText chars
  next_dollar : ∀ chars, next flags ('$' :: chars) = .token .endText chars
  next_group : ∀ chars, next flags ('(' :: '?' :: ':' :: chars) = .token (.opening none flags) chars
  /-- A token is a part of the text. -/
  consumes : ∀ {f chars t rest}, next f chars = .token t rest →
    ∃ text, text ≠ [] ∧ chars = text ++ rest
  /-- Only a parenthesis closes a group, behind text that is ignored. -/
  closing_text : ∀ {f chars rest}, next f chars = .token .closing rest →
    ∃ ignored, chars = ignored ++ ')' :: rest
  /-- What comes before a closing parenthesis is read as if nothing came behind it. -/
  next_before : ∀ {f chars t rest x},
    next f (chars ++ ')' :: x) = .token t (rest ++ ')' :: x) → next f chars = .token t rest
  finished_before : ∀ {f chars x},
    next f (chars ++ ')' :: x) = .token .closing x → next f chars = .finished

/-! ## The parser -/

/-- What is wrong with a pattern. -/
inductive ErrorKind where
  | malformed
  | groupUnopened
  | groupUnclosed
  | groupNameDuplicate
  | repetitionMissing
  deriving DecidableEq, Repr

/-- The alternation of a group: the branches that are complete and the items of the last one. -/
structure Level (A : Type) where
  branches : List (Expr A)
  items : List (Expr A)

/-- The items of a branch one after the other. -/
def concat {A : Type} (items : List (Expr A)) : Expr A := items.foldr .cat .empty

/-- The expression of a level. -/
def Level.expr {A : Type} (level : Level A) : Expr A :=
  level.branches.foldr .alt (concat level.items)

/-- A further item. -/
def Level.add {A : Type} (level : Level A) (item : Expr A) : Level A :=
  { level with items := level.items ++ [item] }

/-- What was read of a pattern. -/
structure State (A F : Type) where
  /-- The innermost open group. -/
  level : Level A
  flags : F
  names : List String
  /-- The groups around it, with the flags outside. -/
  outer : List (Level A × F)

/-- The state after a token. -/
def State.step {A F : Type} (s : State A F) : Token A F → Except ErrorKind (State A F)
  | .atom a => .ok { s with level := s.level.add (.atom a) }
  | .startText => .ok { s with level := s.level.add .startText }
  | .endText => .ok { s with level := s.level.add .endText }
  | .bar => .ok { s with level := ⟨s.level.branches ++ [concat s.level.items], []⟩ }
  | .opening none flags => .ok ⟨⟨[], []⟩, flags, s.names, (s.level, s.flags) :: s.outer⟩
  | .opening (some name) flags =>
    if name ∈ s.names then .error .groupNameDuplicate
    else .ok ⟨⟨[], []⟩, flags, name :: s.names, (s.level, s.flags) :: s.outer⟩
  | .setFlags flags => .ok { s with level := s.level.add .setFlags, flags := flags }
  | .closing =>
    match s.outer with
    | [] => .error .groupUnopened
    | (level, flags) :: outer => .ok ⟨level.add (.group s.level.expr), flags, s.names, outer⟩
  | .rep least most =>
    match s.level.items.getLast? with
    | none => .error .repetitionMissing
    | some .setFlags => .error .repetitionMissing
    | some item =>
      .ok { s with level := ⟨s.level.branches, s.level.items.dropLast ++ [.rep least most item]⟩ }

/-- The state inside a further group. -/
def State.within {A F : Type} (s : State A F) (base : Level A × F) : State A F :=
  { s with outer := s.outer ++ [base] }

namespace Dialect

variable {A F : Type} (d : Dialect A F)

theorem length_lt_of_next {f : F} {chars rest : List Char} {t : Token A F}
    (h : d.next f chars = .token t rest) : rest.length < chars.length := by
  obtain ⟨text, hne, rfl⟩ := d.consumes h
  have := List.length_pos_iff.mpr hne
  rw [List.length_append]
  omega

/-- Read the rest of a pattern. -/
def read (s : State A F) (chars : List Char) : Except ErrorKind (Expr A) :=
  match _h : d.next s.flags chars with
  | .malformed => .error .malformed
  | .finished =>
    match s.outer with
    | [] => .ok s.level.expr
    | _ => .error .groupUnclosed
  | .token t rest =>
    match s.step t with
    | .error kind => .error kind
    | .ok s' => read s' rest
termination_by chars.length
decreasing_by exact d.length_lt_of_next _h

/-- Parse a pattern. -/
def parse (pattern : String) : Except ErrorKind (Expr A) :=
  d.read ⟨⟨[], []⟩, d.flags, [], []⟩ pattern.toList

/-- A pattern is well formed. -/
def WellFormed (pattern : String) : Prop := ∃ r, d.parse pattern = .ok r

/-- A pattern closes a group that it has not opened. -/
def ClosesUnopened (pattern : String) : Prop := d.parse pattern = .error .groupUnopened

/-- A search: some part of the text is matched. -/
def Search (r : Expr A) (text : List Char) : Prop :=
  ∃ i j, i ≤ j ∧ j ≤ text.length ∧ r.Matches d.denote text i j

/-- A pattern matches a text from end to end. -/
def MatchesWhole (pattern : String) (text : String) : Prop :=
  ∃ r, d.parse pattern = .ok r ∧ r.Matches d.denote text.toList 0 text.toList.length

/-! ### One turn of the parser -/

theorem read_finished {s : State A F} {chars : List Char}
    (h : d.next s.flags chars = .finished) (houter : s.outer = []) :
    d.read s chars = .ok s.level.expr := by
  rw [read, h, houter]

theorem read_token {s s' : State A F} {chars rest : List Char} {t : Token A F}
    (h : d.next s.flags chars = .token t rest) (hstep : s.step t = .ok s') :
    d.read s chars = d.read s' rest := by
  rw [read, h]
  simp only [hstep]

theorem read_error {s : State A F} {chars rest : List Char} {t : Token A F} {kind : ErrorKind}
    (h : d.next s.flags chars = .token t rest) (hstep : s.step t = .error kind) :
    d.read s chars = .error kind := by
  rw [read, h]
  simp only [hstep]

/-- A pattern that is accepted ends here or goes on with a token. -/
theorem read_eq_ok {s : State A F} {chars : List Char} {r : Expr A} (h : d.read s chars = .ok r) :
    (d.next s.flags chars = .finished ∧ s.outer = [] ∧ r = s.level.expr) ∨
      ∃ t rest s', d.next s.flags chars = .token t rest ∧ s.step t = .ok s' ∧
        d.read s' rest = .ok r := by
  rw [read] at h
  split at h
  · cases h
  · next hnext =>
    split at h
    · next houter =>
      cases h
      exact .inl ⟨hnext, houter, rfl⟩
    · cases h
  · next t rest hnext =>
    split at h
    · cases h
    · next s' hstep => exact .inr ⟨t, rest, s', hnext, hstep, h⟩

/-! ### Groups that stay open -/

theorem outer_ne_nil_of_step {s s' : State A F} {t : Token A F} (h : s.step t = .ok s')
    (ht : t ≠ .closing) (houter : s.outer ≠ []) : s'.outer ≠ [] := by
  cases t with
  | closing => exact absurd rfl ht
  | opening name flags =>
    cases name with
    | none =>
      cases h
      exact List.cons_ne_nil _ _
    | some name =>
      rw [State.step] at h
      split_ifs at h
      cases h
      exact List.cons_ne_nil _ _
  | rep least most =>
    rw [State.step] at h
    split at h
    · cases h
    · cases h
    · cases h
      exact houter
  | _ =>
    cases h
    exact houter

/-- Without a closing parenthesis an open group stays open. -/
theorem read_ne_ok_of_open {s : State A F} {chars : List Char} (hchars : ')' ∉ chars)
    (houter : s.outer ≠ []) (r : Expr A) : d.read s chars ≠ .ok r := by
  induction hn : chars.length using Nat.strong_induction_on generalizing s chars with
  | _ n ih =>
    intro h
    rcases d.read_eq_ok h with ⟨-, hnil, -⟩ | ⟨t, rest, s', hnext, hstep, hread⟩
    · exact houter hnil
    · have hlength := d.length_lt_of_next hnext
      have ht : t ≠ .closing := by
        rintro rfl
        obtain ⟨ignored, rfl⟩ := d.closing_text hnext
        exact hchars (List.mem_append_right ignored List.mem_cons_self)
      have hrest : ')' ∉ rest := by
        obtain ⟨text, -, rfl⟩ := d.consumes hnext
        exact fun hmem => hchars (List.mem_append_right text hmem)
      exact ih _ (hn ▸ hlength) hrest (outer_ne_nil_of_step hstep ht houter) rfl hread

/-! ### A pattern inside a group -/

/-- A token inside a further group does what it does outside, or closes that group. -/
theorem step_within {s s' : State A F} {base : Level A × F} {t : Token A F}
    (h : (s.within base).step t = .ok s') :
    (∃ u, s.step t = .ok u ∧ s' = u.within base) ∨
      t = .closing ∧ s.outer = [] ∧
        s' = ⟨base.1.add (.group s.level.expr), base.2, s.names, []⟩ := by
  obtain ⟨level, flags, names, outer⟩ := s
  cases t with
  | closing =>
    cases outer with
    | nil =>
      cases h
      exact .inr ⟨rfl, rfl, rfl⟩
    | cons top outer =>
      cases h
      exact .inl ⟨_, rfl, rfl⟩
  | opening name flags =>
    cases name with
    | none =>
      cases h
      exact .inl ⟨_, rfl, rfl⟩
    | some name =>
      rw [State.step] at h
      split_ifs at h with hname
      cases h
      exact .inl ⟨_, if_neg hname, rfl⟩
  | rep least most =>
    simp only [State.step, State.within] at h ⊢
    split at h
    · cases h
    · cases h
    · cases h
      exact .inl ⟨_, rfl, rfl⟩
  | _ =>
    cases h
    exact .inl ⟨_, rfl, rfl⟩

theorem read_dollar {level : Level A} {names : List String} {whole : Expr A}
    (h : d.read ⟨level, d.flags, names, []⟩ ['$'] = .ok whole) :
    whole = (level.add .endText).expr := by
  rw [d.read_token (d.next_dollar []) rfl] at h
  rcases d.read_eq_ok h with ⟨-, -, hwhole⟩ | ⟨t, rest, s', hnext, -, -⟩
  · exact hwhole
  · exact absurd (d.length_lt_of_next hnext) (Nat.not_lt_zero _)

/-- A pattern that is accepted inside the group, and does not close it, is accepted outside. -/
theorem read_within {level : Level A} {s : State A F} {chars : List Char} {whole : Expr A}
    (h : d.read (s.within (level, d.flags)) (chars ++ [')', '$']) = .ok whole)
    (hne : d.read s chars ≠ .error .groupUnopened) :
    ∃ r, d.read s chars = .ok r ∧ whole = ((level.add (.group r)).add .endText).expr := by
  induction hn : chars.length using Nat.strong_induction_on generalizing s chars with
  | _ n ih =>
    have hopen (u : State A F) : (u.within (level, d.flags)).outer ≠ [] := by
      simp [State.within]
    rcases d.read_eq_ok h with ⟨-, hnil, -⟩ | ⟨t, rest, s', hnext, hstep, hread⟩
    · exact absurd hnil (hopen s)
    obtain ⟨text, -, htext⟩ := d.consumes hnext
    -- the token ends inside the pattern
    have hinside (rest' : List Char) (hrest : rest = rest' ++ [')', '$']) :
        ∃ r, d.read s chars = .ok r ∧ whole = ((level.add (.group r)).add .endText).expr := by
      rw [hrest] at hnext hread
      have hnext' : d.next s.flags chars = .token t rest' := d.next_before hnext
      rcases step_within hstep with ⟨u, hu, rfl⟩ | ⟨rfl, houter, -⟩
      · rw [d.read_token hnext' hu] at hne ⊢
        exact ih _ (hn ▸ d.length_lt_of_next hnext') hread hne rfl
      · refine absurd (d.read_error hnext' ?_) hne
        rw [State.step, houter]
    rcases List.append_eq_append_iff.mp htext with ⟨taken, -, htaken⟩ | ⟨rest', -, hrest⟩
    · cases taken with
      | nil => exact hinside [] htaken.symm
      | cons c taken =>
        -- the token reaches over the end of the pattern
        obtain ⟨rfl, htail⟩ := List.cons.inj htaken
        have hclosing : ')' ∉ rest := by
          have hdollar : ∀ c ∈ rest, c = '$' := by
            intro c hc
            exact List.mem_singleton.mp (htail ▸ List.mem_append_right taken hc)
          exact fun hmem => absurd (hdollar _ hmem) (by decide)
        rcases step_within hstep with ⟨u, -, rfl⟩ | ⟨rfl, houter, rfl⟩
        · exact absurd hread (d.read_ne_ok_of_open hclosing (hopen u) whole)
        · cases taken with
          | nil =>
            obtain rfl : rest = ['$'] := htail.symm
            have hfinished : d.next s.flags chars = .finished := d.finished_before hnext
            exact ⟨s.level.expr, d.read_finished hfinished houter, d.read_dollar hread⟩
          | cons c taken =>
            obtain ⟨-, hnil⟩ := List.cons.inj htail
            obtain rfl : rest = [] := (List.append_eq_nil_iff.mp hnil.symm).2
            obtain ⟨ignored, hignored⟩ := d.closing_text hnext
            have hlast := congrArg List.getLast? hignored
            simp at hlast
    · exact hinside rest' hrest

/-! ### Anchored patterns -/

/-- What `^(?:` and `)$` make of a pattern that does not close the group. -/
theorem parse_anchored {pattern : String} {whole : Expr A}
    (h : d.parse ("^(?:" ++ pattern ++ ")$") = .ok whole) (hne : ¬d.ClosesUnopened pattern) :
    ∃ r, d.parse pattern = .ok r ∧
      whole = .cat .startText (.cat (.group r) (.cat .endText .empty)) := by
  have hchars : ("^(?:" ++ pattern ++ ")$").toList =
      '^' :: '(' :: '?' :: ':' :: (pattern.toList ++ [')', '$']) := by
    simp
  rw [parse, hchars, d.read_token (d.next_caret _) rfl, d.read_token (d.next_group _) rfl] at h
  have hread : d.read (State.within ⟨⟨[], []⟩, d.flags, [], []⟩ (⟨[], [.startText]⟩, d.flags))
      (pattern.toList ++ [')', '$']) = .ok whole := h
  exact d.read_within hread hne

/-- The anchored pattern is found in a text when the pattern matches it from end to end. -/
theorem search_anchored (r : Expr A) (text : List Char) :
    d.Search (.cat .startText (.cat (.group r) (.cat .endText .empty))) text ↔
      r.Matches d.denote text 0 text.length := by
  constructor
  · rintro ⟨i, j, -, -, k, ⟨rfl, rfl⟩, l, hr, m, ⟨rfl, rfl⟩, rfl⟩
    exact hr
  · intro hr
    exact ⟨0, text.length, Nat.zero_le _, le_rfl, 0, ⟨rfl, rfl⟩, text.length, hr, text.length,
      ⟨rfl, rfl⟩, rfl⟩

/-! ### Engines -/

/-- An engine: the test that a pattern compiles to. -/
abbrev Engine := String → Option (String → Bool)

/-- An engine compiles the well-formed patterns, and its test is a search. -/
structure Implements (compile : Engine) : Prop where
  fails : ∀ {pattern kind}, d.parse pattern = .error kind → compile pattern = none
  searches : ∀ {pattern r}, d.parse pattern = .ok r →
    ∃ test, compile pattern = some test ∧ ∀ v, test v = true ↔ d.Search r v.toList

variable {d} {compile : Engine}

/-- An engine that compiles an anchored pattern tests whether the pattern matches a whole text,
unless the pattern closes a group that it has not opened. -/
theorem Implements.anchored (h : d.Implements compile) {pattern : String} {test : String → Bool}
    (hcompile : compile ("^(?:" ++ pattern ++ ")$") = some test)
    (hne : ¬d.ClosesUnopened pattern) :
    d.WellFormed pattern ∧ ∀ v, test v = true ↔ d.MatchesWhole pattern v := by
  cases hparse : d.parse ("^(?:" ++ pattern ++ ")$") with
  | error kind =>
    rw [h.fails hparse] at hcompile
    cases hcompile
  | ok whole =>
    obtain ⟨r, hr, rfl⟩ := d.parse_anchored hparse hne
    obtain ⟨test', htest', hsearch⟩ := h.searches hparse
    obtain rfl : test' = test := Option.some.inj (htest'.symm.trans hcompile)
    refine ⟨⟨r, hr⟩, fun v => ?_⟩
    rw [hsearch, d.search_anchored]
    constructor
    · intro hmatches
      exact ⟨r, hr, hmatches⟩
    · rintro ⟨r', hr', hmatches⟩
      obtain rfl : r = r' := Except.ok.inj (hr.symm.trans hr')
      exact hmatches

/-- The engine that searches. -/
noncomputable def engine (d : Dialect A F) : Engine := fun pattern =>
  match d.parse pattern with
  | .error _ => none
  | .ok r => some fun v => @decide (d.Search r v.toList) (Classical.propDecidable _)

theorem implements_engine (d : Dialect A F) : d.Implements d.engine where
  fails h := by rw [engine, h]
  searches {pattern r} h := by
    refine ⟨_, by rw [engine, h], fun v => ?_⟩
    exact @decide_eq_true_iff _ (Classical.propDecidable _)

/-! ### A small dialect -/

/-- The tokens of one character. The dialect has no `\`, `.`, `+`, `*`, `?`, `[` and `{`. -/
def plainToken (c : Char) : Option (Token Char Unit) :=
  if c = ')' then some .closing
  else if c = '|' then some .bar
  else if c = '^' then some .startText
  else if c = '$' then some .endText
  else if c ∈ ['\\', '.', '+', '*', '?', '[', '\x7b'] then none
  else some (.atom c)

/-- A group opens with `(` or `(?:`. -/
def plainNext : List Char → Lexed Char Unit
  | [] => .finished
  | '(' :: '?' :: ':' :: chars => .token (.opening none ()) chars
  | '(' :: '?' :: _ => .malformed
  | '(' :: chars => .token (.opening none ()) chars
  | c :: chars =>
    match plainToken c with
    | none => .malformed
    | some t => .token t chars

theorem eq_of_plainToken_closing {c : Char} (h : plainToken c = some .closing) : c = ')' := by
  rw [plainToken] at h
  split_ifs at h with hc <;> first | exact hc | cases h

/-- What a token is read from. -/
theorem plainNext_eq_token_iff {chars rest : List Char} {t : Token Char Unit} :
    plainNext chars = .token t rest ↔
      (t = .opening none () ∧ chars = '(' :: '?' :: ':' :: rest) ∨
      (t = .opening none () ∧ chars = '(' :: rest ∧ ∀ x, rest ≠ '?' :: x) ∨
      ∃ c, c ≠ '(' ∧ chars = c :: rest ∧ plainToken c = some t := by
  fun_cases plainNext chars with
  | case1 => simp
  | case2 chars => grind
  | case3 => grind
  | case4 => grind
  | case5 => grind
  | case6 => grind

/-- Groups, alternation and anchors over characters. -/
def plain : Dialect Char Unit where
  flags := ()
  next _ := plainNext
  denote c text i j := text[i]? = some c ∧ j = i + 1
  next_caret chars := rfl
  next_dollar chars := rfl
  next_group chars := rfl
  consumes := by
    intro _ chars t rest h
    rcases plainNext_eq_token_iff.mp h with ⟨-, rfl⟩ | ⟨-, rfl, -⟩ | ⟨c, -, rfl, -⟩
    · exact ⟨['(', '?', ':'], List.cons_ne_nil _ _, rfl⟩
    · exact ⟨['('], List.cons_ne_nil _ _, rfl⟩
    · exact ⟨[c], List.cons_ne_nil _ _, rfl⟩
  closing_text := by
    intro _ chars rest h
    rcases plainNext_eq_token_iff.mp h with ⟨ht, -⟩ | ⟨ht, -⟩ | ⟨c, -, rfl, ht⟩
    · cases ht
    · cases ht
    · obtain rfl := eq_of_plainToken_closing ht
      exact ⟨[], rfl⟩
  next_before := by
    intro _ chars t rest x h
    have hcancel (text : List Char) (heq : chars ++ ')' :: x = text ++ (rest ++ ')' :: x)) :
        chars = text ++ rest := List.append_cancel_right (heq.trans (List.append_assoc ..).symm)
    refine plainNext_eq_token_iff.mpr ?_
    rcases plainNext_eq_token_iff.mp h with ⟨ht, heq⟩ | ⟨ht, heq, hrest⟩ | ⟨c, hc, heq, ht⟩
    · exact .inl ⟨ht, hcancel ['(', '?', ':'] heq⟩
    · refine .inr (.inl ⟨ht, hcancel ['('] heq, ?_⟩)
      rintro y rfl
      exact hrest _ rfl
    · exact .inr (.inr ⟨c, hc, hcancel [c] heq, ht⟩)
  finished_before := by
    intro _ chars x h
    rcases plainNext_eq_token_iff.mp h with ⟨ht, -⟩ | ⟨ht, -⟩ | ⟨c, -, heq, -⟩
    · cases ht
    · cases ht
    · have hlength := congrArg List.length heq
      rw [List.length_append, List.length_cons, List.length_cons] at hlength
      obtain rfl := List.length_eq_zero_iff.mp (by omega : chars.length = 0)
      rfl

end Dialect

end Regex
