import Kaleidoscope.Library.Occurrences
import Kaleidoscope.Library.Traverse
import Kaleidoscope.Prism.Explorer
import Kaleidoscope.Prism.QueryRange

/-!
# Header values on the screen

Every text that `queryRange` makes part of an outcome goes through the redaction of the configured
header values. The names of labels do not, nor does what a label holds in place of a text.
-/

namespace Kaleidoscope.Prism

open Occurrences

/-- The length of a text, which counts a character beyond the basic plane twice. -/
def utf16Length (t : List Char) : Nat := (t.map fun c => if c.toNat < 0x10000 then 1 else 2).sum

/-- The headers that are configured, if any are. -/
abbrev Headers := Option (List (String × String))

/-- `buildRedactionTokens`. -/
def buildRedactionTokens (headers : Headers) : List (List Char) :=
  let set := ((headers.getD []).map Prod.snd).flatMap fun hv =>
    if hv = "" then []
    else hv.toList :: (hv.toList.splitOnP isSpace).filter fun piece => 4 ≤ utf16Length piece
  set.eraseDups.mergeSort fun a b => utf16Length b ≤ utf16Length a

/-- What stands in the place of a token. -/
def stars : List Char := ['*', '*', '*']

/-- `redactHeaderValues`. -/
def redactHeaderValues (value : String) (tokens : List (List Char)) : String :=
  .ofList (redact stars tokens value.toList)

section Labels

variable {N P : Type}

/-- `redactHeaderValues` of what a label holds, none where it throws: only texts and lists have an
`includes`, and only texts a `split`. -/
def redactLabelValue (tokens : List (List Char)) : Json N → Option (Json N)
  | .string s => some (.string (redactHeaderValues s tokens))
  | .array items =>
    if items.any fun item => item.string?.any fun s => s.toList ∈ tokens then none
    else some (.array items)
  | v => if tokens = [] then some v else none

/-- The members of an object; of two with one key a parser keeps the last. -/
def ownMembers : List (String × Json N) → List (String × Json N)
  | [] => []
  | m :: members =>
    if members.any fun other => other.1 = m.1 then ownMembers members else m :: ownMembers members

/-- `Object.entries`, none where it throws. -/
def objectEntries : Json N → Option (List (String × Json N))
  | .null => none
  | .object members => some (ownMembers members)
  | .array items => some (items.zipIdx.map fun (v, i) => (toString i, v))
  | .string s => some (s.toList.zipIdx.map fun (c, i) => (toString i, .string c.toString))
  | _ => some []

/-- A series as it is parsed; the labels may be missing. -/
structure PromEntry (N P : Type) where
  metric : Option (Json N)
  points : List P

/-- A series with labels. -/
structure LabelledSeries (N P : Type) where
  labels : List (String × Json N)
  points : List P

/-- The redaction of a label. -/
def redactLabel (tokens : List (List Char)) (label : String × Json N) : Option (String × Json N) :=
  (redactLabelValue tokens label.2).map fun v => (label.1, v)

/-- The redaction of a series. -/
def redactSeries (tokens : List (List Char)) (s : PromEntry N P) : Option (LabelledSeries N P) := do
  let entries ← s.metric.bind objectEntries
  let labels ← entries.mapM (redactLabel tokens)
  return ⟨labels, s.points⟩

/-- `JSON.parse`, and a point of `parseSeries`, which throws at a pair that is none. -/
structure PromReader (N P : Type) where
  json : String → Except Thrown (Json N)
  point : Json N → Option P

namespace PromReader

variable (reader : PromReader N P)

/-- `parseSeries`, none where it throws. -/
def parseSeries (result : List (Json N)) : Option (List (PromEntry N P)) :=
  result.mapM fun entry => do
    let values ← (entry.member? "values").bind Json.elements?
    let points ← values.mapM reader.point
    return ⟨entry.member? "metric", points⟩

/-- `queryRange` after the body was parsed. -/
def answered (tokens : List (List Char)) (head : Head) (body : String) (queryMs : Nat) :
    Option (QueryOutcome (LabelledSeries N P)) :=
  let json := reader.json body
  if !head.ok then
    match json.toOption.bind promError? with
    | some error => some (.parseError (redactHeaderValues error tokens) queryMs)
    | none =>
      let message := redactHeaderValues (excerpt body) tokens
      some (.transportError (.httpStatus head.status message) queryMs)
  else
    match json with
    | .error err =>
      some (.transportError (.invalidJson (redactHeaderValues err.text tokens)) queryMs)
    | .ok json =>
      match promError? json with
      | some error => some (.parseError (redactHeaderValues error tokens) queryMs)
      | none =>
        match promResult? json with
        | none =>
          let message := redactHeaderValues "response missing data.result" tokens
          some (.transportError (.shape message) queryMs)
        | some [] => some (.empty queryMs)
        | some result => do
          let entries ← reader.parseSeries result
          let series ← entries.mapM (redactSeries tokens)
          return .success series queryMs

/-- `queryRange`; none where it throws. -/
def queryRange (headers : Headers) (fetched : Except Thrown Response) (queryMs : Nat) :
    Option (QueryOutcome (LabelledSeries N P)) :=
  let tokens := buildRedactionTokens headers
  match fetched with
  | .error err =>
    let cause := if err.IsAbort then .aborted else .network (redactHeaderValues err.text tokens)
    some (.transportError cause queryMs)
  | .ok response =>
    match response.text with
    | .error err =>
      some (.transportError (.network (redactHeaderValues err.text tokens)) queryMs)
    | .ok body => reader.answered tokens response.head body queryMs

end PromReader

end Labels

/-! ## What is redacted -/

section Tokens

variable {headers : Headers}

/-- A text that is not to be shown: a header value, or a piece of one between white space that is
not short. -/
def IsSecret (headers : Headers) (t : List Char) : Prop :=
  ∃ header ∈ headers.getD [], header.2 ≠ "" ∧
    (t = header.2.toList ∨ t ∈ header.2.toList.splitOnP isSpace ∧ 4 ≤ utf16Length t)

theorem mem_buildRedactionTokens {t : List Char} :
    t ∈ buildRedactionTokens headers ↔ IsSecret headers t := by
  simp only [buildRedactionTokens, List.mem_mergeSort, List.mem_eraseDups, List.mem_flatMap,
    List.mem_map, exists_exists_and_eq_and, IsSecret]
  refine exists_congr fun header => and_congr_right fun _ => ?_
  split_ifs with hempty
  · simp [hempty]
  · simp [hempty]

theorem IsSecret.ne_nil {t : List Char} (h : IsSecret headers t) : t ≠ [] := by
  rintro rfl
  obtain ⟨header, -, hne, heq | ⟨-, hlong⟩⟩ := h
  · exact hne (String.toList_eq_nil_iff.mp heq.symm)
  · exact absurd hlong (by decide)

/-- A text in which nothing occurs that is not to be shown. -/
def Free (headers : Headers) (text : String) : Prop :=
  ∀ t, IsSecret headers t → ¬t <:+: text.toList

/-- A token that stars can not complete. -/
structure StarSafe (t : List Char) : Prop where
  head : t.head? ≠ some '*'
  last : t.getLast? ≠ some '*'
  inside : ¬stars <:+: t

theorem eq_star_of_mem_stars {c : Char} (h : c ∈ stars) : c = '*' := by
  simpa [stars] using h

theorem StarSafe.apart {t : List Char} (h : StarSafe t) (hne : t ≠ []) : Apart stars t := by
  have hstart (p : List Char) (hp : p ≠ []) (hbegins : p <+: t) (hstars : ∀ c ∈ p, c ∈ stars) :
      False := by
    obtain ⟨c, p, rfl⟩ := List.exists_cons_of_ne_nil hp
    obtain ⟨rest, rfl⟩ := hbegins
    refine h.head ?_
    rw [List.cons_append, List.head?_cons, eq_star_of_mem_stars (hstars c List.mem_cons_self)]
  refine ⟨fun p hp hbegins hends => ?_, fun p hp hends hbegins => ?_, h.inside,
    fun hinner => ?_⟩
  · exact hstart p hp hbegins fun c hc => hends.subset hc
  · obtain ⟨p, c, rfl⟩ := (List.eq_nil_or_concat' p).resolve_left hp
    obtain ⟨rest, rfl⟩ := hends
    refine h.last ?_
    have hc : c ∈ stars := hbegins.subset (by simp)
    rw [← List.append_assoc, List.getLast?_concat, eq_star_of_mem_stars hc]
  · exact hstart t hne List.prefix_rfl fun c hc => hinner.subset hc

/-- What an occurrence reads. -/
theorem getElem?_of_prefix_drop {t s : List Char} {i : Nat} (h : t <+: s.drop i) {j : Nat}
    (hj : j < t.length) : s[i + j]? = t[j]? := by
  rw [← List.getElem?_drop, List.prefix_iff_getElem?.mp h j hj, List.getElem?_eq_getElem hj]

/-- A token that stars can complete is left by its own redaction from some text. -/
theorem exists_infix_redact {t : List Char} (hne : t ≠ []) (h : ¬StarSafe t) :
    ∃ s, t <:+: redact stars [t] s := by
  by_cases hhead : t.head? = some '*'
  · -- the rest of the token follows the token
    obtain ⟨c, u, rfl⟩ := List.exists_cons_of_ne_nil hne
    obtain rfl : c = '*' := Option.some.inj hhead
    refine ⟨[] ++ (('*' :: u) ++ u), ?_⟩
    rw [redact_singleton (v := []) (fun i hi => absurd hi (Nat.not_lt_zero i))
      (Nat.lt_succ_self _)]
    exact ⟨['*', '*'], [], by simp [stars]⟩
  by_cases hlast : t.getLast? = some '*'
  · -- the rest of the token is followed by the token
    obtain ⟨u, c, rfl⟩ := (List.eq_nil_or_concat' t).resolve_left hne
    obtain rfl : c = '*' := by simpa using hlast
    refine ⟨u ++ ((u ++ ['*']) ++ []), ?_⟩
    rw [redact_singleton (fun i hi hbegins => hhead ?_) (by simp)]
    · exact ⟨[], ['*', '*'], by simp [stars]⟩
    · have hend := getElem?_of_prefix_drop hbegins (j := u.length) (by simp)
      have hstart := getElem?_of_prefix_drop hbegins (j := 0) (by simp)
      rw [Nat.add_comm, List.getElem?_append_right (Nat.le_add_right _ _), Nat.add_sub_cancel_left,
        List.append_nil, List.getElem?_append_left hi, List.getElem?_concat_length] at hend
      rw [Nat.add_zero, List.getElem?_append_left hi, hend] at hstart
      rw [List.head?_eq_getElem?, ← hstart]
  · have hinside : ∃ n, stars <+: t.drop n := by
      by_contra hnone
      refine h ⟨hhead, hlast, fun ⟨a, b, hab⟩ => hnone ⟨a.length, b, ?_⟩⟩
      rw [← hab, List.append_assoc, List.drop_left]
    -- the first three stars of the token are put in between what is around them
    obtain ⟨n, hn⟩ : ∃ n, n = Nat.find hinside := ⟨_, rfl⟩
    obtain ⟨b, hb⟩ : stars <+: t.drop n := hn ▸ Nat.find_spec hinside
    have ht : t = t.take n ++ (stars ++ b) := by rw [hb, List.take_append_drop]
    have hlong : n + 3 + b.length = t.length := by
      have hdrop := congrArg List.length hb
      rw [List.length_append, List.length_drop] at hdrop
      have : stars.length = 3 := rfl
      omega
    have htake : (t.take n).length = n := by
      rw [List.length_take]
      omega
    refine ⟨t.take n ++ (t ++ b), ?_⟩
    rw [redact_singleton (fun i hi hbegins => ?_) (by omega), ← ht]
    rw [htake] at hi
    refine Nat.find_min hinside (hn ▸ hi) (List.prefix_iff_getElem?.mpr fun k hk => ?_)
    have hk : k < 3 := hk
    have hstar : t[n + k]? = some stars[k] := by
      rw [← List.getElem?_drop, ← hb, List.getElem?_append_left hk, List.getElem?_eq_getElem hk]
    have hread := getElem?_of_prefix_drop hbegins (j := n + k) (by omega)
    rw [hstar, List.getElem?_append_right (by omega), htake, List.getElem?_append_left (by omega),
      show i + (n + k) - n = i + k by omega] at hread
    rw [List.getElem?_drop, hread]
    rfl

/-- A token is never left by its own redaction exactly if stars can not complete it. -/
theorem starSafe_iff {t : List Char} (hne : t ≠ []) :
    StarSafe t ↔ ∀ s, ¬t <:+: redact stars [t] s := by
  constructor
  · intro hsafe s hoccurs
    have hleft := (hsafe.apart hne).infix_redact (fun u hu => List.mem_singleton.mp hu ▸ hne)
      hoccurs
    exact hleft.2 (List.mem_singleton_self t)
  · intro h
    by_contra hsafe
    obtain ⟨s, hs⟩ := exists_infix_redact hne hsafe
    exact h s hs

/-- Every token is or has one that stars can not complete. -/
def Covered (headers : Headers) : Prop :=
  ∀ t, IsSecret headers t → ∃ u, IsSecret headers u ∧ StarSafe u ∧ u <:+: t

/-- Nothing is changed in a text where nothing is to be hidden. -/
theorem redactHeaderValues_of_free {text : String} (h : Free headers text) :
    redactHeaderValues text (buildRedactionTokens headers) = text := by
  have hredact := redact_of_not_infix (r := stars) (s := text.toList)
    fun t ht => h t (mem_buildRedactionTokens.mp ht)
  rw [redactHeaderValues, hredact, String.ofList_toList]

/-- Nothing is left that was to be hidden. -/
theorem free_redactHeaderValues {text : String} (h : Covered headers ∨ Free headers text) :
    Free headers (redactHeaderValues text (buildRedactionTokens headers)) := by
  rcases h with hcovered | hfree
  · intro t ht hoccurs
    obtain ⟨u, hu, hsafe, hut⟩ := hcovered t ht
    rw [redactHeaderValues, String.toList_ofList] at hoccurs
    have hleft := (hsafe.apart hu.ne_nil).infix_redact
      (fun t ht => (mem_buildRedactionTokens.mp ht).ne_nil) (hut.trans hoccurs)
    exact hleft.2 (mem_buildRedactionTokens.mpr hu)
  · rw [redactHeaderValues_of_free hfree]
    exact hfree

end Tokens

section Shown

variable {N P : Type}

/-- A text in a value. -/
inductive HasText (text : String) : Json N → Prop
  | string : HasText text (.string text)
  | element {v : Json N} {items : List (Json N)} (hv : v ∈ items) (h : HasText text v) :
      HasText text (.array items)
  | key {v : Json N} {members : List (String × Json N)} (hv : (text, v) ∈ members) :
      HasText text (.object members)
  | member {k : String} {v : Json N} {members : List (String × Json N)} (hv : (k, v) ∈ members)
      (h : HasText text v) : HasText text (.object members)

/-- The message of a cause. -/
def TransportCause.message? : TransportCause → Option String
  | .network message => some message
  | .httpStatus _ message => some message
  | .invalidJson message => some message
  | .shape message => some message
  | .aborted => none

/-- A text in an outcome. -/
def Displays (text : String) : QueryOutcome (LabelledSeries N P) → Prop
  | .success series _ => ∃ s ∈ series, ∃ label ∈ s.labels, text = label.1 ∨ HasText text label.2
  | .empty _ => False
  | .parseError backendError _ => text = backendError
  | .transportError cause _ => cause.message? = some text
  | .configError message _ => text = message

/-- The same cause with another message. -/
def TransportCause.mapMessage (f : String → String) : TransportCause → TransportCause
  | .network message => .network (f message)
  | .httpStatus status message => .httpStatus status (f message)
  | .invalidJson message => .invalidJson (f message)
  | .shape message => .shape (f message)
  | .aborted => .aborted

/-- The redaction of the labels of a series. -/
def redactLabels (tokens : List (List Char)) (s : LabelledSeries N P) :
    Option (LabelledSeries N P) :=
  (s.labels.mapM (redactLabel tokens)).map fun labels => ⟨labels, s.points⟩

/-- The redaction of an outcome. -/
def redactOutcome (tokens : List (List Char)) :
    QueryOutcome (LabelledSeries N P) → Option (QueryOutcome (LabelledSeries N P))
  | .success series queryMs =>
    (series.mapM (redactLabels tokens)).map fun series => .success series queryMs
  | .empty queryMs => some (.empty queryMs)
  | .parseError backendError queryMs =>
    some (.parseError (redactHeaderValues backendError tokens) queryMs)
  | .transportError cause queryMs =>
    some (.transportError (cause.mapMessage (redactHeaderValues · tokens)) queryMs)
  | .configError message queryMs =>
    some (.configError (redactHeaderValues message tokens) queryMs)

@[simp] theorem buildRedactionTokens_none : buildRedactionTokens none = [] := by
  simp [buildRedactionTokens]

@[simp] theorem redactHeaderValues_nil (value : String) : redactHeaderValues value [] = value :=
  String.ofList_toList

theorem redactLabel_nil (label : String × Json N) : redactLabel [] label = some label := by
  obtain ⟨k, v⟩ := label
  cases v with
  | string s => simp [redactLabel, redactLabelValue]
  | array items =>
    have hnone : (items.any fun item => item.string?.any fun s => s.toList ∈ ([] : List _)) =
        false := List.any_eq_false.mpr fun item _ => by cases item.string? <;> simp
    rw [redactLabel, redactLabelValue, hnone]
    rfl
  | _ => rfl

/-- Without headers, labels stay as they are. -/
theorem redactSeries_eq (tokens : List (List Char)) (s : PromEntry N P) :
    redactSeries tokens s = (redactSeries [] s).bind (redactLabels tokens) := by
  have hnil (entries : List (String × Json N)) : entries.mapM (redactLabel []) = some entries :=
    Traverse.mapM_eq_some_iff.mpr (List.forall₂_same.mpr fun label _ => redactLabel_nil label)
  simp only [redactSeries, Option.bind_eq_bind, Option.bind_assoc]
  refine Option.bind_congr fun metric _ => Option.bind_congr fun entries _ => ?_
  simp only [hnil, Option.bind_some, Option.pure_def, redactLabels]
  cases entries.mapM (redactLabel tokens) <;> rfl

namespace PromReader

variable (reader : PromReader N P)

theorem answered_eq (tokens : List (List Char)) (head : Head) (body : String) (queryMs : Nat) :
    reader.answered tokens head body queryMs =
      (reader.answered [] head body queryMs).bind (redactOutcome tokens) := by
  simp only [answered, redactHeaderValues_nil]
  split
  · split <;> rfl
  · split
    · rfl
    · split
      · rfl
      · split
        · rfl
        · rfl
        · simp only [Option.bind_eq_bind, Option.bind_assoc]
          refine Option.bind_congr fun entries _ => ?_
          have hseries : entries.mapM (redactSeries tokens) =
              (entries.mapM (redactSeries [])).bind fun series =>
                series.mapM (redactLabels tokens) := by
            rw [← Traverse.mapM_bind_some]
            exact congrArg (entries.mapM ·) (funext (redactSeries_eq tokens))
          rw [hseries, Option.bind_assoc]
          refine Option.bind_congr fun series _ => ?_
          change _ = redactOutcome tokens (.success series queryMs)
          rw [redactOutcome]
          cases series.mapM (redactLabels tokens) <;> rfl

/-- Headers change an outcome by its redaction. -/
theorem queryRange_eq (headers : Headers) (fetched : Except Thrown Response) (queryMs : Nat) :
    reader.queryRange headers fetched queryMs =
      (reader.queryRange none fetched queryMs).bind
        (redactOutcome (buildRedactionTokens headers)) := by
  simp only [queryRange, buildRedactionTokens_none, redactHeaderValues_nil]
  split
  · split_ifs <;> rfl
  · split
    · rfl
    · exact reader.answered_eq _ _ _ _

/-- What a body is read with. -/
def toReader : Reader N (LabelledSeries N P) where
  json := reader.json
  series result := (reader.parseSeries result).bind fun entries => entries.mapM (redactSeries [])

/-- Without headers, nothing is redacted. -/
theorem queryRange_none (fetched : Except Thrown Response) (queryMs : Nat) :
    reader.queryRange none fetched queryMs = Prism.queryRange reader.toReader fetched queryMs := by
  simp only [queryRange, Prism.queryRange, buildRedactionTokens_none, redactHeaderValues_nil]
  cases fetched with
  | error err => rfl
  | ok response =>
    obtain ⟨head, text⟩ := response
    cases text with
    | error err => rfl
    | ok body =>
      simp only [answered, bodyRead, redactHeaderValues_nil, toReader]
      refine ite_congr rfl (fun _ => rfl) fun _ => ?_
      cases reader.json body with
      | error err => rfl
      | ok json =>
        cases hpromError : promError? json with
        | some error => simp only [hpromError]
        | none =>
          cases hpromResult : promResult? json with
          | none => simp only [hpromError, hpromResult]
          | some result =>
            cases result with
            | nil => simp only [hpromError, hpromResult]
            | cons entry result =>
              simp only [hpromError, hpromResult, Option.map_bind]
              exact Option.bind_congr fun entries _ => Option.map_eq_bind.symm

end PromReader

end Shown

end Kaleidoscope.Prism
