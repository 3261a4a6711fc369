import Kaleidoscope.Beacon.ParseFile
import Kaleidoscope.Codex.Fuzzy

/-!
# Suggestions of the loader

The loader counts edits in one row after the other and suggests the first of the fields that are
fewest edits away.
-/

namespace Kaleidoscope.Beacon

open EditDistance Utf8

/-! ## The rows -/

/-- The distances of a list from the beginnings of another that go on from some elements, all of
them read from the back. -/
def distances (p : Text) : Text → Text → List Nat
  | _, [] => []
  | q, d :: b => dist p (d :: q) :: distances p (d :: q) b

/-- A row is filled from the row above it. -/
theorem fillRow_distances (c : Char) (p q b : Text) :
    fillRow c b (dist p q :: distances p q b) (dist (c :: p) q) = distances (c :: p) q b := by
  induction b generalizing q with
  | nil => rfl
  | cons d b ih =>
    rw [distances, distances, fillRow, ← dist_cons_cons, ih]

/-- After some characters the row holds their distances from the beginnings of the other text. -/
theorem foldl_fillRow (a b p : Text) :
    a.foldl (fun prev c =>
      let first := prev.headD 0 + 1
      first :: fillRow c b prev first) (dist p [] :: distances p [] b) =
      dist (a.reverse ++ p) [] :: distances (a.reverse ++ p) [] b := by
  induction a generalizing p with
  | nil => rfl
  | cons c a ih =>
    have hfirst : dist p [] + 1 = dist (c :: p) [] := by simp
    rw [List.foldl_cons]
    simp only [List.headD_cons, hfirst, fillRow_distances]
    rw [ih, List.reverse_cons, List.append_assoc, List.singleton_append]

/-- The first row counts. -/
theorem range_eq_distances (b : Text) :
    List.range (b.length + 1) = dist ([] : Text) [] :: distances [] [] b := by
  have hrow (q : Text) : List.range' q.length (b.length + 1) =
      dist [] q :: distances [] q b := by
    induction b generalizing q with
    | nil => simp [distances]
    | cons d b ih =>
      have hrest := ih (d :: q)
      rw [List.length_cons] at hrest ⊢
      rw [List.range'_succ, hrest, distances, dist_nil_left q]
  rw [List.range_eq_range']
  exact hrow []

/-- The last entry of a row is the distance from the whole text. -/
theorem getLastD_distances (p q b : Text) :
    (dist p q :: distances p q b).getLastD 0 = dist p (b.reverse ++ q) := by
  induction b generalizing q with
  | nil => rfl
  | cons d b ih =>
    rw [distances, List.reverse_cons, List.append_assoc, List.singleton_append, ← ih]
    rfl

/-- The routine counts the edits. -/
theorem levenshtein_eq_dist (a b : Text) : levenshtein a b = dist a b := by
  unfold levenshtein
  split_ifs with ha hb
  · rw [ha, dist_nil_left]
  · rw [hb, dist_nil_right]
  · rw [range_eq_distances, foldl_fillRow, List.append_nil]
    simp only [getLastD_distances]
    rw [List.append_nil, dist_reverse]

/-! ## The first of the nearest -/

/-- A candidate is the first one that is fewest edits away, and few. -/
def FirstNearest (bad : Text) (candidates : List String) (name : String) : Prop :=
  ∃ before after, candidates = before ++ name :: after ∧ dist bad name.toList ≤ 3 ∧
    (∀ candidate ∈ before, dist bad name.toList < dist bad candidate.toList) ∧
    ∀ candidate ∈ after, dist bad name.toList ≤ dist bad candidate.toList

theorem FirstNearest.mem {bad : Text} {candidates : List String} {name : String}
    (h : FirstNearest bad candidates name) : name ∈ candidates := by
  obtain ⟨before, after, rfl, -⟩ := h
  simp

theorem FirstNearest.le {bad : Text} {candidates : List String} {name : String}
    (h : FirstNearest bad candidates name) : ∀ candidate ∈ candidates,
      dist bad name.toList ≤ dist bad candidate.toList := by
  obtain ⟨before, after, rfl, -, hbefore, hafter⟩ := h
  intro candidate hmem
  obtain hmem | hmem := List.mem_append.mp hmem
  · exact (hbefore candidate hmem).le
  · obtain rfl | hmem := List.mem_cons.mp hmem
    · exact le_rfl
    · exact hafter candidate hmem

theorem FirstNearest.eq {bad : Text} {candidates : List String} {name name' : String}
    (h : FirstNearest bad candidates name) (h' : FirstNearest bad candidates name') :
    name = name' := by
  have heq := le_antisymm (h.le _ h'.mem) (h'.le _ h.mem)
  obtain ⟨before, after, hsplit, -, hbefore, -⟩ := h
  obtain ⟨before', after', hsplit', -, hbefore', -⟩ := h'
  -- the one that comes second would have the other one in front of it
  obtain ⟨between, rfl, hrest⟩ | ⟨between, rfl, hrest⟩ :=
    List.append_eq_append_iff.mp (hsplit.symm.trans hsplit')
  · cases between with
    | nil => exact (List.cons.inj hrest).1
    | cons first between =>
      obtain rfl := (List.cons.inj hrest).1
      exact absurd heq (hbefore' name (by simp)).ne'
  · cases between with
    | nil => exact (List.cons.inj hrest).1.symm
    | cons first between =>
      obtain rfl := (List.cons.inj hrest).1
      exact absurd heq (hbefore name' (by simp)).ne

/-- A turn of the loop of `nearest_blessed_match`. -/
def better (bad : Text) (best : Option (String × Nat)) (candidate : String) :
    Option (String × Nat) :=
  let distance := levenshtein bad candidate.toList
  if 3 < distance then best
  else
    match best with
    | none => some (candidate, distance)
    | some (_, d) => if distance < d then some (candidate, distance) else best

/-- The loop keeps the first of the nearest candidates it has seen. -/
theorem foldl_better (bad : Text) (candidates : List String) :
    (∃ name, candidates.foldl (better bad) none = some (name, dist bad name.toList) ∧
        FirstNearest bad candidates name) ∨
      candidates.foldl (better bad) none = none ∧
        ∀ candidate ∈ candidates, 3 < dist bad candidate.toList := by
  induction candidates using List.reverseRecOn with
  | nil => exact .inr ⟨rfl, by simp⟩
  | append_singleton candidates candidate ih =>
    rw [List.foldl_concat]
    obtain ⟨name, hbest, hfirst⟩ | ⟨hbest, hfar⟩ := ih
    · rw [hbest, better, levenshtein_eq_dist]
      have hle := hfirst.le
      have hkeep (h : dist bad name.toList ≤ dist bad candidate.toList) :
          FirstNearest bad (candidates ++ [candidate]) name := by
        obtain ⟨before, after, rfl, hnear, hbefore, hafter⟩ := hfirst
        refine ⟨before, after ++ [candidate], by simp, hnear, hbefore, fun c hc => ?_⟩
        obtain hc | hc := List.mem_append.mp hc
        · exact hafter c hc
        · exact List.mem_singleton.mp hc ▸ h
      have hnear : dist bad name.toList ≤ 3 := by
        obtain ⟨before, after, -, hnear, -⟩ := hfirst
        exact hnear
      by_cases h3 : 3 < dist bad candidate.toList
      · exact .inl ⟨name, if_pos h3, hkeep (by omega)⟩
      · by_cases hlt : dist bad candidate.toList < dist bad name.toList
        · refine .inl ⟨candidate, by simp [h3, hlt], candidates, [], rfl, by omega, fun c hc => ?_,
            by simp⟩
          exact hlt.trans_le (hle c hc)
        · exact .inl ⟨name, by simp [h3, hlt], hkeep (by omega)⟩
    · rw [hbest, better, levenshtein_eq_dist]
      by_cases h3 : 3 < dist bad candidate.toList
      · refine .inr ⟨if_pos h3, fun c hc => ?_⟩
        obtain hc | hc := List.mem_append.mp hc
        · exact hfar c hc
        · exact List.mem_singleton.mp hc ▸ h3
      · refine .inl ⟨candidate, if_neg h3, candidates, [], rfl, by omega, fun c hc => ?_, by simp⟩
        exact lt_of_le_of_lt (not_lt.mp h3) (hfar c hc)

/-- The field that is suggested is the first of the nearest, and one is suggested where one is near
enough. -/
theorem nearestBlessedMatch_spec (bad : Text) :
    (∀ name, nearestBlessedMatch bad = some name ↔ FirstNearest bad blessedFields name) ∧
    ((nearestBlessedMatch bad).isSome ↔
      ∃ candidate ∈ blessedFields, dist bad candidate.toList ≤ 3) := by
  have hfold : nearestBlessedMatch bad = (blessedFields.foldl (better bad) none).map Prod.fst := rfl
  rw [hfold]
  obtain ⟨best, hbest, hfirst⟩ | ⟨hbest, hfar⟩ := foldl_better bad blessedFields
  · rw [hbest]
    refine ⟨fun name => ⟨fun h => Option.some.inj h ▸ hfirst, fun h => ?_⟩, ?_⟩
    · exact congrArg some (hfirst.eq h)
    · have hmem := hfirst.mem
      obtain ⟨before, after, -, hnear, -⟩ := hfirst
      simpa using ⟨best, hmem, hnear⟩
  · rw [hbest]
    refine ⟨fun name => ⟨fun h => absurd h.symm (Option.some_ne_none _), fun h => ?_⟩, ?_⟩
    · obtain ⟨before, after, hsplit, hnear, -⟩ := id h
      exact absurd (hfar name h.mem) (by omega)
    · simpa using hfar

/-- Both routines count the edits, and both suggest what is fewest edits away: the catalogue the
first by name, the loader the first in its list. -/
theorem suggestions_nearest :
    (∀ a b : String, Codex.levenshtein a b = dist a.toList b.toList) ∧
    (∀ a b : Text, levenshtein a b = dist a b) ∧
    (∀ attributeName catalogue,
      (∀ name, Codex.nearestBlessedMatch attributeName catalogue = some name ↔
        Codex.Nearest attributeName catalogue name) ∧
      ((Codex.nearestBlessedMatch attributeName catalogue).isSome ↔
        ∃ entry ∈ catalogue,
          dist attributeName.toList entry.candidate.toList ≤ Codex.threshold)) ∧
    ∀ bad,
      (∀ name, nearestBlessedMatch bad = some name ↔ FirstNearest bad blessedFields name) ∧
      ((nearestBlessedMatch bad).isSome ↔
        ∃ candidate ∈ blessedFields, dist bad candidate.toList ≤ 3) :=
  ⟨Codex.levenshtein_eq_dist, levenshtein_eq_dist, Codex.nearestBlessedMatch_spec,
    nearestBlessedMatch_spec⟩

end Kaleidoscope.Beacon
