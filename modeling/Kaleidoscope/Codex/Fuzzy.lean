import Kaleidoscope.Library.EditDistance
import Mathlib.Data.List.Induction
import Mathlib.Data.String.Basic
import Mathlib.Data.Prod.Lex

/-!
# The nearest attribute

An attribute that is not blessed is reported with the blessed name that is fewest edits away. The
edits are counted in a table of which two rows are kept.
-/

namespace Kaleidoscope.Codex

open EditDistance

/-- `BlessedAttribute`. -/
inductive BlessedAttribute where
  | exactName (blessed : String)
  | prefixName (blessed : String)
  deriving DecidableEq, Repr

/-- `THRESHOLD`. -/
def threshold : Nat := 2

/-! ## The table -/

/-- One turn of the inner loop of `levenshtein`. -/
def fillColumn (a b : List Char) (i : Nat) (prev curr : List Nat) (j : Nat) : List Nat :=
  let cost := if a[i - 1]? = b[j - 1]? then 0 else 1
  curr.set j (min (min (prev.getD j 0 + 1) (curr.getD (j - 1) 0 + 1)) (prev.getD (j - 1) 0 + cost))

/-- The inner loop: row `i` is written over `curr`. -/
def fillRow (a b : List Char) (i : Nat) (prev curr : List Nat) : List Nat :=
  (List.range' 1 b.length).foldl (fillColumn a b i prev) (curr.set 0 i)

/-- `levenshtein`. -/
def levenshtein (a b : String) : Nat :=
  let a := a.toList
  let b := b.toList
  let m := a.length
  let n := b.length
  if m = 0 then n
  else if n = 0 then m
  else
    let rows := (List.range' 1 m).foldl
      (fun (rows : List Nat × List Nat) i => (fillRow a b i rows.1 rows.2, rows.1))
      (List.range (n + 1), List.replicate (n + 1) 0)
    rows.1.getD n 0

/-- The name that an entry is compared by. -/
def BlessedAttribute.candidate : BlessedAttribute → String
  | exactName blessed => blessed
  | prefixName blessed => blessed

/-- `Iterator::min_by`: the first of the least. -/
def minBy {α : Type} (compare : α → α → Ordering) : List α → Option α
  | [] => none
  | x :: xs => some (xs.foldl (fun best y => if compare best y = .gt then y else best) x)

/-- `nearest_blessed_match`. -/
def nearestBlessedMatch (attributeName : String) (catalogue : List BlessedAttribute) :
    Option String :=
  let candidates := catalogue.map fun entry =>
    (entry.candidate, levenshtein attributeName entry.candidate)
  match minBy (fun left right =>
      (compare left.2 right.2).then (compare left.1 right.1)) candidates with
  | none => none
  | some (name, distance) => if distance ≤ threshold then some name else none

/-! ## The rows -/

/-- A row holds the entries of the table up to a column. -/
def Row (a b : List Char) (i columns : Nat) (row : List Nat) : Prop :=
  row.length = b.length + 1 ∧ ∀ j ≤ columns, row.getD j 0 = entry a b i j

theorem getD_set_self {l : List Nat} {k : Nat} (h : k < l.length) (v : Nat) :
    (l.set k v).getD k 0 = v := by
  simp [h]

theorem getD_set_of_ne {l : List Nat} {k j : Nat} (h : k ≠ j) (v : Nat) :
    (l.set k v).getD j 0 = l.getD j 0 := by
  simp [h]

/-- A turn of the inner loop writes the next column. -/
theorem row_fillColumn {a b : List Char} {i j : Nat} (hi : i < a.length) (hj : j < b.length)
    {prev curr : List Nat} (hprev : Row a b i b.length prev) (hcurr : Row a b (i + 1) j curr) :
    Row a b (i + 1) (j + 1) (fillColumn a b (i + 1) prev curr (j + 1)) := by
  obtain ⟨hlength, hentries⟩ := hcurr
  refine ⟨by rw [fillColumn, List.length_set, hlength], fun k hk => ?_⟩
  by_cases h : k = j + 1
  · subst h
    have hcost : (if a[i + 1 - 1]? = b[j + 1 - 1]? then 0 else 1) =
        if a[i] = b[j] then 0 else 1 := by
      simp [hi, hj]
    rw [fillColumn, getD_set_self (by omega), hcost, entry_succ_succ hi hj, hprev.2 (j + 1) hj,
      Nat.add_sub_cancel, hentries j le_rfl, hprev.2 j hj.le]
  · rw [fillColumn, getD_set_of_ne (Ne.symm h), hentries k (by omega)]

/-- The inner loop writes the next row. -/
theorem row_fillRow {a b : List Char} {i : Nat} (hi : i < a.length) {prev curr : List Nat}
    (hprev : Row a b i b.length prev) (hcurr : curr.length = b.length + 1) :
    Row a b (i + 1) b.length (fillRow a b (i + 1) prev curr) := by
  have hcolumns (columns : Nat) (h : columns ≤ b.length) : Row a b (i + 1) columns
      ((List.range' 1 columns).foldl (fillColumn a b (i + 1) prev) (curr.set 0 (i + 1))) := by
    induction columns with
    | zero =>
      refine ⟨by simpa using hcurr, fun j hj => ?_⟩
      obtain rfl := Nat.le_zero.mp hj
      rw [entry_zero_right b hi]
      exact getD_set_self (by omega) _
    | succ columns ih =>
      rw [List.range'_1_concat, List.foldl_concat, Nat.add_comm 1]
      exact row_fillColumn hi h hprev (ih (Nat.le_of_succ_le h))
  exact hcolumns b.length le_rfl

/-- The outer loop keeps the last row it wrote, and a row to write over. -/
theorem rows_levenshtein (a b : List Char) {i : Nat} (hi : i ≤ a.length) :
    let rows := (List.range' 1 i).foldl
      (fun (rows : List Nat × List Nat) i => (fillRow a b i rows.1 rows.2, rows.1))
      (List.range (b.length + 1), List.replicate (b.length + 1) 0)
    Row a b i b.length rows.1 ∧ rows.2.length = b.length + 1 := by
  induction i with
  | zero =>
    refine ⟨⟨List.length_range, fun j hj => ?_⟩, List.length_replicate⟩
    have : j < b.length + 1 := by omega
    rw [entry_zero_left a hj]
    simp [this]
  | succ i ih =>
    obtain ⟨hprev, hcurr⟩ := ih (Nat.le_of_succ_le hi)
    rw [List.range'_1_concat, List.foldl_concat, Nat.add_comm 1]
    exact ⟨row_fillRow hi hprev hcurr, hprev.1⟩

/-- The routine counts the edits. -/
theorem levenshtein_eq_dist (a b : String) : levenshtein a b = dist a.toList b.toList := by
  unfold levenshtein
  by_cases ha : a.toList.length = 0
  · simp [List.length_eq_zero_iff.mp ha]
  · by_cases hb : b.toList.length = 0
    · simp [ha, List.length_eq_zero_iff.mp hb]
    · have h := (rows_levenshtein a.toList b.toList le_rfl).1.2 b.toList.length le_rfl
      simp only [ha, hb, if_false]
      rw [h, entry_length]

/-! ## The nearest name -/

/-- What `min_by` returns is an element, and none is less. -/
theorem minBy_eq_some {α β : Type} [LinearOrder β] (key : α → β) {compare : α → α → Ordering}
    (h : ∀ x y, compare x y = .gt ↔ key y < key x) {l : List α} {x : α}
    (hx : minBy compare l = some x) : x ∈ l ∧ ∀ y ∈ l, key x ≤ key y := by
  cases l with
  | nil => cases hx
  | cons first l =>
    obtain rfl := Option.some.inj hx
    clear hx
    induction l using List.reverseRecOn with
    | nil => simp
    | append_singleton l y ih =>
      rw [List.foldl_concat, ← List.cons_append]
      obtain ⟨hmem, hle⟩ := ih
      generalize l.foldl (fun best y => if compare best y = .gt then y else best) first = best
        at hmem hle ⊢
      by_cases hlt : key y < key best
      · rw [if_pos ((h _ _).mpr hlt)]
        refine ⟨by simp, fun z hz => ?_⟩
        obtain hz | hz := List.mem_append.mp hz
        · exact hlt.le.trans (hle z hz)
        · exact (congrArg key (List.mem_singleton.mp hz)).ge
      · rw [if_neg fun hgt => hlt ((h _ _).mp hgt)]
        refine ⟨List.mem_append_left _ hmem, fun z hz => ?_⟩
        obtain hz | hz := List.mem_append.mp hz
        · exact hle z hz
        · exact (not_lt.mp hlt).trans (congrArg key (List.mem_singleton.mp hz)).ge

/-- Candidates are compared by their distance, and then by name. -/
theorem compare_eq_gt_iff (left right : String × Nat) :
    (compare left.2 right.2).then (compare left.1 right.1) = .gt ↔
      toLex (right.2, right.1) < toLex (left.2, left.1) := by
  rw [Ordering.then_eq_gt, Prod.Lex.toLex_lt_toLex, compare_gt_iff_gt, compare_gt_iff_gt,
    compare_eq_iff_eq, eq_comm]

/-- A name is the nearest one: few edits away, with no other name nearer or, as near, before it. -/
def Nearest (attributeName : String) (catalogue : List BlessedAttribute) (name : String) : Prop :=
  (∃ entry ∈ catalogue, entry.candidate = name) ∧
    dist attributeName.toList name.toList ≤ threshold ∧
    ∀ entry ∈ catalogue,
      dist attributeName.toList name.toList < dist attributeName.toList entry.candidate.toList ∨
        dist attributeName.toList name.toList = dist attributeName.toList entry.candidate.toList ∧
          name ≤ entry.candidate

theorem Nearest.eq {attributeName name name' : String} {catalogue : List BlessedAttribute}
    (h : Nearest attributeName catalogue name) (h' : Nearest attributeName catalogue name') :
    name = name' := by
  obtain ⟨⟨entry, hentry, rfl⟩, -, hle⟩ := h
  obtain ⟨⟨entry', hentry', rfl⟩, -, hle'⟩ := h'
  obtain hlt | ⟨heq, hle⟩ := hle entry' hentry'
  · obtain hlt' | ⟨heq', -⟩ := hle' entry hentry
    · exact absurd hlt hlt'.asymm
    · exact absurd heq' hlt.ne'
  · obtain hlt' | ⟨-, hle'⟩ := hle' entry hentry
    · exact absurd heq hlt'.ne'
    · exact le_antisymm hle hle'

/-- Where there is an entry, one is least, and its name is returned if it is near enough. -/
theorem nearestBlessedMatch_of_mem (attributeName : String) {catalogue : List BlessedAttribute}
    (hne : catalogue ≠ []) :
    ∃ entry ∈ catalogue,
      (∀ other ∈ catalogue,
        dist attributeName.toList entry.candidate.toList <
            dist attributeName.toList other.candidate.toList ∨
          dist attributeName.toList entry.candidate.toList =
            dist attributeName.toList other.candidate.toList ∧
              entry.candidate ≤ other.candidate) ∧
      nearestBlessedMatch attributeName catalogue =
        if dist attributeName.toList entry.candidate.toList ≤ threshold then some entry.candidate
        else none := by
  obtain ⟨best, hbest⟩ : ∃ best, minBy (fun left right : String × Nat =>
      (compare left.2 right.2).then (compare left.1 right.1)) (catalogue.map fun entry =>
        (entry.candidate, levenshtein attributeName entry.candidate)) = some best := by
    obtain ⟨first, rest, rfl⟩ := List.exists_cons_of_ne_nil hne
    exact ⟨_, rfl⟩
  obtain ⟨hmem, hmin⟩ := minBy_eq_some (fun c => toLex (c.2, c.1)) compare_eq_gt_iff hbest
  obtain ⟨entry, hentry, rfl⟩ := List.mem_map.mp hmem
  refine ⟨entry, hentry, fun other hother => ?_, ?_⟩
  · have := hmin _ (List.mem_map_of_mem hother)
    simpa only [Prod.Lex.toLex_le_toLex, levenshtein_eq_dist] using this
  · simp only [nearestBlessedMatch, hbest]
    rw [levenshtein_eq_dist]

/-- The name that is returned is the nearest one, and one is returned where one is near enough. -/
theorem nearestBlessedMatch_spec (attributeName : String) (catalogue : List BlessedAttribute) :
    (∀ name, nearestBlessedMatch attributeName catalogue = some name ↔
      Nearest attributeName catalogue name) ∧
    ((nearestBlessedMatch attributeName catalogue).isSome ↔
      ∃ entry ∈ catalogue, dist attributeName.toList entry.candidate.toList ≤ threshold) := by
  by_cases hne : catalogue = []
  · subst hne
    simp [nearestBlessedMatch, minBy, Nearest]
  · obtain ⟨entry, hentry, hmin, heq⟩ := nearestBlessedMatch_of_mem attributeName hne
    rw [heq]
    by_cases hle : dist attributeName.toList entry.candidate.toList ≤ threshold
    · have hnearest : Nearest attributeName catalogue entry.candidate :=
        ⟨⟨entry, hentry, rfl⟩, hle, hmin⟩
      rw [if_pos hle]
      refine ⟨fun name => ⟨fun h => Option.some.inj h ▸ hnearest, fun h => ?_⟩, ?_⟩
      · rw [hnearest.eq h]
      · simpa using ⟨entry, hentry, hle⟩
    · have hfar : ∀ other ∈ catalogue,
          ¬dist attributeName.toList other.candidate.toList ≤ threshold := by
        intro other hother
        have := hmin other hother
        omega
      rw [if_neg hle]
      refine ⟨fun name => ⟨fun h => absurd h.symm (Option.some_ne_none _), fun h => ?_⟩, ?_⟩
      · obtain ⟨⟨other, hother, rfl⟩, hnear, -⟩ := h
        exact absurd hnear (hfar other hother)
      · simpa using hfar

end Kaleidoscope.Codex
