import Mathlib.Data.List.Infix
import Mathlib.Tactic

/-!
# Replacing what occurs in a list

The occurrences of a list are cut out from left to right, and another list stands in the place of
each. What does not overlap with that list can not come to be where it is put.
-/

namespace Occurrences

variable {α : Type*}

section Apart

/-- Each list is part of what they are written to. -/
theorem infix_intercalate {r p : List α} {pieces : List (List α)} (h : p ∈ pieces) :
    p <:+: r.intercalate pieces := by
  induction pieces with
  | nil => cases h
  | cons piece pieces ih =>
    cases pieces with
    | nil =>
      rw [List.mem_singleton.mp h, List.intercalate_singleton]
    | cons next pieces =>
      rw [List.intercalate_cons_of_ne_nil (List.cons_ne_nil _ _)]
      rcases List.mem_cons.mp h with rfl | hmem
      · exact ⟨[], r ++ r.intercalate (next :: pieces), by simp⟩
      · exact (ih hmem).trans (List.suffix_append _ _).isInfix

/-- Two lists that overlap in no list: no start of the second is an end of the first, no end of it a
start, and neither is part of the other. -/
structure Apart (r u : List α) : Prop where
  start : ∀ p, p ≠ [] → p <+: u → ¬p <:+ r
  stop : ∀ p, p ≠ [] → p <:+ u → ¬p <+: r
  outer : ¬r <:+: u
  inner : ¬u <:+: r

variable {r u : List α}

/-- What occurs around a list from which it is apart occurs before it or after it. -/
theorem Apart.infix_append (h : Apart r u) {a b : List α} (hu : u <:+: a ++ (r ++ b)) :
    u <:+: a ∨ u <:+: b := by
  obtain ⟨x, y, hxy⟩ := hu
  rw [List.append_eq_append_iff] at hxy
  rcases hxy with ⟨z, rfl, -⟩ | ⟨c, hc, hrest⟩
  · exact .inl ⟨x, z, rfl⟩
  rw [List.append_eq_append_iff] at hc
  rcases hc with ⟨z, rfl, rfl⟩ | ⟨z, rfl, rfl⟩
  · -- it starts before the list
    rw [List.append_eq_append_iff] at hrest
    rcases hrest with ⟨w, rfl, -⟩ | ⟨w, rfl, -⟩
    · exact absurd ⟨z, w, by simp⟩ h.outer
    · rcases eq_or_ne c [] with rfl | hne
      · exact .inl ⟨x, [], by simp⟩
      · exact absurd (List.prefix_append c w) (h.stop c hne (List.suffix_append z c))
  · -- it starts in the list, or after it
    rw [List.append_assoc, List.append_eq_append_iff] at hrest
    rcases hrest with ⟨w, rfl, rfl⟩ | ⟨w, rfl, hw⟩
    · exact .inr ⟨w, y, by simp⟩
    · rw [List.append_eq_append_iff] at hw
      rcases hw with ⟨v, rfl, -⟩ | ⟨v, rfl, rfl⟩
      · exact absurd ⟨z, v, by simp⟩ h.inner
      · rcases eq_or_ne w [] with rfl | hne
        · exact .inr ⟨[], y, by simp⟩
        · exact absurd (List.suffix_append z w) (h.start w hne (List.prefix_append w v))

theorem Apart.infix_intercalate (h : Apart r u) {pieces : List (List α)} (hne : pieces ≠ [])
    (hu : u <:+: r.intercalate pieces) : ∃ p ∈ pieces, u <:+: p := by
  induction pieces with
  | nil => exact absurd rfl hne
  | cons piece pieces ih =>
    cases pieces with
    | nil =>
      rw [List.intercalate_singleton] at hu
      exact ⟨piece, List.mem_singleton_self _, hu⟩
    | cons next pieces =>
      rw [List.intercalate_cons_of_ne_nil (List.cons_ne_nil _ _), List.append_assoc] at hu
      rcases h.infix_append hu with hpiece | hrest
      · exact ⟨piece, List.mem_cons_self, hpiece⟩
      · obtain ⟨p, hp, hoccurs⟩ := ih (List.cons_ne_nil _ _) hrest
        exact ⟨p, List.mem_cons_of_mem _ hp, hoccurs⟩

end Apart

section Replace

variable [DecidableEq α]

/-- A list, cut at each occurrence of another one, where so many values still belong to the last
one. -/
def splitFrom (t : List α) : ℕ → List α → List (List α)
  | _, [] => [[]]
  | skip + 1, _ :: s => splitFrom t skip s
  | 0, c :: s =>
    if t <+: c :: s then [] :: splitFrom t (t.length - 1) s
    else (splitFrom t 0 s).modifyHead (c :: ·)

/-- A list, cut at each occurrence of another one. -/
def split (t s : List α) : List (List α) := splitFrom t 0 s

/-- A list, with another one for each occurrence. -/
def replaceAll (t r s : List α) : List α := r.intercalate (split t s)

/-- What lists of tokens leave, one after the other. -/
def redact (r : List α) (tokens : List (List α)) (s : List α) : List α :=
  tokens.foldl (fun out t => if t <:+: out then replaceAll t r out else out) s

section Split

variable {t s : List α}

theorem splitFrom_ne_nil (skip : ℕ) : splitFrom t skip s ≠ [] := by
  fun_induction splitFrom t skip s with
  | case1 => exact List.cons_ne_nil _ _
  | case2 skip c s ih => exact ih
  | case3 c s h ih => exact List.cons_ne_nil _ _
  | case4 c s h ih =>
    rw [Ne, List.modifyHead_eq_nil_iff]
    exact ih

/-- The pieces with what was cut out between them. -/
theorem intercalate_splitFrom (ht : t ≠ []) (skip : ℕ) :
    t.intercalate (splitFrom t skip s) = s.drop skip := by
  fun_induction splitFrom t skip s with
  | case1 skip => simp
  | case2 skip c s ih => simpa using ih
  | case3 c s h ih =>
    obtain ⟨rest, hrest⟩ := h
    obtain ⟨d, t, rfl⟩ := List.exists_cons_of_ne_nil ht
    obtain ⟨rfl, rfl⟩ := List.cons.inj hrest
    have hdrop : (t ++ rest).drop ((d :: t).length - 1) = rest := by
      rw [List.length_cons, Nat.add_sub_cancel, List.drop_left]
    rw [List.intercalate_cons_of_ne_nil (splitFrom_ne_nil _), ih, List.append_eq, hdrop]
    rfl
  | case4 c s h ih =>
    obtain ⟨piece, pieces, hpieces⟩ := List.exists_cons_of_ne_nil
      (splitFrom_ne_nil (t := t) (s := s) 0)
    rw [hpieces, List.drop_zero] at ih
    rw [hpieces, List.modifyHead_cons, List.drop_zero, ← ih]
    cases pieces with
    | nil => rfl
    | cons next pieces => rfl

theorem intercalate_split (ht : t ≠ []) (s : List α) : t.intercalate (split t s) = s :=
  intercalate_splitFrom ht 0

theorem infix_of_mem_split (ht : t ≠ []) {p : List α} (h : p ∈ split t s) : p <:+: s := by
  have hoccurs := infix_intercalate (r := t) h
  rwa [intercalate_split ht] at hoccurs

/-- Nothing is left to cut in a piece. -/
theorem not_infix_of_mem_splitFrom (ht : t ≠ []) (skip : ℕ) :
    ∀ p ∈ splitFrom t skip s, ¬t <:+: p := by
  fun_induction splitFrom t skip s with
  | case1 skip => simpa using ht
  | case2 skip c s ih => exact ih
  | case3 c s h ih => simpa [ht] using ih
  | case4 c s h ih =>
    obtain ⟨piece, pieces, hpieces⟩ := List.exists_cons_of_ne_nil
      (splitFrom_ne_nil (t := t) (s := s) 0)
    have hwhole := intercalate_splitFrom (s := s) ht 0
    rw [hpieces] at ih hwhole ⊢
    rw [List.modifyHead_cons, List.forall_mem_cons]
    rw [List.forall_mem_cons] at ih
    refine ⟨fun hoccurs => ?_, ih.2⟩
    rcases List.infix_cons_iff.mp hoccurs with hbegins | hoccurs
    · -- the first piece starts the list, so an occurrence at its start is one at the start of it
      refine h (hbegins.trans (List.cons_prefix_cons.mpr ⟨rfl, ?_⟩))
      rw [List.drop_zero] at hwhole
      rw [← hwhole]
      cases pieces with
      | nil => rw [List.intercalate_singleton]
      | cons next pieces =>
        rw [List.intercalate_cons_of_ne_nil (List.cons_ne_nil _ _), List.append_assoc]
        exact List.prefix_append _ _
    · exact ih.1 hoccurs

theorem not_infix_of_mem_split (ht : t ≠ []) {p : List α} (h : p ∈ split t s) : ¬t <:+: p :=
  not_infix_of_mem_splitFrom ht 0 p h

/-- A list that is still inside of an occurrence goes on after it. -/
theorem splitFrom_eq (skip : ℕ) (s : List α) : splitFrom t skip s = split t (s.drop skip) := by
  induction s generalizing skip with
  | nil => cases skip <;> rfl
  | cons c s ih =>
    cases skip with
    | zero => rfl
    | succ skip => exact ih skip

/-- The first occurrence is cut out. -/
theorem split_append (ht : t ≠ []) {v : List α}
    (hfirst : ∀ i < v.length, ¬t <+: (v ++ (t ++ s)).drop i) :
    split t (v ++ (t ++ s)) = v :: split t s := by
  induction v with
  | nil =>
    obtain ⟨d, t, rfl⟩ := List.exists_cons_of_ne_nil ht
    rw [List.nil_append, List.cons_append, split, splitFrom, if_pos ⟨s, rfl⟩, splitFrom_eq,
      List.length_cons, Nat.add_sub_cancel, List.drop_left]
  | cons c v ih =>
    have hstart : ¬t <+: c :: (v ++ (t ++ s)) := hfirst 0 (Nat.succ_pos _)
    have hrest := ih fun i hi => hfirst (i + 1) (Nat.succ_lt_succ hi)
    rw [split] at hrest
    rw [List.cons_append, split, splitFrom, if_neg hstart, hrest, List.modifyHead_cons]

/-- A list without an occurrence is one piece. -/
theorem split_of_not_infix (h : ¬t <:+: s) : split t s = [s] := by
  induction s with
  | nil => rfl
  | cons c s ih =>
    rw [List.infix_cons_iff, not_or] at h
    have hrest := ih h.2
    rw [split] at hrest
    rw [split, splitFrom, if_neg h.1, hrest, List.modifyHead_cons]

end Split

section Redact

variable {r u s : List α} {tokens : List (List α)}

/-- What is apart from the list that is put in occurred before, and was not cut out. -/
theorem Apart.infix_replaceAll (h : Apart r u) {t : List α} (ht : t ≠ [])
    (hu : u <:+: replaceAll t r s) : u <:+: s ∧ u ≠ t := by
  obtain ⟨p, hp, hoccurs⟩ := h.infix_intercalate (splitFrom_ne_nil 0) hu
  refine ⟨hoccurs.trans (infix_of_mem_split ht hp), ?_⟩
  rintro rfl
  exact not_infix_of_mem_split ht hp hoccurs

/-- What is left and apart from the list that is put in occurred before, and is no token. -/
theorem Apart.infix_redact (h : Apart r u) (hne : ∀ t ∈ tokens, t ≠ [])
    (hu : u <:+: redact r tokens s) : u <:+: s ∧ u ∉ tokens := by
  induction tokens generalizing s with
  | nil => exact ⟨hu, List.not_mem_nil⟩
  | cons t tokens ih =>
    rw [List.forall_mem_cons] at hne
    rw [redact, List.foldl_cons] at hu
    obtain ⟨hstep, hrest⟩ := ih hne.2 hu
    rw [List.mem_cons, not_or]
    split_ifs at hstep with hoccurs
    · obtain ⟨hs, ht⟩ := h.infix_replaceAll hne.1 hstep
      exact ⟨hs, ht, hrest⟩
    · refine ⟨hstep, ?_, hrest⟩
      rintro rfl
      exact hoccurs hstep

/-- Where no token occurs, nothing is replaced. -/
theorem redact_of_not_infix (h : ∀ t ∈ tokens, ¬t <:+: s) : redact r tokens s = s := by
  induction tokens with
  | nil => rfl
  | cons t tokens ih =>
    rw [List.forall_mem_cons] at h
    rw [redact, List.foldl_cons, if_neg h.1]
    exact ih h.2

/-- The only occurrence of a token is replaced. -/
theorem redact_singleton {t v w : List α} (hfirst : ∀ i < v.length, ¬t <+: (v ++ (t ++ w)).drop i)
    (hw : w.length < t.length) : redact r [t] (v ++ (t ++ w)) = v ++ (r ++ w) := by
  have ht : t ≠ [] := List.ne_nil_of_length_pos (Nat.zero_lt_of_lt hw)
  have hrest : ¬t <:+: w := fun h => absurd h.length_le (not_le.mpr hw)
  have hoccurs : t <:+: v ++ (t ++ w) := ⟨v, w, List.append_assoc _ _ _⟩
  rw [redact, List.foldl_cons, List.foldl_nil, if_pos hoccurs, replaceAll, split_append ht hfirst,
    split_of_not_infix hrest, List.intercalate_cons_of_ne_nil (List.cons_ne_nil _ _),
    List.intercalate_singleton, List.append_assoc]

end Redact

end Replace

end Occurrences
