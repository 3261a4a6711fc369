import Mathlib.Data.String.Basic
import Mathlib.Tactic

/-!
# Ordered maps with text keys

An ordered map is the list of its entries in ascending order of their keys, so two maps
with the same entries are equal.
-/

/-- A `BTreeMap` from strings. -/
structure BTreeMap (V : Type) where
  /-- The entries, in the order in which they are visited. -/
  entries : List (String × V)
  ascending : entries.Pairwise fun a b => a.1 < b.1
  deriving DecidableEq

namespace BTreeMap

variable {V : Type}

/-- The map without entries. -/
def empty : BTreeMap V := ⟨[], .nil⟩

/-- The map of one entry. -/
def single (k : String) (v : V) : BTreeMap V := ⟨[(k, v)], List.pairwise_singleton _ _⟩

/-- `get`. -/
def get (m : BTreeMap V) (k : String) : Option V := m.entries.lookup k

/-- The entries after an insertion: a value of the same key is replaced. -/
def insertEntry (k : String) (v : V) : List (String × V) → List (String × V)
  | [] => [(k, v)]
  | e :: l =>
    if k < e.1 then (k, v) :: e :: l
    else if k = e.1 then (k, v) :: l
    else e :: insertEntry k v l

theorem mem_insertEntry {k : String} {v : V} {l : List (String × V)} {e : String × V}
    (h : e ∈ insertEntry k v l) : e = (k, v) ∨ e ∈ l := by
  induction l with
  | nil => exact .inl (List.mem_singleton.mp h)
  | cons a l ih =>
    rw [insertEntry] at h
    split_ifs at h
    · exact List.mem_cons.mp h
    · rcases List.mem_cons.mp h with h | h
      · exact .inl h
      · exact .inr (List.mem_cons_of_mem a h)
    · rcases List.mem_cons.mp h with rfl | h
      · exact .inr List.mem_cons_self
      · exact (ih h).imp_right (List.mem_cons_of_mem a)

theorem pairwise_insertEntry (k : String) (v : V) {l : List (String × V)}
    (h : l.Pairwise fun a b => a.1 < b.1) :
    (insertEntry k v l).Pairwise fun a b => a.1 < b.1 := by
  induction l with
  | nil => exact List.pairwise_singleton _ _
  | cons a l ih =>
    obtain ⟨ha, hl⟩ := List.pairwise_cons.mp h
    rw [insertEntry]
    split_ifs with hlt heq
    · refine List.pairwise_cons.mpr ⟨fun e he => ?_, h⟩
      rcases List.mem_cons.mp he with rfl | he
      · exact hlt
      · exact hlt.trans (ha e he)
    · exact List.pairwise_cons.mpr ⟨fun e he => heq ▸ ha e he, hl⟩
    · refine List.pairwise_cons.mpr ⟨fun e he => ?_, ih hl⟩
      rcases mem_insertEntry he with rfl | he
      · exact lt_of_le_of_ne (not_lt.mp hlt) (Ne.symm heq)
      · exact ha e he

theorem lookup_insertEntry (k : String) (v : V) (l : List (String × V)) :
    (insertEntry k v l).lookup k = some v := by
  induction l with
  | nil => rw [insertEntry, List.lookup_cons_self]
  | cons a l ih =>
    rw [insertEntry]
    split_ifs with hlt heq
    · exact List.lookup_cons_self
    · exact List.lookup_cons_self
    · rw [List.lookup_cons, beq_false_of_ne heq]
      exact ih

/-- `insert`. -/
def insert (m : BTreeMap V) (k : String) (v : V) : BTreeMap V :=
  ⟨insertEntry k v m.entries, pairwise_insertEntry k v m.ascending⟩

/-- What was inserted last is found. -/
theorem get_insert (m : BTreeMap V) (k : String) (v : V) : (m.insert k v).get k = some v :=
  lookup_insertEntry k v m.entries

/-- Insert the entries of a map over those of another. -/
def insertAll (m m' : BTreeMap V) : BTreeMap V :=
  m'.entries.foldl (fun m e => m.insert e.1 e.2) m

end BTreeMap
