import Mathlib.Data.List.Sort
import Mathlib.Tactic

/-!
# Stable sorting by a numeric key

`sort_by_key` is stable: elements with equal keys keep their order. A list that grows at
its end may therefore be sorted after every step or once at the end.
-/

namespace StableSort

variable {V : Type} (key : V → Nat)

/-- `sort_by_key`. -/
def sortByKey (l : List V) : List V := l.insertionSort fun a b => key a ≤ key b

theorem sortByKey_perm (l : List V) : (sortByKey key l).Perm l := List.perm_insertionSort _ l

@[simp] theorem sortByKey_nil : sortByKey key [] = [] := rfl

instance total_key : Std.Total fun a b : V => key a ≤ key b :=
  ⟨fun a b => Nat.le_total (key a) (key b)⟩

instance isTrans_key : IsTrans V fun a b => key a ≤ key b := ⟨fun _ _ _ => Nat.le_trans⟩

/-- The result ascends. -/
theorem pairwise_sortByKey (l : List V) :
    (sortByKey key l).Pairwise fun a b => key a ≤ key b := List.pairwise_insertionSort _ l

/-- A sorted list stays as it is. -/
theorem sortByKey_of_pairwise {l : List V} (h : l.Pairwise fun a b => key a ≤ key b) :
    sortByKey key l = l := h.insertionSort_eq

/-- Two insertions commute when the keys differ. -/
private theorem orderedInsert_comm {a b : V} (h : key b < key a) (l : List V) :
    (l.orderedInsert (fun x y => key x ≤ key y) a).orderedInsert (fun x y => key x ≤ key y) b =
      (l.orderedInsert (fun x y => key x ≤ key y) b).orderedInsert
        (fun x y => key x ≤ key y) a := by
  induction l with
  | nil => simp [Nat.not_le.mpr h, h.le]
  | cons c l ih =>
    by_cases hb : key b ≤ key c
    · by_cases ha : key a ≤ key c
      · simp [ha, hb, h.le, Nat.not_le.mpr h]
      · simp [ha, hb, Nat.not_le.mpr h]
    · have ha : ¬ key a ≤ key c := by omega
      simp [ha, hb, ih]

private theorem foldr_orderedInsert (c : List V) (a : V) (l : List V) :
    (l.orderedInsert (fun x y => key x ≤ key y) a).foldr
        (List.orderedInsert fun x y => key x ≤ key y) c =
      (l.foldr (List.orderedInsert fun x y => key x ≤ key y) c).orderedInsert
        (fun x y => key x ≤ key y) a := by
  induction l with
  | nil => rfl
  | cons b l ih =>
    rw [List.orderedInsert_cons]
    split_ifs with h
    · rfl
    · rw [List.foldr_cons, ih, List.foldr_cons, orderedInsert_comm key (Nat.lt_of_not_le h)]

private theorem foldr_sortByKey (c l : List V) :
    (sortByKey key l).foldr (List.orderedInsert fun x y => key x ≤ key y) c =
      l.foldr (List.orderedInsert fun x y => key x ≤ key y) c := by
  induction l with
  | nil => rfl
  | cons a l ih =>
    rw [sortByKey, List.insertionSort_cons, foldr_orderedInsert, ← sortByKey, ih, List.foldr_cons]

/-- Sorting early makes no difference to what is appended later. -/
theorem sortByKey_append_left (a b : List V) :
    sortByKey key (sortByKey key a ++ b) = sortByKey key (a ++ b) := by
  simp only [sortByKey, List.insertionSort, List.foldr_append]
  exact foldr_sortByKey key _ a

@[simp] theorem sortByKey_sortByKey (l : List V) :
    sortByKey key (sortByKey key l) = sortByKey key l :=
  sortByKey_of_pairwise key (pairwise_sortByKey key l)

/-- Lists that sort alike still do after the same elements are appended. -/
theorem sortByKey_append_congr {a a' : List V} (h : sortByKey key a = sortByKey key a')
    (b : List V) : sortByKey key (a ++ b) = sortByKey key (a' ++ b) := by
  rw [← sortByKey_append_left, h, sortByKey_append_left]

/-- Elements of equal key stay in their order. -/
theorem filter_sortByKey (l : List V) (t : Nat) :
    ((sortByKey key l).filter fun v => key v = t) = l.filter fun v => key v = t := by
  have hequal : (l.filter fun v => key v = t).Pairwise fun a b => key a ≤ key b :=
    List.pairwise_of_forall_mem_list fun a ha b hb => by
      have hta : key a = t := by simpa using List.of_mem_filter ha
      have htb : key b = t := by simpa using List.of_mem_filter hb
      rw [hta, htb]
  have hsub : (l.filter fun v => key v = t).Sublist (sortByKey key l) :=
    List.sublist_insertionSort hequal List.filter_sublist
  have hfilter := hsub.filter fun v => key v = t
  rw [List.filter_filter] at hfilter
  simp only [Bool.and_self] at hfilter
  exact (hfilter.eq_of_length ((sortByKey_perm key l).filter _).length_eq.symm).symm

theorem orderedInsert_of_forall_le {x : V} {l : List V} (h : ∀ v ∈ l, key x ≤ key v) :
    l.orderedInsert (fun a b => key a ≤ key b) x = x :: l := by
  cases l with
  | nil => rfl
  | cons v l => rw [List.orderedInsert_cons, if_pos (h v List.mem_cons_self)]

/-- Into a sorted list an element goes to the same place whether or not others are left out. -/
private theorem filter_orderedInsert (p : V → Bool) (x : V) {l : List V}
    (h : l.Pairwise fun a b => key a ≤ key b) :
    (l.orderedInsert (fun a b => key a ≤ key b) x).filter p =
      if p x then (l.filter p).orderedInsert (fun a b => key a ≤ key b) x else l.filter p := by
  induction l with
  | nil => cases hx : p x <;> simp [hx]
  | cons v l ih =>
    obtain ⟨hv, hl⟩ := List.pairwise_cons.mp h
    rw [List.orderedInsert_cons]
    split_ifs with hle hx hx
    · have hall : ∀ w ∈ (v :: l).filter p, key x ≤ key w := fun w hw => by
        rcases List.mem_cons.mp (List.mem_of_mem_filter hw) with rfl | hw
        · exact hle
        · exact hle.trans (hv w hw)
      rw [List.filter_cons_of_pos hx, orderedInsert_of_forall_le key hall]
    · rw [List.filter_cons_of_neg hx]
    · rw [List.filter_cons, ih hl, if_pos hx, List.filter_cons]
      split_ifs
      · rw [List.orderedInsert_cons, if_neg hle]
      · rfl
    · rw [List.filter_cons, ih hl, if_neg hx, List.filter_cons]

/-- Sorting commutes with leaving elements out. -/
theorem filter_sortByKey_comm (p : V → Bool) (l : List V) :
    (sortByKey key l).filter p = sortByKey key (l.filter p) := by
  induction l with
  | nil => rfl
  | cons x l ih =>
    rw [sortByKey, List.insertionSort_cons, ← sortByKey,
      filter_orderedInsert key p x (pairwise_sortByKey key l), ih, List.filter_cons]
    split_ifs <;> rfl

/-- Lists may be filtered before they are merged or after. -/
theorem sortByKey_filter_append (p : V → Bool) (a b : List V) :
    sortByKey key (a.filter p ++ b.filter p) = (sortByKey key (a ++ b)).filter p := by
  rw [filter_sortByKey_comm, List.filter_append]

/-- A list merges two others: it is in the order of the keys and has, where keys are equal, the
first before the second. -/
structure Merges (stored added merged : List V) : Prop where
  sorted : merged.Pairwise fun a b => key a ≤ key b
  ties : ∀ t, (merged.filter fun v => key v = t) =
    (stored.filter fun v => key v = t) ++ added.filter fun v => key v = t

theorem merges_sortByKey (stored added : List V) :
    Merges key stored added (sortByKey key (stored ++ added)) where
  sorted := pairwise_sortByKey key _
  ties t := by rw [filter_sortByKey, List.filter_append]

theorem merges_nil {stored : List V} (h : stored.Pairwise fun a b => key a ≤ key b) :
    Merges key stored [] stored where
  sorted := h
  ties t := by rw [List.filter_nil, List.append_nil]

end StableSort
