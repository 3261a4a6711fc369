import Mathlib.Tactic

/-!
# Effects over a list

`mapM` of a list that was written element by element, and what the success of each element says of
the whole.
-/

namespace Traverse

universe u v

variable {α β : Type*} {γ : Type u} {m : Type u → Type v} [Monad m] [LawfulMonad m]

/-- Elements that are written and read one by one. -/
theorem mapM_map_pure {write : α → β} {read : β → m γ} {f : α → γ} {l : List α}
    (h : ∀ a ∈ l, read (write a) = pure (f a)) : (l.map write).mapM read = pure (l.map f) := by
  induction l with
  | nil => rfl
  | cons a l ih =>
    rw [List.map_cons, List.mapM_cons, h a List.mem_cons_self,
      ih fun b hb => h b (List.mem_cons_of_mem _ hb)]
    simp

/-- A list is read back if each of its elements is. -/
theorem mapM_map_self {write : γ → β} {read : β → m γ} {l : List γ}
    (h : ∀ a ∈ l, read (write a) = pure a) : (l.map write).mapM read = pure l := by
  have hmapM := mapM_map_pure (f := id) h
  rwa [List.map_id] at hmapM

/-- A computation succeeds if its parts do, one after the other. -/
theorem bind_eq_ok_iff {ε : Type*} {δ γ : Type u} {x : Except ε δ} {f : δ → Except ε γ} {b : γ} :
    (x >>= f) = .ok b ↔ ∃ a, x = .ok a ∧ f a = .ok b := by
  constructor
  · intro h
    cases x with
    | error e => cases h
    | ok a => exact ⟨a, rfl, h⟩
  · rintro ⟨a, rfl, h⟩
    exact h

/-- Where a list has its results, each element has the one at its place. -/
theorem forall₂_of_mapM_ok {ε : Type*} {f : α → Except ε γ} {l : List α} {l' : List γ}
    (h : l.mapM f = .ok l') : List.Forall₂ (fun a b => f a = .ok b) l l' := by
  induction l generalizing l' with
  | nil =>
    cases h
    exact .nil
  | cons a l ih =>
    rw [List.mapM_cons] at h
    cases ha : f a with
    | error e =>
      rw [ha] at h
      cases h
    | ok b =>
      cases hl : l.mapM f with
      | error e =>
        rw [ha, hl] at h
        cases h
      | ok bs =>
        rw [ha, hl] at h
        cases h
        exact .cons ha (ih hl)

/-- A list has the results that its elements have, each at its place. -/
theorem mapM_eq_ok_iff {ε : Type*} {f : α → Except ε γ} {l : List α} {l' : List γ} :
    l.mapM f = .ok l' ↔ List.Forall₂ (fun a b => f a = .ok b) l l' := by
  refine ⟨forall₂_of_mapM_ok, fun h => ?_⟩
  induction h with
  | nil => rfl
  | cons hb hl ih =>
    rw [List.mapM_cons]
    exact bind_eq_ok_iff.mpr ⟨_, hb, bind_eq_ok_iff.mpr ⟨_, ih, rfl⟩⟩

/-- A list is related to another if each of its elements is related to one. -/
theorem exists_forall₂_iff {R : α → β → Prop} {l : List α} :
    (∃ l', List.Forall₂ R l l') ↔ ∀ a ∈ l, ∃ b, R a b := by
  induction l with
  | nil => simp
  | cons a l ih =>
    rw [List.forall_mem_cons, ← ih]
    constructor
    · rintro ⟨_, hb | ⟨hb, hl⟩⟩
      exact ⟨⟨_, hb⟩, _, hl⟩
    · rintro ⟨⟨b, hb⟩, l', hl⟩
      exact ⟨b :: l', .cons hb hl⟩

/-- A list has its results if each of its elements has one. -/
theorem exists_mapM_ok_iff {ε : Type*} {f : α → Except ε γ} {l : List α} :
    (∃ l', l.mapM f = .ok l') ↔ ∀ a ∈ l, ∃ b, f a = .ok b := by
  simp only [mapM_eq_ok_iff, exists_forall₂_iff]

/-- Each element is related to one of the other list. -/
theorem exists_mem_right {R : α → β → Prop} {l : List α} {l' : List β} (h : List.Forall₂ R l l')
    {a : α} (ha : a ∈ l) : ∃ b ∈ l', R a b := by
  induction h with
  | nil => cases ha
  | cons hb _ ih =>
    rcases List.mem_cons.mp ha with rfl | ha
    · exact ⟨_, List.mem_cons_self, hb⟩
    · obtain ⟨b, hmem, hR⟩ := ih ha
      exact ⟨b, List.mem_cons_of_mem _ hmem, hR⟩

theorem exists_mem_left {R : α → β → Prop} {l : List α} {l' : List β} (h : List.Forall₂ R l l')
    {b : β} (hb : b ∈ l') : ∃ a ∈ l, R a b :=
  exists_mem_right (R := fun b a => R a b) h.flip hb

/-- What a list gave is what its elements gave. -/
theorem mem_iff_of_mapM_ok {ε : Type*} {f : α → Except ε γ} {l : List α} {l' : List γ}
    (h : l.mapM f = .ok l') {b : γ} : b ∈ l' ↔ ∃ a ∈ l, f a = .ok b := by
  have hall := mapM_eq_ok_iff.mp h
  refine ⟨exists_mem_left hall, ?_⟩
  rintro ⟨a, ha, hab⟩
  obtain ⟨c, hc, hac⟩ := exists_mem_right hall ha
  obtain rfl := Except.ok.inj (hab.symm.trans hac)
  exact hc

/-- The same for results that may be missing. -/
theorem mapM_eq_some_iff {δ : Type u} {f : α → Option δ} {l : List α} {l' : List δ} :
    l.mapM f = some l' ↔ List.Forall₂ (fun a b => f a = some b) l l' := by
  induction l generalizing l' with
  | nil =>
    rw [List.mapM_nil, List.forall₂_nil_left_iff]
    exact Option.some_inj.trans eq_comm
  | cons a l ih =>
    rw [List.mapM_cons, List.forall₂_cons_left_iff]
    simp only [Option.bind_eq_bind, Option.bind_eq_some_iff, Option.pure_def, Option.some.injEq,
      ih]
    constructor
    · rintro ⟨b, hb, bs, hbs, rfl⟩
      exact ⟨b, bs, hb, hbs, rfl⟩
    · rintro ⟨b, bs, hb, hbs, rfl⟩
      exact ⟨b, hb, bs, hbs, rfl⟩

/-- Two steps for each element are the first for all and then the second for all. -/
theorem mapM_bind_some {δ ζ : Type u} {f : α → Option δ} {g : δ → Option ζ} {l : List α} :
    (l.mapM fun a => (f a).bind g) = (l.mapM f).bind fun bs => bs.mapM g := by
  induction l with
  | nil => rfl
  | cons a l ih =>
    simp only [List.mapM_cons, ih]
    cases f a with
    | none => rfl
    | some b =>
      cases l.mapM f with
      | none => cases hb : g b <;> simp [hb]
      | some bs => simp

/-- A loop that pushes one result after the other. -/
theorem foldlM_push {f : α → m γ} {l : List α} (acc : List γ) :
    l.foldlM (fun acc a => do return acc ++ [← f a]) acc = (acc ++ ·) <$> l.mapM f := by
  induction l generalizing acc with
  | nil => simp
  | cons a l ih =>
    simp only [List.foldlM_cons, List.mapM_cons, bind_assoc, pure_bind, ih, map_eq_pure_bind,
      List.append_assoc, List.singleton_append]

/-- A loop in a loop is one over all elements. -/
theorem foldlM_flatMap {l : List α} {f : α → List β} {g : γ → β → m γ} (acc : γ) :
    (l.flatMap f).foldlM g acc = l.foldlM (fun acc a => (f a).foldlM g acc) acc := by
  induction l generalizing acc with
  | nil => rfl
  | cons a l ih => simp [ih]

end Traverse
