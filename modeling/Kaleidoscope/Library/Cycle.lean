import Mathlib.Tactic

/-!
# Cycles of a relation

A path to a node either passes through another one or avoids it, and so does a cycle. Where
a finite set has no cycle, one of its members is related to by no other.
-/

namespace Cycle

open Relation

variable {α : Type} {R : α → α → Prop} {a b r : α}

/-- A relation without the pairs of one node. -/
def Avoiding (R : α → α → Prop) (r a b : α) : Prop := R a b ∧ a ≠ r ∧ b ≠ r

/-- A relation between the nodes of a set. -/
def Within (R : α → α → Prop) (P : α → Prop) (a b : α) : Prop := R a b ∧ P a ∧ P b

/-- There is a cycle of which a node outside it is related to a member. -/
def Traps (R : α → α → Prop) : Prop := ∃ r a, R r a ∧ TransGen (Avoiding R r) a a

/-- No path leads from a node back to it. -/
def Acyclic (R : α → α → Prop) : Prop := ∀ a, ¬TransGen R a a

/-- A path from another node passes through a node or avoids it. -/
theorem through_or_avoiding (h : ReflTransGen R a b) (ha : a ≠ r) :
    (ReflTransGen R a r ∧ ReflTransGen R r b) ∨ ReflTransGen (Avoiding R r) a b := by
  induction h with
  | refl => exact .inr .refl
  | @tail b c hab hbc ih =>
    rcases ih with ⟨har, hrb⟩ | havoid
    · exact .inl ⟨har, hrb.tail hbc⟩
    · by_cases hb : b = r
      · subst hb
        exact .inl ⟨hab, .single hbc⟩
      · by_cases hc : c = r
        · subst hc
          exact .inl ⟨hab.tail hbc, .refl⟩
        · exact .inr (havoid.tail ⟨hbc, hb, hc⟩)

/-- A path avoids the node it leads to until it arrives there. -/
theorem first_arrival (h : ReflTransGen R a r) (ha : a ≠ r) :
    ∃ b, ReflTransGen (Avoiding R r) a b ∧ b ≠ r ∧ R b r := by
  induction h using ReflTransGen.head_induction_on with
  | refl => exact absurd rfl ha
  | @head a c hac hcr ih =>
    by_cases hc : c = r
    · subst hc
      exact ⟨a, .refl, ha, hac⟩
    · obtain ⟨b, hcb, hb, hbr⟩ := ih hc
      exact ⟨b, hcb.head ⟨hac, ha, hc⟩, hb, hbr⟩

/-- A cycle avoids a node, or that node is on a cycle. -/
theorem cycle_avoiding_or_through (h : TransGen R a a) :
    TransGen (Avoiding R r) a a ∨ TransGen R r r := by
  by_cases ha : a = r
  · exact .inr (ha ▸ h)
  obtain ⟨b, hab, hba⟩ := TransGen.tail'_iff.mp h
  rcases through_or_avoiding hab ha with ⟨har, hrb⟩ | havoid
  · exact .inr ((TransGen.tail' hrb hba).trans_left har)
  · by_cases hb : b = r
    · subst hb
      exact .inr (TransGen.head' hba hab)
    · exact .inl (TransGen.tail' havoid ⟨hba, hb, ha⟩)

/-- A finite set that a relation without cycles does not leave has a first member. -/
theorem Acyclic.exists_root (h : Acyclic R) {S : Set α} (hfinite : S.Finite)
    (hne : S.Nonempty) : ∃ a ∈ S, ∀ b ∈ S, ¬R b a := by
  have := hfinite.to_subtype
  have : IsTrans S fun a b => TransGen R a.1 b.1 := ⟨fun _ _ _ => TransGen.trans⟩
  have : Std.Irrefl fun a b : S => TransGen R a.1 b.1 := ⟨fun a => h a.1⟩
  obtain ⟨a, -, ha⟩ := (Finite.wellFounded_of_trans_of_irrefl
    fun a b : S => TransGen R a.1 b.1).has_min Set.univ ⟨⟨_, hne.choose_spec⟩, trivial⟩
  exact ⟨a.1, a.2, fun b hb hba => ha ⟨b, hb⟩ trivial (.single hba)⟩

theorem Acyclic.mono {R' : α → α → Prop} (h : Acyclic R) (hsub : ∀ a b, R' a b → R a b) :
    Acyclic R' :=
  fun a ha => h a (TransGen.mono hsub _ _ ha)

/-- A node joins a set without a cycle. If each member it is related to is related to by another
node, it closes no cycle unless it traps one. -/
theorem Acyclic.insert {P P' : α → Prop} (hirrefl : ∀ a, ¬R a a) (h : Acyclic (Within R P))
    (hjoin : ∀ a, P' a → P a ∨ a = r) (hother : ∀ a, R r a → P a → ∃ t, R t a ∧ t ≠ r)
    (htraps : ¬Traps R) : Acyclic (Within R P') := by
  intro a ha
  have hold {x y : α} (hxy : Avoiding (Within R P') r x y) : Within R P x y :=
    ⟨hxy.1.1, (hjoin x hxy.1.2.1).resolve_right hxy.2.1,
      (hjoin y hxy.1.2.2).resolve_right hxy.2.2⟩
  rcases cycle_avoiding_or_through (r := r) ha with havoid | hr
  · exact h a (TransGen.mono (fun _ _ => hold) _ _ havoid)
  -- The cycle leaves the new node for `s` and comes back to it from `u`.
  obtain ⟨s, hrs, hsr⟩ := TransGen.head'_iff.mp hr
  have hs : s ≠ r := by
    rintro rfl
    exact hirrefl s hrs.1
  obtain ⟨u, hsu, hu, hur⟩ := first_arrival hsr hs
  have hsu : ReflTransGen (Within R P) s u := ReflTransGen.mono (fun _ _ => hold) _ _ hsu
  have hPs : P s := (hjoin s hrs.2.2).resolve_right hs
  obtain ⟨t, hts, htr⟩ := hother s hrs.1 hPs
  have hst : s ≠ t := by
    rintro rfl
    exact hirrefl s hts
  by_cases hreach : ReflTransGen (Within R P) s t
  · -- The other node is on the way: the cycle was there before.
    have hPt : P t := by
      rcases hreach.cases_tail with rfl | ⟨_, -, hlast⟩
      · exact absurd rfl hst
      · exact hlast.2.2
    exact h s (TransGen.tail' hreach ⟨hts, hPt, hPs⟩)
  · -- The cycle avoids the other node, which is related to its member `s`.
    have hut : u ≠ t := by
      rintro rfl
      exact hreach hsu
    rcases through_or_avoiding hsu hst with ⟨hthrough, -⟩ | havoid
    · exact hreach hthrough
    refine htraps ⟨t, s, hts, ?_⟩
    have hpath : ReflTransGen (Avoiding R t) s u :=
      ReflTransGen.mono (fun _ _ hxy => ⟨hxy.1.1, hxy.2⟩) _ _ havoid
    exact (TransGen.tail' hpath ⟨hur.1, hut, htr.symm⟩).tail ⟨hrs.1, htr.symm, hst⟩

end Cycle
