import Mathlib.Tactic

/-!
# The latest request wins

A screen shows the answer to one request of many. What is wanted is on its way or shown; that stays
so when an answer to another request comes only while the wanted one is on its way.
-/

namespace LatestWins

variable {K : Type} {wanted shown : Option K} {outstanding outstanding' : List K}

/-- What is wanted is on its way or shown. -/
def Settled (wanted : Option K) (outstanding : List K) (shown : Option K) : Prop :=
  ∀ k, wanted = some k → k ∈ outstanding ∨ shown = some k

theorem Settled.none (outstanding : List K) (shown : Option K) : Settled .none outstanding shown :=
  nofun

/-- The last of the requests on their way is wanted. -/
theorem settled_ask (k : K) (outstanding : List K) (shown : Option K) :
    Settled (some k) (outstanding ++ [k]) shown := by
  rintro _ ⟨⟩
  exact .inl (List.mem_append_right _ (List.mem_singleton_self k))

/-- The answer to the wanted request, or to any while the wanted one stays on its way. -/
theorem settled_answer (k : K)
    (hturn : ∀ w, wanted = some w → w = k ∨ w ∈ outstanding') :
    Settled wanted outstanding' (some k) := by
  intro w hw
  rcases hturn w hw with rfl | hmem
  · exact .inr rfl
  · exact .inl hmem

/-- A request that is not wanted goes without an answer. -/
theorem Settled.forget (h : Settled wanted outstanding shown)
    (hkeep : ∀ w, wanted = some w → w ∈ outstanding → w ∈ outstanding') :
    Settled wanted outstanding' shown :=
  fun w hw => (h w hw).imp_left (hkeep w hw)

/-- Once nothing is on its way, what is wanted is shown. -/
theorem Settled.eq_of_nil (h : Settled wanted [] shown) {k : K} (hk : wanted = some k) :
    shown = some k :=
  (h k hk).resolve_left List.not_mem_nil

end LatestWins
