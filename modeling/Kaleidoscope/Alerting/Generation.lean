import Kaleidoscope.Beacon.Suppression

/-!
# One catalogue generation

Between two reloads the resolver neither loses nor repeats an alert, whatever rules inhibit
each other and in whatever order they fire and resolve.
-/

namespace Kaleidoscope.Beacon

open InhibitionResolver Observation

/-- While the own emissions of a rule alternate, so do those delivered for it; it is firing exactly
if the last of its own emissions is a `Firing`, which then is delivered or pending, never both; and
what is pending waits for another rule that is firing. -/
theorem observeAll_tracks (rules : List Rule) (os : List Observation) (ruleName : String)
    (h : AlternatesFor ruleName (emitted os)) :
    let now := (new rules).observeAll os
    let pending := now.2.pending.lookup ruleName
    AlternatesFor ruleName now.1 ∧
      (now.2.Fires ruleName ↔ lastFires ruleName (emitted os) = true) ∧
      (now.2.Fires ruleName ↔ lastFires ruleName now.1 = true ∨ pending.isSome) ∧
      ¬(lastFires ruleName now.1 = true ∧ pending.isSome) ∧
      (pending.isSome → ∃ rule ∈ rules,
        rule.name ≠ ruleName ∧ ruleName ∈ rule.inhibits ∧ now.2.Fires rule.name) := by
  intro now pending
  obtain ⟨halternates, hlast, hon⟩ := booked_observeAll rules os ruleName h
  have hfires := fires_observeAll rules os ruleName
  refine ⟨halternates, hfires, ?_, ?_, ?_⟩
  · rw [hfires, hlast, Bool.and_eq_true, Option.isNone_iff_eq_none]
    cases hp : now.2.pending.lookup ruleName with
    | none => simp [pending, hp]
    | some incident => simp [pending, hp, hon (by rw [hp]; rfl)]
  · rintro ⟨hdelivered, hp⟩
    rw [hlast, Bool.and_eq_true, Option.isNone_iff_eq_none] at hdelivered
    exact absurd hp (Option.not_isSome_iff_eq_none.mpr hdelivered.2)
  · intro hp
    obtain ⟨candidate, hin, hcandidate⟩ := inhibited_observeAll rules os ruleName hp
    rw [inhibits_congr (observeAll_inhibits ..)] at hin
    obtain ⟨rule, hrule, rfl, hmem⟩ := inhibits_new rules hin
    exact ⟨rule, hrule, hin.1, hmem, hcandidate⟩

/-- The disk alert waits for the node alert, and is delivered when that resolves. -/
theorem observeAll_tracks_released :
    let rules := [Rule.bare "node" [] ["disk"], Rule.bare "disk" [] []]
    let now := (new rules).observeAll [fires "node", fires "disk", resolves "node"]
    lastFires "disk" now.1 = true ∧ now.2.Fires "disk" := by
  intro rules now
  have h := observeAll_tracks rules [fires "node", fires "disk", resolves "node"] "disk"
    (by decide)
  have hdelivered : lastFires "disk" now.1 = true := by decide +kernel
  exact ⟨hdelivered, h.2.2.1.mpr (.inl hdelivered)⟩

end Kaleidoscope.Beacon
