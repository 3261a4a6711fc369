import Kaleidoscope.Beacon.Suppression
import Kaleidoscope.Library.Cycle

/-!
# A storm that nobody hears

A suppressed rule goes on suppressing others. Rules that inhibit each other in a cycle hold
each other back once a rule outside the cycle has held one of them back, and they go on doing
so after that rule has resolved.
-/

namespace Kaleidoscope.Beacon

open InhibitionResolver Observation Relation

/-- Some rule is firing and not pending: its `Firing` has been delivered. -/
def Heard (now : List Emission × InhibitionResolver) : Prop :=
  ∃ ruleName, now.2.Fires ruleName ∧ now.2.pending.lookup ruleName = none ∧
    lastFires ruleName now.1 = true

/-- One pending rule inhibits another one. -/
def HoldsBack (resolver : InhibitionResolver) : String → String → Prop :=
  Cycle.Within resolver.Inhibits fun ruleName => (resolver.pending.lookup ruleName).isSome

section Reached

variable {rules : List Rule} {os : List Observation}

/-- A rule with a pending incident is firing. -/
theorem fires_of_pending (h : ∀ ruleName, AlternatesFor ruleName (emitted os)) {ruleName : String}
    (hp : (((new rules).observeAll os).2.pending.lookup ruleName).isSome) :
    ((new rules).observeAll os).2.Fires ruleName :=
  (fires_observeAll rules os ruleName).mpr
    ((booked_observeAll rules os ruleName (h ruleName)).on_of_pending hp)

/-- Where the pending rules hold each other back in no cycle, a rule that fires is heard. -/
theorem heard_of_acyclic (h : ∀ ruleName, AlternatesFor ruleName (emitted os))
    (hacyclic : Cycle.Acyclic (HoldsBack ((new rules).observeAll os).2))
    (hfires : ∃ ruleName, ((new rules).observeAll os).2.Fires ruleName) :
    Heard ((new rules).observeAll os) := by
  by_contra hsilent
  set now := (new rules).observeAll os with hnow
  have hheld (ruleName : String) (hr : now.2.Fires ruleName) :
      (now.2.pending.lookup ruleName).isSome := by
    by_contra hp
    rw [Option.not_isSome_iff_eq_none] at hp
    refine hsilent ⟨ruleName, hr, hp, ?_⟩
    have hbooked := booked_observeAll rules os ruleName (h ruleName)
    rw [hbooked.lastFires_eq, ← hnow, hp, (fires_observeAll rules os ruleName).mp hr]
    rfl
  obtain ⟨ruleName, hr⟩ := hfires
  have hfinite : {n | (now.2.pending.lookup n).isSome}.Finite := by
    refine now.2.pending.keys.finite_toSet.subset fun n hn => ?_
    rw [Finset.mem_coe, Finmap.mem_keys, ← Finmap.lookup_isSome]
    exact hn
  obtain ⟨first, hfirst, hroot⟩ := hacyclic.exists_root hfinite ⟨ruleName, hheld ruleName hr⟩
  obtain ⟨candidate, hin, hcandidate⟩ := inhibited_observeAll rules os first hfirst
  exact hroot candidate (hheld candidate hcandidate) ⟨hin, hheld candidate hcandidate, hfirst⟩

/-- A relation that traps no one never lets the pending rules hold each other back in a
cycle. -/
theorem acyclic_of_not_traps (htraps : ¬Cycle.Traps (new rules).Inhibits)
    (h : ∀ ruleName, AlternatesFor ruleName (emitted os)) :
    Cycle.Acyclic (HoldsBack ((new rules).observeAll os).2) := by
  induction os using List.reverseRecOn with
  | nil =>
    intro a ha
    obtain ⟨b, hab, -⟩ := TransGen.head'_iff.mp ha
    exact absurd hab.2.1 Bool.false_ne_true
  | append_singleton os o ih =>
    have hos (ruleName : String) := (alternates_snoc os o ruleName).mp (h ruleName)
    have hbefore := ih fun ruleName => (hos ruleName).1
    have hrelation : ((new rules).observeAll (os ++ [o])).2.Inhibits = (new rules).Inhibits :=
      inhibits_congr (observeAll_inhibits ..)
    have hrelation' : ((new rules).observeAll os).2.Inhibits = (new rules).Inhibits :=
      inhibits_congr (observeAll_inhibits ..)
    rw [HoldsBack, hrelation'] at hbefore
    rw [HoldsBack, hrelation, observeAll_snoc]
    by_cases hfiring : ∃ incident, o.emission = some (.firing incident)
    · refine hbefore.insert (fun a ha => ha.1 rfl) (r := o.ruleName) ?_ ?_ htraps
      · exact fun a ha => (pending_of_observation ha).imp id And.left
      · intro a _ ha
        obtain ⟨candidate, hin, hcandidate⟩ := inhibited_observeAll rules os a ha
        rw [hrelation'] at hin
        refine ⟨candidate, hin, ?_⟩
        -- The rule that starts firing was not firing before.
        rintro rfl
        obtain ⟨incident, he⟩ := hfiring
        have hturns := (hos o.ruleName).2 rfl _ he
        rw [(fires_observeAll rules os _).mp hcandidate] at hturns
        exact absurd hturns Bool.noConfusion
    · exact hbefore.mono fun a b hab => ⟨hab.1,
        (pending_of_observation hab.2.1).resolve_right fun hc => hfiring hc.2,
        (pending_of_observation hab.2.2).resolve_right fun hc => hfiring hc.2⟩

/-- What is pending while an inhibitor of it fires stays pending when another rule resolves. -/
theorem pending_resolves {resolver : InhibitionResolver} {upstream ruleName : String}
    (hother : ruleName ≠ upstream)
    (hactive : (resolver.observation (resolves upstream)).2.hasActiveInhibitorOf ruleName)
    (hp : (resolver.pending.lookup ruleName).isSome) :
    ((resolver.observation (resolves upstream)).2.pending.lookup ruleName).isSome := by
  rw [observation, resolves] at hactive ⊢
  rw [lookup_pending_observe_resolved, if_neg]
  · exact hp
  · rintro (rfl | ⟨-, hidle⟩)
    · exact hother rfl
    · exact Bool.false_ne_true (hidle.symm.trans hactive)

end Reached

section Trapped

variable (rules : List Rule)

/-- A rule upstream is firing and heard; every other firing rule is pending, and waits for a
pending one, except perhaps for `first`. -/
structure Held (upstream first last : String) (os : List Observation) : Prop where
  alternates : ∀ ruleName, AlternatesFor ruleName (emitted os)
  upstream_fires : ((new rules).observeAll os).2.Fires upstream
  upstream_heard : ((new rules).observeAll os).2.pending.lookup upstream = none
  pending_of_fires : ∀ ruleName, ((new rules).observeAll os).2.Fires ruleName →
    ruleName = upstream ∨ (((new rules).observeAll os).2.pending.lookup ruleName).isSome
  waits : ∀ ruleName, (((new rules).observeAll os).2.pending.lookup ruleName).isSome →
    ruleName = first ∨ ∃ candidate, (new rules).Inhibits candidate ruleName ∧
      (((new rules).observeAll os).2.pending.lookup candidate).isSome
  first_pending : (((new rules).observeAll os).2.pending.lookup first).isSome
  last_pending : (((new rules).observeAll os).2.pending.lookup last).isSome

variable {rules}

theorem fires_snoc_fires (os : List Observation) {name ruleName : String} :
    ((new rules).observeAll (os ++ [fires name])).2.Fires ruleName ↔
      ruleName = name ∨ ((new rules).observeAll os).2.Fires ruleName := by
  rw [observeAll_snoc]
  refine (fires_observe ..).trans ?_
  split_ifs with hname
  · exact iff_of_true rfl (.inl hname)
  · exact (or_iff_right hname).symm

/-- A rule that starts firing while an inhibitor of it fires is held back. -/
theorem pending_observation_fires {resolver : InhibitionResolver} {name : String}
    (hactive : ∃ candidate, resolver.Inhibits candidate name ∧ resolver.Fires candidate)
    (ruleName : String) :
    ((resolver.observation (fires name)).2.pending.lookup ruleName).isSome ↔
      ruleName = name ∨ (resolver.pending.lookup ruleName).isSome := by
  obtain ⟨candidate, hin, hcandidate⟩ := hactive
  let incident : Incident := ⟨name, "", .info, .empty, 0, none⟩
  have hobserve : resolver.observation (fires name) =
      resolver.observe name (some (.firing incident)) := rfl
  have hheld :
      (resolver.observe name (some (.firing incident))).2.hasActiveInhibitorOf name := by
    rw [hasActiveInhibitorOf_iff]
    refine ⟨candidate, ?_, ?_⟩
    · rwa [inhibits_congr (observe_inhibits ..)]
    · rwa [fires_observe, if_neg hin.1]
  rw [hobserve, lookup_pending_observe_firing]
  by_cases hname : ruleName = name
  · subst hname
    rw [if_pos ⟨rfl, hheld⟩]
    exact iff_of_true rfl (.inl rfl)
  · rw [if_neg fun h => hname h.1]
    exact (or_iff_right hname).symm

theorem pending_snoc_fires (os : List Observation) {name : String}
    (hactive : ∃ candidate, (new rules).Inhibits candidate name ∧
      ((new rules).observeAll os).2.Fires candidate) (ruleName : String) :
    (((new rules).observeAll (os ++ [fires name])).2.pending.lookup ruleName).isSome ↔
      ruleName = name ∨ (((new rules).observeAll os).2.pending.lookup ruleName).isSome := by
  rw [observeAll_snoc]
  refine pending_observation_fires ?_ ruleName
  rwa [inhibits_congr (observeAll_inhibits ..)]

/-- A rule that is not firing may start to. -/
theorem alternates_snoc_fires (os : List Observation) {name : String}
    (h : ∀ ruleName, AlternatesFor ruleName (emitted os))
    (hidle : ¬((new rules).observeAll os).2.Fires name) (ruleName : String) :
    AlternatesFor ruleName (emitted (os ++ [fires name])) := by
  refine (alternates_snoc os _ ruleName).mpr ⟨h ruleName, ?_⟩
  rintro rfl e he
  obtain rfl := Option.some.inj he
  exact Bool.eq_false_iff.mpr fun hlast => hidle ((fires_observeAll rules os _).mpr hlast)

/-- The storm reaches a rule that a pending rule inhibits. -/
theorem Held.step {upstream first last next : String} {os : List Observation}
    (h : Held rules upstream first last os)
    (hnext : Cycle.Avoiding (new rules).Inhibits upstream last next) :
    ∃ os', Held rules upstream first next os' := by
  obtain ⟨hin, -, hne⟩ := hnext
  by_cases hpending : (((new rules).observeAll os).2.pending.lookup next).isSome
  · exact ⟨os, { h with last_pending := hpending }⟩
  have hidle : ¬((new rules).observeAll os).2.Fires next :=
    fun hfires => (h.pending_of_fires next hfires).elim hne hpending
  have hactive : ∃ candidate, (new rules).Inhibits candidate next ∧
      ((new rules).observeAll os).2.Fires candidate :=
    ⟨last, hin, fires_of_pending h.alternates h.last_pending⟩
  have hafter := pending_snoc_fires os hactive
  refine ⟨os ++ [fires next], alternates_snoc_fires os h.alternates hidle,
    (fires_snoc_fires os).mpr (.inr h.upstream_fires), ?_, ?_, ?_,
    (hafter first).mpr (.inr h.first_pending), (hafter next).mpr (.inl rfl)⟩
  · rw [← Option.not_isSome_iff_eq_none, hafter, h.upstream_heard]
    exact fun hc => hc.elim (fun he => hne he.symm) Bool.false_ne_true
  · intro ruleName hfires
    rcases (fires_snoc_fires os).mp hfires with rfl | hfires
    · exact .inr ((hafter ruleName).mpr (.inl rfl))
    · exact (h.pending_of_fires ruleName hfires).imp id fun hp => (hafter ruleName).mpr (.inr hp)
  · intro ruleName hp
    rcases (hafter ruleName).mp hp with rfl | hp
    · exact .inr ⟨last, hin, (hafter last).mpr (.inr h.last_pending)⟩
    · refine (h.waits ruleName hp).imp id ?_
      rintro ⟨candidate, hc, hcandidate⟩
      exact ⟨candidate, hc, (hafter candidate).mpr (.inr hcandidate)⟩

/-- The storm reaches every rule on a path of the relation. -/
theorem Held.path {upstream first last : String} {os : List Observation}
    (h : Held rules upstream first first os)
    (hpath : ReflTransGen (Cycle.Avoiding (new rules).Inhibits upstream) first last) :
    ∃ os', Held rules upstream first last os' := by
  induction hpath with
  | refl => exact ⟨os, h⟩
  | tail _ hstep ih =>
    obtain ⟨os', hheld⟩ := ih
    exact hheld.step hstep

/-- The rule upstream fires, and then one that it inhibits. -/
theorem held_start {upstream first : String} (hin : (new rules).Inhibits upstream first) :
    Held rules upstream first first [fires upstream, fires first] := by
  have hfires (ruleName : String) :
      ((new rules).observeAll [fires upstream]).2.Fires ruleName ↔ ruleName = upstream :=
    (fires_snoc_fires []).trans (or_iff_left (not_fires_new rules ruleName))
  have hclear (ruleName : String) :
      ((new rules).observeAll [fires upstream]).2.pending.lookup ruleName = none := by
    rw [← Option.not_isSome_iff_eq_none]
    intro hp
    obtain ⟨candidate, hc, hcandidate⟩ := inhibited_observeAll rules _ ruleName hp
    have hfirst : (((new rules).observation (fires upstream)).2.pending.lookup ruleName).isSome :=
      hp
    rcases pending_of_observation hfirst with hp | ⟨rfl, -⟩
    · exact Bool.false_ne_true hp
    · exact hc.1 ((hfires candidate).mp hcandidate)
  have hactive : ∃ candidate, (new rules).Inhibits candidate first ∧
      ((new rules).observeAll [fires upstream]).2.Fires candidate :=
    ⟨upstream, hin, (hfires upstream).mpr rfl⟩
  have hpending (ruleName : String) :
      (((new rules).observeAll [fires upstream, fires first]).2.pending.lookup ruleName).isSome ↔
        ruleName = first := by
    refine (pending_snoc_fires [fires upstream] hactive ruleName).trans (or_iff_left ?_)
    rw [hclear]
    exact Bool.false_ne_true
  have hfiring (ruleName : String) :
      ((new rules).observeAll [fires upstream, fires first]).2.Fires ruleName ↔
        ruleName = first ∨ ruleName = upstream :=
    (fires_snoc_fires [fires upstream]).trans (or_congr_right (hfires ruleName))
  constructor
  · have hone (ruleName : String) : AlternatesFor ruleName (emitted [fires upstream]) :=
      alternates_snoc_fires [] (fun _ => Bracketed.alternates_nil _)
        (not_fires_new rules upstream) ruleName
    exact alternates_snoc_fires [fires upstream] hone
      fun hc => hin.1 ((hfires first).mp hc).symm
  · exact (hfiring upstream).mpr (.inr rfl)
  · rw [← Option.not_isSome_iff_eq_none, hpending]
    exact hin.1
  · exact fun ruleName hc => ((hfiring ruleName).mp hc).symm.imp id (hpending ruleName).mpr
  · exact fun ruleName hp => .inl ((hpending ruleName).mp hp)
  · exact (hpending first).mpr rfl
  · exact (hpending first).mpr rfl

/-- Once the rules of a cycle hold each other back, the rule upstream resolves and leaves them
firing and unheard. -/
theorem Held.silent {upstream first last : String} {os : List Observation}
    (h : Held rules upstream first last os) (hback : (new rules).Inhibits last first) :
    (∀ ruleName, AlternatesFor ruleName (emitted (os ++ [resolves upstream]))) ∧
      ((new rules).observeAll (os ++ [resolves upstream])).2.Fires first ∧
      ¬Heard ((new rules).observeAll (os ++ [resolves upstream])) := by
  have hne {ruleName : String}
      (hp : (((new rules).observeAll os).2.pending.lookup ruleName).isSome) :
      ruleName ≠ upstream := by
    rintro rfl
    rw [h.upstream_heard] at hp
    exact Bool.false_ne_true hp
  have hfires (ruleName : String) :
      ((new rules).observeAll (os ++ [resolves upstream])).2.Fires ruleName ↔
        ruleName ≠ upstream ∧ ((new rules).observeAll os).2.Fires ruleName := by
    rw [observeAll_snoc]
    refine (fires_observe ..).trans ?_
    split_ifs with hname
    · exact iff_of_false Bool.false_ne_true fun hc => hc.1 hname
    · exact (and_iff_right hname).symm
  refine ⟨?_, (hfires first).mpr ⟨hne h.first_pending, fires_of_pending h.alternates
    h.first_pending⟩, ?_⟩
  · intro ruleName
    refine (alternates_snoc os _ ruleName).mpr ⟨h.alternates ruleName, ?_⟩
    rintro rfl e he
    obtain rfl := Option.some.inj he
    exact (fires_observeAll rules os _).mp h.upstream_fires
  · rintro ⟨ruleName, hr, hp, -⟩
    obtain ⟨hother, hr⟩ := (hfires ruleName).mp hr
    have hpending := (h.pending_of_fires ruleName hr).resolve_left hother
    -- Some pending rule still inhibits it, and is firing.
    obtain ⟨candidate, hin, hcandidate⟩ :
        ∃ candidate, (new rules).Inhibits candidate ruleName ∧
          (((new rules).observeAll os).2.pending.lookup candidate).isSome := by
      rcases h.waits ruleName hpending with rfl | hwaits
      · exact ⟨last, hback, h.last_pending⟩
      · exact hwaits
    have hactive :
        ((new rules).observeAll (os ++ [resolves upstream])).2.hasActiveInhibitorOf ruleName := by
      rw [hasActiveInhibitorOf_iff, inhibits_congr (observeAll_inhibits ..)]
      exact ⟨candidate, hin, (hfires candidate).mpr
        ⟨hne hcandidate, fires_of_pending h.alternates hcandidate⟩⟩
    rw [observeAll_snoc] at hactive hp
    exact absurd hp (Option.isSome_iff_ne_none.mp (pending_resolves hother hactive hpending))

end Trapped

/-- A firing rule is heard at every moment, whatever the rules emit in turn, exactly when no
rule inhibits a member of a cycle of which it is no member itself. -/
theorem neverSilent_iff (catalogue : Catalogue) :
    (∀ os : List Observation, (∀ ruleName, AlternatesFor ruleName (emitted os)) →
      (∃ ruleName, ((new catalogue.rules).observeAll os).2.Fires ruleName) →
        Heard ((new catalogue.rules).observeAll os)) ↔
      ¬Cycle.Traps catalogue.Inhibits := by
  have hrelation : (new catalogue.rules).Inhibits = catalogue.Inhibits := by
    ext candidate targetName
    exact inhibits_catalogue catalogue
  rw [← hrelation]
  constructor
  · rintro hheard ⟨upstream, first, hin, hcycle⟩
    obtain ⟨last, hpath, hback⟩ := TransGen.tail'_iff.mp hcycle
    obtain ⟨os, hheld⟩ := (held_start hin).path hpath
    obtain ⟨halternates, hfires, hsilent⟩ := hheld.silent hback.1
    exact hsilent (hheard _ halternates ⟨first, hfires⟩)
  · intro htraps os halternates hfires
    exact heard_of_acyclic halternates (acyclic_of_not_traps htraps halternates) hfires

/-- Two sites inhibit each other, and the uplink both: when the uplink is back, both sites are
down and nobody is told. -/
theorem silent_after_uplink :
    ¬∀ (catalogue : Catalogue) (os : List Observation),
      (∀ ruleName, AlternatesFor ruleName (emitted os)) →
        (∃ ruleName, ((new catalogue.rules).observeAll os).2.Fires ruleName) →
          Heard ((new catalogue.rules).observeAll os) := by
  intro h
  let catalogue : Catalogue :=
    ⟨[.bare "uplink" [] ["east", "west"], .bare "east" [] ["west"], .bare "west" [] ["east"]],
      by decide⟩
  let os := [fires "uplink", fires "east", fires "west", resolves "uplink"]
  have halternates : ∀ ruleName, AlternatesFor ruleName (emitted os) :=
    alternatesFor_all (by decide +kernel)
  have hfires : ∃ ruleName, ((new catalogue.rules).observeAll os).2.Fires ruleName :=
    ⟨"east", by decide +kernel⟩
  have hheard := h catalogue os halternates hfires
  have hsilent : ∀ name ∈ ((new catalogue.rules).observeAll os).2.firing.keys,
      ((new catalogue.rules).observeAll os).2.Fires name →
        ((new catalogue.rules).observeAll os).2.pending.lookup name ≠ none := by
    decide +kernel
  generalize (new catalogue.rules).observeAll os = now at hheard hsilent
  obtain ⟨ruleName, hfires, hpending, -⟩ := hheard
  exact hsilent ruleName hfires.mem_keys hfires hpending

end Kaleidoscope.Beacon
