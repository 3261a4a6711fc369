import Kaleidoscope.Beacon.Server

/-!
# Names that collide

The rules of a name that collides are dropped with a diagnostic. Whether a diagnostic refuses a
reload is decided elsewhere, from the names that are left: an edit that adds one is applied.
-/

namespace Kaleidoscope.Beacon

open HashMap InhibitionResolver

/-- What the files of a directory declare. -/
def merge (files : List (String × Except LoaderDiagnostic (List Rule))) : Merged :=
  files.foldl Merged.file ⟨[], [], ∅⟩

namespace Merged

/-- A name that no two rules share. -/
def DeclaredOnce (merged : Merged) (name : String) : Prop :=
  (merged.rules.map Rule.name).count name = 1

/-- The names that are left are those that no two rules share. -/
theorem mem_names_detectDuplicateNames {merged : Merged} {name : String} :
    name ∈ merged.detectDuplicateNames.rules.map Rule.name ↔ merged.DeclaredOnce name := by
  rw [detectDuplicateNames, foldl_drop_rules, DeclaredOnce, List.mem_map]
  constructor
  · rintro ⟨rule, hrule, rfl⟩
    obtain ⟨hmem, hkept⟩ := List.mem_filter.mp hrule
    have hpos := List.count_pos_iff.mpr (List.mem_map_of_mem (f := Rule.name) hmem)
    have hsingle : ¬ 1 < (merged.rules.map Rule.name).count rule.name :=
      fun hmany => of_decide_eq_true hkept (mem_duplicates.mpr hmany)
    omega
  · intro hone
    obtain ⟨rule, hrule, rfl⟩ := List.mem_map.mp (List.count_pos_iff.mp (by omega :
      0 < (merged.rules.map Rule.name).count name))
    refine ⟨rule, List.mem_filter.mpr ⟨hrule, decide_eq_true fun hdup => ?_⟩, rfl⟩
    have := mem_duplicates.mp hdup
    omega

end Merged

/-- Some name is declared more than once. -/
def Collides (files : List (String × Except LoaderDiagnostic (List Rule))) : Prop :=
  ∃ name, 1 < ((merge files).rules.map Rule.name).count name

/-- Every name that is declared once is live already. -/
def AddsNothing (live : Catalogue)
    (files : List (String × Except LoaderDiagnostic (List Rule))) : Prop :=
  ∀ name, (merge files).DeclaredOnce name → name ∈ live.names

/-- What is loaded from a directory. -/
theorem loadRules_ok (files : List (String × Except LoaderDiagnostic (List Rule))) :
    ∃ outcome, loadRules (.ok files) = .ok outcome ∧
      (∀ name, name ∈ outcome.names ↔ (merge files).DeclaredOnce name) ∧
      (Collides files → outcome.hasDiagnostics = true) := by
  refine ⟨_, rfl, fun name => Merged.mem_names_detectDuplicateNames, ?_⟩
  rintro ⟨name, hname⟩
  have hdup : name ∈ (merge files).duplicates := Merged.mem_duplicates.mpr hname
  have hdiagnostics : (merge files).detectDuplicateNames.diagnostics ≠ [] := by
    rw [Merged.detectDuplicateNames, Merged.foldl_drop_diagnostics]
    exact List.append_ne_nil_of_right_ne_nil _
      (List.ne_nil_of_mem (List.mem_map_of_mem hdup))
  simpa [LoadOutcome.hasDiagnostics, merge] using hdiagnostics

/-- An edit with a diagnostic is refused when all its names are live. -/
theorem refuses_iff {live : Catalogue} {outcome : LoadOutcome}
    (h : outcome.hasDiagnostics = true) :
    refuses live outcome = true ↔ ∀ name ∈ outcome.names, name ∈ live.names := by
  have hadded : addedCount live outcome.toCatalogue = 0 ↔
      ∀ name ∈ outcome.names, name ∈ live.names := by
    rw [addedCount, Finset.card_eq_zero, Finset.sdiff_eq_empty_iff_subset]
    simp only [Finset.subset_iff, List.mem_toFinset]
  rw [refuses, h, Bool.true_and, Bool.or_eq_true, beq_iff_eq, hadded]
  refine or_iff_right_of_imp fun hnone name hname => ?_
  have hempty : outcome.rules = [] := by simpa [LoadOutcome.hasAnyRules] using hnone
  rw [Catalogue.names, hempty] at hname
  exact absurd hname List.not_mem_nil

/-- The rule of a name is being evaluated. -/
def Server.Evaluates (server : Server) (name : String) : Prop :=
  ∃ generation ∈ server.running, name ∈ generation.catalogue.names

section Collision

variable (flags : IterOrder String Bool) (incidents : IterOrder String Incident)
  (generation : Generation) (stored : Rules) (delivered : List Delivery)
  {files : List (String × Except LoaderDiagnostic (List Rule))}

/-- A colliding edit is refused, or makes live the names that are declared once, of which one
is new. -/
theorem reload_of_collides (h : Collides files) :
    let server : Server := ⟨some generation, stored, delivered⟩
    (AddsNothing generation.catalogue files ∧
        reload flags incidents generation server (.ok files) = server) ∨
      ¬AddsNothing generation.catalogue files ∧
        (∀ name, (reload flags incidents generation server (.ok files)).Evaluates name ↔
          (merge files).DeclaredOnce name) ∧
        reload flags incidents generation server (.ok files) ≠ server := by
  intro server
  obtain ⟨outcome, hload, hnames, hdiagnostics⟩ := loadRules_ok files
  have hrefuses : refuses generation.catalogue outcome = true ↔
      ∀ name ∈ outcome.names, name ∈ generation.catalogue.names := refuses_iff (hdiagnostics h)
  simp only [hnames] at hrefuses
  cases hrefused : refuses generation.catalogue outcome with
  | true =>
    refine .inl ⟨hrefuses.mp hrefused, ?_⟩
    simp only [reload, hload, hrefused, if_true]
  | false =>
    have hadds : ¬AddsNothing generation.catalogue files := by
      intro hnothing
      exact Bool.false_ne_true (hrefused.symm.trans (hrefuses.mpr hnothing))
    have hevaluates (name : String) :
        (reload flags incidents generation server (.ok files)).Evaluates name ↔
          (merge files).DeclaredOnce name := by
      simp only [Server.Evaluates, reload, hload, hrefused, Bool.false_eq_true, if_false,
        Option.mem_some_iff, exists_eq_left', hnames]
    refine .inr ⟨hadds, hevaluates, fun hsame => hadds fun name hname => ?_⟩
    have hlive := (hevaluates name).mpr hname
    rw [hsame] at hlive
    obtain ⟨other, hother, hmem⟩ := hlive
    rwa [← Option.some.inj hother] at hmem

/-- An edit in which names collide is refused, and every live rule stays, exactly if it adds no
name; otherwise the live rules that are not declared exactly once are evaluated no longer. -/
theorem collision_refused_iff (h : Collides files) :
    let server : Server := ⟨some generation, stored, delivered⟩
    let reloaded := reload flags incidents generation server (.ok files)
    ((reloaded = server ∧ ∀ name ∈ generation.catalogue.names, reloaded.Evaluates name) ↔
        AddsNothing generation.catalogue files) ∧
      ∀ name ∈ generation.catalogue.names, reloaded.Evaluates name ↔
        AddsNothing generation.catalogue files ∨ (merge files).DeclaredOnce name := by
  intro server reloaded
  have hlive (name : String) (hname : name ∈ generation.catalogue.names) :
      server.Evaluates name := ⟨generation, rfl, hname⟩
  rcases reload_of_collides flags incidents generation stored delivered h with
    ⟨hnothing, hsame⟩ | ⟨hadds, hevaluates, hdiffers⟩
  · have hsame : reloaded = server := hsame
    refine ⟨iff_of_true ⟨hsame, fun name hname => ?_⟩ hnothing, fun name hname => ?_⟩
    · exact hsame ▸ hlive name hname
    · exact iff_of_true (hsame ▸ hlive name hname) (.inl hnothing)
  · refine ⟨iff_of_false (fun hc => hdiffers hc.1) hadds, fun name _ => ?_⟩
    exact (hevaluates name).trans (or_iff_right hadds).symm

end Collision

/-- The cpu alert is declared twice, and nothing is added: the catalogue stays. -/
theorem collision_refused_cpu :
    let cpu : Rule := .bare "cpu" [] []
    let live : Catalogue := ⟨[cpu], by decide⟩
    let server : Server := ⟨some ⟨live, ∅, new live.rules⟩, ∅, []⟩
    reload (.unspecified _ _) (.unspecified _ _) ⟨live, ∅, new live.rules⟩ server
      (.ok [("a.toml", .ok [cpu]), ("b.toml", .ok [cpu])]) = server := by
  intro cpu live server
  refine (((collision_refused_iff _ _ ⟨live, ∅, new live.rules⟩ ∅ [] ⟨"cpu", ?_⟩).1.mpr ?_).1)
  · decide
  · intro name hname
    have hmem : name ∈ (merge [("a.toml", .ok [cpu]), ("b.toml", .ok [cpu])]).rules.map Rule.name :=
      List.count_pos_iff.mp (hname ▸ Nat.one_pos)
    have hnames : (merge [("a.toml", .ok [cpu]), ("b.toml", .ok [cpu])]).rules.map Rule.name =
        ["cpu", "cpu"] := rfl
    rw [hnames] at hmem
    simpa [live, Catalogue.names, cpu, Rule.bare] using hmem

/-- The cpu alert is declared twice, and the mem alert is added: the cpu alert is taken down. -/
theorem collision_takes_down_cpu :
    ¬∀ (flags : IterOrder String Bool) (incidents : IterOrder String Incident)
      (generation : Generation) (stored : Rules) (delivered : List Delivery)
      (files : List (String × Except LoaderDiagnostic (List Rule))), Collides files →
        let server : Server := ⟨some generation, stored, delivered⟩
        let reloaded := reload flags incidents generation server (.ok files)
        reloaded = server ∧ ∀ name ∈ generation.catalogue.names, reloaded.Evaluates name := by
  intro h
  let cpu : Rule := .bare "cpu" [] []
  let live : Catalogue := ⟨[cpu], by decide⟩
  have hcpu := (h (.unspecified _ _) (.unspecified _ _) ⟨live, ∅, new live.rules⟩ ∅ []
    [("a.toml", .ok [cpu]), ("b.toml", .ok [cpu, .bare "mem" [] []])] ⟨"cpu", by decide⟩).2
      "cpu" (by decide)
  obtain ⟨generation, hrunning, hmem⟩ := hcpu
  have hnames : ((reload (.unspecified _ _) (.unspecified _ _) ⟨live, ∅, new live.rules⟩
      ⟨some ⟨live, ∅, new live.rules⟩, ∅, []⟩ (.ok [("a.toml", .ok [cpu]),
        ("b.toml", .ok [cpu, .bare "mem" [] []])])).running.map fun g => g.catalogue.names) =
      some ["mem"] := by decide +kernel
  rw [hrunning] at hnames
  have honly : generation.catalogue.names = ["mem"] := Option.some.inj hnames
  rw [honly] at hmem
  exact absurd hmem (by decide)

end Kaleidoscope.Beacon
