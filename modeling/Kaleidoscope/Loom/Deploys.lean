import Kaleidoscope.Loom.Plan

/-!
# A catalogue that was applied is deployed

After `apply` the destination has the rule files of the source and its own other files, a
second `apply` has nothing to do, and `plan` reports nothing. A temporary sibling that was a
file of the destination is lost, though, and the rules of an objective name the file that they
were read from.
-/

namespace Kaleidoscope.Loom

open Utf8 HashMap Beacon

section Merge

/-- The rules of a file, if it parsed. -/
def rulesOf (file : String × Except LoaderDiagnostic (List Rule)) : List Rule :=
  file.2.toOption.getD []

theorem rules_foldl_file (files : List (String × Except LoaderDiagnostic (List Rule)))
    (merged : Merged) :
    (files.foldl Merged.file merged).rules = merged.rules ++ files.flatMap rulesOf := by
  induction files generalizing merged with
  | nil => simp
  | cons file files ih =>
    rw [List.foldl_cons, ih, List.flatMap_cons, ← List.append_assoc]
    obtain ⟨path, diagnostic | rules⟩ := file
    · simp [Merged.file, rulesOf, Except.toOption]
    · simp [Merged.file, rulesOf, Except.toOption]

theorem diagnostics_foldl_file (files : List (String × Except LoaderDiagnostic (List Rule)))
    (merged : Merged) :
    (files.foldl Merged.file merged).diagnostics = [] ↔
      merged.diagnostics = [] ∧ ∀ file ∈ files, ∃ rules, file.2 = .ok rules := by
  induction files generalizing merged with
  | nil => simp
  | cons file files ih =>
    rw [List.foldl_cons, ih, List.forall_mem_cons, ← and_assoc]
    refine and_congr_left fun _ => ?_
    obtain ⟨path, diagnostic | rules⟩ := file
    · simp [Merged.file]
    · simp [Merged.file]

theorem duplicates_eq_nil_iff {merged : Merged} :
    merged.duplicates = [] ↔ (merged.rules.map Rule.name).Nodup := by
  rw [List.eq_nil_iff_forall_not_mem, List.nodup_iff_count_le_one]
  simp only [Merged.mem_duplicates, not_lt]

/-- Files load without a diagnostic when each of them parses and no name is declared twice, and
what they load to is what they declare. -/
theorem loadRules_clean (files : List (String × Except LoaderDiagnostic (List Rule))) :
    ∃ outcome, loadRules (.ok files) = .ok outcome ∧
      (outcome.diagnostics = [] ↔ (∀ file ∈ files, ∃ rules, file.2 = .ok rules) ∧
        ((files.flatMap rulesOf).map Rule.name).Nodup) ∧
      (outcome.diagnostics = [] → outcome.rules = files.flatMap rulesOf) := by
  have hrules : (files.foldl Merged.file ⟨[], [], ∅⟩).rules = files.flatMap rulesOf :=
    (rules_foldl_file files _).trans (List.nil_append _)
  have hdiagnostics : (files.foldl Merged.file ⟨[], [], ∅⟩).detectDuplicateNames.diagnostics = [] ↔
      (∀ file ∈ files, ∃ rules, file.2 = .ok rules) ∧
        ((files.flatMap rulesOf).map Rule.name).Nodup := by
    rw [Merged.detectDuplicateNames, Merged.foldl_drop_diagnostics, List.append_eq_nil_iff,
      List.map_eq_nil_iff, duplicates_eq_nil_iff, diagnostics_foldl_file, hrules]
    simp only [true_and]
  refine ⟨_, rfl, hdiagnostics, fun h => ?_⟩
  have hnone : (files.foldl Merged.file ⟨[], [], ∅⟩).duplicates = [] :=
    duplicates_eq_nil_iff.mpr (hrules ▸ (hdiagnostics.mp h).2)
  change (files.foldl Merged.file ⟨[], [], ∅⟩).detectDuplicateNames.rules = _
  rw [Merged.detectDuplicateNames, hnone, List.foldl_nil, hrules]

/-- Two families of lists of the same lengths agree when their concatenations do. -/
theorem flatMap_eq_flatMap_iff {α β : Type} {f g : α → List β} {l : List α}
    (hlength : ∀ a ∈ l, (f a).length = (g a).length) :
    l.flatMap f = l.flatMap g ↔ ∀ a ∈ l, f a = g a := by
  induction l with
  | nil => simp
  | cons a l ih =>
    rw [List.forall_mem_cons] at hlength
    rw [List.flatMap_cons, List.flatMap_cons, List.forall_mem_cons, ← ih hlength.2]
    exact ⟨fun h => List.append_inj h hlength.1, fun h => by rw [h.1, h.2]⟩

end Merge

section Trees

theorem nodup_tomlFiles (tree : Tree) : (tomlFiles tree).Nodup := Finset.sort_nodup _ _

/-- The rule files of a tree are determined by which rule files there are. -/
theorem tomlFiles_congr {tree tree' : Tree}
    (h : ∀ p : RelPath, p.isToml = true → tree'.lookup p = tree.lookup p) :
    tomlFiles tree' = tomlFiles tree := by
  have hkeys : (tree'.keys.filter fun p => p.isToml) = tree.keys.filter fun p => p.isToml := by
    ext p
    simp only [Finset.mem_filter, Finmap.mem_keys, ← Finmap.lookup_isSome]
    exact and_congr_left fun hp => by rw [h p hp]
  rw [tomlFiles, tomlFiles, hkeys]

theorem readFile_congr {tree tree' : Tree} {p : RelPath} (h : tree'.lookup p = tree.lookup p) :
    readFile tree' p = readFile tree p := by
  rw [readFile, readFile, h]

theorem lookup_of_mem_tomlFiles {tree : Tree} {p : RelPath} (h : p ∈ tomlFiles tree) :
    tree.lookup p = some (readFile tree p) := by
  obtain ⟨bytes, hbytes⟩ := Option.isSome_iff_exists.mp (mem_tomlFiles.mp h).2
  rw [readFile, hbytes, Option.getD_some]

theorem lookup_of_notMem_tomlFiles {tree : Tree} {p : RelPath} (hp : p.isToml = true)
    (h : p ∉ tomlFiles tree) : tree.lookup p = none := by
  rw [mem_tomlFiles, not_and, Bool.not_eq_true, Option.isSome_eq_false_iff,
    Option.isNone_iff_eq_none] at h
  exact h hp

variable (toRoot : Bytes) {source : Tree}

/-- One file of the loop is the source's afterwards; its temporary sibling is gone if it had to
be written. -/
theorem lookup_writeOne (writing : Writing) (p q : RelPath) :
    (writeOne toRoot source writing p).tree.lookup q =
      if q = p then some (readFile source p)
      else if q = p.tmp ∧ writing.tree.lookup p ≠ some (readFile source p) then none
      else writing.tree.lookup q := by
  rw [writeOne]
  split_ifs with hsame hq htmp htmp hq
  · rw [hq, hsame]
  · exact absurd hsame htmp.2
  · rfl
  all_goals
    simp only [lookup_atomicWrite]
    simp_all

/-- So are all the files of the loop. -/
theorem lookup_foldl_writeOne {ps : List RelPath} (hnodup : ps.Nodup)
    (htoml : ∀ p ∈ ps, p.isToml = true) (writing : Writing) (q : RelPath) :
    (ps.foldl (writeOne toRoot source) writing).tree.lookup q =
      if q ∈ ps then some (readFile source q)
      else if ∃ p ∈ ps, q = p.tmp ∧ writing.tree.lookup p ≠ some (readFile source p) then none
      else writing.tree.lookup q := by
  induction ps generalizing writing with
  | nil => simp
  | cons p ps ih =>
    obtain ⟨hp, hnodup⟩ := List.nodup_cons.mp hnodup
    obtain ⟨hpToml, hpsToml⟩ := List.forall_mem_cons.mp htoml
    have hlater : ∀ p' ∈ ps, (writeOne toRoot source writing p).tree.lookup p' =
        writing.tree.lookup p' := by
      intro p' hp'
      rw [lookup_writeOne, if_neg fun h : p' = p => hp (h ▸ hp'),
        if_neg fun h => RelPath.tmp_ne (hpsToml p' hp') h.1]
    have hwritten : (∃ p' ∈ ps, q = p'.tmp ∧
        (writeOne toRoot source writing p).tree.lookup p' ≠ some (readFile source p')) ↔
          ∃ p' ∈ ps, q = p'.tmp ∧ writing.tree.lookup p' ≠ some (readFile source p') :=
      exists_congr fun p' => and_congr_right fun hp' => by rw [hlater p' hp']
    rw [List.foldl_cons, ih hnodup hpsToml, lookup_writeOne]
    simp only [hwritten, List.mem_cons, exists_eq_or_imp]
    by_cases hq : q = p
    · subst hq
      have hnone : ¬∃ p' ∈ ps, q = p'.tmp ∧ writing.tree.lookup p' ≠ some (readFile source p') :=
        fun ⟨_, _, h, _⟩ => RelPath.tmp_ne hpToml h
      simp [hp, hnone]
    · simp only [hq, false_or, if_false]
      by_cases hlate : ∃ p' ∈ ps, q = p'.tmp ∧ writing.tree.lookup p' ≠ some (readFile source p')
      · rw [if_pos hlate, if_pos (Or.inr hlate)]
      · by_cases hnow : q = p.tmp ∧ writing.tree.lookup p ≠ some (readFile source p)
        · rw [if_neg hlate, if_pos hnow, if_pos (Or.inl hnow)]
        · rw [if_neg hlate, if_neg hnow, if_neg (not_or.mpr ⟨hnow, hlate⟩)]

/-- Files that are the source's already are not written. -/
theorem foldl_writeOne_of_same {ps : List RelPath} (writing : Writing)
    (hsame : ∀ p ∈ ps, writing.tree.lookup p = some (readFile source p)) :
    (ps.foldl (writeOne toRoot source) writing).tree = writing.tree ∧
      (ps.foldl (writeOne toRoot source) writing).written = writing.written := by
  induction ps generalizing writing with
  | nil => exact ⟨rfl, rfl⟩
  | cons p ps ih =>
    obtain ⟨hp, hps⟩ := List.forall_mem_cons.mp hsame
    rw [List.foldl_cons, writeOne, if_pos hp]
    exact ih _ hps

theorem lookup_foldl_erase (ps : List RelPath) (tree : Tree) (q : RelPath) :
    (ps.foldl (fun (tree : Tree) p => tree.erase p) tree).lookup q =
      if q ∈ ps then none else tree.lookup q := by
  induction ps generalizing tree with
  | nil => simp
  | cons p ps ih =>
    rw [List.foldl_cons, ih, lookup_erase_ite]
    by_cases hq : q = p <;> by_cases hmem : q ∈ ps <;> simp [hq, hmem]

end Trees

section Apply

variable {formats : Formats} {fromRoot : Bytes} (toRoot : Bytes) {source : Tree} (dest : Tree)

/-- What `apply` leaves of a file. -/
theorem lookup_apply {outcome : LoadOutcome}
    (hload : loadTree formats fromRoot (.ok source) = .ok outcome)
    (hclean : outcome.diagnostics = []) (q : RelPath) :
    (apply formats fromRoot toRoot (.ok source) dest).2.lookup q =
      if q.isToml then source.lookup q
      else if ∃ p ∈ tomlFiles source, q = p.tmp ∧ dest.lookup p ≠ source.lookup p then none
      else dest.lookup q := by
  have hnone : outcome.hasDiagnostics = false := by simp [LoadOutcome.hasDiagnostics, hclean]
  have htoml : ∀ p ∈ tomlFiles source, p.isToml = true := fun p hp => (mem_tomlFiles.mp hp).1
  have hwritten : (∃ p ∈ tomlFiles source, q = p.tmp ∧ dest.lookup p ≠ source.lookup p) ↔
      ∃ p ∈ tomlFiles source, q = p.tmp ∧ dest.lookup p ≠ some (readFile source p) :=
    exists_congr fun p => and_congr_right fun hp => by rw [lookup_of_mem_tomlFiles hp]
  simp only [apply, hload, hnone, Bool.false_eq_true, if_false, lookup_foldl_erase]
  simp only [lookup_foldl_writeOne toRoot (nodup_tomlFiles source) htoml, ← hwritten]
  have hstale : q ∈ (tomlFiles dest).filter (fun p => p ∉ tomlFiles source) ↔
      q ∈ tomlFiles dest ∧ q ∉ tomlFiles source := by simp [List.mem_filter]
  simp only [hstale]
  cases hq : q.isToml with
  | true =>
    have hno : ¬∃ p ∈ tomlFiles source, q = p.tmp ∧ dest.lookup p ≠ source.lookup p :=
      fun ⟨_, _, h, _⟩ => RelPath.tmp_ne hq h
    by_cases hmem : q ∈ tomlFiles source
    · simp [hmem, lookup_of_mem_tomlFiles hmem]
    · rw [lookup_of_notMem_tomlFiles hq hmem, if_neg hmem, if_neg hno]
      by_cases hdest : q ∈ tomlFiles dest
      · simp [hdest, hmem]
      · simp [lookup_of_notMem_tomlFiles hq hdest]
  | false =>
    have hother (tree : Tree) : q ∉ tomlFiles tree := fun h => by
      rw [mem_tomlFiles, hq] at h
      exact Bool.false_ne_true h.1
    simp only [hother, false_and, if_false, Bool.false_eq_true]

/-- The rules of a tree depend on its rule files. -/
theorem loadTree_congr {root : Bytes} {tree tree' : Tree}
    (h : ∀ p : RelPath, p.isToml = true → tree'.lookup p = tree.lookup p) :
    loadTree formats root (.ok tree') = loadTree formats root (.ok tree) := by
  have hfiles : ((tomlFiles tree).map fun p =>
      (Formats.lossy (p.under root), formats.parseFile (p.under root) (readFile tree' p))) =
        (tomlFiles tree).map fun p =>
          (Formats.lossy (p.under root), formats.parseFile (p.under root) (readFile tree p)) :=
    List.map_congr_left fun p hp => by rw [readFile_congr (h p (mem_tomlFiles.mp hp).1)]
  simp only [loadTree, Except.map, tomlFiles_congr h, hfiles]

/-- A second `apply` has nothing to do. -/
theorem apply_of_same {outcome : LoadOutcome}
    (hload : loadTree formats fromRoot (.ok source) = .ok outcome)
    (hclean : outcome.diagnostics = [])
    (hsame : ∀ p : RelPath, p.isToml = true → dest.lookup p = source.lookup p) :
    (apply formats fromRoot toRoot (.ok source) dest).1.written = [] ∧
      (apply formats fromRoot toRoot (.ok source) dest).1.removed = [] ∧
        (apply formats fromRoot toRoot (.ok source) dest).2 = dest := by
  have hnone : outcome.hasDiagnostics = false := by simp [LoadOutcome.hasDiagnostics, hclean]
  have hwrite := foldl_writeOne_of_same toRoot ⟨dest, [], []⟩ fun p hp =>
     (hsame p (mem_tomlFiles.mp hp).1).trans (lookup_of_mem_tomlFiles hp)
  have hstale : (tomlFiles dest).filter (fun p => p ∉ tomlFiles source) = [] := by
    simp [tomlFiles_congr hsame]
  simp only [apply, hload, hnone, Bool.false_eq_true, if_false, hstale, hwrite, List.map_nil,
    List.foldl_nil, and_self]

/-- The rules of a tree below another root: the names stay, and the rules do unless a file that
declares an objective reads as another path. -/
theorem loadTree_moved {outcome : LoadOutcome}
    (hload : loadTree formats fromRoot (.ok source) = .ok outcome)
    (hclean : outcome.diagnostics = []) :
    ∃ outcome', loadTree formats toRoot (.ok source) = .ok outcome' ∧
      outcome'.rules.map Rule.name = outcome.rules.map Rule.name ∧
      (outcome'.rules = outcome.rules ↔ ∀ p ∈ tomlFiles source,
        formats.HasSlo (readFile source p) →
          Formats.lossy (p.under toRoot) = Formats.lossy (p.under fromRoot)) := by
  let files (root : Bytes) : List (String × Except LoaderDiagnostic (List Rule)) :=
    (tomlFiles source).map fun p =>
      (Formats.lossy (p.under root), formats.parseFile (p.under root) (readFile source p))
  obtain ⟨outcome₁, hload₁, hclean₁, hrules₁⟩ := loadRules_clean (files fromRoot)
  obtain rfl : outcome₁ = outcome := Except.ok.inj (hload₁.symm.trans hload)
  obtain ⟨hparses, hnodup⟩ := hclean₁.mp hclean
  obtain ⟨outcome', hload', hclean', hrules'⟩ := loadRules_clean (files toRoot)
  let own (root : Bytes) (p : RelPath) : List Rule :=
    (formats.parseFile (p.under root) (readFile source p)).toOption.getD []
  have hfiles (root : Bytes) :
      (files root).flatMap rulesOf = (tomlFiles source).flatMap (own root) :=
    List.flatMap_map _ _ _
  have hmoved : ∀ p ∈ tomlFiles source,
      (∃ rules', formats.parseFile (p.under toRoot) (readFile source p) = .ok rules') ∧
      (own toRoot p).map Rule.name = (own fromRoot p).map Rule.name ∧
      (own toRoot p = own fromRoot p ↔ (formats.HasSlo (readFile source p) →
        Formats.lossy (p.under toRoot) = Formats.lossy (p.under fromRoot))) := by
    intro p hp
    obtain ⟨rules, hrules⟩ := hparses _ (List.mem_map_of_mem hp)
    obtain ⟨rules', hparse', hnames, hiff⟩ := Formats.parseFile_moved hrules
    have hfrom : own fromRoot p = rules := congrArg (fun x => x.toOption.getD []) hrules
    have hto : own toRoot p = rules' := congrArg (fun x => x.toOption.getD []) hparse'
    rw [hfrom, hto]
    exact ⟨⟨rules', hparse'⟩, hnames, hiff⟩
  have hnames : ((tomlFiles source).flatMap (own toRoot)).map Rule.name =
      ((tomlFiles source).flatMap (own fromRoot)).map Rule.name := by
    rw [List.map_flatMap, List.map_flatMap]
    exact List.flatMap_congr fun p hp => (hmoved p hp).2.1
  have hclean₂ : outcome'.diagnostics = [] := by
    refine hclean'.mpr ⟨fun file hfile => ?_, ?_⟩
    · obtain ⟨p, hp, rfl⟩ := List.mem_map.mp hfile
      exact (hmoved p hp).1
    · rw [hfiles, hnames, ← hfiles]
      exact hnodup
  refine ⟨outcome', hload', ?_⟩
  rw [hrules' hclean₂, hrules₁ hclean, hfiles, hfiles]
  refine ⟨hnames, ?_⟩
  rw [flatMap_eq_flatMap_iff fun p hp => by
    simpa only [List.length_map] using congrArg List.length (hmoved p hp).2.1]
  exact forall₂_congr fun p hp => (hmoved p hp).2.2

end Apply

section Deploys

variable (formats : Formats) (fromRoot toRoot : Bytes) (debug : Nat → String) {source dest : Tree}

/-- What `apply` is for: the rule files of the destination become those of the source, its other
files stay, a second `apply` has nothing to do and `plan` nothing to report. -/
structure Deployed (source dest : Tree) : Prop where
  tomlFiles_eq : ∀ p : RelPath, p.isToml = true →
    (apply formats fromRoot toRoot (.ok source) dest).2.lookup p = source.lookup p
  others_eq : ∀ p : RelPath, p.isToml = false →
    (apply formats fromRoot toRoot (.ok source) dest).2.lookup p = dest.lookup p
  again :
    let dest' := (apply formats fromRoot toRoot (.ok source) dest).2
    (apply formats fromRoot toRoot (.ok source) dest').1.written = [] ∧
      (apply formats fromRoot toRoot (.ok source) dest').1.removed = [] ∧
        (apply formats fromRoot toRoot (.ok source) dest').2 = dest'
  noChange :
    let dest' := (apply formats fromRoot toRoot (.ok source) dest).2
    (plan debug (loadTree formats fromRoot (.ok source))
      (loadTree formats toRoot (.ok dest'))).NoChange

/-- A source that loads without a diagnostic is deployed, and any other changes nothing. -/
def Deploys (source : Except LoaderError Tree) (dest : Tree) : Prop :=
  match source, loadTree formats fromRoot source with
  | .ok tree, .ok outcome =>
    if outcome.diagnostics = [] then Deployed formats fromRoot toRoot debug tree dest
    else (apply formats fromRoot toRoot source dest).2 = dest
  | _, _ => (apply formats fromRoot toRoot source dest).2 = dest

/-- No file of the destination is the temporary sibling of a rule file that has to be written,
and every rule file with an objective reads as the same path below both roots. -/
def Undisturbed (source dest : Tree) : Prop :=
  (∀ p ∈ tomlFiles source, dest.lookup p ≠ source.lookup p → dest.lookup p.tmp = none) ∧
    ∀ p ∈ tomlFiles source, formats.HasSlo (readFile source p) →
      Formats.lossy (p.under toRoot) = Formats.lossy (p.under fromRoot)

theorem deployed_iff {outcome : LoadOutcome}
    (hload : loadTree formats fromRoot (.ok source) = .ok outcome)
    (hclean : outcome.diagnostics = []) :
    Deployed formats fromRoot toRoot debug source dest ↔
      Undisturbed formats fromRoot toRoot source dest := by
  have hlookup := lookup_apply toRoot dest hload hclean
  have htoml (p : RelPath) (hp : p.isToml = true) :
      (apply formats fromRoot toRoot (.ok source) dest).2.lookup p = source.lookup p := by
    rw [hlookup, if_pos hp]
  have hothers : (∀ p : RelPath, p.isToml = false →
      (apply formats fromRoot toRoot (.ok source) dest).2.lookup p = dest.lookup p) ↔
        ∀ p ∈ tomlFiles source, dest.lookup p ≠ source.lookup p → dest.lookup p.tmp = none := by
    constructor
    · intro h p hp hne
      rw [← h p.tmp (RelPath.isToml_tmp p), hlookup, if_neg (by simp [RelPath.isToml_tmp]),
        if_pos ⟨p, hp, rfl, hne⟩]
    · intro h p hp
      rw [hlookup, if_neg (by simp [hp])]
      split_ifs with hwritten
      · obtain ⟨q, hq, rfl, hne⟩ := hwritten
        exact (h q hq hne).symm
      · rfl
  obtain ⟨outcome', hload', hnames, hrules⟩ := loadTree_moved toRoot hload hclean
  have hplan : (plan debug (loadTree formats fromRoot (.ok source)) (loadTree formats toRoot
      (.ok (apply formats fromRoot toRoot (.ok source) dest).2))).NoChange ↔
        outcome'.rules = outcome.rules := by
    rw [loadTree_congr htoml, hload, hload', noChange_plan_iff hnames]
  constructor
  · exact fun h => ⟨hothers.mp h.others_eq, hrules.mp (hplan.mp h.noChange)⟩
  · exact fun h => ⟨htoml, hothers.mpr h.1, apply_of_same toRoot _ hload hclean htoml,
      hplan.mpr (hrules.mpr h.2)⟩

/-- `apply` does what it is for exactly if the source has a diagnostic or nothing disturbs it. -/
theorem deploys_iff (source : Except LoaderError Tree) (dest : Tree) :
    Deploys formats fromRoot toRoot debug source dest ↔
      ∀ tree outcome, source = .ok tree → loadTree formats fromRoot source = .ok outcome →
        outcome.diagnostics = [] → Undisturbed formats fromRoot toRoot tree dest := by
  unfold Deploys
  cases hload : loadTree formats fromRoot source with
  | error err =>
    refine iff_of_true ?_ fun _ _ _ h => nomatch h
    cases source <;> simp only [apply, hload]
  | ok outcome =>
    cases source with
    | error err =>
      refine iff_of_true ?_ fun _ _ h => nomatch h
      simp only [apply, hload]
    | ok tree =>
      dsimp only
      split_ifs with hclean
      · rw [deployed_iff formats fromRoot toRoot debug hload hclean]
        constructor
        · rintro h tree' outcome' ⟨⟩ - -
          exact h
        · exact fun h => h tree outcome rfl rfl hclean
      · refine iff_of_true ?_ ?_
        · have hsome : outcome.hasDiagnostics = true := by simp [LoadOutcome.hasDiagnostics, hclean]
          simp only [apply, hload, hsome, if_true]
        · rintro tree' outcome' - ⟨⟩ h
          exact absurd h hclean

end Deploys

/-- A decoder of files without a declaration. -/
def emptyFormats : Formats where
  toml text := if text = [] then .ok ⟨[], []⟩ else .error "expected a table"
  humantime _ := .error "expected number at 0"
  display _ := "0"
  fixed10 _ _ := "0.0000000000"

/-- The path of `a.toml`. -/
def aToml : RelPath := ⟨[], [97, 46, 116, 111, 109, 108]⟩

/-- A source of one empty rule file. -/
def oneFile : Tree := Finmap.singleton aToml []

theorem tomlFiles_oneFile : tomlFiles oneFile = [aToml] := by
  have hkeys : (oneFile.keys.filter fun p => p.isToml) = {aToml} := by
    rw [oneFile, Finmap.keys_singleton, Finset.filter_singleton, if_pos (by decide)]
  rw [tomlFiles, hkeys, Finset.sort_singleton]

theorem loadTree_oneFile (root : Bytes) :
    loadTree emptyFormats root (.ok oneFile) = .ok ⟨⟨[], List.nodup_nil⟩, []⟩ := by
  simp only [loadTree, Except.map, tomlFiles_oneFile, List.map_cons, List.map_nil]
  exact loadRules_catalogue (Formats.lossy (aToml.under root)) ⟨[], List.nodup_nil⟩

/-- A file `a.toml.tmp` of the destination is lost. -/
theorem lost_sibling :
    ¬∀ (formats : Formats) (fromRoot toRoot : Bytes) (debug : Nat → String)
      (source : Except LoaderError Tree) (dest : Tree),
      Deploys formats fromRoot toRoot debug source dest := by
  intro h
  let dest : Tree := Finmap.singleton aToml.tmp [110]
  have hdeploys := h emptyFormats [47, 102] [47, 116] toString (.ok oneFile) dest
  simp only [Deploys, loadTree_oneFile, if_true] at hdeploys
  have hkept := hdeploys.others_eq aToml.tmp (RelPath.isToml_tmp aToml)
  have hwritten : ∃ p ∈ tomlFiles oneFile, aToml.tmp = p.tmp ∧ dest.lookup p ≠ oneFile.lookup p :=
    ⟨aToml, by rw [tomlFiles_oneFile]; exact List.mem_singleton_self _, rfl, by decide⟩
  rw [lookup_apply _ _ (loadTree_oneFile _) rfl, if_neg (by decide), if_pos hwritten] at hkept
  exact absurd hkept (by decide)

end Kaleidoscope.Loom
