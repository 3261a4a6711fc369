import Kaleidoscope.Beacon.Start
import Kaleidoscope.Wal.Table
import Mathlib.Data.List.Lex

/-!
# Rule directories

The loader walks a directory and what is below it, sorts the files it finds and merges what they
declare. Where every directory can be listed, each file and each rule is accounted for.
-/

namespace Kaleidoscope.Beacon

open Utf8

/-! ## Directories -/

/-- What a directory lists, in the order of the listing. Links are followed. -/
inductive Listing where
  | nil
  /-- An entry that cannot be read. -/
  | failed (error : String) (rest : Listing)
  /-- An entry that is no directory, and what reading it gives. -/
  | file (name : Bytes) (content : Except String Bytes) (rest : Listing)
  /-- A directory that cannot be listed. -/
  | unlistable (name : Bytes) (message : String) (rest : Listing)
  | directory (name : Bytes) (entries rest : Listing)

/-- The separator of paths. -/
def slash : UInt8 := 47

/-- The separator of an extension. -/
def dot : UInt8 := 46

/-- `Path::join`, of the name of an entry. -/
def joinName (path name : Bytes) : Bytes :=
  if path.getLast?.any (· ≠ slash) then path ++ slash :: name else path ++ name

/-- `Path::extension`, of the name of an entry. -/
def extension (name : Bytes) : Option Bytes :=
  match name.reverse.dropWhile (· ≠ dot) with
  | _ :: _ :: _ =>
    if name = [dot, dot] then none else some (name.reverse.takeWhile (· ≠ dot)).reverse
  | _ => none

/-- The extension of the files that are read. -/
def tomlExtension : Bytes := asBytes "toml".toList

/-- A file that was found, under the names that lead to it. -/
structure Found where
  components : List Bytes
  content : Except String Bytes

/-- `collect_toml_files`; `components` are the names that lead to the directory. -/
def collectTomlFiles (dir : Bytes) (components : List Bytes) :
    Listing → Except LoaderError (List Found)
  | .nil => .ok []
  | .failed _ rest => collectTomlFiles dir components rest
  | .file name content rest => do
    let found ← collectTomlFiles dir components rest
    if extension name = some tomlExtension then
      return ⟨components ++ [name], content⟩ :: found
    else return found
  | .unlistable name message _ =>
    .error (.directoryNotReadable
      (Formats.lossy ((components ++ [name]).foldl joinName dir)) message)
  | .directory name entries rest => do
    let below ← collectTomlFiles dir (components ++ [name]) entries
    let found ← collectTomlFiles dir components rest
    return below ++ found

/-- What paths are sorted by: the names, byte by byte. -/
def Found.key (file : Found) : List (List Nat) := file.components.map (·.map UInt8.toNat)

/-- A file that was found, as the parser reads it. -/
def Found.ruleFile (dir : Bytes) (file : Found) : RuleFile where
  path := file.components.foldl joinName dir
  content := file.content

/-- `load_rules`; `entries` is what listing the directory gives. -/
def loadDirectory (formats : Formats) (dir : Bytes) (entries : Except String Listing) :
    Except LoaderError LoadOutcome := do
  let entries ← entries.mapError (.directoryNotReadable (Formats.lossy dir))
  let found ← collectTomlFiles dir [] entries
  let paths := found.mergeSort fun a b => a.key ≤ b.key
  loadRules (.ok (parseFiles formats (paths.map (·.ruleFile dir))))

/-! ## What is below a directory -/

namespace Listing

/-- A file is below the directory, under the names that lead to it. -/
def Holds : Listing → List Bytes → Except String Bytes → Prop
  | nil, _, _ => False
  | failed _ rest, path, content => rest.Holds path content
  | file name c rest, path, content => path = [name] ∧ content = c ∨ rest.Holds path content
  | unlistable _ _ rest, path, content => rest.Holds path content
  | directory name entries rest, path, content =>
    (∃ below, path = name :: below ∧ entries.Holds below content) ∨ rest.Holds path content

/-- A directory that cannot be listed is below the directory. -/
def Hides : Listing → List Bytes → String → Prop
  | nil, _, _ => False
  | failed _ rest, path, message => rest.Hides path message
  | file _ _ rest, path, message => rest.Hides path message
  | unlistable name m rest, path, message =>
    path = [name] ∧ message = m ∨ rest.Hides path message
  | directory name entries rest, path, message =>
    (∃ below, path = name :: below ∧ entries.Hides below message) ∨ rest.Hides path message

/-- The names that are listed. -/
def names : Listing → List Bytes
  | nil => []
  | failed _ rest => rest.names
  | file name _ rest => name :: rest.names
  | unlistable name _ rest => name :: rest.names
  | directory name _ rest => name :: rest.names

/-- No directory lists a name twice. -/
def Distinct : Listing → Prop
  | nil => True
  | failed _ rest => rest.Distinct
  | file name _ rest => name ∉ rest.names ∧ rest.Distinct
  | unlistable name _ rest => name ∉ rest.names ∧ rest.Distinct
  | directory name entries rest => name ∉ rest.names ∧ entries.Distinct ∧ rest.Distinct

end Listing

/-- The names lead to a `.toml` file. -/
def IsToml (path : List Bytes) : Prop :=
  ∃ stem, stem ≠ [] ∧ path.getLast? = some (stem ++ dot :: tomlExtension)

/-- What parsing the files declares, in their order. -/
def declaredBy (formats : Formats) (dir : Bytes) (files : List Found) : List Rule :=
  files.flatMap fun file =>
    match (file.ruleFile dir).parse formats with
    | .ok rules => rules
    | .error _ => []

/-- The diagnostics of the files that cannot be read or parsed, in their order. -/
def failuresOf (formats : Formats) (dir : Bytes) (files : List Found) : List LoaderDiagnostic :=
  files.filterMap fun file =>
    match (file.ruleFile dir).parse formats with
    | .ok _ => none
    | .error diagnostic => some diagnostic

/-- No file and no rule below a directory is lost: the files are the `.toml` files there, by their
paths. A rule they declare is loaded unless its name collides, and a file that fails or a name that
collides has one diagnostic. -/
structure Accounts (formats : Formats) (dir : Bytes) (entries : Listing) (files : List Found)
    (collided : List String) (outcome : LoadOutcome) : Prop where
  distinct : (outcome.rules.map Rule.name).Nodup
  sorted : files.Pairwise fun a b => a.key < b.key
  found : ∀ file, file ∈ files ↔ entries.Holds file.components file.content ∧
    IsToml file.components
  rules : outcome.rules = (declaredBy formats dir files).filter fun rule =>
    ((declaredBy formats dir files).map Rule.name).count rule.name = 1
  duplicates : ∀ name, name ∈ collided ↔
    1 < ((declaredBy formats dir files).map Rule.name).count name
  diagnostics : ∃ origin, outcome.diagnostics =
      failuresOf formats dir files ++ collided.map (Merged.collision origin) ∧
    (collided.map (Merged.collision origin)).Nodup

/-! ## The walk -/

/-- What is before an extension is not empty. -/
theorem eq_append_of_extension {name suffix : Bytes} (h : extension name = some suffix) :
    ∃ stem, stem ≠ [] ∧ name = stem ++ dot :: suffix := by
  unfold extension at h
  have hsplit := List.takeWhile_append_dropWhile (p := (· ≠ dot)) (l := name.reverse)
  split at h
  next c d rest hdrop =>
    split at h
    · cases h
    · have htake := List.reverse_eq_iff.mp (Option.some.inj h)
      have hc : c = dot := by
        have hhead := List.head?_dropWhile_not (fun b => decide (b ≠ dot)) name.reverse
        rw [hdrop] at hhead
        simpa using hhead
      rw [hdrop, htake, hc] at hsplit
      refine ⟨(d :: rest).reverse, by simp, ?_⟩
      rw [List.reverse_eq_iff.mp hsplit.symm]
      simp
  next => cases h

/-- The extension begins after the last dot. -/
theorem extension_append {stem suffix : Bytes} (hne : stem ≠ []) (hsuffix : dot ∉ suffix)
    (hsome : suffix ≠ []) : extension (stem ++ dot :: suffix) = some suffix := by
  have hno : ∀ b ∈ suffix.reverse, decide (b ≠ dot) = true := fun b hb =>
    decide_eq_true fun he => hsuffix (he ▸ List.mem_reverse.mp hb)
  have hreverse : (stem ++ dot :: suffix).reverse = suffix.reverse ++ dot :: stem.reverse := by
    simp
  have hdrop : (stem ++ dot :: suffix).reverse.dropWhile (· ≠ dot) = dot :: stem.reverse := by
    rw [hreverse, List.dropWhile_append_of_pos hno]
    simp
  have htake : (stem ++ dot :: suffix).reverse.takeWhile (· ≠ dot) = suffix.reverse := by
    rw [hreverse, List.takeWhile_append_of_pos hno]
    simp
  obtain ⟨first, rest, hstem⟩ := List.exists_cons_of_ne_nil (List.reverse_ne_nil_iff.mpr hne)
  unfold extension
  rw [hdrop, hstem, htake, if_neg, List.reverse_reverse]
  intro h
  have hstemPos := List.length_pos_of_ne_nil hne
  have hsuffixPos := List.length_pos_of_ne_nil hsome
  have htwo : (stem ++ dot :: suffix).length = 2 := congrArg List.length h
  rw [List.length_append, List.length_cons] at htwo
  omega

/-- A `.toml` file has a name before the extension. -/
theorem extension_eq_toml_iff (name : Bytes) :
    extension name = some tomlExtension ↔
      ∃ stem, stem ≠ [] ∧ name = stem ++ dot :: tomlExtension := by
  refine ⟨eq_append_of_extension, ?_⟩
  rintro ⟨stem, hne, rfl⟩
  exact extension_append hne (by decide) (by decide)

theorem isToml_singleton_iff (name : Bytes) :
    IsToml [name] ↔ extension name = some tomlExtension := by
  rw [extension_eq_toml_iff]
  simp [IsToml]

theorem isToml_cons {name : Bytes} {path : List Bytes} (h : path ≠ []) :
    IsToml (name :: path) ↔ IsToml path := by
  obtain ⟨first, path, rfl⟩ := List.exists_cons_of_ne_nil h
  rw [IsToml, IsToml, List.getLast?_cons_cons]

namespace Listing

/-- A path below a directory starts with a name that is listed. -/
theorem Holds.mem_names {entries : Listing} {path : List Bytes} {content : Except String Bytes}
    (h : entries.Holds path content) :
    ∃ name below, path = name :: below ∧ name ∈ entries.names := by
  induction entries generalizing path with
  | nil => exact h.elim
  | failed error rest ih => exact ih h
  | file name c rest ih =>
    obtain ⟨rfl, -⟩ | h := h
    · exact ⟨_, _, rfl, List.mem_cons_self⟩
    · obtain ⟨other, below, rfl, hmem⟩ := ih h
      exact ⟨_, _, rfl, List.mem_cons_of_mem _ hmem⟩
  | unlistable name m rest ih =>
    obtain ⟨other, below, rfl, hmem⟩ := ih h
    exact ⟨_, _, rfl, List.mem_cons_of_mem _ hmem⟩
  | directory name sub rest ihsub ih =>
    obtain ⟨below, rfl, -⟩ | h := h
    · exact ⟨_, _, rfl, List.mem_cons_self⟩
    · obtain ⟨other, below, rfl, hmem⟩ := ih h
      exact ⟨_, _, rfl, List.mem_cons_of_mem _ hmem⟩

end Listing

variable {formats : Formats} {dir : Bytes}

/-- The walk finds the `.toml` files below the directory. -/
theorem mem_collectTomlFiles {components : List Bytes} {entries : Listing} {found : List Found}
    (h : collectTomlFiles dir components entries = .ok found) (file : Found) :
    file ∈ found ↔ ∃ path, file.components = components ++ path ∧
      entries.Holds path file.content ∧ IsToml path := by
  induction entries generalizing components found with
  | nil =>
    obtain rfl := Except.ok.inj h
    simp [Listing.Holds]
  | failed error rest ih => exact ih h
  | file name content rest ih =>
    obtain ⟨more, hmore, h⟩ := Traverse.bind_eq_ok_iff.mp h
    have hfound : file ∈ found ↔
        (extension name = some tomlExtension ∧ file = ⟨components ++ [name], content⟩) ∨
          file ∈ more := by
      split at h
      next ht =>
        obtain rfl := Except.ok.inj h
        simp [ht]
      next ht =>
        obtain rfl := Except.ok.inj h
        simp [ht]
    rw [hfound, ih hmore, ← isToml_singleton_iff]
    constructor
    · rintro (⟨ht, rfl⟩ | ⟨path, hpath, hholds, ht⟩)
      · exact ⟨[name], rfl, .inl ⟨rfl, rfl⟩, ht⟩
      · exact ⟨path, hpath, .inr hholds, ht⟩
    · rintro ⟨path, hpath, ⟨rfl, hcontent⟩ | hholds, ht⟩
      · obtain ⟨_, _⟩ := file
        exact .inl ⟨ht, by simp_all⟩
      · exact .inr ⟨path, hpath, hholds, ht⟩
  | unlistable name message rest ih => cases h
  | directory name sub rest ihsub ih =>
    obtain ⟨below, hbelow, h⟩ := Traverse.bind_eq_ok_iff.mp h
    obtain ⟨more, hmore, h⟩ := Traverse.bind_eq_ok_iff.mp h
    obtain rfl := Except.ok.inj h
    rw [List.mem_append, ihsub hbelow, ih hmore]
    constructor
    · rintro (⟨path, hpath, hholds, ht⟩ | ⟨path, hpath, hholds, ht⟩)
      · obtain ⟨_, _, rfl, -⟩ := hholds.mem_names
        refine ⟨_, by rw [hpath, List.append_assoc, List.singleton_append],
          .inl ⟨_, rfl, hholds⟩, ?_⟩
        rwa [isToml_cons (List.cons_ne_nil _ _)]
      · exact ⟨path, hpath, .inr hholds, ht⟩
    · rintro ⟨path, hpath, ⟨below, rfl, hholds⟩ | hholds, ht⟩
      · obtain ⟨_, _, rfl, -⟩ := hholds.mem_names
        rw [isToml_cons (List.cons_ne_nil _ _)] at ht
        exact .inl ⟨_, by rw [hpath, List.append_assoc, List.singleton_append], hholds, ht⟩
      · exact .inr ⟨path, hpath, hholds, ht⟩

/-- Where each directory can be listed, the walk ends. -/
theorem exists_collectTomlFiles (dir : Bytes) (components : List Bytes) {entries : Listing}
    (h : ¬∃ path message, entries.Hides path message) :
    ∃ found, collectTomlFiles dir components entries = .ok found := by
  induction entries generalizing components with
  | nil => exact ⟨_, rfl⟩
  | failed error rest ih => exact ih components h
  | file name content rest ih =>
    obtain ⟨more, hmore⟩ := ih components h
    rw [collectTomlFiles, hmore]
    simp only [bind, Except.bind]
    split <;> exact ⟨_, rfl⟩
  | unlistable name message rest ih => exact (h ⟨[name], message, .inl ⟨rfl, rfl⟩⟩).elim
  | directory name sub rest ihsub ih =>
    obtain ⟨below, hbelow⟩ := ihsub (components ++ [name]) fun ⟨path, message, hides⟩ =>
      h ⟨name :: path, message, .inl ⟨path, rfl, hides⟩⟩
    obtain ⟨more, hmore⟩ := ih components fun ⟨path, message, hides⟩ =>
      h ⟨path, message, .inr hides⟩
    rw [collectTomlFiles, hbelow, hmore]
    exact ⟨_, rfl⟩

/-- Where some directory cannot be listed, the walk ends with an error that names one. -/
theorem collectTomlFiles_of_hides (dir : Bytes) (components : List Bytes) {entries : Listing}
    {path : List Bytes} {message : String} (h : entries.Hides path message) :
    ∃ path message, entries.Hides path message ∧
      collectTomlFiles dir components entries =
        .error (.directoryNotReadable
          (Formats.lossy ((components ++ path).foldl joinName dir)) message) := by
  induction entries generalizing components path message with
  | nil => exact h.elim
  | failed error rest ih => exact ih components h
  | file name content rest ih =>
    obtain ⟨path, message, hides, herror⟩ := ih components h
    refine ⟨path, message, hides, ?_⟩
    rw [collectTomlFiles, herror]
    rfl
  | unlistable name m rest ih => exact ⟨[name], m, .inl ⟨rfl, rfl⟩, rfl⟩
  | directory name sub rest ihsub ih =>
    by_cases hsub : ∃ path message, sub.Hides path message
    · obtain ⟨path, message, hides⟩ := hsub
      obtain ⟨path, message, hides, herror⟩ := ihsub (components ++ [name]) hides
      refine ⟨name :: path, message, .inl ⟨path, rfl, hides⟩, ?_⟩
      rw [collectTomlFiles, herror, List.append_assoc, List.singleton_append]
      rfl
    · obtain ⟨below, hbelow⟩ := exists_collectTomlFiles dir (components ++ [name]) hsub
      have hrest : rest.Hides path message :=
        h.resolve_left fun ⟨path, _, hides⟩ => hsub ⟨path, message, hides⟩
      obtain ⟨path, message, hides, herror⟩ := ih components hrest
      refine ⟨path, message, .inr hides, ?_⟩
      rw [collectTomlFiles, hbelow, herror]
      rfl

/-- Where no name is listed twice, no file is found twice. -/
theorem nodup_collectTomlFiles {components : List Bytes} {entries : Listing}
    (hd : entries.Distinct) {found : List Found}
    (h : collectTomlFiles dir components entries = .ok found) :
    (found.map Found.components).Nodup := by
  induction entries generalizing components found with
  | nil =>
    obtain rfl := Except.ok.inj h
    exact List.nodup_nil
  | failed error rest ih => exact ih hd h
  | file name content rest ih =>
    obtain ⟨more, hmore, h⟩ := Traverse.bind_eq_ok_iff.mp h
    split at h
    · obtain rfl := Except.ok.inj h
      refine List.nodup_cons.mpr ⟨fun hmem => ?_, ih hd.2 hmore⟩
      obtain ⟨file, hfile, heq⟩ := List.mem_map.mp hmem
      obtain ⟨path, hpath, hholds, -⟩ := (mem_collectTomlFiles hmore file).mp hfile
      obtain ⟨other, below, rfl, hother⟩ := hholds.mem_names
      have := List.append_cancel_left (heq.symm.trans hpath)
      exact hd.1 ((List.cons.inj this).1 ▸ hother)
    · obtain rfl := Except.ok.inj h
      exact ih hd.2 hmore
  | unlistable name message rest ih => cases h
  | directory name sub rest ihsub ih =>
    obtain ⟨below, hbelow, h⟩ := Traverse.bind_eq_ok_iff.mp h
    obtain ⟨more, hmore, h⟩ := Traverse.bind_eq_ok_iff.mp h
    obtain rfl := Except.ok.inj h
    rw [List.map_append]
    refine List.Nodup.append (ihsub hd.2.1 hbelow) (ih hd.2.2 hmore) fun path hleft hright => ?_
    obtain ⟨file, hfile, rfl⟩ := List.mem_map.mp hleft
    obtain ⟨other, hother, heq⟩ := List.mem_map.mp hright
    obtain ⟨path, hpath, -⟩ := (mem_collectTomlFiles hbelow file).mp hfile
    obtain ⟨path', hpath', hholds, -⟩ := (mem_collectTomlFiles hmore other).mp hother
    obtain ⟨first, rest', rfl, hfirst⟩ := hholds.mem_names
    rw [heq, hpath, List.append_assoc] at hpath'
    have := List.append_cancel_left hpath'
    exact hd.1 ((List.cons.inj this).1 ▸ hfirst)

/-! ## What is merged -/

/-- A file adds its rules, or its diagnostic. -/
theorem foldl_file (formats : Formats) (dir : Bytes) (files : List Found) (merged : Merged) :
    ((parseFiles formats (files.map (·.ruleFile dir))).foldl Merged.file merged).rules =
        merged.rules ++ declaredBy formats dir files ∧
      ((parseFiles formats (files.map (·.ruleFile dir))).foldl Merged.file merged).diagnostics =
        merged.diagnostics ++ failuresOf formats dir files := by
  induction files generalizing merged with
  | nil => simp [parseFiles, declaredBy, failuresOf]
  | cons file files ih =>
    rw [List.map_cons, parseFiles, List.map_cons, List.foldl_cons, ← parseFiles]
    rw [(ih _).1, (ih _).2]
    cases h : (file.ruleFile dir).parse formats with
    | ok rules => simp [Merged.file, declaredBy, failuresOf, h]
    | error diagnostic => simp [Merged.file, declaredBy, failuresOf, h]

theorem merge_ruleFiles (formats : Formats) (dir : Bytes) (files : List Found) :
    (merge (parseFiles formats (files.map (·.ruleFile dir)))).rules =
        declaredBy formats dir files ∧
      (merge (parseFiles formats (files.map (·.ruleFile dir)))).diagnostics =
        failuresOf formats dir files := by
  have h := foldl_file formats dir files ⟨[], [], ∅⟩
  exact ⟨h.1.trans (List.nil_append _), h.2.trans (List.nil_append _)⟩

/-- A text that is written twice between others can be told from the whole. -/
theorem eq_of_written_twice {p m r s t a b : Text}
    (h : p ++ a ++ m ++ (r ++ a ++ s) ++ t = p ++ b ++ m ++ (r ++ b ++ s) ++ t) : a = b := by
  have hlength : a.length = b.length := by
    have := congrArg List.length h
    simp only [List.length_append] at this
    omega
  simp only [List.append_assoc] at h
  exact List.append_inj_left (List.append_cancel_left h) hlength

/-- A diagnostic tells the name that collides. -/
theorem collision_injective (origin : HashMap String String) :
    Function.Injective (Merged.collision origin) := by
  intro a b h
  have hmessage : (Merged.collision origin a).message.toList =
      (Merged.collision origin b).message.toList := by rw [h]
  simp only [Merged.collision, String.toList_append, toString] at hmessage
  exact String.toList_injective (eq_of_written_twice hmessage)

/-- What is loaded from files in the order of their paths. -/
theorem accounts_of_loadRules {entries : Listing} {files : List Found} {outcome : LoadOutcome}
    (hsorted : files.Pairwise fun a b => a.key < b.key)
    (hfound : ∀ file, file ∈ files ↔ entries.Holds file.components file.content ∧
      IsToml file.components)
    (h : loadRules (.ok (parseFiles formats (files.map (·.ruleFile dir)))) = .ok outcome) :
    ∃ collided, Accounts formats dir entries files collided outcome := by
  obtain ⟨hrules, hdiagnostics⟩ := merge_ruleFiles formats dir files
  have hduplicates (name : String) :
      name ∈ (merge (parseFiles formats (files.map (·.ruleFile dir)))).duplicates ↔
        1 < ((declaredBy formats dir files).map Rule.name).count name := by
    rw [Merged.mem_duplicates, hrules]
  obtain rfl := Except.ok.inj h
  refine ⟨_, Merged.nodup_detectDuplicateNames _, hsorted, hfound, ?_, hduplicates,
    (merge (parseFiles formats (files.map (·.ruleFile dir)))).origin, ?_, ?_⟩
  · change (merge _).detectDuplicateNames.rules = _
    rw [Merged.detectDuplicateNames, Merged.foldl_drop_rules, hrules]
    refine List.filter_congr fun rule hrule => ?_
    have hpos := List.count_pos_iff.mpr (List.mem_map_of_mem (f := Rule.name) hrule)
    rw [decide_eq_decide, hduplicates]
    omega
  · change (merge _).detectDuplicateNames.diagnostics = _
    rw [Merged.detectDuplicateNames, Merged.foldl_drop_diagnostics, hdiagnostics]
  · refine List.Nodup.map (collision_injective _) ?_
    exact (List.perm_insertionSort _ _).nodup_iff.mpr (List.nodup_dedup _)

/-! ## Loading a directory -/

theorem key_injective {a b : Found} (h : a.key = b.key) : a.components = b.components :=
  List.map_injective_iff.mpr (List.map_injective_iff.mpr fun _ _ => UInt8.toNat_inj.mp) h

/-- Files of different paths are sorted one after the other. -/
theorem pairwise_mergeSort_key {found : List Found} (h : (found.map Found.components).Nodup) :
    (found.mergeSort fun a b => a.key ≤ b.key).Pairwise fun a b => a.key < b.key := by
  have hle : (found.mergeSort fun a b => a.key ≤ b.key).Pairwise fun a b => a.key ≤ b.key := by
    refine (List.pairwise_mergeSort (fun a b c hab hbc => ?_) (fun a b => ?_) found).imp
      of_decide_eq_true
    · exact decide_eq_true ((of_decide_eq_true hab).trans (of_decide_eq_true hbc))
    · rw [Bool.or_eq_true, decide_eq_true_iff, decide_eq_true_iff]
      exact le_total _ _
  have hne : (found.mergeSort fun a b => a.key ≤ b.key).Pairwise
      fun a b => a.components ≠ b.components := by
    have := (List.mergeSort_perm found fun a b => a.key ≤ b.key).map Found.components
    exact List.pairwise_map.mp (this.nodup_iff.mpr h)
  exact (hle.and hne).imp fun ⟨hab, hcomponents⟩ =>
    lt_of_le_of_ne hab fun heq => hcomponents (key_injective heq)

/-- No rule below a directory is lost: where every directory there can be listed, all files and
rules are accounted for, and where one cannot, the load fails and names one. -/
theorem loadDirectory_accounts (formats : Formats) (dir : Bytes) {entries : Listing}
    (hd : entries.Distinct) :
    ((¬∃ path message, entries.Hides path message) →
      ∃ outcome files collided, loadDirectory formats dir (.ok entries) = .ok outcome ∧
        Accounts formats dir entries files collided outcome) ∧
    ((∃ path message, entries.Hides path message) →
      ∃ path message, entries.Hides path message ∧
        loadDirectory formats dir (.ok entries) =
          .error (.directoryNotReadable (Formats.lossy (path.foldl joinName dir)) message)) := by
  constructor
  · intro hlist
    obtain ⟨found, hcollect⟩ := exists_collectTomlFiles dir [] hlist
    have hfound (file : Found) : file ∈ (found.mergeSort fun a b => a.key ≤ b.key) ↔
        entries.Holds file.components file.content ∧ IsToml file.components := by
      rw [List.mem_mergeSort, mem_collectTomlFiles hcollect]
      simp
    obtain ⟨outcome, houtcome⟩ : ∃ outcome, loadRules (.ok (parseFiles formats
        ((found.mergeSort fun a b => a.key ≤ b.key).map (·.ruleFile dir)))) = .ok outcome :=
      ⟨_, rfl⟩
    obtain ⟨collided, haccounts⟩ := accounts_of_loadRules
      (pairwise_mergeSort_key (nodup_collectTomlFiles hd hcollect)) hfound houtcome
    refine ⟨outcome, _, collided, ?_, haccounts⟩
    rw [loadDirectory]
    simp only [Except.mapError, bind, Except.bind, hcollect]
    exact houtcome
  · rintro ⟨path, message, hides⟩
    obtain ⟨path, message, hides, herror⟩ := collectTomlFiles_of_hides dir [] hides
    refine ⟨path, message, hides, ?_⟩
    rw [loadDirectory]
    simp only [Except.mapError, bind, Except.bind, herror, List.nil_append]

/-- A directory with the file `disk.toml`, in front of other entries. -/
def diskListing (rest : Listing) : Listing :=
  .file (asBytes "disk.toml".toList) (diskFile "30s").content rest

/-- A file of another rule. -/
def cpuText : Text :=
  chars "[[rules]]\nname = \"cpu\"\nquery = \"cpu_free < 1\"\n" rfl ++
    chars "interval = \"30s\"\nseverity = \"critical\"\n" rfl

/-- What that text decodes to. -/
def cpuRaw : RawRule := { diskRaw "30s" with name := "cpu", query := "cpu_free < 1" }

/-- The rule that is loaded from it. -/
def cpuRule : Rule := { diskRule (30 * 1000000000) with name := "cpu", query := "cpu_free < 1" }

/-- A file that is no list of rules. -/
def brokenText : Text := chars "rules = 1\n" rfl

/-- What the decoder says of it. -/
def brokenMessage : String :=
  "TOML parse error at line 1, column 9\n  |\n1 | rules = 1\n  |         ^\n" ++
    "invalid type: integer `1`, expected a sequence\n"

/-- A decoder of these. -/
def teamFormats : Formats :=
  { diskFormats with
    toml := fun text =>
      if text = cpuText then .ok ⟨[cpuRaw], []⟩
      else if text = brokenText then .error brokenMessage
      else diskFormats.toml text }

/-- The sub-directory of a team: a file of its own, and one that declares `disk` again. -/
def teamListing : Listing :=
  diskListing (.file (asBytes "broken.toml".toList) (.ok (asBytes brokenText))
    (.directory (asBytes "team".toList)
      (.file (asBytes "cpu.toml".toList) (.ok (asBytes cpuText)) (diskListing .nil)) .nil))

/-- The files that are found, in the order of their paths. -/
def teamFiles : List Found :=
  [⟨[asBytes "broken.toml".toList], .ok (asBytes brokenText)⟩,
    ⟨[asBytes "disk.toml".toList], (diskFile "30s").content⟩,
    ⟨[asBytes "team".toList, asBytes "cpu.toml".toList], .ok (asBytes cpuText)⟩,
    ⟨[asBytes "team".toList, asBytes "disk.toml".toList], (diskFile "30s").content⟩]

theorem diskText_eq : diskText "30s" =
    chars "[[rules]]\nname = \"disk\"\nquery = \"disk_free < 1\"\n" rfl ++
      chars "interval = \"30s\"\nseverity = \"critical\"\n" rfl := by
  simp only [diskText, toString, String.toList_append, String.reduceToList]
  rfl

theorem toml_team : teamFormats.toml cpuText = .ok ⟨[cpuRaw], []⟩ ∧
    teamFormats.toml brokenText = .error brokenMessage ∧
    teamFormats.toml (diskText "30s") = .ok ⟨[diskRaw "30s"], []⟩ := by
  have hbroken : brokenText ≠ cpuText := by decide +kernel
  have hcpu : diskText "30s" ≠ cpuText := by
    rw [diskText_eq]
    decide +kernel
  have hdisk : diskText "30s" ≠ brokenText := by
    rw [diskText_eq]
    decide +kernel
  have htoml (text : Text) : teamFormats.toml text =
      if text = cpuText then .ok ⟨[cpuRaw], []⟩
      else if text = brokenText then .error brokenMessage
      else diskFormats.toml text := rfl
  refine ⟨?_, ?_, ?_⟩
  · rw [htoml, if_pos rfl]
  · rw [htoml, if_neg hbroken, if_pos rfl]
  · rw [htoml, if_neg hcpu, if_neg hdisk, toml_thirty]

/-- Files whose paths ascend are in one order. -/
theorem eq_of_pairwise_key {files files' : List Found}
    (h : files.Pairwise fun a b => a.key < b.key) (h' : files'.Pairwise fun a b => a.key < b.key)
    (hmem : ∀ file, file ∈ files ↔ file ∈ files') : files = files' := by
  have hnodup {l : List Found} (hl : l.Pairwise fun a b => a.key < b.key) : l.Nodup :=
    hl.imp fun hlt heq => absurd (heq ▸ hlt) (lt_irrefl _)
  refine ((List.perm_ext_iff_of_nodup (hnodup h) (hnodup h')).mpr hmem).eq_of_pairwise
    (fun a b _ _ hab hba => absurd (hab.trans hba) (lt_irrefl _)) h h'

/-- These files are below the directory, and no other. -/
theorem mem_teamFiles (file : Found) : file ∈ teamFiles ↔
    teamListing.Holds file.components file.content ∧ IsToml file.components := by
  constructor
  · simp only [teamFiles, List.mem_cons, List.not_mem_nil, or_false]
    rintro (rfl | rfl | rfl | rfl)
    · exact ⟨.inr (.inl ⟨rfl, rfl⟩), asBytes "broken".toList, by decide, by decide⟩
    · exact ⟨.inl ⟨rfl, rfl⟩, asBytes "disk".toList, by decide, by decide⟩
    · exact ⟨.inr (.inr (.inl ⟨_, rfl, .inl ⟨rfl, rfl⟩⟩)), asBytes "cpu".toList, by decide,
        by decide⟩
    · exact ⟨.inr (.inr (.inl ⟨_, rfl, .inr (.inl ⟨rfl, rfl⟩)⟩)), asBytes "disk".toList,
        by decide, by decide⟩
  · obtain ⟨components, content⟩ := file
    rintro ⟨⟨rfl, rfl⟩ | ⟨rfl, rfl⟩ | ⟨_, rfl, ⟨rfl, rfl⟩ | ⟨rfl, rfl⟩ | h⟩ | h, -⟩
    · exact .tail _ (.head _)
    · exact .head _
    · exact .tail _ (.tail _ (.head _))
    · exact .tail _ (.tail _ (.tail _ (.head _)))
    · exact h.elim
    · exact h.elim

/-- What they declare. -/
theorem declaredBy_teamFiles : declaredBy teamFormats (asBytes "rules".toList) teamFiles =
    [diskRule (30 * 1000000000), cpuRule, diskRule (30 * 1000000000)] := by
  obtain ⟨hcpu, hbroken, hdisk⟩ := toml_team
  have hparseDisk (path : Bytes) : RuleFile.parse teamFormats ⟨path, (diskFile "30s").content⟩ =
      .ok [diskRule (30 * 1000000000)] := RuleFile.parse_singleton rfl hdisk rfl
  have hparseCpu (path : Bytes) : RuleFile.parse teamFormats ⟨path, .ok (asBytes cpuText)⟩ =
      .ok [cpuRule] := RuleFile.parse_singleton rfl hcpu rfl
  have hparseBroken (path : Bytes) : ∃ diagnostic, RuleFile.parse teamFormats
      ⟨path, .ok (asBytes brokenText)⟩ = .error diagnostic := by
    simp only [RuleFile.parse, Formats.parseFile, fromUtf8_asBytes, hbroken]
    exact ⟨_, rfl⟩
  obtain ⟨diagnostic, hdiagnostic⟩ := hparseBroken
    ([asBytes "broken.toml".toList].foldl joinName (asBytes "rules".toList))
  simp only [declaredBy, teamFiles, Found.ruleFile, List.flatMap_cons, List.flatMap_nil,
    hparseDisk, hparseCpu, hdiagnostic]
  rfl

/-- Of four files below a directory one is loaded: one has a diagnostic of its own, and two declare
the same name. -/
theorem disk_accounted : ∃ outcome files collided,
    loadDirectory teamFormats (asBytes "rules".toList) (.ok teamListing) = .ok outcome ∧
      Accounts teamFormats (asBytes "rules".toList) teamListing files collided outcome ∧
      outcome.rules = [cpuRule] ∧ "disk" ∈ collided := by
  have hdistinct : teamListing.Distinct :=
    ⟨by decide, by decide, by decide, ⟨by decide, by decide, trivial⟩, trivial⟩
  obtain ⟨outcome, files, collided, hload, haccounts⟩ :=
    (loadDirectory_accounts teamFormats (asBytes "rules".toList) hdistinct).1 (by
      rintro ⟨path, message, ⟨_, _, h⟩ | h⟩
      · exact h
      · exact h)
  obtain rfl : files = teamFiles := eq_of_pairwise_key haccounts.sorted (by decide +kernel)
    fun file => (haccounts.found file).trans (mem_teamFiles file).symm
  refine ⟨outcome, teamFiles, collided, hload, haccounts, ?_, ?_⟩
  · rw [haccounts.rules, declaredBy_teamFiles]
    decide
  · rw [haccounts.duplicates, declaredBy_teamFiles]
    decide

/-- Next to a directory that cannot be listed, a file that can be read is not loaded. -/
theorem disk_beside_unlistable :
    (diskListing (.unlistable (asBytes "sub".toList) "Permission denied" .nil)).Holds
        [asBytes "disk.toml".toList] (diskFile "30s").content ∧
      IsToml [asBytes "disk.toml".toList] ∧
      loadDirectory diskFormats (asBytes "rules".toList)
          (.ok (diskListing (.unlistable (asBytes "sub".toList) "Permission denied" .nil))) =
        .error (.directoryNotReadable
          (Formats.lossy (asBytes "rules/sub".toList)) "Permission denied") := by
  refine ⟨.inl ⟨rfl, rfl⟩, ⟨asBytes "disk".toList, by decide, by decide⟩, ?_⟩
  simp only [loadDirectory, Except.mapError, diskListing]
  rfl

end Kaleidoscope.Beacon
