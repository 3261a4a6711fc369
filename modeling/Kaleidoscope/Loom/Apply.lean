import Kaleidoscope.Beacon.ParseFile

/-!
# Applying a catalogue

A directory tree is a finite map from the paths of its files to their bytes. The rule files of
the destination are made those of the source, each written beside its path first and then moved
into place. Reads and writes succeed.
-/

namespace Kaleidoscope.Loom

open Utf8 HashMap Beacon

/-- The path of a file below the root of a tree: its directories and its name. -/
structure RelPath where
  dir : List Bytes
  name : Bytes
  deriving DecidableEq

namespace RelPath

/-- The components of the path. -/
def components (p : RelPath) : List Bytes := p.dir ++ [p.name]

/-- Paths are compared component by component, byte by byte. -/
def key (p : RelPath) : List (List Nat) := p.components.map fun c => c.map UInt8.toNat

theorem key_injective : Function.Injective key := by
  intro p q h
  have hbytes : Function.Injective fun c : Bytes => c.map UInt8.toNat :=
    List.map_injective_iff.mpr fun a b hab => UInt8.toNat_inj.mp hab
  have hcomponents : p.dir ++ [p.name] = q.dir ++ [q.name] := List.map_injective_iff.mpr hbytes h
  obtain ⟨hdir, hname⟩ := List.append_inj' hcomponents rfl
  cases p
  cases q
  simp_all

instance : LinearOrder RelPath := LinearOrder.lift' key key_injective

/-- `Path::join` with one component: no second separator behind one, and none behind nothing. -/
def join (path component : Bytes) : Bytes :=
  if path = [] ∨ path.getLast? = some 47 then path ++ component else path ++ 47 :: component

/-- The path below a root. -/
def under (root : Bytes) (p : RelPath) : Bytes := p.components.foldl join root

/-- The extension of a file name: what follows its last dot, unless that is its first byte. -/
def extension (name : Bytes) : Option Bytes :=
  match name.reverse.dropWhile (· ≠ 46) with
  | [] => none
  | _ :: stem => if stem = [] then none else some (name.reverse.takeWhile (· ≠ 46)).reverse

/-- Whether the file is a rule file: its extension is `toml`. -/
def isToml (p : RelPath) : Bool := extension p.name = some [116, 111, 109, 108]

/-- The path of the temporary sibling, with `.tmp` at its end. -/
def tmp (p : RelPath) : RelPath := ⟨p.dir, p.name ++ [46, 116, 109, 112]⟩

/-- A temporary sibling is no rule file. -/
theorem isToml_tmp (p : RelPath) : p.tmp.isToml = false := by
  have hreverse : p.tmp.name.reverse = 112 :: 109 :: 116 :: 46 :: p.name.reverse := by
    simp [tmp]
  rw [isToml, extension, hreverse]
  by_cases hstem : p.name.reverse = [] <;> simp [hstem]

theorem tmp_ne {p q : RelPath} (hp : p.isToml = true) : p ≠ q.tmp := by
  rintro rfl
  exact Bool.false_ne_true ((isToml_tmp q).symm.trans hp)

end RelPath

/-- A directory tree. -/
abbrev Tree := HashMap RelPath Bytes

/-- The rule files of a tree, in ascending order. -/
def tomlFiles (tree : Tree) : List RelPath := (tree.keys.filter fun p => p.isToml).sort

theorem mem_tomlFiles {tree : Tree} {p : RelPath} :
    p ∈ tomlFiles tree ↔ p.isToml = true ∧ (tree.lookup p).isSome = true := by
  rw [tomlFiles, Finset.mem_sort, Finset.mem_filter, Finmap.mem_keys, and_comm,
    Finmap.lookup_isSome]

/-- The bytes of a file of the tree. -/
def readFile (tree : Tree) (p : RelPath) : Bytes := (tree.lookup p).getD []

/-- `rename`. -/
def rename (tree : Tree) (source dest : RelPath) : Tree :=
  match tree.lookup source with
  | some bytes => (tree.erase source).insert dest bytes
  | none => tree

/-- `atomic_write`. -/
def atomicWrite (tree : Tree) (dest : RelPath) (bytes : Bytes) : Tree :=
  rename (tree.insert dest.tmp bytes) dest.tmp dest

/-- Only the file itself and its temporary sibling change. -/
theorem lookup_atomicWrite (tree : Tree) (dest : RelPath) (bytes : Bytes) (p : RelPath) :
    (atomicWrite tree dest bytes).lookup p =
      if p = dest then some bytes else if p = dest.tmp then none else tree.lookup p := by
  rw [atomicWrite, rename, Finmap.lookup_insert]
  simp only [lookup_insert_ite, lookup_erase_ite]
  split_ifs <;> rfl

/-- What `apply` did. -/
structure ApplyOutcome where
  written : List Bytes
  removed : List Bytes
  unchanged : List Bytes
  diagnostics : List LoaderDiagnostic
  fatal : Option String

/-- The loop over the rule files of the source. -/
structure Writing where
  tree : Tree
  written : List Bytes
  unchanged : List Bytes

section Apply

variable (formats : Formats) (fromRoot toRoot : Bytes)

/-- `load_rules` of a directory, if it can be read. -/
def loadTree (root : Bytes) (source : Except LoaderError Tree) :
    Except LoaderError LoadOutcome :=
  loadRules (source.map fun tree => (tomlFiles tree).map fun p =>
    (Formats.lossy (p.under root), formats.parseFile (p.under root) (readFile tree p)))

/-- Write one file, or skip it. -/
def writeOne (source : Tree) (writing : Writing) (p : RelPath) : Writing :=
  let newBytes := readFile source p
  if writing.tree.lookup p = some newBytes then
    { writing with unchanged := writing.unchanged ++ [p.under toRoot] }
  else
    { writing with
      tree := atomicWrite writing.tree p newBytes
      written := writing.written ++ [p.under toRoot] }

/-- The text of a loader error. -/
def displayError : LoaderError → String
  | .directoryNotReadable path message => s!"cannot read rule directory {path}: {message}"

/-- `apply`, with the tree that it leaves at the destination. -/
def apply (source : Except LoaderError Tree) (dest : Tree) : ApplyOutcome × Tree :=
  match source, loadTree formats fromRoot source with
  | _, .error err => (⟨[], [], [], [], some s!"from: {displayError err}"⟩, dest)
  | .error err, .ok _ => (⟨[], [], [], [], some s!"from walk: {displayError err}"⟩, dest)
  | .ok tree, .ok outcome =>
    if outcome.hasDiagnostics then (⟨[], [], [], outcome.diagnostics, none⟩, dest)
    else
      let sourceFiles := tomlFiles tree
      let writing := sourceFiles.foldl (writeOne toRoot tree) ⟨dest, [], []⟩
      let stale := (tomlFiles dest).filter fun p => p ∉ sourceFiles
      (⟨writing.written, stale.map (·.under toRoot), writing.unchanged, [], none⟩,
        stale.foldl (fun tree p => tree.erase p) writing.tree)

end Apply

end Kaleidoscope.Loom
