import Kaleidoscope.Cli.Iso8601
import Kaleidoscope.Library.Traverse

/-!
# The arguments of a subcommand

Every scanner goes over the tokens behind the subcommand on its own: one rejects unknown flags, one
takes the first tokens as positionals, and one for each flag looks for its value. They agree on what
a token is only if the positionals come first.
-/

namespace Kaleidoscope.Cli

/-! ## The scanners -/

/-- What a scanner fails with. -/
inductive ArgError where
  | unknownFlag (token : String)
  | missing (name : String)
  | requiresPath
  | requiresTime (flag : String)
  | badTime (flag value : String) (error : IsoParseError)
  | invalidDuration (value secsKind : String)
  | panicked
  deriving DecidableEq, Repr

/-- `VALUE_TAKING_FLAGS`. -/
def valueTakingFlags : List String := ["--observe-otlp", "--since", "--until"]

/-- `reject_unknown_flags`. -/
def rejectUnknownFlags (known : List String) : List String → Except ArgError Unit
  | [] => .ok ()
  | arg :: rest =>
    if arg ∈ known then
      if arg ∈ valueTakingFlags then
        match rest with
        | [] => .ok ()
        | _ :: rest => rejectUnknownFlags known rest
      else rejectUnknownFlags known rest
    else if arg.toList.head? = some '-' then .error (.unknownFlag arg)
    else rejectUnknownFlags known rest

/-- The token behind the first one that is the flag, if there is one. -/
def findFlag (flag : String) : List String → Option (Option String)
  | [] => none
  | arg :: rest => if arg = flag then some rest.head? else findFlag flag rest

/-- `parse_observe_otlp`. -/
def parseObserveOtlp (tokens : List String) : Except ArgError (Option String) :=
  match findFlag "--observe-otlp" tokens with
  | none => .ok none
  | some none => .error .requiresPath
  | some (some path) => .ok (some path)

/-- `parse_flag_iso`. -/
def parseFlagIso (arithmetic : Arithmetic) (tokens : List String) (flag : String) :
    Except ArgError (Option Nat) :=
  match findFlag flag tokens with
  | none => .ok none
  | some none => .error (.requiresTime flag)
  | some (some value) =>
    match parseIso8601UtcNanos arithmetic value with
    | none => .error .panicked
    | some (.error error) => .error (.badTime flag value error)
    | some (.ok ns) => .ok (some ns)

/-- The first tokens under the names of the positionals. -/
def parsePositional : List String → List String → Except ArgError (List String)
  | [], _ => .ok []
  | name :: _, [] => .error (.missing name)
  | _ :: names, token :: tokens => (parsePositional names tokens).map (token :: ·)

/-- `str::parse::<u64>`: digits, after a plus sign or not. -/
def parseU64 (raw : String) : Option Nat :=
  let digits : List Char := match raw.toList with
    | '+' :: digits => digits
    | digits => digits
  let value := digits.foldl (fun n c => 10 * n + (c.toNat - '0'.toNat)) 0
  if digits ≠ [] ∧ digits.all Char.isDigit ∧ value < 2 ^ 64 then some value else none

/-- The durations of `evaluate-policy`. -/
def checkDurations : List String → Except ArgError Unit
  | [_, hotRaw, warmRaw] =>
    if parseU64 hotRaw = none then .error (.invalidDuration hotRaw "hot_to_warm")
    else if parseU64 warmRaw = none then .error (.invalidDuration warmRaw "warm_to_cold")
    else .ok ()
  | _ => .ok ()

/-- The scanners that a subcommand runs. -/
structure Subcommand where
  name : String
  /-- The flags that are not rejected. -/
  known : List String
  positionals : List String
  /-- What is asked of the positionals before the flags are looked for. -/
  check : List String → Except ArgError Unit
  /-- Whether `parse_observe_otlp` is run. -/
  observes : Bool
  /-- Whether `parse_time_range` is run. -/
  ranged : Bool

/-- What the scanners of a subcommand find. -/
structure Scanned where
  positionals : List String
  otlpPath : Option String
  since : Option Nat
  until_ : Option Nat
  deriving DecidableEq, Repr

/-- `parse_observe_otlp`, where it is run. -/
def Subcommand.path (c : Subcommand) (tokens : List String) : Except ArgError (Option String) :=
  if c.observes then parseObserveOtlp tokens else .ok none

/-- `parse_flag_iso`, where `parse_time_range` is run. -/
def Subcommand.time (c : Subcommand) (arithmetic : Arithmetic) (tokens : List String)
    (flag : String) : Except ArgError (Option Nat) :=
  if c.ranged then parseFlagIso arithmetic tokens flag else .ok none

/-- The scanners of a subcommand, up to the call of the library. -/
def Subcommand.run (c : Subcommand) (arithmetic : Arithmetic) (args : List String) :
    Except ArgError Scanned := do
  let tokens := args.drop 2
  rejectUnknownFlags c.known tokens
  let positionals ← parsePositional c.positionals tokens
  c.check positionals
  let otlpPath ← c.path tokens
  let since ← c.time arithmetic tokens "--since"
  let until_ ← c.time arithmetic tokens "--until"
  return ⟨positionals, otlpPath, since, until_⟩

/-- `run_ingest`. -/
def runIngest : Subcommand where
  name := "ingest"
  known := ["--observe-otlp"]
  positionals := ["<tenant_id>", "<data_dir>"]
  check _ := .ok ()
  observes := true
  ranged := false

/-- `run_read`. -/
def runRead : Subcommand where
  name := "read"
  known := ["--observe-otlp", "--since", "--until"]
  positionals := ["<tenant_id>", "<data_dir>"]
  check _ := .ok ()
  observes := true
  ranged := true

/-- `run_stats`. -/
def runStats : Subcommand where
  name := "stats"
  known := ["--since", "--until"]
  positionals := ["<tenant_id>", "<data_dir>"]
  check _ := .ok ()
  observes := false
  ranged := true

/-- `run_migrate`. -/
def runMigrate : Subcommand where
  name := "migrate"
  known := ["--observe-otlp"]
  positionals := ["<tenant_id>", "<data_dir>", "<item_id>", "<to_tier>"]
  check _ := .ok ()
  observes := true
  ranged := false

/-- `run_evaluate_policy`. -/
def runEvaluatePolicy : Subcommand where
  name := "evaluate-policy"
  known := ["--observe-otlp"]
  positionals := ["<data_dir>", "<hot_to_warm_secs>", "<warm_to_cold_secs>"]
  check := checkDurations
  observes := true
  ranged := false

/-- `run_get_tier`. -/
def runGetTier : Subcommand where
  name := "get-tier"
  known := []
  positionals := ["<tenant_id>", "<data_dir>", "<item_id>"]
  check _ := .ok ()
  observes := false
  ranged := false

/-- `run_place`. -/
def runPlace : Subcommand where
  name := "place"
  known := ["--observe-otlp"]
  positionals := ["<tenant_id>", "<data_dir>", "<item_id>", "<tier>"]
  check _ := .ok ()
  observes := true
  ranged := false

/-- `run_list_items`. -/
def runListItems : Subcommand where
  name := "list-items"
  known := []
  positionals := ["<tenant_id>", "<data_dir>", "<tier>"]
  check _ := .ok ()
  observes := false
  ranged := false

/-- The subcommands. -/
def subcommands : List Subcommand :=
  [runIngest, runRead, runStats, runMigrate, runListItems, runPlace, runGetTier,
    runEvaluatePolicy]

/-! ## One reading of the tokens -/

/-- What a token is, with the value of a flag. -/
inductive Item where
  | positional (token : String)
  | option (flag value : String)
  /-- A flag at the end, without a value. -/
  | dangling (flag : String)
  deriving DecidableEq, Repr

/-- The tokens, with the value of a flag known as such. -/
def items (known : List String) : List String → List Item
  | [] => []
  | token :: rest =>
    if token ∈ known then
      match rest with
      | [] => [.dangling token]
      | value :: rest => .option token value :: items known rest
    else .positional token :: items known rest

/-- The positionals among items. -/
def positionalsOf (l : List Item) : List String :=
  l.filterMap fun
    | .positional token => some token
    | _ => none

/-- The flags among items, with their values. -/
def optionsOf (l : List Item) : List (String × String) :=
  l.filterMap fun
    | .option flag value => some (flag, value)
    | _ => none

/-- What is found agrees with one reading of the tokens, in which each is used once: the positionals
are all there are, no flag is given twice or without a value, and each flag has its own value. -/
structure UsedOnce (arithmetic : Arithmetic) (l : List Item) (found : Scanned) : Prop where
  positionals : found.positionals = positionalsOf l
  valued : ∀ flag, Item.dangling flag ∉ l
  once : ((optionsOf l).map Prod.fst).Nodup
  path : found.otlpPath = (optionsOf l).lookup "--observe-otlp"
  since : found.since.map (some ∘ Except.ok) =
    ((optionsOf l).lookup "--since").map (parseIso8601UtcNanos arithmetic)
  until_ : found.until_.map (some ∘ Except.ok) =
    ((optionsOf l).lookup "--until").map (parseIso8601UtcNanos arithmetic)

/-- No value is the name of a flag that is given only behind it, or not at all. -/
def NoneAhead (known : List String) : List String → List (String × String) → Prop
  | _, [] => True
  | seen, (flag, value) :: options =>
    (value ∈ known → value ∈ flag :: seen) ∧ NoneAhead known (flag :: seen) options

/-- The positionals come first, as many as there are names, and then the flags with their values,
each flag once. -/
def Orderly (c : Subcommand) (l : List Item) : Prop :=
  ∃ (positionals : List String) (options : List (String × String)),
    l = positionals.map .positional ++ options.map (fun o => .option o.1 o.2) ∧
    positionals.length = c.positionals.length ∧ (options.map Prod.fst).Nodup ∧
    NoneAhead c.known [] options

/-- A flag is moved with its value to another place. -/
inductive Moved : List Item → List Item → Prop
  | move {flag value : String} {before after before' after' : List Item} :
      before ++ after = before' ++ after' →
      Moved (before ++ .option flag value :: after) (before' ++ .option flag value :: after')

/-! ## The tokens of the items -/

/-- The tokens that an item is read from. -/
def Item.tokens : Item → List String
  | .positional token => [token]
  | .option flag value => [flag, value]
  | .dangling flag => [flag]

theorem items_cons_of_notMem {known : List String} {token : String} (h : token ∉ known)
    (rest : List String) : items known (token :: rest) = .positional token :: items known rest := by
  rw [items.eq_def]
  simp [h]

/-- The tokens are those of the items. -/
theorem flatMap_tokens_items (known tokens : List String) :
    (items known tokens).flatMap Item.tokens = tokens := by
  fun_induction items known tokens with
  | case1 => rfl
  | case2 token => rfl
  | case3 token h value rest ih => simp [Item.tokens, ih]
  | case4 token rest h ih => simp [Item.tokens, ih]

theorem items_append_of_notMem {known a : List String} (h : ∀ token ∈ a, token ∉ known)
    (b : List String) : items known (a ++ b) = a.map .positional ++ items known b := by
  induction a with
  | nil => rfl
  | cons token a ih =>
    rw [List.cons_append, items_cons_of_notMem (h token List.mem_cons_self),
      ih fun t ht => h t (List.mem_cons_of_mem _ ht)]
    rfl

/-- A positional is not a flag that is known, a flag is. -/
def Item.Fits (known : List String) : Item → Prop
  | .positional token => token ∉ known
  | .option flag _ => flag ∈ known
  | .dangling flag => flag ∈ known

theorem fits_of_mem_items {known tokens : List String} {item : Item}
    (h : item ∈ items known tokens) : item.Fits known := by
  fun_induction items known tokens with
  | case1 => cases h
  | case2 token hk =>
    obtain rfl := List.mem_singleton.mp h
    exact hk
  | case3 token hk value rest ih =>
    obtain rfl | h := List.mem_cons.mp h
    · exact hk
    · exact ih h
  | case4 token rest hk ih =>
    obtain rfl | h := List.mem_cons.mp h
    · exact hk
    · exact ih h

@[simp] theorem positionalsOf_nil : positionalsOf [] = [] := rfl

@[simp] theorem positionalsOf_positional (token : String) (l : List Item) :
    positionalsOf (.positional token :: l) = token :: positionalsOf l := rfl

@[simp] theorem positionalsOf_option (flag value : String) (l : List Item) :
    positionalsOf (.option flag value :: l) = positionalsOf l := rfl

@[simp] theorem positionalsOf_dangling (flag : String) (l : List Item) :
    positionalsOf (.dangling flag :: l) = positionalsOf l := rfl

@[simp] theorem optionsOf_nil : optionsOf [] = [] := rfl

@[simp] theorem optionsOf_positional (token : String) (l : List Item) :
    optionsOf (.positional token :: l) = optionsOf l := rfl

@[simp] theorem optionsOf_option (flag value : String) (l : List Item) :
    optionsOf (.option flag value :: l) = (flag, value) :: optionsOf l := rfl

@[simp] theorem optionsOf_dangling (flag : String) (l : List Item) :
    optionsOf (.dangling flag :: l) = optionsOf l := rfl

@[simp] theorem positionalsOf_append (a b : List Item) :
    positionalsOf (a ++ b) = positionalsOf a ++ positionalsOf b := List.filterMap_append

@[simp] theorem optionsOf_append (a b : List Item) :
    optionsOf (a ++ b) = optionsOf a ++ optionsOf b := List.filterMap_append

@[simp] theorem positionalsOf_map_positional (l : List String) :
    positionalsOf (l.map .positional) = l := by
  induction l with
  | nil => rfl
  | cons token l ih => simp [ih]

@[simp] theorem optionsOf_map_positional (l : List String) :
    optionsOf (l.map .positional) = [] := by
  induction l with
  | nil => rfl
  | cons token l ih => simp [ih]

@[simp] theorem positionalsOf_map_option (l : List (String × String)) :
    positionalsOf (l.map fun o => .option o.1 o.2) = [] := by
  induction l with
  | nil => rfl
  | cons o l ih => simp [ih]

@[simp] theorem optionsOf_map_option (l : List (String × String)) :
    optionsOf (l.map fun o => .option o.1 o.2) = l := by
  induction l with
  | nil => rfl
  | cons o l ih => simp [ih]

theorem mem_positionalsOf {l : List Item} {token : String} :
    token ∈ positionalsOf l ↔ Item.positional token ∈ l := by
  induction l with
  | nil => simp
  | cons item l ih => cases item <;> simp [ih]

theorem mem_optionsOf {l : List Item} {o : String × String} :
    o ∈ optionsOf l ↔ Item.option o.1 o.2 ∈ l := by
  induction l with
  | nil => simp
  | cons item l ih => cases item <;> simp [ih, Prod.ext_iff]

/-- Items without a positional or a dangling flag are flags with their values. -/
theorem eq_map_option {l : List Item} (hp : positionalsOf l = [])
    (hd : ∀ flag, Item.dangling flag ∉ l) :
    l = (optionsOf l).map fun o => .option o.1 o.2 := by
  induction l with
  | nil => rfl
  | cons item l ih =>
    cases item with
    | positional token => simp at hp
    | option flag value =>
      have := ih hp fun flag h => hd flag (List.mem_cons_of_mem _ h)
      simpa using this
    | dangling flag => exact absurd List.mem_cons_self (hd flag)

/-! ## What the scanners find -/

theorem parsePositional_eq_ok {names tokens found : List String} :
    parsePositional names tokens = .ok found ↔
      found = tokens.take names.length ∧ names.length ≤ tokens.length := by
  induction names generalizing tokens found with
  | nil => simp [parsePositional, eq_comm]
  | cons name names ih =>
    cases tokens with
    | nil => simp [parsePositional]
    | cons token tokens =>
      rw [parsePositional]
      cases h : parsePositional names tokens with
      | error e =>
        have hshort : ¬ names.length ≤ tokens.length := fun hl => by
          have hok : parsePositional names tokens = .ok (tokens.take names.length) :=
            ih.mpr ⟨rfl, hl⟩
          rw [h] at hok
          cases hok
        simp [Except.map, hshort]
      | ok ps =>
        obtain ⟨rfl, hl⟩ := ih.mp h
        simp [Except.map, eq_comm, hl]

/-- No positional starts like a flag. -/
theorem rejectUnknownFlags_eq_ok {known : List String} (hk : known ⊆ valueTakingFlags)
    (tokens : List String) :
    rejectUnknownFlags known tokens = .ok () ↔
      ∀ token ∈ positionalsOf (items known tokens), token.toList.head? ≠ some '-' := by
  fun_induction items known tokens with
  | case1 => simp [rejectUnknownFlags]
  | case2 token h => simp [rejectUnknownFlags, h, hk h]
  | case3 token h value rest ih =>
    rw [rejectUnknownFlags, if_pos h, if_pos (hk h), ih]
    rfl
  | case4 token rest h ih =>
    rw [rejectUnknownFlags.eq_def]
    simp only [if_neg h]
    split
    next hd => simp [hd]
    next hd =>
      rw [ih]
      simp [hd]

/-- The value that the scanner of a flag finds. -/
def valueOf (known tokens : List String) (flag : String) : Option String :=
  if flag ∈ known then (findFlag flag tokens).join else none

theorem parseObserveOtlp_eq_ok {tokens : List String} {path : Option String} :
    parseObserveOtlp tokens = .ok path ↔
      findFlag "--observe-otlp" tokens ≠ some none ∧
        path = (findFlag "--observe-otlp" tokens).join := by
  unfold parseObserveOtlp
  cases findFlag "--observe-otlp" tokens with
  | none => simp [eq_comm]
  | some value => cases value <;> simp [eq_comm]

theorem parseFlagIso_eq_ok {arithmetic : Arithmetic} {tokens : List String} {flag : String}
    {found : Option Nat} :
    parseFlagIso arithmetic tokens flag = .ok found ↔
      findFlag flag tokens ≠ some none ∧
        found.map (some ∘ Except.ok) =
          (findFlag flag tokens).join.map (parseIso8601UtcNanos arithmetic) := by
  unfold parseFlagIso
  cases findFlag flag tokens with
  | none => cases found <;> simp
  | some value =>
    cases value with
    | none => simp
    | some value =>
      cases found <;> rcases h : parseIso8601UtcNanos arithmetic value with _ | (_ | _) <;>
        simp [h, eq_comm]

/-! ## What a subcommand knows -/

theorem known_subset {c : Subcommand} (hc : c ∈ subcommands) : c.known ⊆ valueTakingFlags := by
  revert c
  decide

theorem observes_iff {c : Subcommand} (hc : c ∈ subcommands) :
    c.observes = true ↔ "--observe-otlp" ∈ c.known := by
  revert c
  decide

theorem ranged_iff_since {c : Subcommand} (hc : c ∈ subcommands) :
    c.ranged = true ↔ "--since" ∈ c.known := by
  revert c
  decide

theorem ranged_iff_until {c : Subcommand} (hc : c ∈ subcommands) :
    c.ranged = true ↔ "--until" ∈ c.known := by
  revert c
  decide

/-- The name of a flag is not a time. -/
theorem parse_flag_ne_ok (arithmetic : Arithmetic) {flag : String} (h : flag ∈ valueTakingFlags)
    (ns : Nat) : parseIso8601UtcNanos arithmetic flag ≠ some (.ok ns) := by
  have herror : ∀ flag ∈ valueTakingFlags, ∃ e,
      readComponents (Utf8.asBytes flag.toList) = .error e := by
    intro flag h
    simp only [valueTakingFlags, List.mem_cons, List.not_mem_nil, or_false] at h
    obtain rfl | rfl | rfl := h <;> exact ⟨_, rfl⟩
  obtain ⟨e, he⟩ := herror flag h
  simp [parseIso8601UtcNanos, he]

theorem path_eq_ok {c : Subcommand} (hc : c ∈ subcommands) {tokens : List String}
    {path : Option String} :
    c.path tokens = .ok path ↔
      ("--observe-otlp" ∈ c.known → findFlag "--observe-otlp" tokens ≠ some none) ∧
        path = valueOf c.known tokens "--observe-otlp" := by
  unfold Subcommand.path valueOf
  by_cases h : c.observes = true
  · have hk := (observes_iff hc).mp h
    rw [if_pos h, parseObserveOtlp_eq_ok, if_pos hk]
    simp [hk]
  · have hk : "--observe-otlp" ∉ c.known := fun hk => h ((observes_iff hc).mpr hk)
    rw [if_neg h, if_neg hk]
    simp [hk, eq_comm]

theorem time_eq_ok {arithmetic : Arithmetic} {c : Subcommand} {flag : String}
    (hr : c.ranged = true ↔ flag ∈ c.known) {tokens : List String} {found : Option Nat} :
    c.time arithmetic tokens flag = .ok found ↔
      (flag ∈ c.known → findFlag flag tokens ≠ some none) ∧
        found.map (some ∘ Except.ok) =
          (valueOf c.known tokens flag).map (parseIso8601UtcNanos arithmetic) := by
  unfold Subcommand.time valueOf
  by_cases h : c.ranged = true
  · have hk := hr.mp h
    rw [if_pos h, parseFlagIso_eq_ok, if_pos hk]
    simp [hk]
  · have hk : flag ∉ c.known := fun hk => h (hr.mpr hk)
    rw [if_neg h, if_neg hk]
    cases found <;> simp [hk]

/-- The scanners of a subcommand, each with the value that it finds. -/
theorem run_eq_ok {arithmetic : Arithmetic} {c : Subcommand} (hc : c ∈ subcommands)
    {args : List String} {found : Scanned} :
    c.run arithmetic args = .ok found ↔
      rejectUnknownFlags c.known (args.drop 2) = .ok () ∧
      parsePositional c.positionals (args.drop 2) = .ok found.positionals ∧
      c.check found.positionals = .ok () ∧
      (∀ flag ∈ c.known, findFlag flag (args.drop 2) ≠ some none) ∧
      found.otlpPath = valueOf c.known (args.drop 2) "--observe-otlp" ∧
      found.since.map (some ∘ Except.ok) =
        (valueOf c.known (args.drop 2) "--since").map (parseIso8601UtcNanos arithmetic) ∧
      found.until_.map (some ∘ Except.ok) =
        (valueOf c.known (args.drop 2) "--until").map (parseIso8601UtcNanos arithmetic) := by
  have hflags : (∀ flag ∈ c.known, findFlag flag (args.drop 2) ≠ some none) ↔
      ("--observe-otlp" ∈ c.known → findFlag "--observe-otlp" (args.drop 2) ≠ some none) ∧
      ("--since" ∈ c.known → findFlag "--since" (args.drop 2) ≠ some none) ∧
      ("--until" ∈ c.known → findFlag "--until" (args.drop 2) ≠ some none) := by
    refine ⟨fun h => ⟨h _, h _, h _⟩, fun ⟨ho, hs, hu⟩ flag hflag => ?_⟩
    have := known_subset hc hflag
    simp only [valueTakingFlags, List.mem_cons, List.not_mem_nil, or_false] at this
    obtain rfl | rfl | rfl := this
    · exact ho hflag
    · exact hs hflag
    · exact hu hflag
  obtain ⟨positionals, otlpPath, since, until_⟩ := found
  unfold Subcommand.run
  simp only [Traverse.bind_eq_ok_iff, path_eq_ok hc, time_eq_ok (ranged_iff_since hc),
    time_eq_ok (ranged_iff_until hc), hflags]
  constructor
  · rintro ⟨_, hreject, ps, hps, _, hcheck, path, ⟨ho, rfl⟩, s, ⟨hs, hs'⟩, u, ⟨hu, hu'⟩, h⟩
    cases h
    exact ⟨hreject, hps, hcheck, ⟨ho, hs, hu⟩, rfl, hs', hu'⟩
  · rintro ⟨hreject, hps, hcheck, ⟨ho, hs, hu⟩, rfl, hs', hu'⟩
    exact ⟨_, hreject, _, hps, _, hcheck, _, ⟨ho, rfl⟩, _, ⟨hs, hs'⟩, _, ⟨hu, hu'⟩, rfl⟩

/-! ## The flags behind the positionals -/

/-- The tokens of flags with their values. -/
def flagTokens (options : List (String × String)) : List String :=
  options.flatMap fun o => [o.1, o.2]

theorem findFlag_append {flag : String} {a : List String} (h : flag ∉ a) (b : List String) :
    findFlag flag (a ++ b) = findFlag flag b := by
  induction a with
  | nil => rfl
  | cons token a ih =>
    rw [List.mem_cons, not_or] at h
    rw [List.cons_append, findFlag, if_neg (Ne.symm h.1), ih h.2]

/-- A flag that no value hides is found with its own value. -/
theorem findFlag_flagTokens {known seen : List String} {options : List (String × String)}
    (h : NoneAhead known seen options) {flag : String} (hk : flag ∈ known) (hs : flag ∉ seen) :
    findFlag flag (flagTokens options) = (options.lookup flag).map some := by
  induction options generalizing seen with
  | nil => rfl
  | cons o options ih =>
    obtain ⟨f, value⟩ := o
    obtain ⟨hv, h⟩ := h
    rw [show flagTokens ((f, value) :: options) = f :: value :: flagTokens options from rfl,
      findFlag, List.lookup_cons]
    by_cases hf : f = flag
    · simp [hf]
    · have hs' : flag ∉ f :: seen := by
        simpa [Ne.symm hf] using hs
      have hne : value ≠ flag := by
        rintro rfl
        exact hs' (hv hk)
      rw [if_neg hf, findFlag, if_neg hne, ih h hs', beq_eq_false_iff_ne.mpr (Ne.symm hf)]

/-- What the scanner of a flag goes on with. -/
def Accepts (arithmetic : Arithmetic) (flag : String) : Option (Option String) → Prop
  | none => True
  | some none => False
  | some (some value) =>
    flag = "--observe-otlp" ∨ ∃ ns, parseIso8601UtcNanos arithmetic value = some (.ok ns)

/-- Where every scanner goes on, no value hides a flag behind it: the scanner of that flag would
take the next flag for a time. -/
theorem noneAhead_of_accepts {arithmetic : Arithmetic} {known seen : List String}
    (hk : known ⊆ valueTakingFlags) {options : List (String × String)}
    (hf : ∀ o ∈ options, o.1 ∈ known ∧ o.1 ∉ seen) (hn : (options.map Prod.fst).Nodup)
    (h : ∀ flag ∈ known, flag ∉ seen →
      Accepts arithmetic flag (findFlag flag (flagTokens options))) :
    NoneAhead known seen options := by
  induction options generalizing seen with
  | nil => trivial
  | cons o options ih =>
    obtain ⟨f, value⟩ := o
    obtain ⟨hfk, hfs⟩ := hf _ List.mem_cons_self
    have htokens : flagTokens ((f, value) :: options) = f :: value :: flagTokens options := rfl
    have hvalue : value ∈ known → value ∈ f :: seen := by
      intro hv
      by_contra hs
      rw [List.mem_cons, not_or] at hs
      have hown := h f hfk hfs
      rw [htokens, findFlag, if_pos rfl] at hown
      have hother := h value hv hs.2
      rw [htokens, findFlag, if_neg (Ne.symm hs.1), findFlag, if_pos rfl] at hother
      obtain rfl | ⟨ns, hns⟩ := hown
      · cases options with
        | nil => exact hother
        | cons o options =>
          obtain hobserve | ⟨ns, hns⟩ := hother
          · exact hs.1 hobserve
          · exact parse_flag_ne_ok arithmetic (hk (hf o (by simp)).1) ns hns
      · exact parse_flag_ne_ok arithmetic (hk hv) ns hns
    refine ⟨hvalue, ih (fun o ho => ?_) (List.nodup_cons.mp hn).2 fun flag hflag hs => ?_⟩
    · refine ⟨(hf o (List.mem_cons_of_mem _ ho)).1, fun hmem => ?_⟩
      obtain heq | hmem := List.mem_cons.mp hmem
      · exact (List.nodup_cons.mp hn).1 (List.mem_map.mpr ⟨o, ho, heq⟩)
      · exact (hf o (List.mem_cons_of_mem _ ho)).2 hmem
    · rw [List.mem_cons, not_or] at hs
      have := h flag hflag hs.2
      rw [htokens, findFlag, if_neg (Ne.symm hs.1), findFlag, if_neg] at this
      · exact this
      · rintro rfl
        exact (List.mem_cons.mp (hvalue hflag)).elim hs.1 hs.2

/-! ## Orderly tokens -/

/-- Positionals and then flags are read from the same tokens. -/
theorem tokens_of_items {known tokens positionals : List String} {options : List (String × String)}
    (h : items known tokens =
      positionals.map .positional ++ options.map fun o => .option o.1 o.2) :
    tokens = positionals ++ flagTokens options := by
  rw [← flatMap_tokens_items known tokens, h, List.flatMap_append, List.flatMap_map,
    List.flatMap_map]
  simp [Item.tokens, flagTokens]

/-- The scanner of a flag finds the value that the flag has among the items. -/
theorem Orderly.findFlag {c : Subcommand} {tokens : List String}
    (h : Orderly c (items c.known tokens)) {flag : String} (hk : flag ∈ c.known) :
    findFlag flag tokens = ((optionsOf (items c.known tokens)).lookup flag).map some := by
  obtain ⟨positionals, options, hl, -, -, hahead⟩ := h
  have hflag : flag ∉ positionals := by
    intro hmem
    have : Item.positional flag ∈ items c.known tokens := by simp [hl, hmem]
    exact fits_of_mem_items this hk
  rw [tokens_of_items hl, findFlag_append hflag,
    findFlag_flagTokens hahead hk List.not_mem_nil, ← tokens_of_items hl, hl]
  simp

theorem Orderly.valueOf {c : Subcommand} {tokens : List String}
    (h : Orderly c (items c.known tokens)) (flag : String) :
    valueOf c.known tokens flag = (optionsOf (items c.known tokens)).lookup flag := by
  unfold Cli.valueOf
  split
  next hk =>
    rw [h.findFlag hk]
    cases (optionsOf (items c.known tokens)).lookup flag <;> rfl
  next hk =>
    symm
    refine List.lookup_eq_none_iff.mpr fun o ho => ?_
    have hflag : o.1 ∈ c.known := fits_of_mem_items (mem_optionsOf.mp ho)
    rw [bne_iff_ne]
    rintro rfl
    exact hk hflag

theorem Orderly.parsePositional {c : Subcommand} {tokens : List String}
    (h : Orderly c (items c.known tokens)) :
    parsePositional c.positionals tokens = .ok (positionalsOf (items c.known tokens)) := by
  obtain ⟨positionals, options, hl, hlength, -, -⟩ := h
  rw [parsePositional_eq_ok, hl, tokens_of_items hl]
  simp [← hlength]

theorem Orderly.usedOnce {arithmetic : Arithmetic} {c : Subcommand} (hc : c ∈ subcommands)
    {args : List String} {found : Scanned} (hrun : c.run arithmetic args = .ok found)
    (h : Orderly c (items c.known (args.drop 2))) :
    UsedOnce arithmetic (items c.known (args.drop 2)) found := by
  obtain ⟨-, hps, -, -, hpath, hsince, huntil⟩ := (run_eq_ok hc).mp hrun
  rw [h.valueOf] at hpath hsince huntil
  rw [h.parsePositional] at hps
  refine ⟨(Except.ok.inj hps).symm, ?_, ?_, hpath, hsince, huntil⟩
  · obtain ⟨positionals, options, hl, -⟩ := h
    simp [hl]
  · obtain ⟨positionals, options, hl, -, hnodup, -⟩ := h
    simpa [hl] using hnodup

/-- Where the first tokens are all the positionals there are, the flags are behind them. -/
theorem items_of_take {known tokens : List String} {n : Nat}
    (h : tokens.take n = positionalsOf (items known tokens))
    (hd : ∀ flag, Item.dangling flag ∉ items known tokens) :
    items known tokens = (tokens.take n).map .positional ++
      (optionsOf (items known tokens)).map fun o => .option o.1 o.2 := by
  have hnot : ∀ token ∈ tokens.take n, token ∉ known := by
    intro token ht
    rw [h] at ht
    exact fits_of_mem_items (mem_positionalsOf.mp ht)
  have hsplit : items known tokens =
      (tokens.take n).map .positional ++ items known (tokens.drop n) := by
    conv_lhs => rw [← List.take_append_drop n tokens]
    exact items_append_of_notMem hnot _
  have hnone : positionalsOf (items known (tokens.drop n)) = [] := by
    rw [hsplit, positionalsOf_append, positionalsOf_map_positional] at h
    simpa using h
  have hrest := eq_map_option hnone fun flag hmem =>
    hd flag (hsplit ▸ List.mem_append_right _ hmem)
  rw [hsplit, optionsOf_append, optionsOf_map_positional, List.nil_append]
  exact congrArg _ hrest

/-- In a run, each scanner goes on with what it finds. -/
theorem accepts_of_run {arithmetic : Arithmetic} {c : Subcommand} (hc : c ∈ subcommands)
    {args : List String} {found : Scanned} (hrun : c.run arithmetic args = .ok found)
    {flag : String} (hk : flag ∈ c.known) {r : Option (Option String)}
    (hr : r = findFlag flag (args.drop 2)) : Accepts arithmetic flag r := by
  obtain ⟨-, -, -, hvalue, -, hsince, huntil⟩ := (run_eq_ok hc).mp hrun
  subst hr
  have hne := hvalue flag hk
  cases h : findFlag flag (args.drop 2) with
  | none => trivial
  | some value =>
    cases value with
    | none => exact hne h
    | some value =>
      have hv : valueOf c.known (args.drop 2) flag = some value := by
        rw [valueOf, if_pos hk, h]
        rfl
      have hflag := known_subset hc hk
      simp only [valueTakingFlags, List.mem_cons, List.not_mem_nil, or_false] at hflag
      obtain rfl | rfl | rfl := hflag
      · exact .inl rfl
      · rw [hv] at hsince
        obtain ⟨ns, -, hns⟩ := Option.map_eq_some_iff.mp hsince
        exact .inr ⟨ns, hns.symm⟩
      · rw [hv] at huntil
        obtain ⟨ns, -, hns⟩ := Option.map_eq_some_iff.mp huntil
        exact .inr ⟨ns, hns.symm⟩

theorem UsedOnce.orderly {arithmetic : Arithmetic} {c : Subcommand} (hc : c ∈ subcommands)
    {args : List String} {found : Scanned} (hrun : c.run arithmetic args = .ok found)
    (h : UsedOnce arithmetic (items c.known (args.drop 2)) found) :
    Orderly c (items c.known (args.drop 2)) := by
  obtain ⟨-, hps, -, hvalue, -, hsince, huntil⟩ := (run_eq_ok hc).mp hrun
  obtain ⟨htake, hlength⟩ := parsePositional_eq_ok.mp hps
  have hl := items_of_take (htake.symm.trans h.positionals) h.valued
  refine ⟨_, _, hl, by simpa using hlength, h.once, ?_⟩
  refine noneAhead_of_accepts (known_subset hc) (fun o ho => ?_) h.once fun flag hk _ =>
    accepts_of_run hc hrun hk ?_
  · exact ⟨fits_of_mem_items (mem_optionsOf.mp ho), List.not_mem_nil⟩
  · have hflag : flag ∉ (args.drop 2).take c.positionals.length := by
      intro hmem
      rw [← htake, h.positionals] at hmem
      exact fits_of_mem_items (mem_positionalsOf.mp hmem) hk
    rw [← findFlag_append hflag, ← tokens_of_items hl]

/-! ## Moves -/

theorem Moved.positionalsOf_eq {l l' : List Item} (h : Moved l l') :
    positionalsOf l' = positionalsOf l := by
  obtain ⟨heq⟩ := h
  simpa using congrArg positionalsOf heq.symm

theorem Moved.perm {l l' : List Item} (h : Moved l l') : l'.Perm l := by
  obtain ⟨heq⟩ := h
  refine List.perm_middle.trans (.trans ?_ List.perm_middle.symm)
  rw [heq]

theorem Moved.optionsOf_perm {l l' : List Item} (h : Moved l l') :
    (optionsOf l').Perm (optionsOf l) := h.perm.filterMap _

theorem lookup_eq_some_iff_mem {l : List (String × String)} (hn : (l.map Prod.fst).Nodup)
    {key value : String} : l.lookup key = some value ↔ (key, value) ∈ l := by
  induction l with
  | nil => simp
  | cons o l ih =>
    obtain ⟨k, v⟩ := o
    obtain ⟨hk, hn⟩ := List.nodup_cons.mp hn
    rw [List.lookup_cons, List.mem_cons]
    by_cases h : key = k
    · subst h
      have hnot : (key, value) ∉ l := fun hmem => hk (List.mem_map.mpr ⟨_, hmem, rfl⟩)
      simp [hnot, eq_comm]
    · simp [h, beq_eq_false_iff_ne.mpr h, ih hn]

/-- Where each key is once, the order does not matter to what a key has. -/
theorem lookup_eq_of_perm {l l' : List (String × String)} (h : l'.Perm l)
    (hn : (l.map Prod.fst).Nodup) (key : String) : l'.lookup key = l.lookup key := by
  have hn' : (l'.map Prod.fst).Nodup := (h.map _).nodup_iff.mpr hn
  refine Option.ext fun value => ?_
  rw [lookup_eq_some_iff_mem hn, lookup_eq_some_iff_mem hn', h.mem_iff]

/-- What is used once still is after a move. -/
theorem UsedOnce.moved {arithmetic : Arithmetic} {l l' : List Item} {found : Scanned}
    (h : UsedOnce arithmetic l found) (hm : Moved l l') : UsedOnce arithmetic l' found where
  positionals := h.positionals.trans hm.positionalsOf_eq.symm
  valued flag hmem := h.valued flag (hm.perm.mem_iff.mp hmem)
  once := (hm.optionsOf_perm.map _).nodup_iff.mpr h.once
  path := h.path.trans (lookup_eq_of_perm hm.optionsOf_perm h.once _).symm
  since := by rw [h.since, lookup_eq_of_perm hm.optionsOf_perm h.once]
  until_ := by rw [h.until_, lookup_eq_of_perm hm.optionsOf_perm h.once]

/-- A subcommand that runs does so after a move that leaves the tokens orderly. -/
theorem UsedOnce.run_moved {arithmetic : Arithmetic} {c : Subcommand} (hc : c ∈ subcommands)
    {args args' : List String} {found : Scanned} (hrun : c.run arithmetic args = .ok found)
    (h : UsedOnce arithmetic (items c.known (args.drop 2)) found)
    (hm : Moved (items c.known (args.drop 2)) (items c.known (args'.drop 2)))
    (ho : Orderly c (items c.known (args'.drop 2))) : c.run arithmetic args' = .ok found := by
  obtain ⟨hreject, -, hcheck, -⟩ := (run_eq_ok hc).mp hrun
  have h' := h.moved hm
  refine (run_eq_ok hc).mpr ⟨?_, ?_, hcheck, fun flag hk => ?_, ?_, ?_, ?_⟩
  · rw [rejectUnknownFlags_eq_ok (known_subset hc), hm.positionalsOf_eq]
    exact (rejectUnknownFlags_eq_ok (known_subset hc) _).mp hreject
  · rw [ho.parsePositional, h'.positionals]
  · rw [ho.findFlag hk]
    cases (optionsOf (items c.known (args'.drop 2))).lookup flag <;> simp
  · rw [ho.valueOf, h'.path]
  · rw [ho.valueOf, h'.since]
  · rw [ho.valueOf, h'.until_]

/-- Where a subcommand runs, its scanners agree on the tokens, and go on doing so when a flag is
moved, just if the positionals come first and no flag is given twice. -/
theorem scanners_agree_iff (arithmetic : Arithmetic) {c : Subcommand} (hc : c ∈ subcommands)
    {args : List String} {found : Scanned} (hrun : c.run arithmetic args = .ok found) :
    (UsedOnce arithmetic (items c.known (args.drop 2)) found ↔
      Orderly c (items c.known (args.drop 2))) ∧
    ∀ args' : List String,
      Moved (items c.known (args.drop 2)) (items c.known (args'.drop 2)) →
      ((UsedOnce arithmetic (items c.known (args.drop 2)) found ∧
          c.run arithmetic args' = .ok found) ↔
        Orderly c (items c.known (args.drop 2)) ∧ Orderly c (items c.known (args'.drop 2))) := by
  have hiff : UsedOnce arithmetic (items c.known (args.drop 2)) found ↔
      Orderly c (items c.known (args.drop 2)) :=
    ⟨fun h => h.orderly hc hrun, fun h => h.usedOnce hc hrun⟩
  refine ⟨hiff, fun args' hm => ⟨fun ⟨h, hrun'⟩ => ?_, fun ⟨h, h'⟩ => ?_⟩⟩
  · exact ⟨hiff.mp h, (h.moved hm).orderly hc hrun'⟩
  · exact ⟨hiff.mpr h, (hiff.mpr h).run_moved hc hrun hm h'⟩

/-- A path behind the positionals is found, and no longer agreed on in front of them. -/
theorem path_moved_forward :
    UsedOnce .panicking (items runIngest.known ["acme", "/data", "--observe-otlp", "/m"])
      ⟨["acme", "/data"], some "/m", none, none⟩ ∧
    runIngest.run .panicking ["kaleidoscope-cli", "ingest", "--observe-otlp", "/m", "acme", "/data"]
      ≠ .ok ⟨["acme", "/data"], some "/m", none, none⟩ := by
  have hrun : runIngest.run .panicking
      ["kaleidoscope-cli", "ingest", "acme", "/data", "--observe-otlp", "/m"] =
        .ok ⟨["acme", "/data"], some "/m", none, none⟩ := by decide
  obtain ⟨hused, hmoved⟩ := scanners_agree_iff .panicking List.mem_cons_self hrun
  have horderly : Orderly runIngest (items runIngest.known
      ["acme", "/data", "--observe-otlp", "/m"]) :=
    ⟨["acme", "/data"], [("--observe-otlp", "/m")], rfl, rfl, by decide,
      ⟨fun h => absurd h (by decide), trivial⟩⟩
  refine ⟨hused.mpr horderly, fun hrun' => ?_⟩
  have hmove : Moved (items runIngest.known ["acme", "/data", "--observe-otlp", "/m"])
      (items runIngest.known ["--observe-otlp", "/m", "acme", "/data"]) :=
    @Moved.move "--observe-otlp" "/m" [.positional "acme", .positional "/data"] [] []
      [.positional "acme", .positional "/data"] rfl
  obtain ⟨-, positionals, options, hl, hlength, -⟩ :=
    (hmoved ["kaleidoscope-cli", "ingest", "--observe-otlp", "/m", "acme", "/data"] hmove).mp
      ⟨hused.mpr horderly, hrun'⟩
  cases positionals with
  | nil => cases hlength
  | cons token positionals => cases hl

/-- A flag in front of the positionals is taken for the tenant, its value for the directory. -/
theorem flag_taken_for_tenant :
    runIngest.run .panicking
        ["kaleidoscope-cli", "ingest", "--observe-otlp", "/m", "acme", "/data"] =
      .ok ⟨["--observe-otlp", "/m"], some "/m", none, none⟩ ∧
    ¬UsedOnce .panicking (items runIngest.known ["--observe-otlp", "/m", "acme", "/data"])
      ⟨["--observe-otlp", "/m"], some "/m", none, none⟩ := by
  refine ⟨by decide, fun h => ?_⟩
  exact absurd h.positionals (by decide)

end Kaleidoscope.Cli
