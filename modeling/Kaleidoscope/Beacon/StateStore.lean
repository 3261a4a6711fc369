import Kaleidoscope.Library.HashMap
import Kaleidoscope.Wal.LastWriter

/-!
# The rule-state store

A rule has exactly one current state, not a history: recovery inserts in file order, and
the last `put` of a rule wins.
-/

namespace Kaleidoscope.Beacon

open HashMap

/-- The state of a rule; times are nanoseconds relative to the Unix epoch. -/
inductive RuleState where
  | inactive
  | pending (since : Int)
  | firing (since : Int)
  deriving DecidableEq, Repr

/-- Failure surface of the durable adapter. -/
inductive RuleStateStoreError where
  | persistenceFailed (reason : String)
  deriving DecidableEq, Repr

/-- One line of the log. -/
inductive WalRecord where
  | put (ruleName : String) (state : RuleState)
  deriving DecidableEq, Repr

/-- The state of every rule. -/
abbrev Rules := HashMap String RuleState

/-- The snapshot file: the current map. -/
structure Snapshot where
  rules : Rules
  deriving DecidableEq

/-- The closure `open` replays the log with. -/
def applyRecord (rules : Rules) : WalRecord → Rules
  | .put ruleName state => rules.insert ruleName state

/-- `FileBackedRuleStateStore`. -/
def fileBackedRuleStateStore (wal : LineSerde WalRecord) (snap : FileSerde Snapshot) :
    Pillar Rules WalRecord Snapshot RuleStateStoreError Unit where
  walSerde := wal
  snapSerde := snap
  persistenceFailed := .persistenceFailed
  empty := ∅
  restore snap := .ok snap.rules
  apply rules record := .ok (applyRecord rules record)
  replayLoop := .tornTail fun line error =>
    .persistenceFailed s!"WAL parse error at line {line}: {error}"
  settle := id
  capture _ rules := ⟨rules⟩

/-- What `put` appends. -/
def putSteps (ruleName : String) (state : RuleState) : List (LogStep Rules WalRecord) :=
  [{ record := .put ruleName state
     commit := fun rules => rules.insert ruleName state }]

/-- The operations that write to the log. -/
inductive Call where
  | put (ruleName : String) (state : RuleState)

/-- The appends of an operation. -/
def plan : Call → Rules → Plan Rules WalRecord
  | .put ruleName state, rules => ⟨rules, putSteps ruleName state⟩

/-- `load_all`. -/
def loadAll (store : Store Rules) : Rules := store.state

section Operations

variable (wal : LineSerde WalRecord) (snap : FileSerde Snapshot)

/-- `put`. -/
def put (store : Store Rules) (ruleName : String) (state : RuleState) (fault : Fault) :
    Except RuleStateStoreError Unit × Store Rules :=
  let ran := (fileBackedRuleStateStore wal snap).call (plan (.put ruleName state) store.state)
    [fault] store
  (ran.result, ran.store)

/-- The rule a log record is about. -/
def WalRecord.ruleName : WalRecord → String
  | .put ruleName _ => ruleName

/-- The state a log record gives its rule. -/
def WalRecord.state : WalRecord → RuleState
  | .put _ state => state

theorem lookup_applyRecord (rules : Rules) (record : WalRecord) (ruleName : String) :
    (applyRecord rules record).lookup ruleName =
      if ruleName = record.ruleName then some record.state else rules.lookup ruleName := by
  cases record with
  | put => exact lookup_insert_ite rules _ ruleName _

/-- The rule-state store overwrites. -/
def lastWriter : LastWriter (fileBackedRuleStateStore wal snap) where
  write := applyRecord
  apply_eq _ _ := rfl
  settle_eq _ := rfl
  restore_capture _ _ := rfl
  lastWrite := .of_lookup WalRecord.ruleName (fun r _ => some r.state) lookup_applyRecord
    (fun _ _ => rfl) fun _ _ _ => rfl

/-- Every operation is legal. -/
theorem legal (hwal : ∀ r, wal.Faithful r) (c : Call) (faults : List Fault) (rules i : Rules)
    (h : (lastWriter wal snap).refinement.live rules i) :
    (lastWriter wal snap).refinement.Legal (plan c rules) faults i := by
  cases c with
  | put ruleName state =>
    refine (lastWriter wal snap).legal_of_commit (fun step hstep => ⟨hwal _, ?_⟩) faults h
    obtain rfl := List.mem_singleton.mp hstep
    exact fun _ => rfl

/-- The state the last of a list of records gives a rule. -/
def lastPut (records : List WalRecord) (ruleName : String) : Option RuleState :=
  (records.reverse.find? fun r => r.ruleName = ruleName).map WalRecord.state

/-- Inserting records in order leaves every rule with its last state. -/
theorem lookup_foldl_applyRecord (records : List WalRecord) (ruleName : String) :
    (records.foldl applyRecord (∅ : Rules)).lookup ruleName = lastPut records ruleName := by
  induction records using List.reverseRecOn with
  | nil => rfl
  | append_singleton records record ih =>
    rw [List.foldl_append, List.foldl_cons, List.foldl_nil, lookup_applyRecord, ih, lastPut,
      lastPut, List.reverse_append, List.reverse_singleton, List.singleton_append,
      List.find?_cons]
    by_cases h : record.ruleName = ruleName
    · simp [h]
    · simp [h, Ne.symm h]

end Operations

end Kaleidoscope.Beacon
