import Kaleidoscope.Cinder.FileBacked
import Kaleidoscope.Lumen.FileBacked

/-!
# The command line on one data directory

Each invocation opens the stores of the data directory afresh, does its work and exits. What
no invocation can see is the history of the batches that were flushed.
-/

namespace Kaleidoscope.Cli

open Utf8 Aegis HashMap Lumen Cinder

/-- What an invocation fails with. -/
inductive Error where
  | lumenOpen (error : LogStoreError)
  | lumenIngest (error : LogStoreError)
  | cinderOpen (error : MigrateError)
  | cinderMigrate (error : MigrateError)
  | cinderPlace (error : MigrateError)
  | cinderEvaluate (error : MigrateError)
  | invalidTier (value : String)
  | io (error : String)
  | parseRecord (line : Nat) (source : String)
  deriving DecidableEq, Repr

/-- `DEFAULT_BATCH_SIZE`. -/
def defaultBatchSize : Nat := 100

/-- The two stores of a data directory. -/
structure DataDir where
  lumen : Files
  cinder : Files

/-- `IngestStats`. -/
structure IngestStats where
  recordsIngested : Nat
  batchesFlushed : Nat
  tierItemsPlaced : Nat
  deriving DecidableEq, Repr

/-- Whether a character is white space to `trim`. -/
def isWhitespace (c : Char) : Bool :=
  (9 ≤ c.toNat && c.toNat ≤ 13) || (0x2000 ≤ c.toNat && c.toNat ≤ 0x200A) ||
    [0x20, 0x85, 0xA0, 0x1680, 0x2028, 0x2029, 0x202F, 0x205F, 0x3000].contains c.toNat

/-- `{:05}` of a sequence number. -/
def padded (batchSeq : Nat) : Text := (Nat.toDigits 10 batchSeq).leftpad 5 '0'

/-- The item of a batch: `{tenant}/batch-{seq:05}`. -/
def batchItem (tenant : TenantId) (batchSeq : Nat) : ItemId :=
  ⟨tenant.name ++ ("/batch-" ++ String.ofList (padded batchSeq))⟩

/-- `parse_tier`. -/
def parseTier (s : String) : Option Tier :=
  if s = "hot" then some .hot
  else if s = "warm" then some .warm
  else if s = "cold" then some .cold
  else none

/-- `tier_lowercase`. -/
def tierLowercase : Tier → String
  | .hot => "hot"
  | .warm => "warm"
  | .cold => "cold"

/-- What a flush meets: the faults of its two appends and the clock. -/
structure Tick where
  ingestFault : Fault
  placeFault : Fault
  now : SystemTime

/-- A batch that was flushed, with the tier entries before and after. -/
structure Flushed where
  tenant : TenantId
  item : ItemId
  now : SystemTime
  before : Entries
  after : Entries

/-- The variables of `ingest`, with the history of its flushes. -/
structure Progress where
  lumen : Store PerTenant
  cinder : Store Entries
  stats : IngestStats
  flushed : List Flushed

section Codecs

variable (fromStr : Text → Except String LogRecord) (lumenWal : LineSerde Lumen.WalRecord)
  (lumenSnap : FileSerde Lumen.Snapshot) (cinderWal : LineSerde Cinder.WalRecord)
  (cinderSnap : FileSerde Cinder.Snapshot)

/-- Parse every line that is not blank; the first failure names its line, from one. -/
def parseAll : Nat → List (Except String Text) → Except Error (List LogRecord)
  | _, [] => .ok []
  | _, .error e :: _ => .error (.io e)
  | idx, .ok line :: rest =>
    if line.all isWhitespace then parseAll (idx + 1) rest
    else
      match fromStr line with
      | .error e => .error (.parseRecord (idx + 1) e)
      | .ok record => (parseAll (idx + 1) rest).map (record :: ·)

/-- Ingest one batch, then place its item. -/
def flush (tenant : TenantId) (tick : Tick) (buffer : List LogRecord) (p : Progress) :
    Except Error Unit × Progress :=
  match ingest lumenWal lumenSnap p.lumen tenant ⟨buffer⟩ tick.ingestFault with
  | (.error e, lumen) => (.error (.lumenIngest e), { p with lumen := lumen })
  | (.ok receipt, lumen) =>
    let recordsIngested := p.stats.recordsIngested + receipt.count
    let item := batchItem tenant p.stats.batchesFlushed
    match place cinderWal cinderSnap p.cinder tenant item .hot tick.now tick.placeFault with
    | (.error e, cinder) =>
      (.error (.cinderPlace e),
        { p with
          lumen := lumen
          cinder := cinder
          stats := { p.stats with recordsIngested := recordsIngested } })
    | (.ok _, cinder) =>
      (.ok (),
        { lumen := lumen
          cinder := cinder
          stats := { p.stats with
            recordsIngested := recordsIngested
            tierItemsPlaced := p.stats.tierItemsPlaced + 1 }
          flushed := p.flushed ++ [⟨tenant, item, tick.now, p.cinder.state, cinder.state⟩] })

/-- Flush one chunk after the other, until a flush fails. -/
def flushAll (tenant : TenantId) (ticks : Nat → Tick) :
    List (List LogRecord) → Progress → Except Error Unit × Progress
  | [], p => (.ok (), p)
  | chunk :: rest, p =>
    match flush lumenWal lumenSnap cinderWal cinderSnap tenant (ticks p.stats.batchesFlushed)
      chunk p with
    | (.error e, p) => (.error e, p)
    | (.ok _, p) =>
      flushAll tenant ticks rest
        { p with stats := { p.stats with batchesFlushed := p.stats.batchesFlushed + 1 } }

/-- `ingest`: nothing is committed before every line has parsed. -/
def ingestLines (tenant : TenantId) (batchSize : Nat) (lines : List (Except String Text))
    (ticks : Nat → Tick) (dir : DataDir) : Except Error IngestStats × DataDir × List Flushed :=
  match (fileBackedLogStore lumenWal lumenSnap).openWithFsyncBackend dir.lumen with
  | .error e => (.error (.lumenOpen e), dir, [])
  | .ok lumen =>
    match (fileBackedTieringStore cinderWal cinderSnap).openWithFsyncBackend dir.cinder with
    | .error e => (.error (.cinderOpen e), { dir with lumen := lumen.drop }, [])
    | .ok cinder =>
      match parseAll fromStr 0 lines with
      | .error e => (.error e, ⟨lumen.drop, cinder.drop⟩, [])
      | .ok validated =>
        let (result, p) := flushAll lumenWal lumenSnap cinderWal cinderSnap tenant ticks
          (validated.toChunks batchSize) ⟨lumen, cinder, ⟨0, 0, 0⟩, []⟩
        (result.map fun _ => p.stats, ⟨p.lumen.drop, p.cinder.drop⟩, p.flushed)

/-- `place`, with the line it prints. -/
def placeItem (tenant : TenantId) (itemId tierArg : String) (now : SystemTime) (fault : Fault)
    (dir : DataDir) : Except Error String × DataDir :=
  match parseTier tierArg with
  | none => (.error (.invalidTier tierArg), dir)
  | some tier =>
    match (fileBackedTieringStore cinderWal cinderSnap).openWithFsyncBackend dir.cinder with
    | .error e => (.error (.cinderOpen e), dir)
    | .ok cinder =>
      let (result, cinder) := place cinderWal cinderSnap cinder tenant ⟨itemId⟩ tier now fault
      let line := s!"placed tenant={tenant.name} item={itemId} tier={tierLowercase tier}\n"
      ((result.map fun _ => line).mapError .cinderPlace, { dir with cinder := cinder.drop })

/-- `migrate`, which looks the item up first. -/
def migrateItem (tenant : TenantId) (itemId toTierArg : String) (now : SystemTime)
    (fault : Fault) (dir : DataDir) : Except Error String × DataDir :=
  match parseTier toTierArg with
  | none => (.error (.invalidTier toTierArg), dir)
  | some toTier =>
    match (fileBackedTieringStore cinderWal cinderSnap).openWithFsyncBackend dir.cinder with
    | .error e => (.error (.cinderOpen e), dir)
    | .ok cinder =>
      match getEntry cinder tenant ⟨itemId⟩ with
      | none =>
        (.error (.cinderMigrate (.unknownItem tenant ⟨itemId⟩)),
          { dir with cinder := cinder.drop })
      | some entry =>
        let (result, cinder) :=
          migrate cinderWal cinderSnap cinder tenant ⟨itemId⟩ toTier now fault
        let route := s!"from={tierLowercase entry.tier} to={tierLowercase toTier}"
        let line := s!"migrated tenant={tenant.name} item={itemId} {route}\n"
        ((result.map fun _ => line).mapError .cinderMigrate, { dir with cinder := cinder.drop })

/-- `evaluate_policy`. -/
def evaluatePolicy (hotToWarmSecs warmToColdSecs : Nat) (now : SystemTime)
    (order : IterOrder (TenantId × ItemId) TierEntry) (faults : List Fault) (dir : DataDir) :
    Except Error String × DataDir :=
  let policy : TierPolicy := ⟨hotToWarmSecs * 1000000000, warmToColdSecs * 1000000000⟩
  match (fileBackedTieringStore cinderWal cinderSnap).openWithFsyncBackend dir.cinder with
  | .error e => (.error (.cinderOpen e), dir)
  | .ok cinder =>
    let (result, cinder) := evaluateAt cinderWal cinderSnap cinder order now policy faults
    ((result.map fun migrated => s!"evaluated migrated={migrated}\n").mapError .cinderEvaluate,
      { dir with cinder := cinder.drop })

/-- An invocation, with the clock it reads and the faults its appends meet. -/
inductive Invocation where
  | ingest (tenant : TenantId) (lines : List (Except String Text)) (ticks : Nat → Tick)
  | place (tenant : TenantId) (itemId tierArg : String) (now : SystemTime) (fault : Fault)
  | migrate (tenant : TenantId) (itemId toTierArg : String) (now : SystemTime) (fault : Fault)
  | evaluatePolicy (hotToWarmSecs warmToColdSecs : Nat) (now : SystemTime)
      (order : IterOrder (TenantId × ItemId) TierEntry) (faults : List Fault)

/-- A data directory with the history of the batches flushed to it. -/
structure World where
  dir : DataDir
  flushed : List Flushed

/-- An empty directory. -/
def World.init : World := ⟨⟨.none, .none⟩, []⟩

/-- What an invocation leaves. -/
def invoke (w : World) : Invocation → World
  | .ingest tenant lines ticks =>
    let (_, dir, flushed) := ingestLines fromStr lumenWal lumenSnap cinderWal cinderSnap tenant
      defaultBatchSize lines ticks w.dir
    ⟨dir, w.flushed ++ flushed⟩
  | .place tenant itemId tierArg now fault =>
    { w with dir := (placeItem cinderWal cinderSnap tenant itemId tierArg now fault w.dir).2 }
  | .migrate tenant itemId toTierArg now fault =>
    { w with dir := (migrateItem cinderWal cinderSnap tenant itemId toTierArg now fault w.dir).2 }
  | .evaluatePolicy hotToWarmSecs warmToColdSecs now order faults =>
    { w with
      dir := (evaluatePolicy cinderWal cinderSnap hotToWarmSecs warmToColdSecs now order faults
        w.dir).2 }

end Codecs

end Kaleidoscope.Cli
