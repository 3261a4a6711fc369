import Kaleidoscope.Library.BTreeMap

/-!
# Profiles
-/

namespace Kaleidoscope.Strata

/-- Service identity, the stable key of the per-service index. -/
structure ServiceName where
  name : String
  deriving DecidableEq, Repr

/-- Half-open time range in nanoseconds since the Unix epoch. -/
structure TimeRange where
  startUnixNano : Nat
  endUnixNano : Nat

/-- Whether a time falls into the range. -/
def TimeRange.contains (range : TimeRange) (t : Nat) : Bool :=
  range.startUnixNano ≤ t && t < range.endUnixNano

/-- A type and a unit, as indices into the string table. -/
structure ValueType where
  typeIndex : Nat
  unitIndex : Nat
  deriving DecidableEq

/-- One column of sample values. -/
structure SampleType where
  valueType : ValueType
  aggregationTemporality : Nat
  deriving DecidableEq

/-- Function metadata, as indices into the string table. -/
structure Function where
  id : Nat
  nameIndex : Nat
  systemNameIndex : Nat
  filenameIndex : Nat
  startLine : Int
  deriving DecidableEq

/-- A loaded binary segment. -/
structure Mapping where
  id : Nat
  memoryStart : Nat
  memoryLimit : Nat
  fileOffset : Nat
  filenameIndex : Nat
  buildIdIndex : Nat
  deriving DecidableEq

/-- An address inside a mapping with the functions it resolves to. -/
structure Location where
  id : Nat
  mappingId : Nat
  address : Nat
  functionIds : List Nat
  deriving DecidableEq

/-- A stack with its measured values. -/
structure Sample where
  locationIds : List Nat
  values : List Int
  attributes : BTreeMap String
  deriving DecidableEq

/-- One pprof profile. -/
structure Profile where
  timeUnixNano : Nat
  durationNanos : Nat
  profileType : String
  sampleType : List SampleType
  samples : List Sample
  locations : List Location
  functions : List Function
  mappings : List Mapping
  stringTable : List String
  resourceAttributes : BTreeMap String
  attributes : BTreeMap String
  deriving DecidableEq

/-- The `service.name` resource attribute, or the empty string. -/
def Profile.serviceName (profile : Profile) : String :=
  (profile.resourceAttributes.get "service.name").getD ""

/-- A batch of profiles of one tenant. -/
structure ProfileBatch where
  profiles : List Profile

/-- The number of profiles in a batch. -/
def ProfileBatch.len (batch : ProfileBatch) : Nat := batch.profiles.length

/-- Whether a batch has no profiles. -/
def ProfileBatch.isEmpty (batch : ProfileBatch) : Bool := batch.profiles.isEmpty

end Kaleidoscope.Strata
