import Kaleidoscope.Library.Run
import Kaleidoscope.Prism.QueryRange

/-!
# The trace explorer

A search lists traces; a selected trace is fetched with its logs. Neither kind of request can be
cancelled.
-/

namespace Kaleidoscope.Prism

/-- `FailedTracesOutcome` and `TraceWithLogsOutcome`, by what a success carries. -/
inductive TracesOutcome (A : Type) where
  | success (found : A) (queryMs : Nat)
  | empty (queryMs : Nat)
  | parseError (message : String) (queryMs : Nat)
  | transportError (cause : TransportCause) (queryMs : Nat)
  deriving DecidableEq

/-- `TraceWithLogs`, with spans and logs from `T`. -/
structure TraceWithLogs (T : Type) where
  traceId : String
  content : T
  deriving DecidableEq

/-- The fields of the search form. -/
structure SearchForm where
  service : String
  range : TimeRange
  attrKey : String
  attrValue : String
  errorsOnly : Bool
  deriving DecidableEq

/-- `FailedTracesRequest`. -/
structure FailedTracesRequest where
  service : String
  start : Int
  stop : Int
  filter : Option (String × String)
  deriving DecidableEq

/-- `RELATIVE_SECONDS`. -/
def relativeSeconds : RelativeOffset → Int
  | .last5m => 300
  | .last15m => 900
  | .last1h => 3600
  | .last6h => 21600
  | .last24h => 86400

/-- `MAX_RELATIVE_WINDOW_SECONDS`. -/
def MAX_RELATIVE_WINDOW_SECONDS : Int := 86400 - 3600

/-- `toEpochWindow`, at a time in milliseconds. -/
def toEpochWindow (nowMs : Int) : TimeRange → Int × Int
  | .absolute fromMs toMs => (fromMs / 1000, toMs / 1000)
  | .relative offset =>
    let stop := nowMs / 1000
    (stop - min (relativeSeconds offset) MAX_RELATIVE_WINDOW_SECONDS, stop)

/-- White space and line ends, as `String.prototype.trim` takes them away. -/
def isSpace (c : Char) : Bool :=
  (9 ≤ c.toNat && c.toNat ≤ 13) || (0x2000 ≤ c.toNat && c.toNat ≤ 0x200A) ||
    [0x20, 0xA0, 0x1680, 0x2028, 0x2029, 0x202F, 0x205F, 0x3000, 0xFEFF].contains c.toNat

/-- `String.prototype.trim`. -/
def trim (s : String) : String :=
  String.ofList (((s.toList.dropWhile isSpace).reverse.dropWhile isSpace).reverse)

namespace SearchForm

/-- `attrKeyFilled`. -/
def attrKeyFilled (form : SearchForm) : Bool := trim form.attrKey ≠ ""

/-- `attrValueFilled`. -/
def attrValueFilled (form : SearchForm) : Bool := trim form.attrValue ≠ ""

/-- `attrPartial`. -/
def attrPartial (form : SearchForm) : Bool := form.attrKeyFilled ≠ form.attrValueFilled

/-- `attrComplete`. -/
def attrComplete (form : SearchForm) : Bool := form.attrKeyFilled && form.attrValueFilled

/-- The request of a search. -/
def request (form : SearchForm) (nowMs : Int) : FailedTracesRequest :=
  let window := toEpochWindow nowMs form.range
  { service := form.service
    start := window.1
    stop := window.2
    filter :=
      if form.attrComplete then some (trim form.attrKey, trim form.attrValue) else none }

end SearchForm

/-- What an explorer waits for. -/
inductive ExplorerCall where
  /-- `findTraces`, or `findFailedTraces` for failures only. -/
  | find (request : FailedTracesRequest) (errorsOnly : Bool)
  /-- `getTraceWithLogs`. -/
  | trace (traceId : String)
  deriving DecidableEq

/-- The trace that a call is about. -/
def ExplorerCall.traceId? : ExplorerCall → Option String
  | .find _ _ => none
  | .trace traceId => some traceId

/-- A call that was not answered. -/
structure ExplorerRequest where
  id : Nat
  call : ExplorerCall
  deriving DecidableEq

/-- A detail on screen, with the trace it was asked for. -/
structure Detail (T : Type) where
  requested : String
  outcome : TracesOutcome (TraceWithLogs T)
  deriving DecidableEq

/-- `TraceExplorerPanel`, with groups of spans from `G`. -/
structure TraceExplorerPanel (G T : Type) where
  form : SearchForm
  listOutcome : Option (TracesOutcome (List G))
  listLoading : Bool
  selectedTraceId : Option String
  detailOutcome : Option (Detail T)
  detailLoading : Bool
  autoOpenedRef : Option String
  requests : List ExplorerRequest
  fresh : Nat
  deriving DecidableEq

/-- What can happen to an explorer. -/
inductive ExplorerEvent (G T : Type) where
  | edited (form : SearchForm)
  | searched (nowMs : Int)
  | selected (traceId : String)
  /-- The page is opened at a trace. -/
  | landed (initialTraceId : String)
  | listAnswered (id : Nat) (outcome : TracesOutcome (List G))
  | detailAnswered (id : Nat) (outcome : TracesOutcome (TraceWithLogs T))

namespace TraceExplorerPanel

variable {G T : Type}

/-- A call is made. -/
def ask (panel : TraceExplorerPanel G T) (call : ExplorerCall) : TraceExplorerPanel G T :=
  { panel with requests := panel.requests ++ [⟨panel.fresh, call⟩], fresh := panel.fresh + 1 }

/-- A call is over. -/
def drop (panel : TraceExplorerPanel G T) (id : Nat) : TraceExplorerPanel G T :=
  { panel with requests := panel.requests.eraseP fun request => request.id = id }

/-- The call with a number. -/
def call? (panel : TraceExplorerPanel G T) (id : Nat) : Option ExplorerCall :=
  (panel.requests.find? fun request => request.id = id).map ExplorerRequest.call

/-- `runSearch`, up to its wait. -/
def runSearch (panel : TraceExplorerPanel G T) (nowMs : Int) : TraceExplorerPanel G T :=
  if panel.form.service = "" then panel
  else if panel.form.attrPartial then panel
  else
    ask
      { panel with selectedTraceId := none, detailOutcome := none, listLoading := true }
      (.find (panel.form.request nowMs) panel.form.errorsOnly)

/-- `selectTrace`, up to its wait. -/
def selectTrace (panel : TraceExplorerPanel G T) (traceId : String) : TraceExplorerPanel G T :=
  ask
    { panel with
      selectedTraceId := some traceId
      detailOutcome := none
      detailLoading := true }
    (.trace traceId)

/-- The effect that opens the trace of a deep link, once for each link. -/
def landed (panel : TraceExplorerPanel G T) (initialTraceId : String) : TraceExplorerPanel G T :=
  if initialTraceId = "" ∨ panel.autoOpenedRef = some initialTraceId then panel
  else { panel with autoOpenedRef := some initialTraceId }.selectTrace initialTraceId

/-- The rest of `runSearch`. -/
def listAnswered (panel : TraceExplorerPanel G T) (id : Nat) (outcome : TracesOutcome (List G)) :
    TraceExplorerPanel G T :=
  match panel.call? id with
  | some (.find _ _) =>
    { panel.drop id with listOutcome := some outcome, listLoading := false }
  | _ => panel

/-- The rest of `selectTrace`. -/
def detailAnswered (panel : TraceExplorerPanel G T) (id : Nat)
    (outcome : TracesOutcome (TraceWithLogs T)) : TraceExplorerPanel G T :=
  match panel.call? id with
  | some (.trace traceId) =>
    { panel.drop id with detailOutcome := some ⟨traceId, outcome⟩, detailLoading := false }
  | _ => panel

/-- The outcome that `TraceDetail` shows. -/
def detailOnScreen (panel : TraceExplorerPanel G T) : Option (Detail T) :=
  if panel.selectedTraceId = none ∨ panel.detailLoading = true then none else panel.detailOutcome

/-- One step of the explorer. -/
def step (panel : TraceExplorerPanel G T) : ExplorerEvent G T → TraceExplorerPanel G T
  | .edited form => { panel with form }
  | .searched nowMs => panel.runSearch nowMs
  | .selected traceId => panel.selectTrace traceId
  | .landed initialTraceId => panel.landed initialTraceId
  | .listAnswered id outcome => panel.listAnswered id outcome
  | .detailAnswered id outcome => panel.detailAnswered id outcome

/-- The explorer once it is mounted. -/
def mount : TraceExplorerPanel G T where
  form := ⟨"", .relative .last24h, "", "", false⟩
  listOutcome := none
  listLoading := false
  selectedTraceId := none
  detailOutcome := none
  detailLoading := false
  autoOpenedRef := none
  requests := []
  fresh := 0

end TraceExplorerPanel

end Kaleidoscope.Prism
