import Kaleidoscope.Aperture.Gateway
import Kaleidoscope.Aperture.Readiness

/-!
# The process

The main task binds the listeners, starts a task for each, and waits until a signal comes or one of
them is over. The drain gives notice on `/readyz`, waits, tells the listeners to close and lets the
requests in progress run out, up to a deadline. The main task, the serving tasks and the requests go
on side by side: every access to the readiness and to a limiter is a step, and so is every line.
-/

namespace Kaleidoscope.Aperture

open Aegis Otlp Protobuf Utf8 Run

/-- `ServeOutcome`. -/
inductive ServeOutcome where
  | graceful
  | failed
  deriving DecidableEq, Repr

/-- `ShutdownTrigger`. -/
inductive ShutdownTrigger where
  | handleShutdown
  | sigterm
  | sigint
  deriving DecidableEq, Repr

/-- `ShutdownTrigger::as_str`. -/
def ShutdownTrigger.asStr : ShutdownTrigger → String
  | handleShutdown => "handle_shutdown"
  | sigterm => "SIGTERM"
  | sigint => "SIGINT"

/-- `RunEvent`. -/
inductive RunEvent where
  | shutdown (trigger : ShutdownTrigger)
  | serveDeath

/-- `DrainOutcome`. -/
inductive DrainOutcome where
  | clean (drainedCount : UInt32)
  | deadlineExceeded (droppedCount : UInt32)
  | serveFailed
  deriving DecidableEq, Repr

/-- `exit_code`. -/
def DrainOutcome.exitCode : DrainOutcome → UInt8
  | clean _ => 0
  | deadlineExceeded _ => 1
  | serveFailed => 3

/-- `in_flight`. -/
def ConcurrencyLimiter.inFlight (limiter : ConcurrencyLimiter) : UInt32 :=
  .ofNat (limiter.cap.toNat - (UInt32.ofNat limiter.permits).toNat)

/-- `sum_in_flight`. -/
def sumInFlight (grpc http : UInt32) : UInt32 :=
  .ofNat (min (grpc.toNat + http.toNat) (2 ^ 32 - 1))

/-- `serve_death_observed`. -/
def serveDeathObserved (grpc http : ServeOutcome) : Bool :=
  grpc = .failed || http = .failed

/-- The lines that are told from the binding of the listeners on. -/
inductive ProcessLine where
  | listenerBound (transport : String) (addr : SocketAddr)
  | listenerBindFailed (transport : String) (addr : SocketAddr) (reason : String)
  | ready
  | readinessChanged (changed : ReadinessChanged)
  | serveLoopFailed (transport error : String)
  | shutdownInitiated (signal : String) (drainDeadlineMs : UInt64)
  | inFlightDrained (drainedCount : UInt64)
  | drainDeadlineExceeded (droppedCount : UInt64)
  | shutdownComplete (exitCode : UInt64)
  deriving DecidableEq

/-- What is told with a verdict. -/
def DrainOutcome.verdict : DrainOutcome → List ProcessLine
  | clean drainedCount => [.inFlightDrained drainedCount.toUInt64]
  | deadlineExceeded droppedCount => [.drainDeadlineExceeded droppedCount.toUInt64]
  | serveFailed => []

/-- The name of a listener. -/
def Transport.listener : Transport → String
  | grpc => "grpc"
  | httpProtobuf => "http"

/-- The address that a listener is to be bound to. -/
def Config.bindAddr (config : Config) : Transport → SocketAddr
  | .grpc => config.grpcBindAddr
  | .httpProtobuf => config.httpBindAddr

/-- `mark_grpc_bound` or `mark_http_bound`. -/
def Transport.mark : Transport → ReadinessCall
  | grpc => .markGrpcBound
  | httpProtobuf => .markHttpBound

/-- `ServeError`, as its text. -/
def serveError : Except String Unit → String
  | .error reason => reason
  | .ok () => "serving loop returned without a shutdown request"

/-- Where the task that serves a listener is: its future may return or panic, and what it returns
goes through `resolve_serve_outcome`. -/
inductive TaskPoint where
  | unborn
  | serving
  | returned (serveResult : Except String Unit)
  | tellFailed (error : String)
  | flipping (point : ReadinessPoint)
  | ended (outcome : ServeOutcome)
  | panicked
  deriving DecidableEq

/-- A step of `resolve_serve_outcome`. -/
def TaskPoint.advance (transport : Transport) (shutdownRequested : Bool)
    (readiness : ReadinessState) : TaskPoint → TaskPoint × ReadinessState × List ProcessLine
  | returned serveResult =>
    (if shutdownRequested then ended .graceful else tellFailed (serveError serveResult),
      readiness, [])
  | tellFailed error =>
    (flipping (ReadinessCall.flip .toFailed).entry, readiness,
      [.serveLoopFailed transport.listener error])
  | flipping point =>
    let (next, readiness, changed) := point.advance readiness
    (next.elim (ended .failed) flipping, readiness, changed.toList.map .readinessChanged)
  | point => (point, readiness, [])

/-- What the handle of a task resolves to, with none for a `JoinError`. -/
def TaskPoint.joined? : TaskPoint → Option (Option ServeOutcome)
  | ended outcome => some (some outcome)
  | panicked => some none
  | _ => none

/-- `serve_join_event`. -/
def serveJoinEvent : Option ServeOutcome → RunEvent
  | some .failed => .serveDeath
  | _ => .shutdown .handleShutdown

/-- The task of a listener: where it is, whether its sender was signalled, whether its future has
noticed that, and whether its handle has resolved. -/
structure ServeTask where
  point : TaskPoint
  signalled : Bool
  shutdownRequested : Bool
  taken : Bool
  deriving DecidableEq

/-- The two moments at which the drain counts the requests in progress. -/
inductive Count where
  | initial
  | dropped
  deriving DecidableEq

/-- Where the main task is, from `spawn_with_readiness` to the end of `run`. -/
inductive MainPoint where
  | bind (transport : Transport)
  | tellBound (transport : Transport) (addr : SocketAddr)
  | marking (transport : Transport) (point : ReadinessPoint)
  | spawning (transport : Transport)
  | tellBindFailed (transport : Transport) (reason : String)
  | abandon (reason : String)
  | refused (transport : Transport) (reason : String)
  | tellReady
  | waiting
  | tellInitiated (trigger : ShutdownTrigger)
  | flipping (point : ReadinessPoint)
  | countGrpc (count : Count)
  | countHttp (count : Count) (grpc : UInt32)
  | grace (initialInFlight : UInt32)
  | closeGrpc (initialInFlight : UInt32)
  | closeHttp (initialInFlight : UInt32)
  | joinGrpc (initialInFlight : UInt32)
  | joinHttp (initialInFlight : UInt32) (grpc : ServeOutcome)
  | tellVerdict (outcome : DrainOutcome)
  | tellComplete (outcome : DrainOutcome)
  | drained (outcome : DrainOutcome)
  | windDownGrpc
  | windDownHttp
  | woundDown
  | panicked
  deriving DecidableEq

/-- What the main task meets when it goes on. -/
inductive MainInput where
  | next
  | bound (addr : SocketAddr)
  | bindFailed (reason : String)
  | signal (trigger : ShutdownTrigger)
  | joined (transport : Transport)
  | deadline

/-- A process. -/
structure Process where
  gateway : Gateway
  readiness : ReadinessState
  task : Transport → ServeTask
  main : MainPoint
  log : List ProcessLine

/-- What happens to a process. -/
inductive ProcessEvent (Resource : SignalType → Type) where
  | gateway (event : GatewayEvent Resource)
  | main (input : MainInput)
  | serveReturned (transport : Transport) (serveResult : Except String Unit)
  | servePanicked (transport : Transport)
  | noticed (transport : Transport)
  | resolve (transport : Transport)

/-- Where the main task is once it has counted. -/
def Count.next (count : Count) (inFlight : UInt32) : MainPoint :=
  match count with
  | .initial => .grace inFlight
  | .dropped => .tellVerdict (.deadlineExceeded inFlight)

/-- What the drain comes to when both handles have resolved. -/
def drainVerdict (initialInFlight : UInt32) (grpc http : ServeOutcome) : DrainOutcome :=
  if serveDeathObserved grpc http then .serveFailed else .clean initialInFlight

/-- `RunEvent`, as `run` goes on with it. -/
def RunEvent.next : RunEvent → MainPoint
  | shutdown trigger => .tellInitiated trigger
  | serveDeath => .windDownGrpc

namespace Process

/-- Before the listeners are bound. -/
def new (config : Config) : Process where
  gateway := spawn config
  readiness := .new
  task _ := ⟨.unborn, false, false, false⟩
  main := .bind .grpc
  log := []

/-- Another state of one task. -/
def withTask (p : Process) (transport : Transport) (task : ServeTask) : Process :=
  { p with task := Function.update p.task transport task }

/-- The sender of a listener is signalled. -/
def signal (p : Process) (transport : Transport) : Process :=
  p.withTask transport { p.task transport with signalled := true }

/-- The main task tells lines and goes on. -/
def goOn (p : Process) (main : MainPoint) (told : List ProcessLine) : Process :=
  { p with main, log := p.log ++ told }

/-- The main task polls the handle of a task. -/
def join (p : Process) (transport : Transport) (next : Option ServeOutcome → MainPoint) :
    Process :=
  match (p.task transport).point.joined? with
  | some joined =>
    (p.withTask transport { p.task transport with taken := true }).goOn (next joined) []
  | none => p

/-- A step of a call of the main task on the readiness. -/
def call (p : Process) (point : ReadinessPoint) (going : ReadinessPoint → MainPoint)
    (after : MainPoint) : Process :=
  let (next, readiness, changed) := point.advance p.readiness
  { p with readiness }.goOn (next.elim after going) (changed.toList.map .readinessChanged)

/-- A step of the main task. -/
def advance (config : Config) (p : Process) (input : MainInput) : Process :=
  match p.main, input with
  | .bind t, .bound addr => p.goOn (.tellBound t addr) []
  | .bind t, .bindFailed reason => p.goOn (.tellBindFailed t reason) []
  | .tellBound t addr, .next => p.goOn (.marking t t.mark.entry) [.listenerBound t.listener addr]
  | .marking t point, .next => p.call point (.marking t) (.spawning t)
  | .spawning .grpc, .next =>
    (p.withTask .grpc { p.task .grpc with point := .serving }).goOn (.bind .httpProtobuf) []
  | .spawning .httpProtobuf, .next =>
    (p.withTask .httpProtobuf { p.task .httpProtobuf with point := .serving }).goOn .tellReady []
  | .tellBindFailed .grpc reason, .next =>
    p.goOn (.refused .grpc reason)
      [.listenerBindFailed Transport.grpc.listener (config.bindAddr .grpc) reason]
  | .tellBindFailed .httpProtobuf reason, .next =>
    p.goOn (.abandon reason)
      [.listenerBindFailed Transport.httpProtobuf.listener (config.bindAddr .httpProtobuf) reason]
  | .abandon reason, .next => (p.signal .grpc).goOn (.refused .httpProtobuf reason) []
  | .tellReady, .next => p.goOn .waiting [.ready]
  | .waiting, .signal trigger => p.goOn (RunEvent.shutdown trigger).next []
  | .waiting, .joined t => p.join t fun joined => (serveJoinEvent joined).next
  | .tellInitiated trigger, .next =>
    p.goOn (.flipping (ReadinessCall.flip .toDraining).entry)
      [.shutdownInitiated trigger.asStr config.drainDeadline]
  | .flipping point, .next => p.call point .flipping (.countGrpc .initial)
  | .countGrpc count, .next => p.goOn (.countHttp count p.gateway.grpcLimiter.inFlight) []
  | .countHttp count grpc, .next =>
    p.goOn (count.next (sumInFlight grpc p.gateway.httpLimiter.inFlight)) []
  | .grace initialInFlight, .next => p.goOn (.closeGrpc initialInFlight) []
  | .closeGrpc initialInFlight, .next => (p.signal .grpc).goOn (.closeHttp initialInFlight) []
  | .closeHttp initialInFlight, .next =>
    (p.signal .httpProtobuf).goOn (.joinGrpc initialInFlight) []
  -- A handle that has resolved while the process was waiting panics when it is polled again.
  | .joinGrpc initialInFlight, .next =>
    if (p.task .grpc).taken then p.goOn .panicked []
    else p.join .grpc fun joined => .joinHttp initialInFlight (joined.getD .graceful)
  | .joinHttp initialInFlight grpc, .next =>
    if (p.task .httpProtobuf).taken then p.goOn .panicked []
    else p.join .httpProtobuf fun joined =>
      .tellVerdict (drainVerdict initialInFlight grpc (joined.getD .graceful))
  -- `timeout` polls the joins before it looks at the deadline.
  | .joinGrpc _, .deadline =>
    if (p.task .grpc).point.joined? = none then p.goOn (.countGrpc .dropped) [] else p
  | .joinHttp _ _, .deadline =>
    if (p.task .httpProtobuf).point.joined? = none then p.goOn (.countGrpc .dropped) [] else p
  | .tellVerdict outcome, .next => p.goOn (.tellComplete outcome) outcome.verdict
  | .tellComplete outcome, .next =>
    p.goOn (.drained outcome) [.shutdownComplete outcome.exitCode.toUInt64]
  | .windDownGrpc, .next => (p.signal .grpc).goOn .windDownHttp []
  | .windDownHttp, .next => (p.signal .httpProtobuf).goOn .woundDown []
  | _, _ => p

/-- A task that serves goes on from another point. -/
def leave (p : Process) (transport : Transport) (point : TaskPoint) : Process :=
  if (p.task transport).point = .serving then
    p.withTask transport { p.task transport with point }
  else p

/-- The closure that waits for the sender of a listener stores that a shutdown is requested. -/
def notice (p : Process) (transport : Transport) : Process :=
  if (p.task transport).point = .serving ∧ (p.task transport).signalled = true then
    p.withTask transport { p.task transport with shutdownRequested := true }
  else p

/-- A task takes its next step. -/
def resolve (p : Process) (transport : Transport) : Process :=
  let task := p.task transport
  let (point, readiness, told) := task.point.advance transport task.shutdownRequested p.readiness
  { p with
    readiness
    task := Function.update p.task transport { task with point }
    log := p.log ++ told }

end Process

section

variable {Inner : Type} (descriptors : Descriptors Inner) (prost : Prost Inner)
  {Resource : SignalType → Type} (codec : Codec Resource) (config : Config)

/-- An event. -/
def Process.step (p : Process) : ProcessEvent Resource → Process
  | .gateway event => { p with gateway := (perform descriptors prost codec p.gateway event).2 }
  | .main input => p.advance config input
  | .serveReturned transport serveResult => p.leave transport (.returned serveResult)
  | .servePanicked transport => p.leave transport .panicked
  | .noticed transport => p.notice transport
  | .resolve transport => p.resolve transport

/-- The process after a series of events. -/
def processAfter (events : List (ProcessEvent Resource)) : Process :=
  run (Process.step descriptors prost codec config) (.new config) events

/-- The future of a task has returned. -/
def TaskPoint.hasReturned : TaskPoint → Bool
  | returned _ | tellFailed _ | flipping _ | ended _ => true
  | _ => false

/-- The future of a task has returned after it was told to close. -/
def ServeTask.Closed (task : ServeTask) : Prop :=
  task.shutdownRequested = true ∧ task.point.hasReturned = true

instance : DecidablePred ServeTask.Closed := fun _ => inferInstanceAs (Decidable (_ ∧ _))

/-- What `serve_with_incoming_shutdown` and `with_graceful_shutdown` promise: a listener that was
told to close returns when no request of its is in progress, and takes no more. -/
def Graceful (p : Process) : ProcessEvent Resource → Prop
  | .gateway (.arrive _ request) => ¬ (p.task request.transport).Closed
  | .serveReturned transport _ =>
    (p.task transport).shutdownRequested = true → p.gateway.count transport = 0
  | _ => True

instance (p : Process) : DecidablePred (@Graceful Resource p)
  | .gateway (.arrive _ request) =>
    inferInstanceAs (Decidable (¬ (p.task request.transport).Closed))
  | .serveReturned transport _ =>
    inferInstanceAs (Decidable ((p.task transport).shutdownRequested = true →
      p.gateway.count transport = 0))
  | .gateway (.finish _ _) => isTrue trivial
  | .gateway (.abandon _) => isTrue trivial
  | .main _ => isTrue trivial
  | .servePanicked _ => isTrue trivial
  | .noticed _ => isTrue trivial
  | .resolve _ => isTrue trivial

/-- The line that tells that a listener is not bound. -/
def bindFailed (transport : Transport) (reason : String) : ProcessLine :=
  .listenerBindFailed transport.listener (config.bindAddr transport) reason

/-- The moves of the main task from point to point, with what it tells. -/
inductive Moves (p : Process) : MainPoint → MainPoint → List ProcessLine → Prop where
  | bound (t : Transport) (addr : SocketAddr) : Moves p (.bind t) (.tellBound t addr) []
  | bindFailed (t : Transport) (reason : String) :
      Moves p (.bind t) (.tellBindFailed t reason) []
  | toldBound (t : Transport) (addr : SocketAddr) :
      Moves p (.tellBound t addr) (.marking t t.mark.entry) [.listenerBound t.listener addr]
  | spawnedGrpc : Moves p (.spawning .grpc) (.bind .httpProtobuf) []
  | spawnedHttp : Moves p (.spawning .httpProtobuf) .tellReady []
  | toldGrpcFailed (reason : String) :
      Moves p (.tellBindFailed .grpc reason) (.refused .grpc reason)
        [Aperture.bindFailed config .grpc reason]
  | toldHttpFailed (reason : String) :
      Moves p (.tellBindFailed .httpProtobuf reason) (.abandon reason)
        [Aperture.bindFailed config .httpProtobuf reason]
  | abandoned (reason : String) : Moves p (.abandon reason) (.refused .httpProtobuf reason) []
  | toldReady : Moves p .tellReady .waiting [.ready]
  | signalled (trigger : ShutdownTrigger) : Moves p .waiting (.tellInitiated trigger) []
  | joinSeen (t : Transport) (joined : Option ServeOutcome)
      (hjoined : (p.task t).point.joined? = some joined) :
      Moves p .waiting (serveJoinEvent joined).next []
  | toldInitiated (trigger : ShutdownTrigger) :
      Moves p (.tellInitiated trigger) (.flipping (ReadinessCall.flip .toDraining).entry)
        [.shutdownInitiated trigger.asStr config.drainDeadline]
  | countedGrpc (count : Count) :
      Moves p (.countGrpc count) (.countHttp count p.gateway.grpcLimiter.inFlight) []
  | countedHttp (count : Count) (grpc : UInt32) :
      Moves p (.countHttp count grpc)
        (count.next (sumInFlight grpc p.gateway.httpLimiter.inFlight)) []
  | waited (n : UInt32) : Moves p (.grace n) (.closeGrpc n) []
  | closedGrpc (n : UInt32) : Moves p (.closeGrpc n) (.closeHttp n) []
  | closedHttp (n : UInt32) : Moves p (.closeHttp n) (.joinGrpc n) []
  | joinedGrpc (n : UInt32) (joined : Option ServeOutcome)
      (hjoined : (p.task .grpc).point.joined? = some joined) :
      Moves p (.joinGrpc n) (.joinHttp n (joined.getD .graceful)) []
  | joinedHttp (n : UInt32) (grpc : ServeOutcome) (joined : Option ServeOutcome)
      (hjoined : (p.task .httpProtobuf).point.joined? = some joined) :
      Moves p (.joinHttp n grpc) (.tellVerdict (drainVerdict n grpc (joined.getD .graceful))) []
  | panickedGrpc (n : UInt32) : Moves p (.joinGrpc n) .panicked []
  | panickedHttp (n : UInt32) (grpc : ServeOutcome) : Moves p (.joinHttp n grpc) .panicked []
  | expiredGrpc (n : UInt32) (hnone : (p.task .grpc).point.joined? = none) :
      Moves p (.joinGrpc n) (.countGrpc .dropped) []
  | expiredHttp (n : UInt32) (grpc : ServeOutcome)
      (hnone : (p.task .httpProtobuf).point.joined? = none) :
      Moves p (.joinHttp n grpc) (.countGrpc .dropped) []
  | toldVerdict (outcome : DrainOutcome) :
      Moves p (.tellVerdict outcome) (.tellComplete outcome) outcome.verdict
  | toldComplete (outcome : DrainOutcome) :
      Moves p (.tellComplete outcome) (.drained outcome)
        [.shutdownComplete outcome.exitCode.toUInt64]
  | woundDownGrpc : Moves p .windDownGrpc .windDownHttp []
  | woundDownHttp : Moves p .windDownHttp .woundDown []

/-- A call of the main task on the readiness: its points, and where it leads. -/
inductive Calls : (ReadinessPoint → MainPoint) → MainPoint → Prop where
  | mark (t : Transport) : Calls (.marking t) (.spawning t)
  | flip : Calls .flipping (.countGrpc .initial)

/-- What one event can do to a process. -/
inductive Process.Change (p : Process) : Process → Prop where
  | nothing : p.Change p
  | gateway (event : GatewayEvent Resource) (hgraceful : Graceful p (.gateway event)) :
      p.Change { p with gateway := (perform descriptors prost codec p.gateway event).2 }
  | moves {main : MainPoint} {told : List ProcessLine} (h : Moves config p p.main main told) :
      p.Change (p.goOn main told)
  | spawns {main : MainPoint} (t : Transport) (hmain : p.main = .spawning t)
      (h : Moves config p p.main main []) :
      p.Change ((p.withTask t { p.task t with point := .serving }).goOn main [])
  | signals {main : MainPoint} (t : Transport) (h : Moves config p p.main main []) :
      p.Change ((p.signal t).goOn main [])
  | joins {main : MainPoint} (t : Transport) (h : Moves config p p.main main []) :
      p.Change ((p.withTask t { p.task t with taken := true }).goOn main [])
  | calls {going : ReadinessPoint → MainPoint} {after : MainPoint} (hcalls : Calls going after)
      {point : ReadinessPoint} (hmain : p.main = going point) :
      p.Change (p.call point going after)
  | returned (t : Transport) (serveResult : Except String Unit)
      (hserving : (p.task t).point = .serving)
      (hcount : (p.task t).shutdownRequested = true → p.gateway.count t = 0) :
      p.Change (p.withTask t { p.task t with point := .returned serveResult })
  | panicked (t : Transport) (hserving : (p.task t).point = .serving) :
      p.Change (p.withTask t { p.task t with point := .panicked })
  | noticed (t : Transport) (hserving : (p.task t).point = .serving) :
      p.Change (p.withTask t { p.task t with shutdownRequested := true })
  | judged (t : Transport) {serveResult : Except String Unit}
      (hpoint : (p.task t).point = .returned serveResult) :
      p.Change (p.withTask t { p.task t with
        point := if (p.task t).shutdownRequested then .ended .graceful
          else .tellFailed (serveError serveResult) })
  | toldFailed (t : Transport) {error : String} (hpoint : (p.task t).point = .tellFailed error) :
      p.Change { p.withTask t { p.task t with
          point := .flipping (ReadinessCall.flip .toFailed).entry } with
        log := p.log ++ [.serveLoopFailed t.listener error] }
  | flipped (t : Transport) {point : ReadinessPoint}
      (hpoint : (p.task t).point = .flipping point) :
      p.Change { p.withTask t { p.task t with
          point := (point.advance p.readiness).1.elim (.ended .failed) .flipping } with
        readiness := (point.advance p.readiness).2.1
        log := p.log ++ (point.advance p.readiness).2.2.toList.map .readinessChanged }

end

section

variable {Inner : Type} {descriptors : Descriptors Inner} {prost : Prost Inner}
  {Resource : SignalType → Type} {codec : Codec Resource} {config : Config} {p p' : Process}

theorem Process.change_join {t : Transport} {next : Option ServeOutcome → MainPoint}
    (h : ∀ joined, (p.task t).point.joined? = some joined →
      Moves config p p.main (next joined) []) :
    p.Change descriptors prost codec config (p.join t next) := by
  rw [join]
  cases hjoined : (p.task t).point.joined? with
  | none => exact .nothing
  | some joined => exact .joins t (h joined hjoined)

theorem Process.change_of_moves {main main' : MainPoint} {told : List ProcessLine}
    (hmain : p.main = main) (h : Moves config p main main' told) :
    p.Change descriptors prost codec config (p.goOn main' told) :=
  .moves (hmain ▸ h)

theorem Process.change_of_signals {main main' : MainPoint} (t : Transport)
    (hmain : p.main = main) (h : Moves config p main main' []) :
    p.Change descriptors prost codec config ((p.signal t).goOn main' []) :=
  .signals t (hmain ▸ h)

theorem Process.change_advance (input : MainInput) :
    p.Change descriptors prost codec config (p.advance config input) := by
  fun_cases p.advance config input
  case case1 t addr hmain => exact change_of_moves hmain (.bound t addr)
  case case2 t reason hmain => exact change_of_moves hmain (.bindFailed t reason)
  case case3 t addr hmain => exact change_of_moves hmain (.toldBound t addr)
  case case4 t point hmain => exact .calls (.mark t) hmain
  case case5 hmain => exact .spawns .grpc hmain (hmain ▸ .spawnedGrpc)
  case case6 hmain => exact .spawns .httpProtobuf hmain (hmain ▸ .spawnedHttp)
  case case7 reason hmain => exact change_of_moves hmain (.toldGrpcFailed reason)
  case case8 reason hmain => exact change_of_moves hmain (.toldHttpFailed reason)
  case case9 reason hmain => exact change_of_signals .grpc hmain (.abandoned reason)
  case case10 hmain => exact change_of_moves hmain .toldReady
  case case11 trigger hmain => exact change_of_moves hmain (.signalled trigger)
  case case12 t hmain =>
    exact change_join fun joined hjoined => hmain ▸ .joinSeen t joined hjoined
  case case13 trigger hmain => exact change_of_moves hmain (.toldInitiated trigger)
  case case14 point hmain => exact .calls .flip hmain
  case case15 count hmain => exact change_of_moves hmain (.countedGrpc count)
  case case16 count grpc hmain => exact change_of_moves hmain (.countedHttp count grpc)
  case case17 n hmain => exact change_of_moves hmain (.waited n)
  case case18 n hmain => exact change_of_signals .grpc hmain (.closedGrpc n)
  case case19 n hmain => exact change_of_signals .httpProtobuf hmain (.closedHttp n)
  case case20 n hmain htaken => exact change_of_moves hmain (.panickedGrpc n)
  case case21 n hmain htaken =>
    exact change_join fun joined hjoined => hmain ▸ .joinedGrpc n joined hjoined
  case case22 n grpc hmain htaken => exact change_of_moves hmain (.panickedHttp n grpc)
  case case23 n grpc hmain htaken =>
    exact change_join fun joined hjoined => hmain ▸ .joinedHttp n grpc joined hjoined
  case case24 n hmain hnone => exact change_of_moves hmain (.expiredGrpc n hnone)
  case case25 => exact .nothing
  case case26 n grpc hmain hnone => exact change_of_moves hmain (.expiredHttp n grpc hnone)
  case case27 => exact .nothing
  case case28 outcome hmain => exact change_of_moves hmain (.toldVerdict outcome)
  case case29 outcome hmain => exact change_of_moves hmain (.toldComplete outcome)
  case case30 hmain => exact change_of_signals .grpc hmain .woundDownGrpc
  case case31 hmain => exact change_of_signals .httpProtobuf hmain .woundDownHttp
  case case32 => exact .nothing

theorem Process.change_resolve (t : Transport) :
    p.Change descriptors prost codec config (p.resolve t) := by
  have hsame (h : (p.task t).point.advance t (p.task t).shutdownRequested p.readiness =
      ((p.task t).point, p.readiness, [])) : p.resolve t = p := by
    simp only [resolve, h, Function.update_eq_self, List.append_nil]
  cases hpoint : (p.task t).point with
  | returned serveResult =>
    have hjudged : p.resolve t = p.withTask t { p.task t with
        point := if (p.task t).shutdownRequested then .ended .graceful
          else .tellFailed (serveError serveResult) } := by
      simp [resolve, hpoint, TaskPoint.advance, withTask]
    rw [hjudged]
    exact .judged t hpoint
  | tellFailed error =>
    have htold : p.resolve t = { p.withTask t { p.task t with
        point := .flipping (ReadinessCall.flip .toFailed).entry } with
        log := p.log ++ [.serveLoopFailed t.listener error] } := by
      simp [resolve, hpoint, TaskPoint.advance, withTask]
    rw [htold]
    exact .toldFailed t hpoint
  | flipping point =>
    have hflipped : p.resolve t = { p.withTask t { p.task t with
        point := (point.advance p.readiness).1.elim (.ended .failed) .flipping } with
        readiness := (point.advance p.readiness).2.1
        log := p.log ++ (point.advance p.readiness).2.2.toList.map .readinessChanged } := by
      simp [resolve, hpoint, TaskPoint.advance, withTask]
    rw [hflipped]
    exact .flipped t hpoint
  | _ =>
    rw [hsame (by rw [hpoint]; rfl)]
    exact .nothing

/-- The inversion lemma: an event does one of these things. -/
theorem Process.change_step {event : ProcessEvent Resource} (h : Graceful p event) :
    p.Change descriptors prost codec config (p.step descriptors prost codec config event) := by
  cases event with
  | gateway event => exact .gateway event h
  | main input => exact change_advance input
  | serveReturned t serveResult =>
    rw [step, leave]
    split_ifs with hserving
    · exact .returned t serveResult hserving h
    · exact .nothing
  | servePanicked t =>
    rw [step, leave]
    split_ifs with hserving
    · exact .panicked t hserving
    · exact .nothing
  | noticed t =>
    rw [step, notice]
    split_ifs with hserving
    · exact .noticed t hserving.1
    · exact .nothing
  | resolve t => exact change_resolve t

@[simp] theorem Process.task_withTask (t : Transport) (new : ServeTask) (t' : Transport) :
    (p.withTask t new).task t' = if t' = t then new else p.task t' :=
  Function.update_apply p.task t new t'

theorem Process.point_withTask {t : Transport} {new : ServeTask}
    (h : new.point = (p.task t).point) (t' : Transport) :
    ((p.withTask t new).task t').point = (p.task t').point := by
  rw [task_withTask]
  split_ifs with heq
  · rw [heq, h]
  · rfl

/-- A change of one task, from what it was, is one of all tasks. -/
theorem Process.forall_withTask {t : Transport} {new : ServeTask}
    {P : Transport → ServeTask → Prop} (h : ∀ t', P t' (p.task t')) (hnew : P t new)
    (t' : Transport) : P t' ((p.withTask t new).task t') := by
  rw [task_withTask]
  split_ifs with heq
  · exact heq ▸ hnew
  · exact h t'

theorem Gateway.cap_leave (g : Gateway) (entry : Nat × Request) (t : Transport) :
    ((g.leave entry).limiter t).cap = (g.limiter t).cap := by
  rw [limiter_leave]
  split_ifs <;> rfl

theorem Gateway.count_leave_le {g : Gateway} {entry : Nat × Request}
    (h : entry ∈ g.inProgress) (t : Transport) : (g.leave entry).count t ≤ g.count t := by
  have hcount := count_leave h t
  omega

/-- What an event does to the caps, and to the requests of a transport on which none arrives. -/
theorem perform_limits (g : Gateway) (event : GatewayEvent Resource) (t : Transport) :
    ((perform descriptors prost codec g event).2.limiter t).cap = (g.limiter t).cap ∧
      ((∀ id request, event = .arrive id request → request.transport ≠ t) →
        (perform descriptors prost codec g event).2.count t ≤ g.count t) := by
  cases event with
  | arrive id request =>
    rw [perform]
    cases hbefore : beforeService descriptors prost g.recvBodyCap request with
    | some answer => exact ⟨rfl, fun _ => le_rfl⟩
    | none =>
      cases hacquired : (g.limiter request.transport).tryAcquire with
      | error hit => exact ⟨rfl, fun _ => le_rfl⟩
      | ok limiter =>
        have hcap : limiter.cap = (g.limiter request.transport).cap := by
          rw [ConcurrencyLimiter.tryAcquire] at hacquired
          split_ifs at hacquired
          rw [← Except.ok.inj hacquired]
        refine ⟨?_, fun hother => ?_⟩
        · change ((g.enter (id, request) limiter).limiter t).cap = _
          rw [Gateway.limiter_enter]
          split_ifs with ht
          · rw [hcap, ht]
          · rfl
        · change (g.enter (id, request) limiter).count t ≤ _
          rw [Gateway.count_enter, if_neg (hother id request rfl)]
          exact le_rfl
  | finish id sink =>
    rw [perform]
    cases hfind : g.inProgress.find? fun entry => entry.1 = id with
    | none => exact ⟨rfl, fun _ => le_rfl⟩
    | some entry =>
      exact ⟨g.cap_leave entry t, fun _ => g.count_leave_le (List.mem_of_find?_eq_some hfind) t⟩
  | abandon id =>
    rw [perform]
    cases hfind : g.inProgress.find? fun entry => entry.1 = id with
    | none => exact ⟨rfl, fun _ => le_rfl⟩
    | some entry =>
      exact ⟨g.cap_leave entry t, fun _ => g.count_leave_le (List.mem_of_find?_eq_some hfind) t⟩

/-- A task whose future was told to close and has returned has left no request, and one that ended
gracefully was told to close. -/
def ServeTask.Accounted (count : Nat) (task : ServeTask) : Prop :=
  (task.Closed → count = 0) ∧
    (task.point = .ended .graceful → task.shutdownRequested = true)

/-- What the tasks and the limiters have in common. -/
structure Process.Accounted (descriptors : Descriptors Inner) (prost : Prost Inner)
    (config : Config) (p : Process) : Prop where
  gateway : p.gateway.Accounted descriptors prost config
  cap : ∀ t, (p.gateway.limiter t).cap = config.maxConcurrentRequests
  task : ∀ t, (p.task t).Accounted (p.gateway.count t)

/-- Another account of one task. -/
theorem Process.Accounted.withTask (h : p.Accounted descriptors prost config) {t : Transport}
    {new : ServeTask} (hnew : new.Accounted (p.gateway.count t)) :
    ∀ t', ((p.withTask t new).task t').Accounted (p.gateway.count t') :=
  forall_withTask (P := fun t' task => task.Accounted (p.gateway.count t')) h.task hnew

/-- The account is kept. -/
theorem Process.Accounted.change (h : p.Accounted descriptors prost config)
    (hchange : p.Change descriptors prost codec config p') :
    p'.Accounted descriptors prost config := by
  cases hchange with
  | nothing => exact h
  | gateway event hgraceful =>
    refine ⟨h.gateway.perform event, fun t => ?_, fun t => ⟨fun hclosed => ?_, (h.task t).2⟩⟩
    · exact (perform_limits p.gateway event t).1.trans (h.cap t)
    · refine Nat.le_zero.mp ((h.task t).1 hclosed ▸ (perform_limits p.gateway event t).2 ?_)
      rintro id request rfl rfl
      exact hgraceful hclosed
  | moves hmoves => exact ⟨h.gateway, h.cap, h.task⟩
  | spawns t hmain hmoves =>
    exact ⟨h.gateway, h.cap, h.withTask ⟨fun hclosed => absurd hclosed.2 Bool.false_ne_true, nofun⟩⟩
  | signals t hmoves => exact ⟨h.gateway, h.cap, h.withTask (h.task t)⟩
  | joins t hmoves => exact ⟨h.gateway, h.cap, h.withTask (h.task t)⟩
  | calls hcalls hmain => exact ⟨h.gateway, h.cap, h.task⟩
  | returned t serveResult hserving hcount =>
    exact ⟨h.gateway, h.cap, h.withTask ⟨fun hclosed => hcount hclosed.1, nofun⟩⟩
  | panicked t hserving =>
    exact ⟨h.gateway, h.cap, h.withTask ⟨fun hclosed => absurd hclosed.2 Bool.false_ne_true, nofun⟩⟩
  | noticed t hserving =>
    refine ⟨h.gateway, h.cap, h.withTask ⟨fun hclosed => ?_, fun _ => rfl⟩⟩
    have hreturned := hclosed.2
    simp [hserving, TaskPoint.hasReturned] at hreturned
  | judged t hpoint =>
    refine ⟨h.gateway, h.cap, h.withTask ⟨fun hclosed => ?_, fun hended => ?_⟩⟩
    · exact (h.task t).1 ⟨hclosed.1, by rw [hpoint]; rfl⟩
    · by_contra hrequested
      simp [hrequested] at hended
  | toldFailed t hpoint =>
    refine ⟨h.gateway, h.cap, h.withTask ⟨fun hclosed => ?_, nofun⟩⟩
    exact (h.task t).1 ⟨hclosed.1, by rw [hpoint]; rfl⟩
  | flipped t hpoint =>
    refine ⟨h.gateway, h.cap, h.withTask ⟨fun hclosed => ?_, fun hended => ?_⟩⟩
    · exact (h.task t).1 ⟨hclosed.1, by rw [hpoint]; rfl⟩
    · exact absurd hended (by cases (ReadinessPoint.advance _ _).1 <;> simp)

/-- The task of a listener is yet to be started. -/
def MainPoint.Before (t : Transport) : MainPoint → Prop
  | bind .grpc | tellBound .grpc _ | marking .grpc _ | spawning .grpc => True
  | tellBindFailed .grpc _ | refused .grpc _ => True
  | bind .httpProtobuf | tellBound .httpProtobuf _ | marking .httpProtobuf _ => t = .httpProtobuf
  | spawning .httpProtobuf | tellBindFailed .httpProtobuf _ => t = .httpProtobuf
  | abandon _ | refused .httpProtobuf _ => t = .httpProtobuf
  | _ => False

theorem MainPoint.before_spawning (t : Transport) : (spawning t).Before t := by
  cases t <;> trivial

/-- The main task never goes back to where a task is yet to be started. -/
theorem Moves.before {main main' : MainPoint} {told : List ProcessLine} {t : Transport}
    (h : Moves config p main main' told) (hbefore : main'.Before t) : main.Before t := by
  cases h with
  | bound t' | bindFailed t' | toldBound t' => cases t' <;> exact hbefore
  | spawnedHttp => exact hbefore.elim
  | countedHttp count => cases count <;> exact hbefore.elim
  | joinSeen t' joined => rcases joined with _ | _ | _ <;> exact hbefore.elim
  | abandoned => exact hbefore
  | toldHttpFailed => exact hbefore
  | _ => trivial

/-- A task that is yet to be started does nothing. -/
def Process.Unborn (p : Process) : Prop := ∀ t, p.main.Before t → (p.task t).point = .unborn

theorem Calls.before {going : ReadinessPoint → MainPoint} {after : MainPoint}
    (h : Calls going after) {t : Transport} {point : ReadinessPoint}
    {next : Option ReadinessPoint} (hbefore : (next.elim after going).Before t) :
    (going point).Before t := by
  cases h with
  | mark t' => cases t' <;> cases next <;> exact hbefore
  | flip => cases next <;> exact hbefore.elim

/-- Nothing is done by a task that is yet to be started. -/
theorem Process.Unborn.change (h : p.Unborn)
    (hchange : p.Change descriptors prost codec config p') : p'.Unborn := by
  have hborn {t : Transport} {new : ServeTask} (hborn : (p.task t).point ≠ .unborn) :
      (p.withTask t new).Unborn := by
    intro t' hbefore
    have hne : t' ≠ t := fun heq => hborn (heq ▸ h t' hbefore)
    rw [task_withTask, if_neg hne]
    exact h t' hbefore
  cases hchange with
  | nothing => exact h
  | gateway event hgraceful => exact h
  | moves hmoves => exact fun t hbefore => h t (hmoves.before hbefore)
  | spawns t hmain hmoves =>
    intro t' hbefore
    have hne : t' ≠ t := by
      rintro rfl
      rw [hmain] at hmoves
      cases hmoves with
      | spawnedGrpc => cases hbefore
      | spawnedHttp => exact hbefore.elim
    have hsame : ((p.withTask t { p.task t with point := .serving }).task t').point =
        (p.task t').point := by
      rw [task_withTask, if_neg hne]
    exact hsame.trans (h t' (hmoves.before hbefore))
  | signals t hmoves =>
    intro t' hbefore
    have hsame : ((p.signal t).task t').point = (p.task t').point :=
      point_withTask (by rfl) t'
    exact hsame.trans (h t' (hmoves.before hbefore))
  | joins t hmoves =>
    intro t' hbefore
    have hsame : ((p.withTask t { p.task t with taken := true }).task t').point =
        (p.task t').point :=
      point_withTask (by rfl) t'
    exact hsame.trans (h t' (hmoves.before hbefore))
  | calls hcalls hmain => exact fun t hbefore => h t (hmain ▸ hcalls.before hbefore)
  | returned t serveResult hserving => exact hborn (by simp [hserving])
  | panicked t hserving => exact hborn (by simp [hserving])
  | noticed t hserving => exact hborn (by simp [hserving])
  | judged t hpoint => exact hborn (by simp [hpoint])
  | toldFailed t hpoint => exact hborn (by simp [hpoint])
  | flipped t hpoint => exact hborn (by simp [hpoint])

/-- The change of the readiness that a line tells. -/
def ProcessLine.readiness? : ProcessLine → Option ReadinessChanged
  | readinessChanged changed => some changed
  | _ => none

/-- The readiness, with what was told of it. -/
def Process.reported (p : Process) : Reported :=
  ⟨p.readiness, p.log.filterMap ProcessLine.readiness?⟩

theorem filterMap_changed (changed : Option ReadinessChanged) :
    (changed.toList.map ProcessLine.readinessChanged).filterMap ProcessLine.readiness? =
      changed.toList := by
  cases changed <;> rfl

/-- A step of a call of the main task is one on what is reported. -/
theorem Process.reported_call (point : ReadinessPoint) (going : ReadinessPoint → MainPoint)
    (after : MainPoint) : (p.call point going after).reported = (report point p.reported).2 := by
  simp only [reported, call, goOn, List.filterMap_append, filterMap_changed]
  rfl

/-- The main task tells nothing of the readiness on its own. -/
theorem Moves.readiness {main main' : MainPoint} {told : List ProcessLine}
    (h : Moves config p main main' told) : told.filterMap ProcessLine.readiness? = [] := by
  cases h with
  | toldVerdict outcome => cases outcome <;> rfl
  | _ => rfl

/-- The points of a flip. -/
def ReadinessPoint.OfFlip (f : Flip) : ReadinessPoint → Prop
  | fromReady f' | fromStarting f' => f' = f
  | tell changed => changed = f.changed
  | _ => False

/-- What a flip finds where nothing is promoted any more. -/
def ReadinessPoint.Finds (phase : ReadinessPhase) : ReadinessPoint → Prop
  | fromStarting _ => phase ≠ .ready
  | tell _ => phase.Final
  | _ => True

theorem ReadinessPhase.Final.ne_ready {phase : ReadinessPhase} (h : phase.Final) :
    phase ≠ ready := by
  rcases h with rfl | rfl <;> simp

/-- A flip needs to know nothing of the listeners. -/
theorem ReadinessPoint.OfFlip.knows {f : Flip} {point : ReadinessPoint} (h : point.OfFlip f)
    (reported : Reported) : point.Knows reported := by
  cases point with
  | fromReady f' | fromStarting f' => trivial
  | tell changed => exact fun heq => absurd (heq.symm.trans h) f.changed_ne
  | _ => exact h.elim

/-- A step of a flip leaves the phase, or leads to one after which nothing comes. -/
theorem ReadinessPoint.OfFlip.phase {f : Flip} {point : ReadinessPoint} (h : point.OfFlip f)
    {state : ReadinessState} (hinner : state.inner = state.current.asU8) :
    (point.advance state).2.1.current = state.current ∨
      (point.advance state).2.1.current.Final := by
  rcases point.advance_cases hinner with ⟨rfl, -⟩ | ⟨rfl, -⟩ | ⟨rfl, -⟩ |
    ⟨f', -, hstep⟩ | ⟨changed, -, hstep⟩ | ⟨next, hstep, -⟩
  · exact h.elim
  · exact h.elim
  · exact h.elim
  · rw [hstep, ReadinessState.current_withInner]
    exact .inr f'.final_phase
  · rw [hstep]
    exact .inl rfl
  · rw [hstep]
    exact .inl rfl

/-- It goes on as a flip, and where nothing is promoted it is over when it has found a phase after
which nothing comes. -/
theorem ReadinessPoint.OfFlip.own {f : Flip} {point : ReadinessPoint} (h : point.OfFlip f)
    {state : ReadinessState} (hinner : state.inner = state.current.asU8) :
    (∀ next, (point.advance state).1 = some next → next.OfFlip f ∧
        (point.Finds state.current → next.Finds (point.advance state).2.1.current)) ∧
      ((point.advance state).1 = none → point.Finds state.current →
        (point.advance state).2.1.current.Final) := by
  rcases point.advance_cases hinner with ⟨rfl, -⟩ | ⟨rfl, -⟩ | ⟨rfl, -⟩ |
    ⟨f', hfrom, hstep⟩ | ⟨changed, rfl, hstep⟩ | ⟨next, hstep, huntold, hready, hstarting, -⟩
  · exact h.elim
  · exact h.elim
  · exact h.elim
  · obtain rfl : f' = f := by rcases hfrom with ⟨rfl, -⟩ | ⟨rfl, -⟩ <;> exact h
    rw [hstep, ReadinessState.current_withInner]
    refine ⟨fun next hnext => ?_, nofun⟩
    obtain rfl := Option.some.inj hnext
    exact ⟨rfl, fun _ => f'.final_phase⟩
  · rw [hstep]
    exact ⟨nofun, fun _ => id⟩
  · rw [hstep]
    cases point with
    | fromReady f' =>
      obtain ⟨hnot, rfl⟩ := hready f' rfl
      refine ⟨fun next hnext => ?_, nofun⟩
      obtain rfl := Option.some.inj hnext
      exact ⟨h, fun _ => hnot⟩
    | fromStarting f' =>
      obtain ⟨hnot, rfl⟩ := hstarting f' rfl
      exact ⟨nofun, fun _ => (ReadinessPhase.ready_or_final hnot).resolve_left⟩
    | tell changed => simp [untold] at huntold
    | _ => exact h.elim

/-- What it finds is not undone by another flip. -/
theorem ReadinessPoint.Finds.of_phase {point : ReadinessPoint} {phase phase' : ReadinessPhase}
    (h : point.Finds phase) (hphase : phase' = phase ∨ phase'.Final) : point.Finds phase' := by
  rcases hphase with rfl | hfinal
  · exact h
  · cases point with
    | fromStarting f => exact hfinal.ne_ready
    | tell changed => exact hfinal
    | _ => trivial

/-- Notice of the shutdown was given on `/readyz`. -/
def MainPoint.Notified : MainPoint → Prop
  | countGrpc _ | countHttp _ _ | grace _ | closeGrpc _ | closeHttp _ => True
  | joinGrpc _ | joinHttp _ _ | tellVerdict _ | tellComplete _ | drained _ | panicked => True
  | _ => False

/-- What is known of the readiness at a point of the main task. -/
def MainPoint.Informed (reported : Reported) : MainPoint → Prop
  | marking _ point => point.Knows reported
  | flipping point => point.OfFlip .toDraining ∧ point.Finds reported.state.current
  | main => main.Notified → reported.state.current.Final

/-- What is reported is consistent, the main task goes by it, and a serving task only flips. -/
structure Process.Informed (p : Process) : Prop where
  consistent : p.reported.Consistent
  main : p.main.Informed p.reported
  flips : ∀ t point, (p.task t).point = .flipping point → point.OfFlip .toFailed

/-- A move relies on nothing but what was known before. -/
theorem Moves.informed {main main' : MainPoint} {told : List ProcessLine}
    (h : Moves config p main main' told) {reported : Reported} (hknown : main.Informed reported) :
    main'.Informed reported := by
  cases h with
  | toldBound t addr => cases t <;> trivial
  | toldInitiated trigger => exact ⟨rfl, trivial⟩
  | countedHttp count grpc => cases count <;> exact hknown
  | joinSeen t joined => rcases joined with _ | _ | _ <;> exact hknown
  | _ => exact hknown

/-- The flip of a serving task changes nothing that the main task goes by. -/
theorem MainPoint.Informed.flipped {main : MainPoint} {reported : Reported}
    (h : main.Informed reported) (hconsistent : reported.Consistent) {f : Flip}
    {point : ReadinessPoint} (hpoint : point.OfFlip f) :
    main.Informed (report point reported).2 := by
  have hphase : (report point reported).2.state.current = reported.state.current ∨
      (report point reported).2.state.current.Final :=
    hpoint.phase hconsistent.inner
  cases main with
  | marking t point' => exact h.report hconsistent point
  | flipping point' => exact ⟨h.1, h.2.of_phase hphase⟩
  | _ => exact fun hnotified => hphase.elim (fun hsame => hsame ▸ h hnotified) id

/-- So does a call of the main task itself. -/
theorem Calls.informed {going : ReadinessPoint → MainPoint} {after : MainPoint}
    (h : Calls going after) {point : ReadinessPoint} {reported : Reported}
    (hconsistent : reported.Consistent) (hknown : (going point).Informed reported) :
    (report point reported).2.Consistent ∧
      ((report point reported).1.elim after going).Informed (report point reported).2 := by
  cases h with
  | mark t =>
    refine ⟨hconsistent.report hknown, ?_⟩
    cases hnext : (report point reported).1 with
    | none => cases t <;> exact nofun
    | some next => exact readiness_proved.own point reported hconsistent hknown next hnext
  | flip =>
    obtain ⟨hgoing, hover⟩ := hknown.1.own hconsistent.inner
    refine ⟨hconsistent.report (hknown.1.knows reported), ?_⟩
    cases hnext : (report point reported).1 with
    | none => exact fun _ => hover hnext hknown.2
    | some next => exact (hgoing next hnext).imp id fun hfinds => hfinds hknown.2

theorem Process.Informed.of_same (h : p.Informed) (hreported : p'.reported = p.reported)
    (hmain : p'.main.Informed p.reported)
    (hflips : ∀ t point, (p'.task t).point = .flipping point → point.OfFlip .toFailed) :
    p'.Informed :=
  ⟨hreported ▸ h.consistent, hreported ▸ hmain, hflips⟩

/-- What is known of the readiness stays known. -/
theorem Process.Informed.change (h : p.Informed)
    (hchange : p.Change descriptors prost codec config p') : p'.Informed := by
  have hflips {t : Transport} {new : ServeTask}
      (hnew : ∀ point, new.point = .flipping point → point.OfFlip .toFailed) :
      ∀ t' point, ((p.withTask t new).task t').point = .flipping point →
        point.OfFlip .toFailed :=
    forall_withTask (P := fun _ task => ∀ point, task.point = .flipping point →
      point.OfFlip .toFailed) h.flips hnew
  have hsame {q : Process} {main : MainPoint} {told : List ProcessLine}
      (hmoves : Moves config p p.main main told) : (q.goOn main told).reported = q.reported := by
    simp only [reported, goOn, List.filterMap_append, hmoves.readiness, List.append_nil]
  cases hchange with
  | nothing => exact h
  | gateway event hgraceful => exact ⟨h.consistent, h.main, h.flips⟩
  | moves hmoves => exact h.of_same (hsame hmoves) (hmoves.informed h.main) h.flips
  | spawns t hmain hmoves =>
    exact h.of_same (hsame hmoves) (hmoves.informed h.main) (hflips nofun)
  | signals t hmoves =>
    exact h.of_same (hsame hmoves) (hmoves.informed h.main) (hflips (h.flips t))
  | joins t hmoves =>
    exact h.of_same (hsame hmoves) (hmoves.informed h.main) (hflips (h.flips t))
  | calls hcalls hmain =>
    obtain ⟨hconsistent, hmain'⟩ := hcalls.informed h.consistent (hmain ▸ h.main)
    exact ⟨reported_call _ _ _ ▸ hconsistent, reported_call _ _ _ ▸ hmain', h.flips⟩
  | returned t serveResult hserving => exact ⟨h.consistent, h.main, hflips nofun⟩
  | panicked t hserving => exact ⟨h.consistent, h.main, hflips nofun⟩
  | noticed t hserving => exact ⟨h.consistent, h.main, hflips (h.flips t)⟩
  | judged t hpoint =>
    exact ⟨h.consistent, h.main, hflips fun point => by dsimp only; split_ifs <;> exact nofun⟩
  | toldFailed t hpoint =>
    refine h.of_same ?_ h.main (hflips fun point hpoint => TaskPoint.flipping.inj hpoint ▸ rfl)
    simp [reported, withTask, ProcessLine.readiness?]
  | @flipped t point hpoint =>
    have hfails := h.flips t point hpoint
    have hreported (q : Process) (hreadiness : q.readiness = (point.advance p.readiness).2.1)
        (hlog : q.log = p.log ++
          (point.advance p.readiness).2.2.toList.map .readinessChanged) :
        q.reported = (report point p.reported).2 := by
      simp only [reported, hreadiness, hlog, List.filterMap_append, filterMap_changed]
      rfl
    refine ⟨?_, ?_, hflips fun next hnext => ?_⟩
    · rw [hreported _ rfl rfl]
      exact h.consistent.report (hfails.knows _)
    · rw [hreported _ rfl rfl]
      exact h.main.flipped h.consistent hfails
    · dsimp only at hnext
      cases hadvance : (point.advance p.readiness).1 with
      | none => simp [hadvance] at hnext
      | some next' =>
        obtain rfl : next' = next := by simpa [hadvance] using hnext
        exact ((hfails.own h.consistent.inner).1 next' hadvance).1

/-- The point is behind the line that tells of the failure. -/
def TaskPoint.HasFailed : TaskPoint → Prop
  | flipping _ | ended .failed => True
  | _ => False

/-- Each loop that failed was told to, and no other. -/
def Process.FailuresTold (p : Process) : Prop :=
  ∀ t, (∃ error, .serveLoopFailed t.listener error ∈ p.log) ↔ (p.task t).point.HasFailed

theorem Transport.listener_inj {t t' : Transport} (h : t.listener = t'.listener) : t = t' := by
  cases t <;> cases t' <;> first | rfl | exact absurd h (by decide)

/-- The line is one of the main task. -/
def ProcessLine.ofMain : ProcessLine → Bool
  | readinessChanged _ | serveLoopFailed _ _ => false
  | _ => true

theorem Moves.ofMain {main main' : MainPoint} {told : List ProcessLine}
    (h : Moves config p main main' told) : ∀ line ∈ told, line.ofMain = true := by
  cases h with
  | toldVerdict outcome => cases outcome <;> simp [DrainOutcome.verdict, ProcessLine.ofMain]
  | toldGrpcFailed reason => exact List.forall_mem_singleton.mpr rfl
  | toldHttpFailed reason => exact List.forall_mem_singleton.mpr rfl
  | _ => simp [ProcessLine.ofMain]

theorem filter_changed (changed : Option ReadinessChanged) :
    (changed.toList.map ProcessLine.readinessChanged).filter ProcessLine.ofMain = [] := by
  cases changed <;> rfl

/-- What tells of no failure and does not change which tasks have failed keeps the account. -/
theorem Process.FailuresTold.of_same (h : p.FailuresTold) {told : List ProcessLine}
    (hlog : p'.log = p.log ++ told) (htold : ∀ name error, .serveLoopFailed name error ∉ told)
    (htask : ∀ t, (p'.task t).point.HasFailed ↔ (p.task t).point.HasFailed) :
    p'.FailuresTold := by
  intro t
  rw [htask, ← h t, hlog]
  exact exists_congr fun error => by simp [htold]

theorem Process.FailuresTold.change (h : p.FailuresTold) (hunborn : p.Unborn)
    (hchange : p.Change descriptors prost codec config p') : p'.FailuresTold := by
  have htask {t : Transport} {new : ServeTask}
      (hnew : new.point.HasFailed ↔ (p.task t).point.HasFailed) (t' : Transport) :
      ((p.withTask t new).task t').point.HasFailed ↔ (p.task t').point.HasFailed := by
    rw [task_withTask]
    split_ifs with heq
    · rw [heq, hnew]
    · rfl
  have hmoved {main : MainPoint} {told : List ProcessLine}
      (hmoves : Moves config p p.main main told) (name error : String) :
      .serveLoopFailed name error ∉ told :=
    fun hmem => Bool.false_ne_true (hmoves.ofMain _ hmem)
  have hchanged (changed : Option ReadinessChanged) (name error : String) :
      .serveLoopFailed name error ∉ changed.toList.map ProcessLine.readinessChanged := by
    simp
  cases hchange with
  | nothing => exact h
  | gateway event hgraceful => exact h
  | moves hmoves => exact h.of_same rfl (hmoved hmoves) fun _ => Iff.rfl
  | spawns t hmain hmoves =>
    refine h.of_same rfl (hmoved hmoves) (htask ?_)
    rw [hunborn t (hmain ▸ MainPoint.before_spawning t)]
    exact Iff.rfl
  | signals t hmoves => exact h.of_same rfl (hmoved hmoves) (htask Iff.rfl)
  | joins t hmoves => exact h.of_same rfl (hmoved hmoves) (htask Iff.rfl)
  | calls hcalls hmain => exact h.of_same rfl (hchanged _) fun _ => Iff.rfl
  | returned t serveResult hserving | panicked t hserving =>
    refine h.of_same (List.append_nil _).symm (by simp) (htask ?_)
    rw [hserving]
    exact Iff.rfl
  | noticed t hserving => exact h.of_same (List.append_nil _).symm (by simp) (htask Iff.rfl)
  | judged t hpoint =>
    refine h.of_same (List.append_nil _).symm (by simp) (htask ?_)
    rw [hpoint]
    split_ifs <;> exact Iff.rfl
  | @toldFailed t error hpoint =>
    intro t'
    change (∃ error', _ ∈ p.log ++ [_]) ↔ ((p.withTask t _).task t').point.HasFailed
    rw [task_withTask]
    split_ifs with heq
    · subst heq
      exact iff_of_true ⟨error, List.mem_append_right _ (List.mem_singleton_self _)⟩ trivial
    · rw [← h t']
      refine exists_congr fun error' => ?_
      rw [List.mem_append, or_iff_left]
      intro hmem
      obtain ⟨hname, -⟩ := ProcessLine.serveLoopFailed.inj (List.mem_singleton.mp hmem)
      exact heq (Transport.listener_inj hname)
  | flipped t hpoint =>
    refine h.of_same rfl (hchanged _) (htask ?_)
    rw [hpoint]
    cases (ReadinessPoint.advance _ _).1 <;> exact Iff.rfl

/-- What the main task has told on the way to a point. -/
def MainPoint.story (config : Config) (grpc http : SocketAddr) (trigger : ShutdownTrigger)
    (main : MainPoint) : List ProcessLine :=
  let grpcBound := [ProcessLine.listenerBound Transport.grpc.listener grpc]
  let bothBound := grpcBound ++ [.listenerBound Transport.httpProtobuf.listener http]
  let started := bothBound ++ [.ready]
  let initiated := started ++ [.shutdownInitiated trigger.asStr config.drainDeadline]
  match main with
  | bind .grpc | tellBound .grpc _ | tellBindFailed .grpc _ => []
  | refused .grpc reason => [bindFailed config .grpc reason]
  | marking .grpc _ | spawning .grpc | bind .httpProtobuf | tellBound .httpProtobuf _ => grpcBound
  | tellBindFailed .httpProtobuf _ => grpcBound
  | abandon reason | refused .httpProtobuf reason =>
    grpcBound ++ [bindFailed config .httpProtobuf reason]
  | marking .httpProtobuf _ | spawning .httpProtobuf | tellReady => bothBound
  | waiting | tellInitiated _ | windDownGrpc | windDownHttp | woundDown => started
  | tellComplete outcome => initiated ++ outcome.verdict
  | drained outcome =>
    initiated ++ outcome.verdict ++ [.shutdownComplete outcome.exitCode.toUInt64]
  | _ => initiated

/-- The main task has told what it tells on the way to its point, for some addresses and one
trigger. -/
def Process.Storied (config : Config) (p : Process) : Prop :=
  ∃ grpc http trigger, p.log.filter ProcessLine.ofMain = p.main.story config grpc http trigger

/-- The story goes on. -/
theorem Moves.story {main main' : MainPoint} {told : List ProcessLine}
    (h : Moves config p main main' told) (grpc http : SocketAddr) (trigger : ShutdownTrigger) :
    ∃ grpc' http' trigger', main.story config grpc http trigger ++ told =
      main'.story config grpc' http' trigger' := by
  cases h with
  | bound t addr | bindFailed t reason => cases t <;> exact ⟨grpc, http, trigger, rfl⟩
  | toldBound t addr =>
    cases t
    · exact ⟨addr, http, trigger, rfl⟩
    · exact ⟨grpc, addr, trigger, rfl⟩
  | toldInitiated trigger' => exact ⟨grpc, http, trigger', rfl⟩
  | countedHttp count => cases count <;> exact ⟨grpc, http, trigger, rfl⟩
  | joinSeen t joined => rcases joined with _ | _ | _ <;> exact ⟨grpc, http, trigger, rfl⟩
  | toldVerdict outcome => exact ⟨grpc, http, trigger, rfl⟩
  | _ => exact ⟨grpc, http, trigger, by simp [MainPoint.story]⟩

theorem Calls.story {going : ReadinessPoint → MainPoint} {after : MainPoint}
    (h : Calls going after) {point : ReadinessPoint} {next : Option ReadinessPoint}
    (grpc http : SocketAddr) (trigger : ShutdownTrigger) :
    (next.elim after going).story config grpc http trigger =
      (going point).story config grpc http trigger := by
  cases h with
  | mark t => cases t <;> cases next <;> rfl
  | flip => cases next <;> rfl

theorem Process.Storied.change (h : p.Storied config)
    (hchange : p.Change descriptors prost codec config p') : p'.Storied config := by
  obtain ⟨grpc, http, trigger, hstory⟩ := h
  have hmoved {q : Process} (hlog : q.log = p.log) {main : MainPoint} {told : List ProcessLine}
      (hmoves : Moves config p p.main main told) : (q.goOn main told).Storied config := by
    obtain ⟨grpc', http', trigger', hgoes⟩ := hmoves.story grpc http trigger
    refine ⟨grpc', http', trigger', ?_⟩
    change (q.log ++ told).filter ProcessLine.ofMain = _
    rw [List.filter_append, List.filter_eq_self.mpr hmoves.ofMain, hlog, hstory, hgoes]
    rfl
  cases hchange with
  | moves hmoves => exact hmoved rfl hmoves
  | spawns t hmain hmoves => exact hmoved rfl hmoves
  | signals t hmoves => exact hmoved rfl hmoves
  | joins t hmoves => exact hmoved rfl hmoves
  | calls hcalls hmain =>
    refine ⟨grpc, http, trigger, ?_⟩
    change (p.log ++ _).filter ProcessLine.ofMain = _
    rw [List.filter_append, filter_changed, List.append_nil, hstory, hmain]
    exact (hcalls.story grpc http trigger).symm
  | toldFailed t hpoint =>
    refine ⟨grpc, http, trigger, ?_⟩
    rw [List.filter_append]
    exact (List.append_nil _).trans hstory
  | flipped t hpoint =>
    refine ⟨grpc, http, trigger, ?_⟩
    rw [List.filter_append, filter_changed, List.append_nil]
    exact hstory
  | _ => exact ⟨grpc, http, trigger, hstory⟩

/-- What a verdict, or the end of the process, says of the tasks. -/
def MainPoint.Warranted (task : Transport → ServeTask) : MainPoint → Prop
  | joinHttp _ grpc => ∃ joined, (task .grpc).point.joined? = some joined ∧
      grpc = joined.getD .graceful
  | tellVerdict (.clean _) | tellComplete (.clean _) | drained (.clean _) =>
    ∀ t, (task t).point = .ended .graceful ∨ (task t).point = .panicked
  | tellVerdict .serveFailed | tellComplete .serveFailed | drained .serveFailed
  | windDownGrpc | windDownHttp | woundDown => ∃ t, (task t).point = .ended .failed
  | _ => True

theorem TaskPoint.joined?_eq_some {point : TaskPoint} {joined : Option ServeOutcome}
    (h : point.joined? = some joined) :
    (joined.getD .graceful = .graceful ∧ (point = .ended .graceful ∨ point = .panicked)) ∨
      (joined = some .failed ∧ point = .ended .failed) := by
  cases point with
  | ended outcome =>
    obtain rfl := Option.some.inj h
    cases outcome
    · exact .inl ⟨rfl, .inl rfl⟩
    · exact .inr ⟨rfl, rfl⟩
  | panicked =>
    obtain rfl := Option.some.inj h
    exact .inl ⟨rfl, .inr rfl⟩
  | _ => cases h

/-- A task that is over stays where it is. -/
theorem Process.Change.joined (hchange : p.Change descriptors prost codec config p')
    (hunborn : p.Unborn) {t : Transport} {joined : Option ServeOutcome}
    (h : (p.task t).point.joined? = some joined) : (p'.task t).point = (p.task t).point := by
  have hother {t' : Transport} {new : ServeTask} (hnone : (p.task t').point.joined? = none) :
      ((p.withTask t' new).task t).point = (p.task t).point := by
    have hne : t ≠ t' := by
      rintro rfl
      rw [hnone] at h
      cases h
    rw [task_withTask, if_neg hne]
  cases hchange with
  | spawns t' hmain hmoves =>
    exact hother (by rw [hunborn t' (hmain ▸ MainPoint.before_spawning t')]; rfl)
  | signals t' hmoves | joins t' hmoves => exact point_withTask (by rfl) t
  | returned t' serveResult hserving | panicked t' hserving => exact hother (by rw [hserving]; rfl)
  | noticed t' hserving => exact point_withTask (by rfl) t
  | judged t' hpoint | toldFailed t' hpoint | flipped t' hpoint =>
    exact hother (by rw [hpoint]; rfl)
  | _ => rfl

/-- What is said of tasks that are over stays true. -/
theorem MainPoint.Warranted.mono {task task' : Transport → ServeTask} {main : MainPoint}
    (h : main.Warranted task)
    (hkept : ∀ t joined, (task t).point.joined? = some joined →
      (task' t).point = (task t).point) : main.Warranted task' := by
  have hclean (hall : ∀ t, (task t).point = .ended .graceful ∨ (task t).point = .panicked) (t) :
      (task' t).point = .ended .graceful ∨ (task' t).point = .panicked := by
    rcases hall t with hended | hpanicked
    · exact .inl ((hkept t _ (by rw [hended]; rfl)).trans hended)
    · exact .inr ((hkept t _ (by rw [hpanicked]; rfl)).trans hpanicked)
  have hfailed : (∃ t, (task t).point = .ended .failed) → ∃ t, (task' t).point = .ended .failed :=
    Exists.imp fun t hended => (hkept t _ (by rw [hended]; rfl)).trans hended
  cases main with
  | joinHttp n grpc =>
    obtain ⟨joined, hjoined, hgrpc⟩ := h
    exact ⟨joined, (congrArg TaskPoint.joined? (hkept _ _ hjoined)).trans hjoined, hgrpc⟩
  | tellVerdict outcome | tellComplete outcome | drained outcome =>
    cases outcome with
    | clean n => exact hclean h
    | deadlineExceeded n => trivial
    | serveFailed => exact hfailed h
  | windDownGrpc | windDownHttp | woundDown => exact hfailed h
  | _ => trivial

/-- What the handles resolve to warrants the verdict. -/
theorem warranted_drainVerdict {task : Transport → ServeTask} {n : UInt32}
    {grpc http : Option ServeOutcome} (hgrpc : (task .grpc).point.joined? = some grpc)
    (hhttp : (task .httpProtobuf).point.joined? = some http) :
    (MainPoint.tellVerdict
      (drainVerdict n (grpc.getD .graceful) (http.getD .graceful))).Warranted task := by
  rcases TaskPoint.joined?_eq_some hgrpc with ⟨hnot, hover⟩ | ⟨rfl, hended⟩
  · rcases TaskPoint.joined?_eq_some hhttp with ⟨hnot', hover'⟩ | ⟨rfl, hended⟩
    · rw [hnot, hnot']
      exact fun t => by cases t <;> assumption
    · rw [hnot]
      exact ⟨.httpProtobuf, hended⟩
  · exact ⟨.grpc, hended⟩

theorem Moves.warranted {main main' : MainPoint} {told : List ProcessLine}
    (h : Moves config p main main' told) (hwarranted : main.Warranted p.task) :
    main'.Warranted p.task := by
  cases h with
  | joinSeen t joined hjoined =>
    rcases TaskPoint.joined?_eq_some hjoined with ⟨hnot, -⟩ | ⟨rfl, hended⟩
    · rcases joined with _ | _ | _
      · trivial
      · trivial
      · cases hnot
    · exact ⟨t, hended⟩
  | joinedGrpc n joined hjoined => exact ⟨joined, hjoined, rfl⟩
  | joinedHttp n grpc joined hjoined =>
    obtain ⟨joined', hjoined', rfl⟩ := hwarranted
    exact warranted_drainVerdict hjoined' hjoined
  | countedHttp count => cases count <;> trivial
  | toldVerdict outcome | toldComplete outcome => cases outcome <;> exact hwarranted
  | woundDownGrpc | woundDownHttp => exact hwarranted
  | _ => trivial

theorem Calls.warranted {going : ReadinessPoint → MainPoint} {after : MainPoint}
    (h : Calls going after) (next : Option ReadinessPoint) (task : Transport → ServeTask) :
    (next.elim after going).Warranted task := by
  cases h <;> cases next <;> trivial

/-- What an event does to the point of the main task. -/
theorem Process.Change.main_cases (hchange : p.Change descriptors prost codec config p') :
    p'.main = p.main ∨ (∃ told, Moves config p p.main p'.main told) ∨
      ∃ going after next, Calls going after ∧ p'.main = Option.elim next after going := by
  cases hchange with
  | moves hmoves => exact .inr (.inl ⟨_, hmoves⟩)
  | spawns t hmain hmoves => exact .inr (.inl ⟨_, hmoves⟩)
  | signals t hmoves => exact .inr (.inl ⟨_, hmoves⟩)
  | joins t hmoves => exact .inr (.inl ⟨_, hmoves⟩)
  | calls hcalls hmain => exact .inr (.inr ⟨_, _, _, hcalls, rfl⟩)
  | _ => exact .inl rfl

/-- A verdict stays warranted. -/
theorem Process.Change.warranted (hchange : p.Change descriptors prost codec config p')
    (hunborn : p.Unborn) (h : p.main.Warranted p.task) : p'.main.Warranted p'.task := by
  have hkept (t) (joined) (hjoined : (p.task t).point.joined? = some joined) :
      (p'.task t).point = (p.task t).point :=
    hchange.joined hunborn hjoined
  rcases hchange.main_cases with hsame | ⟨told, hmoves⟩ | ⟨going, after, next, hcalls, hnext⟩
  · exact hsame ▸ h.mono hkept
  · exact (hmoves.warranted h).mono hkept
  · exact hnext ▸ hcalls.warranted next p'.task

/-- What is known of a process. -/
structure Process.Sound (descriptors : Descriptors Inner) (prost : Prost Inner) (config : Config)
    (p : Process) : Prop where
  accounted : p.Accounted descriptors prost config
  unborn : p.Unborn
  informed : p.Informed
  failuresTold : p.FailuresTold
  story : p.Storied config
  warranted : p.main.Warranted p.task

/-- The step theorem. -/
theorem Process.Sound.change (h : p.Sound descriptors prost config)
    (hchange : p.Change descriptors prost codec config p') : p'.Sound descriptors prost config where
  accounted := h.accounted.change hchange
  unborn := h.unborn.change hchange
  informed := h.informed.change hchange
  failuresTold := h.failuresTold.change h.unborn hchange
  story := h.story.change hchange
  warranted := hchange.warranted h.unborn h.warranted

theorem Process.sound_new : (new config).Sound descriptors prost config where
  accounted := ⟨accounted_spawn, fun t => by cases t <;> rfl, fun _ =>
    ⟨fun h => absurd h.1 Bool.false_ne_true, nofun⟩⟩
  unborn _ _ := rfl
  informed := ⟨⟨rfl, nofun, nofun⟩, nofun, nofun⟩
  failuresTold _ := iff_of_false (by simp [new]) id
  story := ⟨config.grpcBindAddr, config.httpBindAddr, .sigterm, rfl⟩
  warranted := trivial

/-- The run theorem. -/
theorem sound_processAfter {events : List (ProcessEvent Resource)}
    (h : AllSteps (Process.step descriptors prost codec config) Graceful (.new config) events) :
    (processAfter descriptors prost codec config events).Sound descriptors prost config :=
  h.invariant (fun _ _ hp hgraceful => hp.change (Process.change_step hgraceful))
    Process.sound_new

theorem MainPoint.Informed.final {main : MainPoint} {reported : Reported}
    (h : main.Informed reported) (hnotified : main.Notified) : reported.state.current.Final := by
  cases main with
  | marking | flipping => exact hnotified.elim
  | _ => exact h hnotified

/-- The exit code of the process, when the main task is over. -/
def MainPoint.exitCode? : MainPoint → Option UInt8
  | drained outcome => some outcome.exitCode
  | woundDown => some DrainOutcome.serveFailed.exitCode
  | refused _ _ => some 1
  | _ => none

/-- With exit code 0 the drain was clean. -/
theorem MainPoint.exists_clean {main : MainPoint} (h : main.exitCode? = some 0) :
    ∃ n, main = drained (.clean n) := by
  cases main with
  | drained outcome =>
    cases outcome with
    | clean n => exact ⟨n, rfl⟩
    | _ => simp [exitCode?, DrainOutcome.exitCode] at h
  | _ => simp [exitCode?, DrainOutcome.exitCode] at h

/-- With exit code 1 the deadline passed, or a listener was not bound. -/
theorem MainPoint.exceeded_or_refused {main : MainPoint} (h : main.exitCode? = some 1) :
    (∃ n, main = drained (.deadlineExceeded n)) ∨ ∃ t reason, main = refused t reason := by
  cases main with
  | drained outcome =>
    cases outcome with
    | deadlineExceeded n => exact .inl ⟨n, rfl⟩
    | _ => simp [exitCode?, DrainOutcome.exitCode] at h
  | refused t reason => exact .inr ⟨t, reason, rfl⟩
  | _ => simp [exitCode?, DrainOutcome.exitCode] at h

/-- With exit code 3 a loop failed, in a drain or while the process was waiting. -/
theorem MainPoint.serveFailed_or_woundDown {main : MainPoint} (h : main.exitCode? = some 3) :
    main = drained .serveFailed ∨ main = woundDown := by
  cases main with
  | drained outcome =>
    cases outcome with
    | serveFailed => exact .inl rfl
    | _ => simp [exitCode?, DrainOutcome.exitCode] at h
  | woundDown => exact .inr rfl
  | _ => simp [exitCode?] at h

/-- A line of the story was told. -/
theorem Process.Sound.mem_log (h : p.Sound descriptors prost config) {line : ProcessLine}
    (hline : ∀ grpc http trigger, line ∈ p.main.story config grpc http trigger) :
    line ∈ p.log := by
  obtain ⟨grpc, http, trigger, hstory⟩ := h.story
  exact List.mem_of_mem_filter (hstory ▸ hline grpc http trigger)

/-- Only a task that panicked leaves requests behind, of those that ended without a failure. -/
theorem Process.Sound.count_eq_zero (h : p.Sound descriptors prost config) {t : Transport}
    (hended : (p.task t).point = .ended .graceful) : p.gateway.count t = 0 :=
  (h.accounted.task t).1 ⟨(h.accounted.task t).2 hended, by rw [hended]; rfl⟩

/-- All along, `/readyz` is answered with 200 only with both listeners bound, and no more once
notice of the shutdown was given; the main task tells its story, and each serving loop that failed
tells so. The exit code is 0 only if no loop failed, and no request is left but of one that
panicked. It is 3 only if one failed, and 1 only past the deadline or without a listener. -/
theorem exitCode_processAfter {events : List (ProcessEvent Resource)}
    (h : AllSteps (Process.step descriptors prost codec config) Graceful (.new config) events) :
    let p := processAfter descriptors prost codec config events
    (handleReadyz p.readiness = (200, "ready\n") →
      p.readiness.grpcBound = true ∧ p.readiness.httpBound = true ∧ ¬ p.main.Notified) ∧
    (∃ grpc http trigger,
      p.log.filter ProcessLine.ofMain = p.main.story config grpc http trigger) ∧
    (∀ t, (∃ error, .serveLoopFailed (Transport.listener t) error ∈ p.log) ↔
      (p.task t).point.HasFailed) ∧
    (p.main.exitCode? = some 0 →
      (∀ t error, .serveLoopFailed (Transport.listener t) error ∉ p.log) ∧
      ∀ entry ∈ p.gateway.inProgress, (p.task entry.2.transport).point = .panicked) ∧
    (p.main.exitCode? = some 3 →
      ∃ t error, .serveLoopFailed (Transport.listener t) error ∈ p.log) ∧
    (p.main.exitCode? = some 1 → (∃ n, .drainDeadlineExceeded n ∈ p.log) ∨
      ∃ t reason, bindFailed config t reason ∈ p.log) := by
  intro p
  have hsound : p.Sound descriptors prost config := sound_processAfter h
  have hwarranted := hsound.warranted
  refine ⟨fun hprobe => ?_, hsound.story, hsound.failuresTold, fun hcode => ?_, fun hcode => ?_,
    fun hcode => ?_⟩
  · have hready : p.readiness.current = .ready := by
      rw [handleReadyz] at hprobe
      cases hphase : p.readiness.current <;> simp [hphase] at hprobe ⊢
    obtain ⟨hgrpc, hhttp⟩ := hsound.informed.consistent.ready hready
    exact ⟨hgrpc, hhttp, fun hnotified => (hsound.informed.main.final hnotified).ne_ready hready⟩
  · obtain ⟨n, hmain⟩ := MainPoint.exists_clean hcode
    rw [hmain] at hwarranted
    refine ⟨fun t error hline => ?_, fun entry hentry => ?_⟩
    · have hfailed := (hsound.failuresTold t).mp ⟨error, hline⟩
      rcases hwarranted t with hended | hpanicked
      · rw [hended] at hfailed
        exact hfailed
      · rw [hpanicked] at hfailed
        exact hfailed
    · refine (hwarranted entry.2.transport).resolve_left fun hended => ?_
      have hcount := List.countP_eq_zero.mp (hsound.count_eq_zero hended) entry hentry
      exact hcount (decide_eq_true rfl)
  · have hfailed : ∃ t, (p.task t).point = .ended .failed := by
      rcases MainPoint.serveFailed_or_woundDown hcode with hmain | hmain <;>
        rw [hmain] at hwarranted <;> exact hwarranted
    obtain ⟨t, hended⟩ := hfailed
    exact ⟨t, (hsound.failuresTold t).mpr (by rw [hended]; trivial)⟩
  · rcases MainPoint.exceeded_or_refused hcode with ⟨n, hmain⟩ | ⟨t, reason, hmain⟩
    · refine .inl ⟨n.toUInt64, hsound.mem_log fun grpc http trigger => ?_⟩
      rw [hmain]
      simp [MainPoint.story, DrainOutcome.verdict]
    · refine .inr ⟨t, reason, hsound.mem_log fun grpc http trigger => ?_⟩
      rw [hmain]
      cases t <;> simp [MainPoint.story]

/-- The main task takes some steps. -/
def mainSteps (n : Nat) : List (ProcessEvent (WireResource v1)) :=
  List.replicate n (.main .next)

/-- Both listeners are bound, and a call and a post are in progress when a signal comes. The call is
answered between the loads of the two limiters. -/
def signalledInBetween : List (ProcessEvent (WireResource v1)) :=
  .main (.bound ⟨"127.0.0.1", 4317⟩) :: mainSteps 5 ++
    .main (.bound ⟨"127.0.0.1", 4318⟩) :: mainSteps 8 ++
    [.gateway (.arrive 0 emptyLogCall), .gateway (.arrive 1 ⟨.httpProtobuf, .logs, none, true, []⟩),
      .main (.signal .sigterm)] ++
    mainSteps 4 ++ .gateway (.finish 0 fun _ => .ok ()) :: mainSteps 4

/-- The gRPC loop returns, and the task of the other listener panics with the post in progress. -/
def drainedBesidesPanic : List (ProcessEvent (WireResource v1)) :=
  [.noticed .grpc, .serveReturned .grpc (.ok ()), .resolve .grpc, .servePanicked .httpProtobuf] ++
    mainSteps 4

/-- The gRPC loop fails before the other listener is bound, which is between the two exchanges of
its flip. -/
def failedAtStartup : List (ProcessEvent (WireResource v1)) :=
  .main (.bound ⟨"127.0.0.1", 4317⟩) :: mainSteps 5 ++
    [.serveReturned .grpc (.error "accept failed"), .resolve .grpc, .resolve .grpc,
      .resolve .grpc] ++
    .main (.bound ⟨"127.0.0.1", 4318⟩) :: mainSteps 6 ++ .resolve .grpc :: mainSteps 2 ++
    .main (.joined .grpc) :: mainSteps 2

theorem graceful_drainedBesidesPanic :
    AllSteps (Process.step v1 plainProst (wireCodec v1) (documentConfig 2)) Graceful
      (.new (documentConfig 2)) (signalledInBetween ++ drainedBesidesPanic) := by
  decide +kernel

theorem graceful_failedAtStartup :
    AllSteps (Process.step v1 plainProst (wireCodec v1) (documentConfig 2)) Graceful
      (.new (documentConfig 2)) failedAtStartup := by
  decide +kernel

theorem main_drainedBesidesPanic :
    (processAfter v1 plainProst (wireCodec v1) (documentConfig 2)
      (signalledInBetween ++ drainedBesidesPanic)).main = .drained (.clean 2) := by
  decide +kernel

/-- After the panic the exit code is 0, and the post is left. With the loop that failed at startup
it is 3, and `/readyz` is answered with 200 to the end. -/
theorem exitCodes_drained_failedAtStartup :
    let drained := processAfter v1 plainProst (wireCodec v1) (documentConfig 2)
      (signalledInBetween ++ drainedBesidesPanic)
    let failed := processAfter v1 plainProst (wireCodec v1) (documentConfig 2) failedAtStartup
    ((∀ t error, .serveLoopFailed (Transport.listener t) error ∉ drained.log) ∧
      drained.gateway.count .httpProtobuf = 1) ∧
    (∃ t error, .serveLoopFailed (Transport.listener t) error ∈ failed.log) ∧
      handleReadyz failed.readiness = (200, "ready\n") :=
  have hdrained := exitCode_processAfter graceful_drainedBesidesPanic
  have hfailed := exitCode_processAfter graceful_failedAtStartup
  ⟨⟨(hdrained.2.2.2.1 (congrArg _ main_drainedBesidesPanic)).1, by decide +kernel⟩,
    hfailed.2.2.2.2.1 (by decide +kernel), by decide +kernel⟩

/-- A limiter counts the requests in progress on its transport. -/
theorem Process.Accounted.inFlight_eq (h : p.Accounted descriptors prost config)
    (t : Transport) : (p.gateway.limiter t).inFlight.toNat = p.gateway.count t := by
  have hpermits := h.gateway.permits t
  have hcap := h.cap t
  have hlt : config.maxConcurrentRequests.toNat < UInt32.size := UInt32.toNat_lt _
  rw [ConcurrencyLimiter.inFlight, hcap, UInt32.toNat_ofNat_of_lt' (by omega),
    UInt32.toNat_ofNat_of_lt' (by omega)]
  omega

theorem toNat_sumInFlight (grpc http : UInt32) :
    (sumInFlight grpc http).toNat = min (grpc.toNat + http.toNat) (2 ^ 32 - 1) :=
  UInt32.toNat_ofNat_of_lt' (Nat.lt_of_le_of_lt (Nat.min_le_right _ _) (by decide))

end

section

variable {Inner : Type} (descriptors : Descriptors Inner) (prost : Prost Inner)
  {Resource : SignalType → Type} (codec : Codec Resource) (config : Config)

/-- A number is that of the requests in progress on gRPC at one moment of a run and those on HTTP
at a later one, the moments of a count. -/
def Counted (count : Count) (events : List (ProcessEvent Resource)) (n : UInt32) : Prop :=
  ∃ early late, early <+: late ∧ late <+: events ∧
    (processAfter descriptors prost codec config early).main = .countGrpc count ∧
    (∃ grpc, (processAfter descriptors prost codec config late).main = .countHttp count grpc) ∧
    n.toNat = min ((processAfter descriptors prost codec config early).gateway.count .grpc +
      (processAfter descriptors prost codec config late).gateway.count .httpProtobuf) (2 ^ 32 - 1)

/-- The main task waits for a task to be over. -/
def MainPoint.Awaits (t : Transport) : MainPoint → Prop
  | joinGrpc _ => t = .grpc
  | joinHttp _ _ => t = .httpProtobuf
  | _ => False

/-- In some step of a run the drain waits no longer for a task that is not over. -/
def Expired (events : List (ProcessEvent Resource)) : Prop :=
  ∃ early event t, early ++ [event] <+: events ∧
    (processAfter descriptors prost codec config early).main.Awaits t ∧
    ((processAfter descriptors prost codec config early).task t).point.joined? = none ∧
    (processAfter descriptors prost codec config (early ++ [event])).main = .countGrpc .dropped

/-- A verdict is right. A clean one has counted before the listeners were told to close, and the
tasks are over, with no request left but of one that panicked. One past the deadline has counted
when a task that the drain waited for was not over. A failure was told. -/
def DrainOutcome.Right (events : List (ProcessEvent Resource)) : DrainOutcome → Prop
  | clean n =>
    let p := processAfter descriptors prost codec config events
    Counted descriptors prost codec config .initial events n ∧
      ∀ t, (p.task t).point = .ended .graceful ∧ p.gateway.count t = 0 ∨
        (p.task t).point = .panicked
  | deadlineExceeded n =>
    Counted descriptors prost codec config .dropped events n ∧
      Expired descriptors prost codec config events
  | serveFailed =>
    let p := processAfter descriptors prost codec config events
    ∃ t error, (p.task t).point = .ended .failed ∧ .serveLoopFailed t.listener error ∈ p.log

/-- What the main task has counted on the way to a point. -/
def MainPoint.Traced (events : List (ProcessEvent Resource)) : MainPoint → Prop
  | countGrpc count => count = .dropped → Expired descriptors prost codec config events
  | countHttp count grpc =>
    (count = .dropped → Expired descriptors prost codec config events) ∧
      ∃ early, early <+: events ∧
        (processAfter descriptors prost codec config early).main = .countGrpc count ∧
        grpc.toNat = (processAfter descriptors prost codec config early).gateway.count .grpc
  | grace n | closeGrpc n | closeHttp n | joinGrpc n | joinHttp n _
  | tellVerdict (.clean n) | tellComplete (.clean n) | drained (.clean n) =>
    Counted descriptors prost codec config .initial events n
  | tellVerdict (.deadlineExceeded n) | tellComplete (.deadlineExceeded n)
  | drained (.deadlineExceeded n) =>
    Counted descriptors prost codec config .dropped events n ∧
      Expired descriptors prost codec config events
  | _ => True

end

section

variable {Inner : Type} {descriptors : Descriptors Inner} {prost : Prost Inner}
  {Resource : SignalType → Type} {codec : Codec Resource} {config : Config}
  {events later : List (ProcessEvent Resource)}

theorem Counted.mono {count : Count} {n : UInt32}
    (h : Counted descriptors prost codec config count events n) (hlater : events <+: later) :
    Counted descriptors prost codec config count later n := by
  obtain ⟨early, late, hearly, hlate, hcounted⟩ := h
  exact ⟨early, late, hearly, hlate.trans hlater, hcounted⟩

theorem Expired.mono (h : Expired descriptors prost codec config events)
    (hlater : events <+: later) : Expired descriptors prost codec config later := by
  obtain ⟨early, event, t, hearly, hexpired⟩ := h
  exact ⟨early, event, t, hearly.trans hlater, hexpired⟩

/-- What was counted stays so. -/
theorem MainPoint.Traced.mono {main : MainPoint}
    (h : main.Traced descriptors prost codec config events) (hlater : events <+: later) :
    main.Traced descriptors prost codec config later := by
  cases main with
  | countGrpc count => exact fun hdropped => (h hdropped).mono hlater
  | countHttp count grpc =>
    obtain ⟨hexpired, early, hearly, hcounted⟩ := h
    exact ⟨fun hdropped => (hexpired hdropped).mono hlater, early, hearly.trans hlater, hcounted⟩
  | grace n | closeGrpc n | closeHttp n | joinGrpc n | joinHttp n => exact Counted.mono h hlater
  | tellVerdict outcome | tellComplete outcome | drained outcome =>
    cases outcome with
    | clean n => exact Counted.mono h hlater
    | deadlineExceeded n => exact ⟨h.1.mono hlater, h.2.mono hlater⟩
    | serveFailed => trivial
  | _ => trivial

/-- A move counts what is in progress, or goes by what was counted. -/
theorem Moves.traced {main main' : MainPoint} {told : List ProcessLine}
    {event : ProcessEvent Resource}
    (h : Moves config (processAfter descriptors prost codec config events) main main' told)
    (hmain : (processAfter descriptors prost codec config events).main = main)
    (hmain' : (processAfter descriptors prost codec config (events ++ [event])).main = main')
    (haccounted : (processAfter descriptors prost codec config events).Accounted descriptors prost
      config)
    (htraced : main.Traced descriptors prost codec config events) :
    main'.Traced descriptors prost codec config (events ++ [event]) := by
  have hlater : events <+: events ++ [event] := List.prefix_append events [event]
  have hkept := htraced.mono hlater
  cases h with
  | countedGrpc count => exact ⟨hkept, events, hlater, hmain, haccounted.inFlight_eq .grpc⟩
  | countedHttp count grpc =>
    obtain ⟨hexpired, -⟩ := hkept
    obtain ⟨-, early, hearly, hcounting, hgrpc⟩ := htraced
    have hcounted : Counted descriptors prost codec config count (events ++ [event])
        (sumInFlight grpc
          (processAfter descriptors prost codec config events).gateway.httpLimiter.inFlight) := by
      refine ⟨early, events, hearly, hlater, hcounting, ⟨grpc, hmain⟩, ?_⟩
      rw [toNat_sumInFlight, hgrpc]
      exact congrArg (fun http => min (_ + http) _) (haccounted.inFlight_eq .httpProtobuf)
    cases count with
    | initial => exact hcounted
    | dropped => exact ⟨hcounted, hexpired rfl⟩
  | joinSeen t joined => rcases joined with _ | _ | _ <;> trivial
  | joinedHttp n grpc joined =>
    rw [drainVerdict]
    split_ifs
    · trivial
    · exact hkept
  | expiredGrpc n hnone =>
    exact fun _ => ⟨events, event, .grpc, List.prefix_rfl, by rw [hmain]; rfl, hnone, hmain'⟩
  | expiredHttp n grpc hnone =>
    exact fun _ =>
      ⟨events, event, .httpProtobuf, List.prefix_rfl, by rw [hmain]; rfl, hnone, hmain'⟩
  | toldVerdict outcome | toldComplete outcome => cases outcome <;> exact hkept
  | waited | closedGrpc | closedHttp | joinedGrpc => exact hkept
  | _ => trivial

theorem Calls.traced {going : ReadinessPoint → MainPoint} {after : MainPoint}
    (h : Calls going after) (next : Option ReadinessPoint) :
    (next.elim after going).Traced descriptors prost codec config events := by
  cases h with
  | mark t => cases next <;> trivial
  | flip =>
    cases next with
    | none => exact nofun
    | some next => trivial

theorem processAfter_concat (events : List (ProcessEvent Resource))
    (event : ProcessEvent Resource) :
    processAfter descriptors prost codec config (events ++ [event]) =
      (processAfter descriptors prost codec config events).step descriptors prost codec config
        event :=
  run_append (Process.step descriptors prost codec config) (.new config) events [event]

/-- The main task goes by what was counted, after every run. -/
theorem traced_processAfter
    (h : AllSteps (Process.step descriptors prost codec config) Graceful (.new config) events) :
    (processAfter descriptors prost codec config events).main.Traced descriptors prost codec config
      events := by
  induction events using List.reverseRecOn with
  | nil => trivial
  | append_singleton events event ih =>
    obtain ⟨hevents, hevent, -⟩ := allSteps_append.mp h
    have hsound := sound_processAfter hevents
    have htraced := ih hevents
    have hchange : (processAfter descriptors prost codec config events).Change descriptors prost
        codec config (processAfter descriptors prost codec config (events ++ [event])) := by
      rw [processAfter_concat]
      exact Process.change_step hevent
    rcases hchange.main_cases with hsame | ⟨told, hmoves⟩ | ⟨going, after, next, hcalls, hnext⟩
    · exact hsame ▸ htraced.mono (List.prefix_append events [event])
    · exact hmoves.traced rfl rfl hsound.accounted htraced
    · exact hnext ▸ hcalls.traced next

end

/-- The verdict of the drain, once there is one. -/
def MainPoint.verdict? : MainPoint → Option DrainOutcome
  | tellVerdict outcome | tellComplete outcome | drained outcome => some outcome
  | _ => none

theorem MainPoint.verdict_cases {main : MainPoint} {outcome : DrainOutcome}
    (h : main.verdict? = some outcome) :
    main = tellVerdict outcome ∨ main = tellComplete outcome ∨ main = drained outcome := by
  cases main with
  | tellVerdict | tellComplete | drained =>
    obtain rfl := Option.some.inj h
    simp
  | _ => cases h

/-- Whatever the order in which the main task, the serving tasks and the requests go on, the
verdict of the drain is right. -/
theorem drain_verdict {Inner : Type} {descriptors : Descriptors Inner} {prost : Prost Inner}
    {Resource : SignalType → Type} {codec : Codec Resource} {config : Config}
    {events : List (ProcessEvent Resource)}
    (h : AllSteps (Process.step descriptors prost codec config) Graceful (.new config) events)
    {outcome : DrainOutcome}
    (hverdict : (processAfter descriptors prost codec config events).main.verdict? =
      some outcome) :
    outcome.Right descriptors prost codec config events := by
  have hsound := sound_processAfter h
  have htraced := traced_processAfter h
  have hwarranted := hsound.warranted
  cases outcome with
  | clean n =>
    have hends : Counted descriptors prost codec config .initial events n ∧
        ∀ t, ((processAfter descriptors prost codec config events).task t).point =
            .ended .graceful ∨
          ((processAfter descriptors prost codec config events).task t).point = .panicked := by
      rcases MainPoint.verdict_cases hverdict with hmain | hmain | hmain <;>
        rw [hmain] at htraced hwarranted <;> exact ⟨htraced, hwarranted⟩
    exact ⟨hends.1, fun t => (hends.2 t).imp_left fun hended =>
      ⟨hended, hsound.count_eq_zero hended⟩⟩
  | deadlineExceeded n =>
    rcases MainPoint.verdict_cases hverdict with hmain | hmain | hmain <;>
      rw [hmain] at htraced <;> exact htraced
  | serveFailed =>
    have hfailed : ∃ t, ((processAfter descriptors prost codec config events).task t).point =
        .ended .failed := by
      rcases MainPoint.verdict_cases hverdict with hmain | hmain | hmain <;>
        rw [hmain] at hwarranted <;> exact hwarranted
    obtain ⟨t, hended⟩ := hfailed
    obtain ⟨error, htold⟩ := (hsound.failuresTold t).mpr (by rw [hended]; trivial)
    exact ⟨t, error, hended, htold⟩

/-- Neither loop returns before the deadline. -/
def expiredDrain : List (ProcessEvent (WireResource v1)) :=
  .noticed .grpc :: .main .deadline :: mainSteps 4

theorem graceful_expiredDrain :
    AllSteps (Process.step v1 plainProst (wireCodec v1) (documentConfig 2)) Graceful
      (.new (documentConfig 2)) (signalledInBetween ++ expiredDrain) := by
  decide +kernel

theorem main_expiredDrain :
    (processAfter v1 plainProst (wireCodec v1) (documentConfig 2)
      (signalledInBetween ++ expiredDrain)).main = .drained (.deadlineExceeded 1) := by
  decide +kernel

/-- The call that was answered in between is counted, and no more past the deadline. -/
theorem verdicts_signalledInBetween :
    (DrainOutcome.clean 2).Right v1 plainProst (wireCodec v1) (documentConfig 2)
      (signalledInBetween ++ drainedBesidesPanic) ∧
    (DrainOutcome.deadlineExceeded 1).Right v1 plainProst (wireCodec v1) (documentConfig 2)
      (signalledInBetween ++ expiredDrain) :=
  ⟨drain_verdict graceful_drainedBesidesPanic (congrArg _ main_drainedBesidesPanic),
    drain_verdict graceful_expiredDrain (congrArg _ main_expiredDrain)⟩

end Kaleidoscope.Aperture
