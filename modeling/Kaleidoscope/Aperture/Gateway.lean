import Kaleidoscope.Aperture.CapExact
import Kaleidoscope.Aperture.Config
import Kaleidoscope.Aperture.Transports
import Kaleidoscope.Library.Run

/-!
# The running gateway

Each transport has a limiter of its own. A request that gets no permit is refused at once, and a
permit is held until the response is sent or the caller is gone. A call takes its permit once its
message is decoded, a post before its body is read.
-/

namespace Kaleidoscope.Aperture

open Aegis Otlp Protobuf Utf8

/-- `ConcurrencyLimiter`, with the permits that its semaphore has left. -/
structure ConcurrencyLimiter where
  permits : Nat
  cap : UInt32
  transport : Transport

/-- The event `concurrency_cap_hit`. -/
structure ConcurrencyCapHit where
  transport : String
  cap : Nat
  inFlightAtRefusal : Nat
  deriving DecidableEq, Repr

namespace ConcurrencyLimiter

/-- `ConcurrencyLimiter::new`. -/
def new (cap : UInt32) (transport : Transport) : ConcurrencyLimiter := ⟨cap.toNat, cap, transport⟩

/-- `try_acquire`. -/
def tryAcquire (limiter : ConcurrencyLimiter) : Except ConcurrencyCapHit ConcurrencyLimiter :=
  if 0 < limiter.permits then .ok { limiter with permits := limiter.permits - 1 }
  else .error ⟨limiter.transport.asStr, limiter.cap.toNat, limiter.cap.toNat⟩

/-- A permit is dropped. -/
def release (limiter : ConcurrencyLimiter) : ConcurrencyLimiter :=
  { limiter with permits := limiter.permits + 1 }

end ConcurrencyLimiter

/-- `refusal_message`. -/
def refusalMessage (transport : Transport) (cap : UInt32) : String :=
  let name := match transport with
    | .grpc => "gRPC"
    | .httpProtobuf => "HTTP"
  s!"aperture: {name} concurrency cap of {cap.toNat} reached on transport={transport.asStr}"

/-- A request: the tenant that its token authenticates, if any, whether its content type is that
of protobuf, and the body of a post or the message of a call. -/
structure Request where
  transport : Transport
  signal : SignalType
  tenant : Option TenantId
  protobuf : Bool
  body : Bytes
  deriving DecidableEq

/-- The answer to a request. -/
inductive Answer where
  | atCapacity (message : String)
  | unauthorized
  | unsupportedMediaType
  | posted (response : HttpResponse)
  | called (response : GrpcResponse)
  deriving DecidableEq

/-- The request is accepted. -/
def Answer.Accepted (answer : Answer) : Prop := answer = .posted .ok ∨ answer = .called .ok

/-- The request is refused for its size. -/
def Answer.TooLarge (answer : Answer) : Prop :=
  answer = .posted .payloadTooLarge ∨ answer = .called .resourceExhausted

/-- The listeners, with the requests that hold a permit. -/
structure Gateway where
  recvBodyCap : Option UInt32
  grpcLimiter : ConcurrencyLimiter
  httpLimiter : ConcurrencyLimiter
  inProgress : List (Nat × Request)

/-- What `spawn` gives the listeners. -/
def spawn (config : Config) : Gateway where
  recvBodyCap := config.maxRecvMsgSize
  grpcLimiter := .new config.maxConcurrentRequests .grpc
  httpLimiter := .new config.maxConcurrentRequests .httpProtobuf
  inProgress := []

namespace Gateway

/-- The limiter of a transport. -/
def limiter (g : Gateway) : Transport → ConcurrencyLimiter
  | .grpc => g.grpcLimiter
  | .httpProtobuf => g.httpLimiter

/-- Another state of that limiter. -/
def withLimiter (g : Gateway) (transport : Transport) (limiter : ConcurrencyLimiter) : Gateway :=
  match transport with
  | .grpc => { g with grpcLimiter := limiter }
  | .httpProtobuf => { g with httpLimiter := limiter }

/-- The number of requests in progress on a transport. -/
def count (g : Gateway) (transport : Transport) : Nat :=
  g.inProgress.countP fun entry => entry.2.transport = transport

/-- A request takes the permit that a limiter gave. -/
def enter (g : Gateway) (entry : Nat × Request) (limiter : ConcurrencyLimiter) : Gateway :=
  { g.withLimiter entry.2.transport limiter with inProgress := entry :: g.inProgress }

/-- A request drops its permit. -/
def leave (g : Gateway) (entry : Nat × Request) : Gateway :=
  { g.withLimiter entry.2.transport (g.limiter entry.2.transport).release with
    inProgress := g.inProgress.erase entry }

@[simp] theorem recvBodyCap_withLimiter (g : Gateway) (t : Transport)
    (limiter : ConcurrencyLimiter) : (g.withLimiter t limiter).recvBodyCap = g.recvBodyCap := by
  cases t <;> rfl

theorem limiter_withLimiter (g : Gateway) (t t' : Transport) (limiter : ConcurrencyLimiter) :
    (g.withLimiter t limiter).limiter t' = if t = t' then limiter else g.limiter t' := by
  cases t <;> cases t' <;> rfl

theorem limiter_enter (g : Gateway) (entry : Nat × Request) (limiter : ConcurrencyLimiter)
    (t : Transport) : (g.enter entry limiter).limiter t =
      if entry.2.transport = t then limiter else g.limiter t := by
  rw [← limiter_withLimiter]
  cases t <;> rfl

theorem limiter_leave (g : Gateway) (entry : Nat × Request) (t : Transport) :
    (g.leave entry).limiter t =
      if entry.2.transport = t then (g.limiter t).release else g.limiter t := by
  have hleave : (g.leave entry).limiter t = (g.withLimiter entry.2.transport
      (g.limiter entry.2.transport).release).limiter t := by
    cases t <;> rfl
  rw [hleave, limiter_withLimiter]
  split_ifs with h
  · rw [h]
  · rfl

theorem count_enter (g : Gateway) (entry : Nat × Request) (limiter : ConcurrencyLimiter)
    (t : Transport) : (g.enter entry limiter).count t =
      g.count t + if entry.2.transport = t then 1 else 0 := by
  simp [count, enter, List.countP_cons]

theorem count_leave {g : Gateway} {entry : Nat × Request} (h : entry ∈ g.inProgress)
    (t : Transport) :
    (g.leave entry).count t + (if entry.2.transport = t then 1 else 0) = g.count t := by
  have hperm := (List.perm_cons_erase h).countP_eq fun e => decide (e.2.transport = t)
  rw [List.countP_cons] at hperm
  simp only [decide_eq_true_eq] at hperm
  exact hperm.symm

end Gateway

/-- What happens to a gateway. -/
inductive GatewayEvent (Resource : SignalType → Type) where
  | arrive (id : Nat) (request : Request)
  | finish (id : Nat) (sink : OtlpSink Resource)
  | abandon (id : Nat)

section

variable {Inner : Type} (descriptors : Descriptors Inner) (prost : Prost Inner)
  {Resource : SignalType → Type} (codec : Codec Resource)

/-- What a call is told before the service sees it: its message is too long, or no request. -/
def beforeService (recvBodyCap : Option UInt32) (request : Request) : Option Answer :=
  match request.transport with
  | .httpProtobuf => none
  | .grpc =>
    if grpcLimit recvBodyCap < request.body.length then some (.called .resourceExhausted)
    else
      match decodeMessage descriptors prost (.request request.signal) request.body with
      | .ok _ => none
      | .error err => some (.called (.internal err))

/-- The response to a request that has its permit. -/
def respond (recvBodyCap : Option UInt32) (sink : OtlpSink Resource) (request : Request) :
    Answer :=
  match request.tenant with
  | none => .unauthorized
  | some tenant =>
    match request.transport with
    | .grpc =>
      .called (call descriptors prost codec request.signal recvBodyCap sink tenant request.body).1
    | .httpProtobuf =>
      if request.protobuf then
        .posted
          (handle descriptors prost codec request.signal recvBodyCap sink tenant request.body).1
      else .unsupportedMediaType

/-- An event, with the answer that is sent. -/
def perform (g : Gateway) : GatewayEvent Resource → Option (Request × Answer) × Gateway
  | .arrive id request =>
    match beforeService descriptors prost g.recvBodyCap request with
    | some answer => (some (request, answer), g)
    | none =>
      match (g.limiter request.transport).tryAcquire with
      | .ok limiter => (none, g.enter (id, request) limiter)
      | .error _ =>
        let message := refusalMessage request.transport (g.limiter request.transport).cap
        (some (request, .atCapacity message), g)
  | .finish id sink =>
    match g.inProgress.find? fun entry => entry.1 = id with
    | some entry =>
      (some (entry.2, respond descriptors prost codec g.recvBodyCap sink entry.2), g.leave entry)
    | none => (none, g)
  | .abandon id =>
    match g.inProgress.find? fun entry => entry.1 = id with
    | some entry => (none, g.leave entry)
    | none => (none, g)

/-- The gateway after a series of events. -/
def after (config : Config) (events : List (GatewayEvent Resource)) : Gateway :=
  Run.run (fun g event => (perform descriptors prost codec g event).2) (spawn config) events

/-- Whatever happens, longer bodies are not accepted, and no other is refused for its size. -/
def SizeLimited (config : Config) (limit : Transport → Nat) : Prop :=
  ∀ (events : List (GatewayEvent Resource)) event request answer,
    (perform descriptors prost codec (after descriptors prost codec config events) event).1 =
        some (request, answer) →
      (limit request.transport < request.body.length → ¬ answer.Accepted) ∧
        (request.body.length ≤ limit request.transport → ¬ answer.TooLarge)

/-- Whatever happens, no more requests are in progress on a transport, one that finds so many is
refused, and no other is told so. -/
def ConcurrencyLimited (config : Config) (cap : Nat) : Prop :=
  ∀ (events : List (GatewayEvent Resource)) transport,
    let g := after descriptors prost codec config events
    g.count transport ≤ cap ∧ ∀ id request, request.transport = transport →
      (g.count transport = cap → ∃ answer, ¬ answer.Accepted ∧
        (perform descriptors prost codec g (.arrive id request)).1 = some (request, answer)) ∧
      (g.count transport < cap → ∀ message,
        (perform descriptors prost codec g (.arrive id request)).1 ≠
          some (request, .atCapacity message))

/-- The limits where none is set: that of axum's extractors, and that of tonic. -/
def defaultLimit : Transport → Nat
  | .grpc => 4 * 1024 * 1024
  | .httpProtobuf => 2 * 1024 * 1024

/-- The gateway enforces what an arm sets, on both transports, and the defaults of the rest. -/
structure Enforces (arm : TransportArm) (config : Config) : Prop where
  size : ∀ n, arm.maxRecvMsgSize = some n → 0 < n →
    SizeLimited descriptors prost codec config fun _ => n.toNat
  defaultSize : arm.maxRecvMsgSize = none →
    SizeLimited descriptors prost codec config defaultLimit
  concurrency : ∀ c, arm.maxConcurrentRequests = some c →
    ConcurrencyLimited descriptors prost codec config c.toNat
  defaultConcurrency : arm.maxConcurrentRequests = none →
    ConcurrencyLimited descriptors prost codec config 1024

/-- Bodies are not limited by the arm, or no request is taken up and none is refused for a size
within the limit. -/
def LimitKept (arm : TransportArm) : Prop :=
  ∀ n, arm.maxRecvMsgSize = some n → 0 < n →
    arm.maxConcurrentRequests = some 0 ∧ n.toNat ≤ defaultLimit .grpc

/-- Every permit is with the semaphore or with a request in progress, each of which reached its
service. -/
structure Gateway.Accounted (config : Config) (g : Gateway) : Prop where
  recvBodyCap : g.recvBodyCap = config.maxRecvMsgSize
  permits : ∀ t, (g.limiter t).permits + g.count t = config.maxConcurrentRequests.toNat
  reached : ∀ entry ∈ g.inProgress,
    beforeService descriptors prost g.recvBodyCap entry.2 = none

section

variable {descriptors prost codec} {config : Config} {g : Gateway}

theorem accounted_spawn : (spawn config).Accounted descriptors prost config where
  recvBodyCap := rfl
  permits t := by cases t <;> rfl
  reached _ h := absurd h List.not_mem_nil

/-- A request that gets a permit is accounted for. -/
theorem Gateway.Accounted.enter (h : g.Accounted descriptors prost config)
    {entry : Nat × Request} {limiter : ConcurrencyLimiter}
    (hreached : beforeService descriptors prost g.recvBodyCap entry.2 = none)
    (hacquired : (g.limiter entry.2.transport).tryAcquire = .ok limiter) :
    (g.enter entry limiter).Accounted descriptors prost config := by
  have hcap : (g.enter entry limiter).recvBodyCap = g.recvBodyCap :=
    g.recvBodyCap_withLimiter _ _
  refine ⟨hcap.trans h.recvBodyCap, fun t => ?_, ?_⟩
  · have hpermits := h.permits t
    rw [ConcurrencyLimiter.tryAcquire] at hacquired
    split_ifs at hacquired with hpos
    rw [Gateway.limiter_enter, Gateway.count_enter, ← Except.ok.inj hacquired]
    split_ifs with ht
    · subst ht
      change (g.limiter _).permits - 1 + _ = _
      omega
    · exact hpermits
  · rw [hcap]
    exact List.forall_mem_cons.mpr ⟨hreached, h.reached⟩

/-- So is one that leaves. -/
theorem Gateway.Accounted.leave (h : g.Accounted descriptors prost config)
    {entry : Nat × Request} (hentry : entry ∈ g.inProgress) :
    (g.leave entry).Accounted descriptors prost config := by
  have hcap : (g.leave entry).recvBodyCap = g.recvBodyCap := g.recvBodyCap_withLimiter _ _
  refine ⟨hcap.trans h.recvBodyCap, fun t => ?_, fun e he => ?_⟩
  · have hpermits := h.permits t
    have hcount := Gateway.count_leave hentry t
    rw [Gateway.limiter_leave]
    split_ifs at hcount ⊢ with ht
    · change (g.limiter t).permits + 1 + _ = _
      omega
    · omega
  · rw [hcap]
    exact h.reached e (List.mem_of_mem_erase he)

/-- The step theorem: every event keeps the account. -/
theorem Gateway.Accounted.perform (h : g.Accounted descriptors prost config)
    (event : GatewayEvent Resource) :
    (perform descriptors prost codec g event).2.Accounted descriptors prost config := by
  cases event with
  | arrive id request =>
    rw [Aperture.perform]
    cases hbefore : beforeService descriptors prost g.recvBodyCap request with
    | some answer => exact h
    | none =>
      cases hacquired : (g.limiter request.transport).tryAcquire with
      | error hit => exact h
      | ok limiter =>
        have hentered : (g.enter (id, request) limiter).Accounted descriptors prost config :=
          h.enter hbefore hacquired
        exact hentered
  | finish id sink =>
    rw [Aperture.perform]
    cases hfind : g.inProgress.find? fun entry => entry.1 = id with
    | none => exact h
    | some entry => exact h.leave (List.mem_of_find?_eq_some hfind)
  | abandon id =>
    rw [Aperture.perform]
    cases hfind : g.inProgress.find? fun entry => entry.1 = id with
    | none => exact h
    | some entry => exact h.leave (List.mem_of_find?_eq_some hfind)

/-- So a whole run does. -/
theorem accounted_after (events : List (GatewayEvent Resource)) :
    (after descriptors prost codec config events).Accounted descriptors prost config :=
  (Run.allSteps_of_forall (fun _ _ => trivial) (spawn config) events).invariant
    (fun _ event h _ => h.perform event) accounted_spawn

/-- Before the service a call is not accepted, and refused for its size if its message is longer
than tonic decodes. -/
theorem beforeService_eq_some {cap : Option UInt32} {request : Request} {answer : Answer}
    (h : beforeService descriptors prost cap request = some answer) :
    ¬ answer.Accepted ∧
      (answer.TooLarge → request.transport = .grpc ∧ grpcLimit cap < request.body.length) := by
  rw [beforeService] at h
  cases htransport : request.transport with
  | httpProtobuf => simp [htransport] at h
  | grpc =>
    simp only [htransport] at h
    split_ifs at h with hlong
    · obtain rfl := Option.some.inj h
      exact ⟨by simp [Answer.Accepted], fun _ => ⟨rfl, hlong⟩⟩
    · split at h
      · cases h
      · obtain rfl := Option.some.inj h
        exact ⟨by simp [Answer.Accepted], by simp [Answer.TooLarge]⟩

theorem beforeService_ne_atCapacity {cap : Option UInt32} {request : Request}
    {message : String} :
    beforeService descriptors prost cap request ≠ some (.atCapacity message) := by
  rw [beforeService]
  split
  · simp
  · split_ifs
    · simp
    · split <;> simp

/-- Without a cap the ingest path refuses nothing for its size. -/
theorem ingest_ne_bodyTooLarge (signal : SignalType) (body : Bytes) (transport : Transport)
    (tenant : TenantId) (sink : OtlpSink Resource) :
    (ingest descriptors prost codec signal body transport tenant none sink).1 ≠ .bodyTooLarge := by
  rw [ingest]
  cases hguard : secondaryBodySizeGuard body none with
  | some outcome => simp [secondaryBodySizeGuard, exceeds, activeCap] at hguard
  | none =>
    dsimp only
    split
    · split <;> simp
    · simp

theorem httpResponse_eq_payloadTooLarge {outcome : IngestOutcome} :
    httpResponse outcome = .payloadTooLarge ↔ outcome = .bodyTooLarge := by
  cases outcome <;> simp [httpResponse]

theorem grpcResponse_eq_resourceExhausted {outcome : IngestOutcome} :
    grpcResponse outcome = .resourceExhausted ↔ outcome = .bodyTooLarge := by
  cases outcome <;> simp [grpcResponse]

/-- Without a cap, a post is refused for its size exactly if it is longer than axum reads. -/
theorem handle_tooLarge_iff {signal : SignalType} {sink : OtlpSink Resource} {tenant : TenantId}
    {body : Bytes} : (handle descriptors prost codec signal none sink tenant body).1 =
      .payloadTooLarge ↔ defaultLimit .httpProtobuf < body.length := by
  rw [handle]
  split_ifs with hlong
  · exact iff_of_true rfl hlong
  · rw [Prod.map_fst, httpResponse_eq_payloadTooLarge]
    exact iff_of_false (ingest_ne_bodyTooLarge _ _ _ _ _) hlong

/-- Without a cap, a call is refused for its size exactly if its message is longer than tonic
decodes. -/
theorem call_tooLarge_iff {signal : SignalType} {sink : OtlpSink Resource} {tenant : TenantId}
    {message : Bytes} : (call descriptors prost codec signal none sink tenant message).1 =
      .resourceExhausted ↔ defaultLimit .grpc < message.length := by
  rw [call]
  split_ifs with hlong
  · exact iff_of_true rfl hlong
  · refine iff_of_false ?_ hlong
    cases decodeMessage descriptors prost (.request signal) message with
    | error err => simp
    | ok fields =>
      dsimp only
      rw [exportRequest, Prod.map_fst, grpcResponse_eq_resourceExhausted]
      exact ingest_ne_bodyTooLarge _ _ _ _ _

/-- Without a cap, a response accepts no body that is longer than the limit of its transport, and
refuses none for its size that is within it. -/
theorem respond_limited (sink : OtlpSink Resource) (request : Request) :
    (defaultLimit request.transport < request.body.length →
        ¬ (respond descriptors prost codec none sink request).Accepted) ∧
      (request.body.length ≤ defaultLimit request.transport →
        ¬ (respond descriptors prost codec none sink request).TooLarge) := by
  rw [respond]
  cases request.tenant with
  | none => simp [Answer.Accepted, Answer.TooLarge]
  | some tenant =>
    cases request.transport with
    | httpProtobuf =>
      cases request.protobuf with
      | false => simp [Answer.Accepted, Answer.TooLarge]
      | true =>
        refine ⟨fun hlong => ?_, fun hle => ?_⟩
        · simp [Answer.Accepted, handle_tooLarge_iff.mpr hlong]
        · simp [Answer.TooLarge, handle_tooLarge_iff, hle]
    | grpc =>
      refine ⟨fun hlong => ?_, fun hle => ?_⟩
      · simp [Answer.Accepted, call_tooLarge_iff.mpr hlong]
      · simp [Answer.TooLarge, call_tooLarge_iff, hle]

theorem perform_arrive_of_some {id : Nat} {request : Request} {answer : Answer}
    (h : beforeService descriptors prost g.recvBodyCap request = some answer) :
    perform descriptors prost codec g (.arrive id request) = (some (request, answer), g) := by
  rw [perform, h]

theorem perform_arrive_of_none {id : Nat} {request : Request}
    (h : beforeService descriptors prost g.recvBodyCap request = none) :
    perform descriptors prost codec g (.arrive id request) =
      match (g.limiter request.transport).tryAcquire with
      | .ok limiter => (none, g.enter (id, request) limiter)
      | .error _ => (some (request, .atCapacity
          (refusalMessage request.transport (g.limiter request.transport).cap)), g) := by
  rw [perform, h]

/-- Every answer is given before the service, for want of a permit, or by the service. -/
theorem perform_cases {event : GatewayEvent Resource} {request : Request} {answer : Answer}
    (h : (perform descriptors prost codec g event).1 = some (request, answer)) :
    beforeService descriptors prost g.recvBodyCap request = some answer ∨
      (∃ message, answer = .atCapacity message) ∨
        ∃ id sink, (id, request) ∈ g.inProgress ∧
          answer = respond descriptors prost codec g.recvBodyCap sink request := by
  cases event with
  | arrive id arrived =>
    cases hbefore : beforeService descriptors prost g.recvBodyCap arrived with
    | some early =>
      rw [perform_arrive_of_some hbefore, Option.some.injEq, Prod.mk.injEq] at h
      obtain ⟨rfl, rfl⟩ := h
      exact .inl hbefore
    | none =>
      rw [perform_arrive_of_none hbefore] at h
      cases hacquired : (g.limiter arrived.transport).tryAcquire with
      | ok limiter => simp [hacquired] at h
      | error hit =>
        simp only [hacquired, Option.some.injEq, Prod.mk.injEq] at h
        exact .inr (.inl ⟨_, h.2.symm⟩)
  | finish id sink =>
    rw [perform] at h
    cases hfind : g.inProgress.find? fun entry => entry.1 = id with
    | none => simp [hfind] at h
    | some entry =>
      simp only [hfind, Option.some.injEq, Prod.mk.injEq] at h
      obtain ⟨rfl, rfl⟩ := h
      exact .inr (.inr ⟨entry.1, sink, List.mem_of_find?_eq_some hfind, rfl⟩)
  | abandon id =>
    rw [perform] at h
    split at h <;> cases h

/-- Without a cap the defaults are in force. -/
theorem sizeLimited_default (hcap : config.maxRecvMsgSize = none) :
    SizeLimited descriptors prost codec config defaultLimit := by
  intro events event request answer hanswer
  have haccounted : (after descriptors prost codec config events).Accounted descriptors prost
      config := accounted_after events
  have hnone := haccounted.recvBodyCap.trans hcap
  rcases perform_cases hanswer with hbefore | ⟨message, rfl⟩ | ⟨id, sink, -, rfl⟩
  · obtain ⟨haccepted, hlong⟩ := beforeService_eq_some hbefore
    refine ⟨fun _ => haccepted, fun hle htooLarge => ?_⟩
    obtain ⟨htransport, hlt⟩ := hlong htooLarge
    rw [htransport] at hle
    rw [hnone] at hlt
    exact hlt.not_ge hle
  · simp [Answer.Accepted, Answer.TooLarge]
  · rw [hnone]
    exact respond_limited sink request

/-- The cap of the configuration is that of both limiters. -/
theorem concurrencyLimited :
    ConcurrencyLimited descriptors prost codec config config.maxConcurrentRequests.toNat := by
  intro events transport
  have haccounted : (after descriptors prost codec config events).Accounted descriptors prost
      config := accounted_after events
  have hpermits := haccounted.permits transport
  refine ⟨by omega, fun id request htransport => ?_⟩
  subst htransport
  cases hbefore : beforeService descriptors prost
    (after descriptors prost codec config events).recvBodyCap request with
  | some answer =>
    obtain ⟨haccepted, -⟩ := beforeService_eq_some hbefore
    rw [perform_arrive_of_some hbefore]
    refine ⟨fun _ => ⟨answer, haccepted, rfl⟩, fun _ message he => ?_⟩
    obtain rfl : answer = .atCapacity message := by simpa using he
    exact beforeService_ne_atCapacity hbefore
  | none =>
    rw [perform_arrive_of_none hbefore, ConcurrencyLimiter.tryAcquire]
    split_ifs with hpos
    · exact ⟨fun hfull => by omega, fun _ message => by simp⟩
    · exact ⟨fun _ => ⟨_, by simp [Answer.Accepted], rfl⟩, fun hfree => by omega⟩

/-- Where no request is taken up, no limit is passed that tonic's own does not exceed. -/
theorem sizeLimited_of_no_permits (hcap : config.maxRecvMsgSize = none)
    (hpermits : config.maxConcurrentRequests = 0) {n : Nat} (hn : n ≤ defaultLimit .grpc) :
    SizeLimited descriptors prost codec config fun _ => n := by
  intro events event request answer hanswer
  have haccounted : (after descriptors prost codec config events).Accounted descriptors prost
      config := accounted_after events
  have hnone := haccounted.recvBodyCap.trans hcap
  rcases perform_cases hanswer with hbefore | ⟨message, rfl⟩ | ⟨id, sink, hentry, -⟩
  · obtain ⟨haccepted, hlong⟩ := beforeService_eq_some hbefore
    refine ⟨fun _ => haccepted, fun hle htooLarge => ?_⟩
    have hlt := (hlong htooLarge).2
    rw [hnone] at hlt
    exact hlt.not_ge (hle.trans hn)
  · simp [Answer.Accepted, Answer.TooLarge]
  · have hcount := haccounted.permits request.transport
    rw [hpermits] at hcount
    have hpos : 0 < (after descriptors prost codec config events).count request.transport :=
      List.countP_pos_iff.mpr ⟨(id, request), hentry, by simp⟩
    exact absurd hcount (by simp only [UInt32.toNat_zero]; omega)

/-- A call whose message tonic does not decode for its length. -/
def longCall (length : Nat) : Request :=
  ⟨.grpc, .logs, some ⟨"acme"⟩, true, List.replicate length 0⟩

/-- No limit above tonic's own is in force. -/
theorem not_sizeLimited_of_grpc (hcap : config.maxRecvMsgSize = none) {n : Nat}
    (hn : defaultLimit .grpc < n) :
    ¬ SizeLimited descriptors prost codec config fun _ => n := by
  intro h
  have hlong : grpcLimit none < (longCall n).body.length := by
    simpa [longCall, grpcLimit, activeCap, defaultLimit] using hn
  have hanswer : (perform descriptors prost codec
      (after descriptors prost codec config []) (.arrive 0 (longCall n))).1 =
        some (longCall n, .called .resourceExhausted) := by
    have hbefore : beforeService descriptors prost config.maxRecvMsgSize (longCall n) =
        some (.called .resourceExhausted) := by
      rw [hcap, beforeService]
      exact if_pos hlong
    exact congrArg Prod.fst (perform_arrive_of_some (g := spawn config) hbefore)
  exact (h [] _ _ _ hanswer).2 (by simp [longCall]) (.inr rfl)

variable (codec) in
/-- With a permit to spare, what a service answers shows. -/
theorem perform_finish_arrived (hpermits : 0 < config.maxConcurrentRequests) {request : Request}
    (hbefore : beforeService descriptors prost config.maxRecvMsgSize request = none)
    (sink : OtlpSink Resource) :
    (perform descriptors prost codec
        (after descriptors prost codec config [.arrive 0 request]) (.finish 0 sink)).1 =
      some (request, respond descriptors prost codec config.maxRecvMsgSize sink request) := by
  have hacquired : ((spawn config).limiter request.transport).tryAcquire =
      .ok ⟨config.maxConcurrentRequests.toNat - 1, config.maxConcurrentRequests,
        request.transport⟩ := by
    have hpos : 0 < config.maxConcurrentRequests.toNat := UInt32.lt_iff_toNat_lt.mp hpermits
    cases request.transport <;> exact if_pos hpos
  rw [after, Run.run_cons, Run.run_nil, perform_arrive_of_none (g := spawn config) hbefore,
    hacquired, perform]
  have hcap (limiter : ConcurrencyLimiter) :
      ((spawn config).enter (0, request) limiter).recvBodyCap = config.maxRecvMsgSize :=
    (spawn config).recvBodyCap_withLimiter _ _
  simp only [hcap]
  rfl

/-- A post whose body axum does not read for its length. -/
def longPost (length : Nat) : Request :=
  ⟨.httpProtobuf, .logs, some ⟨"acme"⟩, true, List.replicate length 0⟩

/-- No limit above axum's own is in force, if a request is taken up. -/
theorem not_sizeLimited_of_http (hcap : config.maxRecvMsgSize = none)
    (hpermits : 0 < config.maxConcurrentRequests) {n : Nat}
    (hn : defaultLimit .httpProtobuf < n) :
    ¬ SizeLimited descriptors prost codec config fun _ => n := by
  intro h
  have hbefore : beforeService descriptors prost config.maxRecvMsgSize (longPost n) = none := rfl
  have hanswer := perform_finish_arrived codec hpermits hbefore fun _ => .ok ()
  rw [hcap] at hanswer
  refine (h _ _ _ _ hanswer).2 (by simp [longPost]) (.inl ?_)
  exact congrArg Answer.posted (handle_tooLarge_iff.mpr (by simpa [longPost] using hn))

/-- The fields of a message of so many resources that leave every field unset. -/
def emptyResources (count : Nat) : List WireField :=
  List.replicate count (RESOURCE_FIELD_NUMBER, .delimited [])

theorem length_emptyResources (count : Nat) :
    ((emptyResources count).flatMap writeField).length = 2 * count := by
  have hone : (writeField (RESOURCE_FIELD_NUMBER, .delimited [])).length = 2 := by decide +kernel
  simp [emptyResources, List.length_flatMap, hone, Nat.mul_comm]

theorem decode_emptyResources (signal : SignalType) (count : Nat) :
    decode descriptors.schema (.request signal) ((emptyResources count).flatMap writeField) =
      some (List.replicate count (RESOURCE_FIELD_NUMBER, .message [])) := by
  have hwell : ∀ field ∈ emptyResources count, field.WellFormed := by
    intro field hfield
    rw [List.eq_of_mem_replicate hfield]
    exact ⟨Nat.le_refl 1, by simp [RESOURCE_FIELD_NUMBER], by simp⟩
  have hempty : decode descriptors.schema (.resource signal) [] = some [] := rfl
  rw [decode_eq, parse_flatMap_writeField hwell, Option.bind_some]
  induction count with
  | zero => rfl
  | succ count ih =>
    have hrest := ih fun field hfield => hwell field (List.mem_cons_of_mem _ hfield)
    have hschema : descriptors.schema (.request signal) RESOURCE_FIELD_NUMBER =
        some (.message (.resource signal)) := rfl
    rw [emptyResources] at hrest ⊢
    rw [List.replicate_succ, List.replicate_succ, gather, hschema]
    simp only [readKind, hempty, hrest, Option.map_some, Option.bind_some]

/-- A call of that message. -/
def emptyCall (count : Nat) : Request :=
  ⟨.grpc, .logs, some ⟨"acme"⟩, true, (emptyResources count).flatMap writeField⟩

/-- No limit below tonic's own is in force, if a request is taken up. -/
theorem not_sizeLimited_of_small (hcodec : codec.RoundTrips descriptors)
    (hcap : config.maxRecvMsgSize = none) (hpermits : 0 < config.maxConcurrentRequests) {n : Nat}
    (hn : n + 2 ≤ defaultLimit .grpc) :
    ¬ SizeLimited descriptors prost codec config fun _ => n := by
  intro h
  have hlength : (emptyCall (n / 2 + 1)).body.length = 2 * (n / 2 + 1) := length_emptyResources _
  have hlimit : (emptyCall (n / 2 + 1)).body.length ≤ grpcLimit none := by
    rw [hlength]
    change _ ≤ defaultLimit .grpc
    omega
  have hdecode : decodeMessage descriptors prost (.request .logs) (emptyCall (n / 2 + 1)).body =
      .ok (List.replicate (n / 2 + 1) (RESOURCE_FIELD_NUMBER, .message [])) := by
    rw [decodeMessage, emptyCall, decode_emptyResources]
  have hbefore : beforeService descriptors prost config.maxRecvMsgSize
      (emptyCall (n / 2 + 1)) = none := by
    rw [hcap, beforeService]
    change (if grpcLimit none < (emptyCall (n / 2 + 1)).body.length then _
      else match decodeMessage descriptors prost (.request .logs) (emptyCall (n / 2 + 1)).body with
        | .ok _ => _
        | .error err => _) = _
    rw [if_neg (Nat.not_lt.mpr hlimit), hdecode]
  have hcalled : (call descriptors prost codec .logs none (fun _ => .ok ()) ⟨"acme"⟩
      (emptyCall (n / 2 + 1)).body).1 = .ok := by
    refine congrArg Prod.fst ((call_ok_iff hcodec hlimit).mpr
      ⟨_, decode_emptyResources .logs _, ⟨?_, rfl⟩, rfl, rfl⟩)
    simp [submessages, List.replicate_succ]
  have hanswer := perform_finish_arrived codec hpermits hbefore fun _ => .ok ()
  rw [hcap] at hanswer
  have hlong : n < (emptyCall (n / 2 + 1)).body.length := by
    rw [hlength]
    omega
  exact (h _ _ _ _ hanswer).1 hlong (.inr (congrArg Answer.called hcalled))

/-- Without a cap one size is the limit of both transports only if no request is taken up. -/
theorem sizeLimited_iff (hcodec : codec.RoundTrips descriptors)
    (hcap : config.maxRecvMsgSize = none) {n : Nat} :
    (SizeLimited descriptors prost codec config fun _ => n) ↔
      config.maxConcurrentRequests = 0 ∧ n ≤ defaultLimit .grpc := by
  refine ⟨fun hsize => ⟨?_, ?_⟩, fun h => sizeLimited_of_no_permits hcap h.1 h.2⟩
  · by_contra hne
    have hpermits : 0 < config.maxConcurrentRequests := UInt32.pos_iff_ne_zero.mpr hne
    -- Between the two defaults no size is large for both of them.
    by_cases hhttp : defaultLimit .httpProtobuf < n
    · exact not_sizeLimited_of_http hcap hpermits hhttp hsize
    · have hsmall : n + 2 ≤ defaultLimit .grpc := by
        simp only [defaultLimit] at hhttp ⊢
        omega
      exact not_sizeLimited_of_small hcodec hcap hpermits hsmall hsize
  · by_contra hlt
    exact not_sizeLimited_of_grpc hcap (Nat.lt_of_not_le hlt) hsize

end

end

/-- The gateway of a document enforces what the document sets exactly if its gRPC arm sets no
size, or sets that no request is taken up and a size that is not above tonic's own. -/
theorem enforces_iff {Inner : Type} {descriptors : Descriptors Inner} (prost : Prost Inner)
    {Resource : SignalType → Type} {codec : Codec Resource}
    (hcodec : codec.RoundTrips descriptors) {extract : String → Except String RawConfig}
    {disk : Disk} {toml : String} {raw : RawConfig} (hraw : extract toml = .ok raw)
    {config : Config} (hconfig : Config.fromTomlStr extract disk toml = .ok config) :
    Enforces descriptors prost codec raw.aperture.transport.grpc config ↔
      LimitKept raw.aperture.transport.grpc := by
  rw [Config.fromTomlStr, hraw] at hconfig
  obtain ⟨hconcurrent, hcap⟩ := RawConfig.intoConfig_limits hconfig
  have hzero : config.maxConcurrentRequests = 0 ↔
      raw.aperture.transport.grpc.maxConcurrentRequests = some 0 := by
    rw [hconcurrent]
    cases raw.aperture.transport.grpc.maxConcurrentRequests <;> simp
  constructor
  · intro h n hn hpos
    obtain ⟨hnone, hle⟩ := (sizeLimited_iff hcodec hcap).mp (h.size n hn hpos)
    exact ⟨hzero.mp hnone, hle⟩
  · intro h
    refine ⟨fun n hn hpos => ?_, fun _ => sizeLimited_default hcap, fun c hc => ?_, fun hnone => ?_⟩
    · obtain ⟨hset, hle⟩ := h n hn hpos
      exact (sizeLimited_iff hcodec hcap).mpr ⟨hzero.mpr hset, hle⟩
    · have hlimited : ConcurrencyLimited descriptors prost codec config
          config.maxConcurrentRequests.toNat := concurrencyLimited
      rwa [hconcurrent, hc] at hlimited
    · have hlimited : ConcurrencyLimited descriptors prost codec config
          config.maxConcurrentRequests.toNat := concurrencyLimited
      rwa [hconcurrent, hnone] at hlimited

/-- A document with one setting of the gRPC arm, as it is written. -/
def documentToml (setting : String) : String :=
  "[aperture.transport.grpc]\nbind_addr = \"127.0.0.1:4317\"\n" ++ setting ++ "\n" ++
    "[aperture.transport.http]\nbind_addr = \"127.0.0.1:4318\"\n" ++
    "[aperture.security.auth.jwt]\nissuer = \"acme\"\naudience = \"ingest\"\n" ++
    "secret_file = \"/etc/aperture/key\"\ncatalogue_path = \"/etc/aperture/tenants.toml\"\n"

/-- The values of such a document. -/
def document (maxRecvMsgSize maxConcurrentRequests : Option UInt32) : RawConfig where
  aperture :=
    { transport := ⟨⟨⟨"127.0.0.1", 4317⟩, maxRecvMsgSize, maxConcurrentRequests⟩,
        ⟨⟨"127.0.0.1", 4318⟩, none, none⟩⟩
      sink := ⟨none, ⟨none, none⟩⟩
      security := ⟨false, ⟨false, some ⟨some "acme", some "ingest", some "/etc/aperture/key",
        some "/etc/aperture/tenants.toml"⟩⟩⟩
      shutdown := ⟨none⟩ }

/-- What is extracted of two documents. -/
def documentExtract (toml : String) : Except String RawConfig :=
  if toml = documentToml "max_concurrent_requests = 2" then .ok (document none (some 2))
  else if toml = documentToml "max_recv_msg_size = 1" then .ok (document (some 1) none)
  else .error "unexpected document"

/-- A disk with the files of the document. -/
def documentDisk : Disk := ⟨fun _ => .ok (), fun _ => .ok ()⟩

/-- The configuration of such a document. -/
def documentConfig (maxConcurrentRequests : UInt32) : Config :=
  { ConfigBuilder.new.fields with
    grpcBindAddr := ⟨"127.0.0.1", 4317⟩
    httpBindAddr := ⟨"127.0.0.1", 4318⟩
    maxConcurrentRequests := maxConcurrentRequests
    jwtAuth := some ⟨"acme", "ingest", "/etc/aperture/key", "/etc/aperture/tenants.toml"⟩ }

theorem documentExtract_two_requests :
    documentExtract (documentToml "max_concurrent_requests = 2") =
      .ok (document none (some 2)) := if_pos rfl

theorem fromTomlStr_two_requests :
    Config.fromTomlStr documentExtract documentDisk
      (documentToml "max_concurrent_requests = 2") = .ok (documentConfig 2) := by
  rw [Config.fromTomlStr, documentExtract_two_requests]
  rfl

/-- Two requests at a time are enforced. -/
theorem two_requests_enforced :
    Enforces v1 plainProst (wireCodec v1) (document none (some 2)).aperture.transport.grpc
      (documentConfig 2) :=
  (enforces_iff plainProst (wireCodec_roundTrips v1) documentExtract_two_requests
    fromTomlStr_two_requests).mpr fun _ hn => by cases hn

theorem fromTomlStr_one_byte :
    Config.fromTomlStr documentExtract documentDisk (documentToml "max_recv_msg_size = 1") =
      .ok (documentConfig 1024) := by
  have hraw : documentExtract (documentToml "max_recv_msg_size = 1") =
      .ok (document (some 1) none) := by
    rw [documentExtract, if_neg (by decide), if_pos rfl]
  rw [Config.fromTomlStr, hraw]
  rfl

/-- A call of a log record that leaves every field unset, six bytes long. -/
def emptyLogCall : Request :=
  ⟨.grpc, .logs, some ⟨"acme"⟩, true, encode emptyLog.fields⟩

/-- With a size of one byte set, a call of six bytes is accepted. -/
theorem one_byte_not_enforced :
    Config.fromTomlStr documentExtract documentDisk (documentToml "max_recv_msg_size = 1") =
      .ok (documentConfig 1024) ∧
    ¬ Enforces v1 plainProst (wireCodec v1) (document (some 1) none).aperture.transport.grpc
      (documentConfig 1024) := by
  refine ⟨fromTomlStr_one_byte, fun h => ?_⟩
  have hbefore : beforeService v1 plainProst none emptyLogCall = none := by decide +kernel
  have hcalled : (call v1 plainProst (wireCodec v1) .logs none (fun _ => .ok ()) ⟨"acme"⟩
      emptyLogCall.body).1 = .ok := by decide +kernel
  have hpermits : 0 < (documentConfig 1024).maxConcurrentRequests := by decide
  have hanswer := perform_finish_arrived (wireCodec v1) hpermits hbefore fun _ => .ok ()
  exact (h.size 1 rfl (by decide) _ _ _ _ hanswer).1 (by decide +kernel)
    (.inr (congrArg Answer.called hcalled))

end Kaleidoscope.Aperture
